import BcmDhd.Lib.Machine
import BcmDhd.Lib.Slots
import BcmDhd.TcpAck.Suppress

namespace BcmDhd.TcpAck

open BcmDhd.Lib Function

variable {info : TcpackInfo}

/-- What happens to the module. -/
inductive Call
  | suppressSet (mode : UInt8) (allocated : Bool)
  | suppress (pkt : Nat) (frame : Frame)
  | hold (pkt : Nat) (frame : Frame) (ifidx : Nat)
  | send (i : Fin tcpackInfoMaxnum)
  | checkXmit (pkt pktlen : Nat)
  | tblClean

def callStep (order : TcpSeq) (dhd : Dhd) : Call → Dhd × Int
  | .suppressSet mode allocated => dhdTcpackSuppressSet dhd mode allocated
  | .suppress pkt frame =>
    let result := dhdTcpackSuppress order (dhd.arrive pkt frame) pkt frame
    (result.1, if result.2 then 1 else 0)
  | .hold pkt frame ifidx =>
    let result := dhdTcpackHold order (dhd.arrive pkt frame) pkt frame ifidx
    (result.1, if result.2 then 1 else 0)
  | .send i => (dhdTcpackSend dhd i, bcmeOk)
  | .checkXmit pkt pktlen => dhdTcpackCheckXmit dhd pkt pktlen
  | .tblClean => (dhdTcpackInfoTblClean dhd, bcmeOk)

def tcpack (order : TcpSeq) : Machine Dhd Call Int where
  step := callStep order
  admits _ _ := True

namespace TcpackSupModule

/-- How many entries hold a packet. -/
def held (mod : TcpackSupModule) : Nat :=
  slotCount tcpackInfoMaxnum mod.tcpackInfoTbl fun info => info.pktInQ.isSome

/-- The entries that hold a packet are the first `tcpack_info_cnt`. -/
def Compact (mod : TcpackSupModule) : Prop :=
  ∀ i < tcpackInfoMaxnum, (mod.tcpackInfoTbl i).pktInQ.isSome = true ↔ (i : Int) < mod.tcpackInfoCnt

instance (mod : TcpackSupModule) : Decidable mod.Compact :=
  inferInstanceAs (Decidable (∀ i < tcpackInfoMaxnum, _ ↔ _))

end TcpackSupModule

/-- The counter counts the entries, and in replace mode they are the first ones. -/
structure CountTrue (mode : SupMode) (mod : TcpackSupModule) : Prop where
  counted : mod.tcpackInfoCnt = mod.held
  low : 0 ≤ mod.tcpackInfoCnt
  high : mod.tcpackInfoCnt ≤ tcpackInfoMaxnum
  compact : mode = .replace → mod.Compact

/-- `CountTrue` of the module, if there is one. -/
def Dhd.CountTrue (dhd : Dhd) : Prop :=
  ∀ mod, dhd.tcpackSupModule = some mod → TcpAck.CountTrue dhd.tcpackSupMode mod

/-- The new ACK is the last one that is held back: the ratio has been reached. -/
def Releases (order : TcpSeq) (dhd : Dhd) (mod : TcpackSupModule) (new : Frame) : Prop :=
  dhd.tcpackSupMode = .hold ∧ dhd.tcpackSupRatio ≠ 1 ∧ new.LooksAck ∧
    match findHeld dhd.frames mod.tcpackInfoTbl new.flow (List.range tcpackInfoMaxnum) none with
    | .found i _ old => order.ge new.tcpAckNum old.tcpAckNum = true ∧
        dhd.tcpackSupRatio ≤ ((mod.tcpackInfoTbl i).suppCnt + 1).toNat
    | _ => False

/-- The calls that the counter stands. -/
def Keeps (order : TcpSeq) (dhd : Dhd) (mod : TcpackSupModule) : Call → Prop
  | .suppressSet mode _ => supModeOf mode = some .replace → dhd.tcpackSupMode = .hold → mod.Compact
  | .hold pkt frame _ => ¬ Releases order (dhd.arrive pkt frame) mod frame
  | .send i => dhd.tcpackSupMode = .replace → (mod.tcpackInfoTbl i).dhdp = true →
      (mod.tcpackInfoTbl i).pktInQ.isSome = true → (i : Int) + 1 = mod.tcpackInfoCnt
  | .tblClean => dhd.tcpackSupMode = .hold → mod.held = 0
  | _ => True

def Dhd.Keeps (order : TcpSeq) (dhd : Dhd) (call : Call) : Prop :=
  ∀ mod, dhd.tcpackSupModule = some mod → TcpAck.Keeps order dhd mod call

namespace CountTrue

variable {mode other : SupMode} {mod mod' : TcpackSupModule} {i : Nat}

theorem congr (sameCnt : mod'.tcpackInfoCnt = mod.tcpackInfoCnt)
    (same : ∀ i < tcpackInfoMaxnum,
      (mod'.tcpackInfoTbl i).pktInQ.isSome = (mod.tcpackInfoTbl i).pktInQ.isSome)
    (sound : CountTrue mode mod) : CountTrue mode mod' := by
  have sameHeld : mod'.held = mod.held := SlotCount.congr same
  refine ⟨by rw [sameCnt, sameHeld, sound.counted], by rw [sameCnt]; exact sound.low,
    by rw [sameCnt]; exact sound.high, fun replacing i inside => ?_⟩
  rw [same i inside, sameCnt]
  exact sound.compact replacing i inside

theorem ofMode (sound : CountTrue mode mod) (compact : other = .replace → mod.Compact) :
    CountTrue other mod :=
  ⟨sound.counted, sound.low, sound.high, compact⟩

theorem setInfo_held (inside : i < tcpackInfoMaxnum) (mod : TcpackSupModule) (info : TcpackInfo) :
    (mod.setInfo i info).held + (if (mod.tcpackInfoTbl i).pktInQ.isSome then 1 else 0) =
      mod.held + if info.pktInQ.isSome then 1 else 0 :=
  SlotCount.update inside mod.tcpackInfoTbl info fun info => info.pktInQ.isSome

theorem setInfo_leave (inside : i < tcpackInfoMaxnum)
    (occupied : (mod.tcpackInfoTbl i).pktInQ.isSome = true)
    (empty : info.pktInQ = none) : (mod.setInfo i info).held + 1 = mod.held := by
  have moved := setInfo_held inside mod info
  rwa [if_pos occupied, empty, Option.isSome_none, if_neg Bool.false_ne_true] at moved

theorem of_counted (counted : mod.tcpackInfoCnt = mod.held)
    (compact : mode = .replace → mod.Compact) : CountTrue mode mod := by
  have bound : mod.held ≤ tcpackInfoMaxnum := SlotCount.le_size
  exact ⟨counted, by omega, by omega, compact⟩

theorem zero (mode : SupMode) (tbl : Nat → TcpackInfo) (lost : Bool)
    (empty : ∀ i < tcpackInfoMaxnum, (tbl i).pktInQ = none) : CountTrue mode ⟨0, tbl, lost⟩ := by
  have none_ : (⟨0, tbl, lost⟩ : TcpackSupModule).held = 0 :=
    SlotCount.eq_zero_iff.mpr fun i inside => by rw [empty i inside]; rfl
  refine of_counted (by rw [none_]; rfl) fun _ i inside => ?_
  simp [empty i inside]

/-- An entry that loses its packet, and the counter one less. -/
theorem leave (sound : CountTrue mode mod) (inside : i < tcpackInfoMaxnum)
    (occupied : (mod.tcpackInfoTbl i).pktInQ.isSome = true) (empty : info.pktInQ = none) :
    CountTrue mode ((mod.setInfo i info).count (mod.tcpackInfoCnt - 1)) ↔
      (mode = .replace → (i : Int) + 1 = mod.tcpackInfoCnt) := by
  have moved := setInfo_leave inside occupied empty
  have counted := sound.counted
  constructor
  · intro after replacing
    -- the entry at the new end of the first ones must be the one that was emptied
    have before := sound.compact replacing
    have compact := after.compact replacing
    have here := (before i inside).mp occupied
    by_contra elsewhere
    have last : mod.tcpackInfoCnt.toNat - 1 < tcpackInfoMaxnum := by
      have high := sound.high
      unfold tcpackInfoMaxnum at *
      omega
    have still := (compact (mod.tcpackInfoCnt.toNat - 1) last).mp (by
      change (update mod.tcpackInfoTbl i info _).pktInQ.isSome = true
      rw [update_of_ne (by omega)]
      exact (before _ last).mpr (by omega))
    change _ < mod.tcpackInfoCnt - 1 at still
    omega
  · intro last
    refine of_counted ?_ fun replacing j below => ?_
    · change mod.tcpackInfoCnt - 1 = ((mod.setInfo i info).held : Int)
      omega
    · change (update mod.tcpackInfoTbl i info j).pktInQ.isSome = true ↔
        _ < mod.tcpackInfoCnt - 1
      have end_ := last replacing
      have before := sound.compact replacing j below
      by_cases same : j = i
      · subst same
        rw [update_self, empty]
        simp
        omega
      · rw [update_of_ne same, before]
        omega

/-- The entry behind the first ones gets a packet, and the counter one more. -/
theorem enter (sound : CountTrue mode mod) (inside : i < tcpackInfoMaxnum)
    (empty : (mod.tcpackInfoTbl i).pktInQ = none)
    (occupied : info.pktInQ.isSome = true) (next : mode = .replace → (i : Int) = mod.tcpackInfoCnt) :
    CountTrue mode ((mod.setInfo i info).count (mod.tcpackInfoCnt + 1)) := by
  have moved := setInfo_held inside mod info
  rw [if_pos occupied, empty, Option.isSome_none, if_neg Bool.false_ne_true] at moved
  have counted := sound.counted
  refine of_counted ?_ fun replacing j below => ?_
  · change mod.tcpackInfoCnt + 1 = ((mod.setInfo i info).held : Int)
    omega
  · change (update mod.tcpackInfoTbl i info j).pktInQ.isSome = true ↔
      _ < mod.tcpackInfoCnt + 1
    have end_ := next replacing
    have before := sound.compact replacing j below
    by_cases same : j = i
    · subst same
      rw [update_self]
      simp [occupied]
      omega
    · rw [update_of_ne same, before]
      omega

theorem exchange (sound : CountTrue mode mod)
    (same : info.pktInQ.isSome = (mod.tcpackInfoTbl i).pktInQ.isSome) :
    CountTrue mode (mod.setInfo i info) := by
  have kept : ∀ j < tcpackInfoMaxnum, ((mod.setInfo i info).tcpackInfoTbl j).pktInQ.isSome =
      (mod.tcpackInfoTbl j).pktInQ.isSome := by
    intro j _
    change (update mod.tcpackInfoTbl i info j).pktInQ.isSome = _
    by_cases here : j = i
    · subst here
      rw [update_self, same]
    · rw [update_of_ne here]
  have sameCnt : (mod.setInfo i info).tcpackInfoCnt = mod.tcpackInfoCnt := rfl
  exact congr sameCnt kept sound

/-- The entry of a transmitted packet is overwritten with the last one, and that
one is cleared. -/
theorem compactify (sound : CountTrue mode mod) (inside : (i : Int) < mod.tcpackInfoCnt)
    (occupied : (mod.tcpackInfoTbl i).pktInQ.isSome = true) {tblCnt : Nat}
    (counts : (tblCnt : Int) = mod.tcpackInfoCnt) :
    CountTrue mode (((if i < tblCnt - 1 then mod.setInfo i (mod.tcpackInfoTbl (tblCnt - 1)) else
      mod).setInfo (tblCnt - 1) .zero).count (mod.tcpackInfoCnt - 1)) := by
  have high := sound.high
  have small : tblCnt ≤ tcpackInfoMaxnum := by omega
  split
  · rename_i before
    have first := setInfo_held (i := i) (by omega) mod (mod.tcpackInfoTbl (tblCnt - 1))
    have second := setInfo_held (i := tblCnt - 1) (by omega)
      (mod.setInfo i (mod.tcpackInfoTbl (tblCnt - 1))) TcpackInfo.zero
    have kept : (mod.setInfo i (mod.tcpackInfoTbl (tblCnt - 1))).tcpackInfoTbl (tblCnt - 1) =
        mod.tcpackInfoTbl (tblCnt - 1) := update_of_ne (by omega) _ _
    rw [if_pos occupied] at first
    rw [kept, TcpackInfo.zero, Option.isSome_none, if_neg Bool.false_ne_true] at second
    have counted := sound.counted
    refine of_counted ?_ fun replacing j below => ?_
    · change mod.tcpackInfoCnt - 1 = (((mod.setInfo i _).setInfo (tblCnt - 1) _).held : Int)
      unfold TcpackInfo.zero
      omega
    · have compact := sound.compact replacing
      have final := (compact (tblCnt - 1) (by omega)).mpr (by omega)
      change (update (update mod.tcpackInfoTbl i _) (tblCnt - 1)
        TcpackInfo.zero j).pktInQ.isSome = true ↔ _ < mod.tcpackInfoCnt - 1
      by_cases last : j = tblCnt - 1
      · subst last
        rw [update_self]
        simp [TcpackInfo.zero]
        omega
      · rw [update_of_ne last]
        by_cases here : j = i
        · subst here
          rw [update_self]
          simp only [final, true_iff]
          omega
        · rw [update_of_ne here, compact j below]
          omega
  · rename_i atEnd
    have same : tblCnt - 1 = i := by omega
    rw [same]
    exact (sound.leave (by omega) occupied rfl).mpr fun _ => by omega

end CountTrue

section

variable {order : TcpSeq} {dhd : Dhd} {pkt : Nat} {frame : Frame}

theorem suppress_countTrue (sound : dhd.CountTrue) :
    (dhdTcpackSuppress order dhd pkt frame).1.CountTrue := by
  unfold dhdTcpackSuppress
  split
  · exact sound
  split
  · exact sound
  split
  · exact sound
  rename_i mod present
  have before := sound mod present
  dsimp only
  split
  · split
    · split
      · exact sound
      · exact sound
    · exact sound
  · exact sound
  · rename_i ended
    have full := findQueued_ended ended
    split
    · rename_i room
      intro mod' same
      cases Option.some.inj same
      -- the search has passed over as many packets as are counted, so the next entry is empty
      have low := before.low
      have empty : (mod.tcpackInfoTbl mod.tcpackInfoCnt.toNat).pktInQ = none := by
        by_contra occupied
        have prefix' : ∀ j < mod.tcpackInfoCnt.toNat + 1,
            (mod.tcpackInfoTbl j).pktInQ.isSome = true := by
          intro j below
          by_cases last : j = mod.tcpackInfoCnt.toNat
          · rw [last]
            exact Option.isSome_iff_ne_none.mpr occupied
          · obtain ⟨_, _, queued, _⟩ := full j (List.mem_range.mpr (by omega))
            rw [queued]
            rfl
        have many : mod.tcpackInfoCnt.toNat + 1 ≤ mod.held := SlotCount.ge_prefix (by omega) prefix'
        have counted := before.counted
        omega
      exact before.enter room empty rfl fun _ => by omega
    · exact sound

theorem send_countTrue {i : Fin tcpackInfoMaxnum} (sound : dhd.CountTrue) :
    (dhdTcpackSend dhd i).CountTrue ↔ dhd.Keeps order (.send i) := by
  have inside := i.isLt
  unfold dhdTcpackSend
  split
  · rename_i absent
    refine ⟨fun _ mod present => ?_, fun _ => sound⟩
    rw [absent] at present
    cases present
  rename_i mod present
  have before := sound mod present
  have only : dhd.Keeps order (.send i) ↔ Keeps order dhd mod (.send i) := by
    constructor
    · intro kept
      exact kept mod present
    · intro kept mod' same
      cases Option.some.inj (present.symm.trans same)
      exact kept
  rw [only]
  have idle : CountTrue dhd.tcpackSupMode
      (mod.setInfo i { mod.tcpackInfoTbl i with timer := false }) := before.exchange rfl
  dsimp only
  split
  · rename_i strange
    refine ⟨fun _ _ known => ?_, fun _ mod' same => ?_⟩
    · rw [strange] at known
      cases known
    · cases Option.some.inj same
      exact idle
  · rename_i known
    have driver : (mod.tcpackInfoTbl i).dhdp = true := by simpa using known
    split
    · rename_i empty
      refine ⟨fun _ _ _ occupied => ?_, fun _ mod' same => ?_⟩
      · rw [empty] at occupied
        cases occupied
      · cases Option.some.inj same
        exact idle
    · rename_i held queued
      have occupied : (mod.tcpackInfoTbl i).pktInQ.isSome = true := by rw [queued]; rfl
      have empty : { mod.tcpackInfoTbl i with timer := false }.release.pktInQ = none := rfl
      have after := before.leave inside occupied empty
      constructor
      · intro true_ replacing _ _
        exact after.mp (true_ _ rfl) replacing
      · intro kept mod' same
        cases Option.some.inj same
        exact after.mpr fun replacing => kept replacing driver occupied

theorem checkXmit_countTrue {pktlen : Nat} (sound : dhd.CountTrue) :
    (dhdTcpackCheckXmit dhd pkt pktlen).1.CountTrue := by
  unfold dhdTcpackCheckXmit
  split
  · exact sound
  split
  · exact sound
  split
  · exact sound
  rename_i mod present
  have before := sound mod present
  dsimp only
  split
  · exact sound
  · rename_i i found
    intro mod' same
    cases Option.some.inj same
    have below := List.mem_range.mp (List.mem_of_find?_eq_some found)
    have queued := List.find?_some found
    have occupied : (mod.tcpackInfoTbl i).pktInQ.isSome = true := by
      rw [beq_iff_eq.mp queued]
      rfl
    have low := before.low
    have counts : (mod.tcpackInfoCnt.toNat : Int) = mod.tcpackInfoCnt := by omega
    have moved := before.compactify (by omega) occupied counts
    exact ⟨moved.counted, moved.low, moved.high, moved.compact⟩

theorem hold_countTrue {ifidx : Nat} (sound : dhd.CountTrue) :
    (dhdTcpackHold order dhd pkt frame ifidx).1.CountTrue ↔
      ∀ mod, dhd.tcpackSupModule = some mod → ¬ Releases order dhd mod frame := by
  unfold dhdTcpackHold
  split
  · rename_i otherMode
    exact ⟨fun _ _ _ releases => otherMode releases.1, fun _ => sound⟩
  split
  · rename_i every
    exact ⟨fun _ _ _ releases => releases.2.1 every, fun _ => sound⟩
  split
  · rename_i other
    exact ⟨fun _ _ _ releases => other releases.2.2.1, fun _ => sound⟩
  rename_i holding several looks
  split
  · rename_i absent
    refine ⟨fun _ mod present => ?_, fun _ => sound⟩
    rw [absent] at present
    cases present
  rename_i mod present
  have before := sound mod present
  have only : (∀ mod, dhd.tcpackSupModule = some mod → ¬ Releases order dhd mod frame) ↔
      ¬ Releases order dhd mod frame := by
    constructor
    · intro all
      exact all mod present
    · intro here mod' same
      cases Option.some.inj (present.symm.trans same)
      exact here
  rw [only]
  unfold Releases
  split
  · rename_i broken
    rw [broken]
    exact ⟨fun _ releases => releases.2.2.2, fun _ => sound⟩
  · rename_i i oldpkt old found
    rw [found]
    obtain ⟨member, queued, _, _⟩ := findHeld_found found
    have inside := List.mem_range.mp member
    have occupied : (mod.tcpackInfoTbl i).pktInQ.isSome = true := by rw [queued]; rfl
    dsimp only
    split
    · rename_i newer
      split
      · rename_i reached
        -- the entry is emptied and the counter stays
        constructor
        · intro true_
          have after : mod.tcpackInfoCnt = ((mod.setInfo i
              { (mod.tcpackInfoTbl i).release with timer := false }).held : Int) :=
            (true_ _ rfl).counted
          have counted := before.counted
          have empty : { (mod.tcpackInfoTbl i).release with timer := false }.pktInQ = none := rfl
          have moved := CountTrue.setInfo_leave inside occupied empty
          omega
        · intro still
          exact absurd ⟨by simpa using holding, several, by simpa using looks, newer, reached⟩ still
      · rename_i short
        refine ⟨fun _ releases => short releases.2.2.2.2, fun _ mod' same => ?_⟩
        cases Option.some.inj same
        exact before.exchange (by rw [occupied]; rfl)
    · rename_i older
      exact ⟨fun _ releases => older releases.2.2.2.1, fun _ => sound⟩
  · rename_i freeSlot ended
    rw [ended]
    refine ⟨fun _ releases => releases.2.2.2, fun _ mod' same => ?_⟩
    cases Option.some.inj same
    rcases findHeld_free ended with noted | ⟨member, empty⟩
    · cases noted
    · have holding' : dhd.tcpackSupMode = .hold := by simpa using holding
      refine before.enter (List.mem_range.mp member) empty rfl fun replacing => ?_
      rw [show dhd.tcpackSupMode = .replace from replacing] at holding'
      cases holding'
  · rename_i ended
    rw [ended]
    exact ⟨fun _ releases => releases.2.2.2, fun _ => sound⟩

theorem tblClean_countTrue (sound : dhd.CountTrue) :
    (dhdTcpackInfoTblClean dhd).CountTrue ↔ dhd.Keeps order .tblClean := by
  unfold dhdTcpackInfoTblClean
  split
  · rename_i off
    refine ⟨fun _ _ _ holding => ?_, fun _ => sound⟩
    rw [off] at holding
    cases holding
  split
  · rename_i absent
    refine ⟨fun _ mod present => ?_, fun _ => sound⟩
    rw [absent] at present
    cases present
  rename_i mod present
  have before := sound mod present
  split
  · rename_i holding
    have cleared : ∀ i < tcpackInfoMaxnum, ((delTimers (freeHeld dhd mod
        (List.range tcpackInfoMaxnum)).2).tcpackInfoTbl i).pktInQ = none := by
      intro i inside
      rw [delTimers_pktInQ]
      exact freeHeld_cleared dhd mod _ (List.mem_range.mpr inside)
    have cnt : (delTimers (freeHeld dhd mod (List.range tcpackInfoMaxnum)).2).tcpackInfoCnt =
        mod.tcpackInfoCnt := freeHeld_cnt dhd mod _
    have none_ : (delTimers (freeHeld dhd mod (List.range tcpackInfoMaxnum)).2).held = 0 :=
      SlotCount.eq_zero_iff.mpr fun i inside => by rw [cleared i inside]; rfl
    have counted := before.counted
    constructor
    · intro true_ mod' same _
      cases Option.some.inj (present.symm.trans same)
      have after := (true_ _ rfl).counted
      rw [cnt, none_] at after
      omega
    · intro kept mod' same
      cases Option.some.inj same
      have empty := kept mod present holding
      refine CountTrue.of_counted (by rw [cnt, none_]; omega) fun replacing => ?_
      have mode := freeHeld_mode dhd mod (List.range tcpackInfoMaxnum)
      rw [holding] at mode
      rw [show (freeHeld dhd mod (List.range tcpackInfoMaxnum)).1.tcpackSupMode = .replace
        from replacing] at mode
      cases mode
  · rename_i otherMode
    refine ⟨fun _ _ _ holding => absurd holding otherMode, fun _ mod' same => ?_⟩
    cases Option.some.inj same
    refine CountTrue.zero _ _ _ fun i inside => ?_
    rw [if_pos inside]
    rfl

/-- A module only stands in the two modes that can be asked for. -/
def Dhd.Running (dhd : Dhd) : Prop :=
  ∀ mod, dhd.tcpackSupModule = some mod →
    dhd.tcpackSupMode = .replace ∨ dhd.tcpackSupMode = .hold

theorem suppressSet_countTrue {mode : UInt8} {allocated : Bool} (sound : dhd.CountTrue)
    (running : dhd.Running) : (dhdTcpackSuppressSet dhd mode allocated).1.CountTrue ↔
      dhd.Keeps order (.suppressSet mode allocated) := by
  unfold dhdTcpackSuppressSet
  split
  · rename_i same
    refine ⟨fun _ _ _ asked holding => ?_, fun _ => sound⟩
    rw [same, holding] at asked
    cases asked
  split
  · rename_i unknown
    refine ⟨fun _ _ _ asked => ?_, fun _ => sound⟩
    rw [unknown] at asked
    cases asked
  · rename_i delayed
    refine ⟨fun _ _ _ asked => ?_, fun _ => sound⟩
    rw [delayed] at asked
    cases asked
  · rename_i off
    refine ⟨fun _ _ _ asked => ?_, fun _ mod same => ?_⟩
    · rw [off] at asked
      cases asked
    · cases same
  rename_i _ mode' notDelayed notOff asked
  dsimp only
  split
  · rename_i refused
    refine ⟨fun _ mod present => ?_, fun _ mod present => ?_⟩
    all_goals
      rw [show dhd.tcpackSupModule = some mod from present] at refused
      cases refused
  -- the table is the old one, or a new one of empty entries
  have table : dhd.tcpackSupModule = none ∨ ∃ mod, dhd.tcpackSupModule = some mod := by
    cases dhd.tcpackSupModule with
    | none => exact Or.inl rfl
    | some mod => exact Or.inr ⟨mod, rfl⟩
  rcases table with absent | ⟨mod, present⟩
  · have any : dhd.Keeps order (.suppressSet mode allocated) := by
      intro mod present
      rw [absent] at present
      cases present
    refine ⟨fun _ => any, fun _ => ?_⟩
    rw [absent, Option.getD_none]
    split
    · intro mod same
      cases Option.some.inj same
      exact CountTrue.zero _ _ _ fun i _ => initTimers_pktInQ _ i
    · intro mod same
      cases Option.some.inj same
      exact CountTrue.zero _ _ _ fun i _ => rfl
  · have before := sound mod present
    rw [present, Option.getD_some]
    split
    · rename_i holding
      refine ⟨fun _ _ _ replacing => ?_, fun _ mod' same => ?_⟩
      · rw [asked, holding] at replacing
        cases replacing
      · cases Option.some.inj same
        have moved : CountTrue mode' mod :=
          before.ofMode fun replacing => by rw [holding] at replacing; cases replacing
        have sameCnt : (initTimers mod).tcpackInfoCnt = mod.tcpackInfoCnt := rfl
        exact CountTrue.congr sameCnt (fun i _ => by rw [initTimers_pktInQ]) moved
    · rename_i notHold
      have replacing : mode' = .replace := by
        cases mode' with
        | replace => rfl
        | off => exact absurd rfl notOff
        | delaytx => exact absurd rfl notDelayed
        | hold => exact absurd rfl notHold
      subst replacing
      constructor
      · intro true_ mod' same _ _
        cases Option.some.inj (present.symm.trans same)
        exact (true_ mod rfl).compact rfl
      · intro kept mod' same
        cases Option.some.inj same
        refine before.ofMode fun _ => ?_
        -- the suppression was on and not in this mode, so it was holding
        rcases running mod present with held | held
        · exact before.compact held
        · exact kept mod present asked held

theorem callStep_countTrue {call : Call} (sound : dhd.CountTrue) (running : dhd.Running) :
    (callStep order dhd call).1.CountTrue ↔ dhd.Keeps order call := by
  cases call with
  | suppressSet mode allocated => exact suppressSet_countTrue sound running
  | suppress pkt frame =>
    have arrived : (dhd.arrive pkt frame).CountTrue := sound
    exact ⟨fun _ _ _ => trivial, fun _ => suppress_countTrue arrived⟩
  | hold pkt frame ifidx =>
    have arrived : (dhd.arrive pkt frame).CountTrue := sound
    exact hold_countTrue arrived
  | send i => exact send_countTrue sound
  | checkXmit pkt pktlen => exact ⟨fun _ _ _ => trivial, fun _ => checkXmit_countTrue sound⟩
  | tblClean => exact tblClean_countTrue sound

theorem Dhd.Running.of {dhd' : Dhd} (running : dhd.Running)
    (sameMode : dhd'.tcpackSupMode = dhd.tcpackSupMode)
    (stood : ∀ mod', dhd'.tcpackSupModule = some mod' → ∃ mod, dhd.tcpackSupModule = some mod) :
    dhd'.Running := by
  intro mod' present
  obtain ⟨mod, before⟩ := stood mod' present
  rw [sameMode]
  exact running mod before

theorem suppressSet_running {mode : UInt8} {allocated : Bool} (running : dhd.Running) :
    (dhdTcpackSuppressSet dhd mode allocated).1.Running := by
  unfold dhdTcpackSuppressSet
  split
  · exact running
  split
  · exact running
  · exact running
  · intro mod present
    cases present
  · rename_i _ mode' notDelayed notOff asked
    have either : mode' = .replace ∨ mode' = .hold := by
      cases mode' with
      | replace => exact Or.inl rfl
      | hold => exact Or.inr rfl
      | off => exact absurd rfl notOff
      | delaytx => exact absurd rfl notDelayed
    dsimp only
    split
    · rename_i refused
      intro mod present
      rw [show dhd.tcpackSupModule = some mod from present] at refused
      cases refused
    · split
      · exact fun _ _ => either
      · exact fun _ _ => either

theorem callStep_running {call : Call} (running : dhd.Running) :
    (callStep order dhd call).1.Running := by
  cases call with
  | suppressSet mode allocated => exact suppressSet_running running
  | suppress pkt frame =>
    change (dhdTcpackSuppress order (dhd.arrive pkt frame) pkt frame).1.Running
    unfold dhdTcpackSuppress
    split
    · exact running
    split
    · exact running
    split
    · exact running
    rename_i mod present
    dsimp only
    repeat' split
    all_goals first
      | exact running
      | exact running.of rfl fun _ _ => ⟨mod, present⟩
  | hold pkt frame ifidx =>
    change (dhdTcpackHold order (dhd.arrive pkt frame) pkt frame ifidx).1.Running
    unfold dhdTcpackHold
    split
    · exact running
    split
    · exact running
    split
    · exact running
    split
    · exact running
    rename_i mod present
    split
    · exact running
    · dsimp only
      repeat' split
      all_goals first
        | exact running
        | exact running.of rfl fun _ _ => ⟨mod, present⟩
    · exact running.of rfl fun _ _ => ⟨mod, present⟩
    · exact running
  | send i =>
    change (dhdTcpackSend dhd i).Running
    unfold dhdTcpackSend
    split
    · exact running
    rename_i mod present
    dsimp only
    repeat' split
    all_goals exact running.of rfl fun _ _ => ⟨mod, present⟩
  | checkXmit pkt pktlen =>
    change (dhdTcpackCheckXmit dhd pkt pktlen).1.Running
    unfold dhdTcpackCheckXmit
    split
    · exact running
    split
    · exact running
    split
    · exact running
    rename_i mod present
    dsimp only
    split
    · exact running
    · exact running.of rfl fun _ _ => ⟨mod, present⟩
  | tblClean =>
    change (dhdTcpackInfoTblClean dhd).Running
    unfold dhdTcpackInfoTblClean
    split
    · exact running
    split
    · exact running
    rename_i mod present
    split
    · exact running.of (freeHeld_mode dhd mod _) fun _ _ => ⟨mod, present⟩
    · exact running.of rfl fun _ _ => ⟨mod, present⟩

/-- All along a run the counter is true exactly if the run never releases a held
packet by the ratio, never clears a table that holds packets, and enters and
uses replace mode over a compact table only. -/
theorem tcpack_info_cnt_true (calls : List Call) :
    (∀ past rest, calls = past ++ rest → ((tcpack order).run dhdStart past).CountTrue) ↔
      ∀ past call rest, calls = past ++ call :: rest →
        ((tcpack order).run dhdStart past).Keeps order call := by
  refine (tcpack order).always_iff (fun dhd call running _ => callStep_running running)
    (fun dhd call running sound _ => callStep_countTrue sound running) ?_ ?_
    ((tcpack order).admitted_of_forall fun _ _ => trivial)
  · exact fun _ present => absurd present (by simp [dhdStart])
  · exact fun _ present => absurd present (by simp [dhdStart])

end

/-- Three ACKs of one flow in hold mode: the third releases what is held. -/
def releasedCalls : List Call :=
  [.suppressSet 3 true, .hold 1 (.sample 0 1 10) 0, .hold 2 (.sample 0 1 20) 0,
    .hold 3 (.sample 0 1 30) 0]

/-- The table is empty then and the counter is still one. -/
theorem tcpack_info_cnt_untrue :
    ¬ ∀ calls : List Call, ((tcpack tcpSeq).run dhdStart calls).CountTrue := by
  intro all
  have reached : ((tcpack tcpSeq).run dhdStart releasedCalls).tcpackSupModule.map
      (fun mod => (mod.tcpackInfoCnt, mod.held)) = some (1, 0) := by decide +kernel
  obtain ⟨mod, present, values⟩ := Option.map_eq_some_iff.mp reached
  have counted := (all releasedCalls mod present).counted
  obtain ⟨cnt, empty⟩ := Prod.mk.inj values
  rw [cnt, empty] at counted
  exact absurd counted (by decide)

/-- Switching off frees, once each, the packets of the table that are its to free, and no timer in
the memory that is freed after the clean-up is in the kernel's queue. -/
structure OffReleases (owned : Nat → Prop) (dhd : Dhd) : Prop where
  freed : ∀ i < tcpackInfoMaxnum, ∀ pkt, (dhd.tbl i).pktInQ = some pkt → owned pkt →
    (dhdTcpackSuppressSet dhd 0 true).1.effects.count (.freed pkt) = dhd.effects.count (.freed pkt) + 1
  stopped : ∀ i < tcpackInfoMaxnum,
    ((dhdTcpackInfoTblClean { dhd with tcpackSupMode := .off }).tbl i).timer = false
  dequeued : (dhdTcpackInfoTblClean { dhd with tcpackSupMode := .off }).timerLost = false

theorem suppressSet_off_effects (dhd : Dhd) (allocated : Bool) :
    (dhdTcpackSuppressSet dhd 0 allocated).1.effects = dhd.effects := by
  have off : supModeOf 0 = some .off := rfl
  unfold dhdTcpackSuppressSet
  rw [off]
  split
  · rfl
  · rfl

/-- Whatever the mode, switching off does all of its work exactly when there is none. -/
theorem off_releases_iff (order : TcpSeq) (owned : Nat → Prop) (calls : List Call) :
    OffReleases owned ((tcpack order).run dhdStart calls) ↔
      (∀ i < tcpackInfoMaxnum, ∀ pkt,
        (((tcpack order).run dhdStart calls).tbl i).pktInQ = some pkt → ¬ owned pkt) ∧
      (∀ i < tcpackInfoMaxnum, (((tcpack order).run dhdStart calls).tbl i).timer = false) ∧
      ((tcpack order).run dhdStart calls).timerLost = false := by
  generalize (tcpack order).run dhdStart calls = dhd
  constructor
  · intro releases
    refine ⟨fun i inside pkt here mine => ?_, releases.stopped, releases.dequeued⟩
    have once := releases.freed i inside pkt here mine
    rw [suppressSet_off_effects] at once
    omega
  · intro ⟨none_, quiet, intact⟩
    exact ⟨fun i inside pkt here mine => absurd mine (none_ i inside pkt here), quiet, intact⟩

/-- An ACK is held, with its timer running, when the suppression is switched off. -/
def switchedOffCalls : List Call := [.suppressSet 3 true, .hold 1 (.sample 0 1 10) 0]

/-- The table is cleared in replace mode while the held ACK's timer is pending. -/
def clearedCalls : List Call := switchedOffCalls ++ [.suppressSet 1 true, .tblClean]

theorem off_releases_nothing :
    let dhd := (tcpack tcpSeq).run dhdStart switchedOffCalls
    (dhd.tbl 0).pktInQ = some 1 ∧ ¬ OffReleases (fun _ => True) dhd ∧
      (dhdTcpackSuppressSet dhd 0 true).1.effects = [] ∧
      ((dhdTcpackInfoTblClean { dhd with tcpackSupMode := .off }).tbl 0).timer = true ∧
      ¬ OffReleases (fun _ => True) ((tcpack tcpSeq).run dhdStart clearedCalls) := by
  have armed : ((dhdTcpackInfoTblClean { (tcpack tcpSeq).run dhdStart switchedOffCalls with
      tcpackSupMode := .off }).tbl 0).timer = true := by decide +kernel
  have lost : (dhdTcpackInfoTblClean { (tcpack tcpSeq).run dhdStart clearedCalls with
      tcpackSupMode := .off }).timerLost = true := by decide +kernel
  refine ⟨by decide +kernel, fun releases => ?_, by decide +kernel, armed, fun releases => ?_⟩
  · have stopped := releases.stopped 0 (by decide)
    rw [armed] at stopped
    cases stopped
  · have dequeued := releases.dequeued
    rw [lost] at dequeued
    cases dequeued

end BcmDhd.TcpAck
