import BcmDhd.Lib.Machine
import BcmDhd.Lib.Slots
import BcmDhd.TcpAck.Suppress

namespace BcmDhd.TcpAck

open BcmDhd.Lib Function

inductive HoldCall
  | hold (pkt : Nat) (frame : Frame) (ifidx : Nat)
  | expire (i : Fin tcpackInfoMaxnum)

variable {call : HoldCall}

def holdStep (order : TcpSeq) (dhd : Dhd) : HoldCall → Dhd × Bool
  | .hold pkt frame ifidx => dhdTcpackHold order (dhd.arrive pkt frame) pkt frame ifidx
  | .expire i => (dhdTcpackSend dhd i, false)

def Effect.pkt : Effect → Nat
  | .freed pkt => pkt
  | .sent _ pkt => pkt

/-- A packet that has not been handed over yet. -/
def Dhd.Fresh (dhd : Dhd) (pkt : Nat) : Prop :=
  dhd.frames pkt = none ∧ ∀ effect ∈ dhd.effects, effect.pkt ≠ pkt

instance (dhd : Dhd) (pkt : Nat) : Decidable (dhd.Fresh pkt) :=
  decidable_of_iff ((dhd.frames pkt).isNone = true ∧ ∀ effect ∈ dhd.effects, effect.pkt ≠ pkt)
    (and_congr_left' Option.isNone_iff_eq_none)

/-- Every packet is handed over once. -/
def HoldAdmits (dhd : Dhd) : HoldCall → Prop
  | .hold pkt _ _ => dhd.Fresh pkt
  | .expire _ => True

instance (dhd : Dhd) (call : HoldCall) : Decidable (HoldAdmits dhd call) :=
  match call with
  | .hold pkt _ _ => inferInstanceAs (Decidable (dhd.Fresh pkt))
  | .expire _ => .isTrue trivial

def holding (order : TcpSeq) : Machine Dhd HoldCall Bool where
  step := holdStep order
  admits := HoldAdmits

instance (order : TcpSeq) (dhd : Dhd) (call : HoldCall) : Decidable ((holding order).admits dhd call) :=
  inferInstanceAs (Decidable (HoldAdmits dhd call))

/-- The module as hold mode finds it, with any ratio of held to sent ACKs. -/
def holdStart (ratio : Nat) : Dhd :=
  { (dhdTcpackSuppressSet dhdStart 3 true).1 with tcpackSupRatio := ratio }

namespace Dhd

/-- In how many entries the packet is. -/
def stored (dhd : Dhd) (pkt : Nat) : Nat :=
  slotCount tcpackInfoMaxnum dhd.tbl fun info => info.pktInQ == some pkt

/-- How often the packet has left the table or has been freed on its way to it. -/
def left (dhd : Dhd) (pkt : Nat) : Nat := dhd.effects.countP fun effect => effect.pkt == pkt

/-- Entry `i` holds `pkt` with `frame` in its buffer. -/
def Holds (dhd : Dhd) (i pkt : Nat) (frame : Frame) : Prop :=
  i < tcpackInfoMaxnum ∧ (dhd.tbl i).pktInQ = some pkt ∧ dhd.frames pkt = some frame

end Dhd

/-- A held packet of the same flow has a newer ACK than `frame`. -/
def Outdated (dhd : Dhd) (frame : Frame) : Prop :=
  ∃ i pkt old, dhd.Holds i pkt old ∧ old.flow = frame.flow ∧
    0 < ahead old.tcpAckNum frame.tcpAckNum ∧ ahead old.tcpAckNum frame.tcpAckNum ≤ 2 ^ 31

/-- `frame` belongs to the flow of the packet and acknowledges as much or more. -/
def Supersedes (dhd : Dhd) (frame : Frame) (pkt : Nat) : Prop :=
  ∃ old, dhd.frames pkt = some old ∧ old.flow = frame.flow ∧
    ahead frame.tcpAckNum old.tcpAckNum ≤ 2 ^ 31

/-- What becomes of the packets in one step. -/
def Accounts (before : Dhd) : HoldCall → Dhd × Bool → Prop
  | .hold pkt frame _, (after, answer) =>
    (answer = true → (after.stored pkt = 1 ∧ after.effects.count (.freed pkt) = 0) ∨
      (after.stored pkt = 0 ∧ after.effects = before.effects ++ [.freed pkt] ∧
        Outdated after frame)) ∧
    (answer = false → after.stored pkt = 0 ∧ after.effects.count (.freed pkt) = 0) ∧
    ∀ i < tcpackInfoMaxnum, ∀ held, (before.tbl i).pktInQ = some held →
      (after.tbl i).pktInQ = some held ∨
        after.stored held = 0 ∧ after.effects = before.effects ++ [.freed held] ∧
          Supersedes before frame held
  | .expire i, (after, _) =>
    ∀ j < tcpackInfoMaxnum, ∀ held, (before.tbl j).pktInQ = some held →
      if j = i then after.stored held = 0 ∧
        after.effects = before.effects ++ [.sent (before.tbl j).ifidx held]
      else (after.tbl j).pktInQ = some held

/-- A packet that was handed over is in the table or has left it, once, if it was
taken; else it is neither. -/
def Settled (dhd : Dhd) (history : List (HoldCall × Bool)) : Prop :=
  ∀ pkt frame ifidx answer, (HoldCall.hold pkt frame ifidx, answer) ∈ history →
    dhd.stored pkt + dhd.left pkt = if answer then 1 else 0

/-- Every step of the run accounts for the packets, and so does every state, in
which a timer runs for each that is held. -/
structure Accounted (order : TcpSeq) (start : Dhd) (calls : List HoldCall) : Prop where
  steps : ∀ past call rest, calls = past ++ call :: rest →
    Accounts ((holding order).run start past) call
      ((holding order).step ((holding order).run start past) call)
  states : ∀ past rest, calls = past ++ rest →
    Settled ((holding order).run start past) ((holding order).history start past)
  timers : ∀ past rest, calls = past ++ rest → ∀ i < tcpackInfoMaxnum, ∀ pkt,
    (((holding order).run start past).tbl i).pktInQ = some pkt →
      (((holding order).run start past).tbl i).timer = true

/-- An ACK that the table is to take finds its flow or an empty entry there. -/
def Roomy (dhd : Dhd) : HoldCall → Prop
  | .hold _ frame _ => frame.LooksAck → dhd.tcpackSupRatio ≠ 1 →
    (∃ i < tcpackInfoMaxnum, (dhd.tbl i).pktInQ = none) ∨
      ∃ i pkt old, dhd.Holds i pkt old ∧ old.flow = frame.flow
  | .expire _ => True

/-- What holds of the table in hold mode. -/
structure Holding (dhd : Dhd) : Prop where
  mode : dhd.tcpackSupMode = .hold
  module' : dhd.tcpackSupModule.isSome = true
  driver : ∀ i < tcpackInfoMaxnum, (dhd.tbl i).dhdp = true
  live : ∀ i < tcpackInfoMaxnum, ∀ pkt, (dhd.tbl i).pktInQ = some pkt →
    ∃ frame, dhd.frames pkt = some frame
  apart : ∀ i < tcpackInfoMaxnum, ∀ j < tcpackInfoMaxnum, ∀ pkt,
    (dhd.tbl i).pktInQ = some pkt → (dhd.tbl j).pktInQ = some pkt → i = j
  timed : ∀ i < tcpackInfoMaxnum, ∀ pkt, (dhd.tbl i).pktInQ = some pkt → (dhd.tbl i).timer = true

/-- Everything that `dhd_tcpack_hold` does in hold mode. -/
inductive HoldCase (order : TcpSeq) (dhd : Dhd) (mod : TcpackSupModule) (pkt : Nat) (new : Frame)
    (ifidx : Nat) : Dhd × Bool → Prop
  | passed (other : ¬ new.LooksAck ∨ dhd.tcpackSupRatio = 1) :
    HoldCase order dhd mod pkt new ifidx (dhd, false)
  | broken (i : Nat) (inside : i < tcpackInfoMaxnum) (oldpkt : Nat)
    (queued : (mod.tcpackInfoTbl i).pktInQ = some oldpkt) (gone : dhd.frames oldpkt = none) :
    HoldCase order dhd mod pkt new ifidx (dhd, false)
  | released (i oldpkt : Nat) (old : Frame) (inside : i < tcpackInfoMaxnum)
    (queued : (mod.tcpackInfoTbl i).pktInQ = some oldpkt) (buffer : dhd.frames oldpkt = some old)
    (flow : old.flow = new.flow) (newer : order.ge new.tcpAckNum old.tcpAckNum = true) :
    HoldCase order dhd mod pkt new ifidx
      ((dhd.withModule (mod.setInfo i
        { (mod.tcpackInfoTbl i).release with timer := false })).pktfree oldpkt, false)
  | replaced (i oldpkt : Nat) (old : Frame) (inside : i < tcpackInfoMaxnum)
    (queued : (mod.tcpackInfoTbl i).pktInQ = some oldpkt) (buffer : dhd.frames oldpkt = some old)
    (flow : old.flow = new.flow) (newer : order.ge new.tcpAckNum old.tcpAckNum = true) :
    HoldCase order dhd mod pkt new ifidx
      ((dhd.withModule (mod.setInfo i { mod.tcpackInfoTbl i with
        pktInQ := some pkt, ifidx := ifidx,
        suppCnt := (mod.tcpackInfoTbl i).suppCnt + 1 })).pktfree oldpkt, true)
  | outdated (i oldpkt : Nat) (old : Frame) (inside : i < tcpackInfoMaxnum)
    (queued : (mod.tcpackInfoTbl i).pktInQ = some oldpkt) (buffer : dhd.frames oldpkt = some old)
    (flow : old.flow = new.flow) (older : ¬ order.ge new.tcpAckNum old.tcpAckNum = true) :
    HoldCase order dhd mod pkt new ifidx (dhd.pktfree pkt, true)
  | stored (i : Nat) (inside : i < tcpackInfoMaxnum)
    (empty : (mod.tcpackInfoTbl i).pktInQ = none) :
    HoldCase order dhd mod pkt new ifidx
      (dhd.withModule ((mod.setInfo i { mod.tcpackInfoTbl i with
        pktInQ := some pkt, ifidx := ifidx, suppCnt := 1, timer := true }).count
          (mod.tcpackInfoCnt + 1)), true)
  | lost (looks : new.LooksAck) (several : dhd.tcpackSupRatio ≠ 1)
    (full : ∀ i < tcpackInfoMaxnum, ∃ oldpkt old, (mod.tcpackInfoTbl i).pktInQ = some oldpkt ∧
      dhd.frames oldpkt = some old ∧ old.flow ≠ new.flow) :
    HoldCase order dhd mod pkt new ifidx (dhd, true)

theorem dhdTcpackHold_case {order : TcpSeq} {dhd : Dhd} {mod : TcpackSupModule} {pkt ifidx : Nat}
    {new : Frame} (mode : dhd.tcpackSupMode = .hold) (present : dhd.tcpackSupModule = some mod) :
    HoldCase order dhd mod pkt new ifidx (dhdTcpackHold order dhd pkt new ifidx) := by
  unfold dhdTcpackHold
  rw [if_neg (by simp [mode])]
  split
  · rename_i every
    exact .passed (Or.inr every)
  rename_i several
  split
  · rename_i other
    exact .passed (Or.inl other)
  rename_i looks
  rw [present]
  dsimp only
  split
  · rename_i broken
    obtain ⟨i, member, oldpkt, queued, gone⟩ := findHeld_broken broken
    exact .broken i (List.mem_range.mp member) oldpkt queued gone
  · rename_i i oldpkt old found
    obtain ⟨member, queued, buffer, flow⟩ := findHeld_found found
    have inside := List.mem_range.mp member
    split
    · rename_i newer
      split
      · exact .released i oldpkt old inside queued buffer flow newer
      · exact .replaced i oldpkt old inside queued buffer flow newer
    · rename_i older
      exact .outdated i oldpkt old inside queued buffer flow older
  · rename_i freeSlot ended
    rcases findHeld_free ended with noted | ⟨member, empty⟩
    · cases noted
    · exact .stored freeSlot (List.mem_range.mp member) empty
  · rename_i ended
    obtain ⟨_, full⟩ := findHeld_full ended
    exact .lost (by simpa using looks) several fun i inside => full i (List.mem_range.mpr inside)

section

variable {order : TcpSeq} {dhd : Dhd} {mod : TcpackSupModule} {i pkt held ifidx : Nat} {new : Frame}
  {result : Dhd × Bool}

theorem setInfo_pktInQ (mod : TcpackSupModule) (i : Nat) (info : TcpackInfo) :
    ((mod.setInfo i info).tcpackInfoTbl i).pktInQ = info.pktInQ := by
  change (update mod.tcpackInfoTbl i info i).pktInQ = info.pktInQ
  rw [update_self]

theorem stored_eq_zero_iff :
    dhd.stored pkt = 0 ↔ ∀ i < tcpackInfoMaxnum, (dhd.tbl i).pktInQ ≠ some pkt := by
  unfold Dhd.stored
  rw [SlotCount.eq_zero_iff]
  simp

theorem Holding.stored_gone (sound : Holding dhd) (gone : dhd.frames pkt = none) :
    dhd.stored pkt = 0 := by
  apply stored_eq_zero_iff.mpr
  intro i inside queued
  obtain ⟨frame, buffer⟩ := sound.live i inside pkt queued
  rw [gone] at buffer
  cases buffer

theorem Holding.stored_one (sound : Holding dhd) (inside : i < tcpackInfoMaxnum)
    (queued : (dhd.tbl i).pktInQ = some pkt) : dhd.stored pkt = 1 := by
  refine SlotCount.eq_one inside (by simp [queued]) fun j below also => ?_
  exact sound.apart j below i inside pkt (by simpa using also) queued

theorem Dhd.Fresh.unstored (sound : Holding dhd) (fresh : dhd.Fresh pkt) :
    ∀ i < tcpackInfoMaxnum, (dhd.tbl i).pktInQ ≠ some pkt :=
  stored_eq_zero_iff.mp (sound.stored_gone fresh.1)

theorem Dhd.Fresh.left (fresh : dhd.Fresh pkt) : dhd.left pkt = 0 := by
  apply List.countP_eq_zero.mpr
  intro effect member
  simpa using fresh.2 effect member

theorem left_pktfree (dhd : Dhd) (pkt held : Nat) :
    (dhd.pktfree pkt).left held = dhd.left held + if pkt = held then 1 else 0 := by
  simp [Dhd.left, Dhd.pktfree, List.countP_append, List.countP_cons, Effect.pkt]

theorem stored_setInfo (present : dhd.tcpackSupModule = some mod) (inside : i < tcpackInfoMaxnum)
    (info : TcpackInfo) (held : Nat) :
    (dhd.withModule (mod.setInfo i info)).stored held +
        (if (mod.tcpackInfoTbl i).pktInQ = some held then 1 else 0) =
      dhd.stored held + if info.pktInQ = some held then 1 else 0 := by
  have moved := SlotCount.update inside mod.tcpackInfoTbl info fun info => info.pktInQ == some held
  simp only [beq_iff_eq] at moved
  unfold Dhd.stored
  rw [tbl_of present]
  exact moved

theorem Holding.arrive (sound : Holding dhd) (pkt : Nat) (new : Frame) :
    Holding (dhd.arrive pkt new) := by
  refine ⟨sound.mode, sound.module', sound.driver, fun i inside held queued => ?_,
    sound.apart, sound.timed⟩
  change ∃ frame, update dhd.frames pkt (some new) held = some frame
  by_cases same : held = pkt
  · subst same
    exact ⟨new, update_self _ _ _⟩
  · rw [update_of_ne same]
    exact sound.live i inside held queued

theorem Holding.pktfree (sound : Holding dhd)
    (absent : ∀ i < tcpackInfoMaxnum, (dhd.tbl i).pktInQ ≠ some pkt) : Holding (dhd.pktfree pkt) := by
  refine ⟨sound.mode, sound.module', sound.driver, fun i inside held queued => ?_,
    sound.apart, sound.timed⟩
  have apart : held ≠ pkt := fun same => absent i inside (by rw [← same]; exact queued)
  change ∃ frame, update dhd.frames pkt none held = some frame
  rw [update_of_ne apart]
  exact sound.live i inside held queued

/-- An entry may be given another packet, if that one has a buffer and is held
nowhere else, and a timer that runs. -/
theorem Holding.setInfo (sound : Holding dhd) (present : dhd.tcpackSupModule = some mod)
    (i : Nat) (info : TcpackInfo) (driver : info.dhdp = true)
    (new : ∀ pkt, info.pktInQ = some pkt → (∃ frame, dhd.frames pkt = some frame) ∧
      info.timer = true ∧ ∀ j < tcpackInfoMaxnum, (dhd.tbl j).pktInQ ≠ some pkt) (cnt : Int) :
    Holding (dhd.withModule ((mod.setInfo i info).count cnt)) := by
  have table : (dhd.withModule ((mod.setInfo i info).count cnt)).tbl =
      update dhd.tbl i info := by rw [tbl_of present]; rfl
  refine ⟨sound.mode, rfl, ?_, ?_, ?_, ?_⟩
  · intro j inside
    rw [table]
    by_cases here : j = i
    · rw [here, update_self, driver]
    · rw [update_of_ne here]
      exact sound.driver j inside
  · intro j inside held queued
    rw [table] at queued
    by_cases here : j = i
    · rw [here, update_self] at queued
      exact (new held queued).1
    · rw [update_of_ne here] at queued
      exact sound.live j inside held queued
  · intro j inside k below held first second
    rw [table] at first second
    by_cases here : j = i
    · rw [here, update_self] at first
      by_cases there : k = i
      · rw [here, there]
      · rw [update_of_ne there] at second
        exact absurd second ((new held first).2.2 k below)
    · rw [update_of_ne here] at first
      by_cases there : k = i
      · rw [there, update_self] at second
        exact absurd first ((new held second).2.2 j inside)
      · rw [update_of_ne there] at second
        exact sound.apart j inside k below held first second
  · intro j inside held queued
    rw [table] at queued ⊢
    by_cases here : j = i
    · rw [here, update_self] at queued ⊢
      exact (new held queued).2.1
    · rw [update_of_ne here] at queued ⊢
      exact sound.timed j inside held queued

theorem Holding.withdrawn (sound : Holding dhd) (present : dhd.tcpackSupModule = some mod)
    (inside : i < tcpackInfoMaxnum) (queued : (mod.tcpackInfoTbl i).pktInQ = some held)
    {info : TcpackInfo} (other : info.pktInQ ≠ some held) :
    ∀ j < tcpackInfoMaxnum,
      ((dhd.withModule (mod.setInfo i info)).tbl j).pktInQ ≠ some held := by
  intro j below also
  change (update mod.tcpackInfoTbl i info j).pktInQ = some held at also
  rw [← tbl_of present] at queued also
  by_cases here : j = i
  · rw [here, update_self] at also
    exact other also
  · rw [update_of_ne here] at also
    exact here (sound.apart j below i inside held also queued)

theorem holdCase_holding (sound : Holding dhd) (fresh : dhd.Fresh pkt)
    (present : dhd.tcpackSupModule = some mod)
    (case : HoldCase order (dhd.arrive pkt new) mod pkt new ifidx result) : Holding result.1 := by
  have arrived := sound.arrive pkt new
  have absent := Dhd.Fresh.unstored sound fresh
  have table : dhd.tbl = mod.tcpackInfoTbl := tbl_of present
  have buffer' : (dhd.arrive pkt new).frames pkt = some new := update_self _ _ _
  cases case with
  | passed other => exact arrived
  | broken i inside oldpkt queued gone => exact arrived
  | released i oldpkt old inside queued buffer flow newer =>
    have driver := sound.driver i inside
    rw [table] at driver
    have emptied := arrived.setInfo present i { (mod.tcpackInfoTbl i).release with timer := false }
      driver (fun _ same => absurd same (by simp [TcpackInfo.release])) mod.tcpackInfoCnt
    exact emptied.pktfree (arrived.withdrawn present inside queued (by simp [TcpackInfo.release]))
  | replaced i oldpkt old inside queued buffer flow newer =>
    have driver := sound.driver i inside
    have timer := sound.timed i inside oldpkt (by rw [table]; exact queued)
    rw [table] at driver timer
    have apart : some pkt ≠ some oldpkt := fun same =>
      absent i inside (by rw [table, queued, same])
    have exchanged := arrived.setInfo present i { mod.tcpackInfoTbl i with
        pktInQ := some pkt, ifidx := ifidx, suppCnt := (mod.tcpackInfoTbl i).suppCnt + 1 } driver
      (fun held same => by cases same; exact ⟨⟨new, buffer'⟩, timer, absent⟩) mod.tcpackInfoCnt
    exact exchanged.pktfree (arrived.withdrawn present inside queued apart)
  | outdated i oldpkt old inside queued buffer flow older => exact arrived.pktfree absent
  | stored i inside empty =>
    have driver := sound.driver i inside
    rw [table] at driver
    exact arrived.setInfo present i { mod.tcpackInfoTbl i with
        pktInQ := some pkt, ifidx := ifidx, suppCnt := 1, timer := true } driver
      (fun held same => by cases same; exact ⟨⟨new, buffer'⟩, rfl, absent⟩) _
  | lost looks several full => exact arrived

/-- The packet is lost, without any trace, exactly where there is no room for it. -/
theorem holdCase_roomy (sound : Holding dhd) (present : dhd.tcpackSupModule = some mod)
    (case : HoldCase order (dhd.arrive pkt new) mod pkt new ifidx result) :
    Roomy (dhd.arrive pkt new) (.hold pkt new ifidx) ∧ result ≠ (dhd.arrive pkt new, true) ∨
      ¬ Roomy (dhd.arrive pkt new) (.hold pkt new ifidx) ∧ result = (dhd.arrive pkt new, true) := by
  have arrived := sound.arrive pkt new
  have table : (dhd.arrive pkt new).tbl = mod.tcpackInfoTbl := tbl_of present
  have met : ∀ {i oldpkt old}, i < tcpackInfoMaxnum → (mod.tcpackInfoTbl i).pktInQ = some oldpkt →
      (dhd.arrive pkt new).frames oldpkt = some old → old.flow = new.flow →
      Roomy (dhd.arrive pkt new) (.hold pkt new ifidx) := by
    intro i oldpkt old inside queued buffer flow _ _
    exact Or.inr ⟨i, oldpkt, old, ⟨inside, by rw [table]; exact queued, buffer⟩, flow⟩
  -- what is freed leaves a trace
  have traced : ∀ {after : Dhd} {freed : Nat} {answer : Bool},
      after.effects = dhd.effects → (after.pktfree freed, answer) ≠ (dhd.arrive pkt new, true) := by
    intro after freed answer before same
    have longer := congrArg (fun result : Dhd × Bool => result.1.effects.length) same
    simp [Dhd.pktfree, Dhd.arrive, before] at longer
  cases case with
  | passed other =>
    refine Or.inl ⟨fun looks several => ?_, by simp⟩
    rcases other with not | every
    · exact absurd looks not
    · exact absurd every several
  | broken i inside oldpkt queued gone =>
    obtain ⟨frame, buffer⟩ := arrived.live i inside oldpkt (by rw [table]; exact queued)
    rw [gone] at buffer
    cases buffer
  | released i oldpkt old inside queued buffer flow newer =>
    exact Or.inl ⟨met inside queued buffer flow, traced rfl⟩
  | replaced i oldpkt old inside queued buffer flow newer =>
    exact Or.inl ⟨met inside queued buffer flow, traced rfl⟩
  | outdated i oldpkt old inside queued buffer flow older =>
    exact Or.inl ⟨met inside queued buffer flow, traced rfl⟩
  | stored i inside empty =>
    refine Or.inl ⟨fun _ _ => Or.inl ⟨i, inside, by rw [table]; exact empty⟩, fun same => ?_⟩
    have counted := congrArg (fun result : Dhd × Bool =>
      result.1.tcpackSupModule.map TcpackSupModule.tcpackInfoCnt) same
    change some (mod.tcpackInfoCnt + 1) = dhd.tcpackSupModule.map _ at counted
    rw [present, Option.map_some] at counted
    have one := Option.some.inj counted
    omega
  | lost looks several full =>
    refine Or.inr ⟨fun roomy => ?_, rfl⟩
    rcases roomy looks several with ⟨i, inside, empty⟩ | ⟨i, oldpkt, old, ⟨inside, queued, buffer⟩, flow⟩
    · obtain ⟨oldpkt, _, queued, _⟩ := full i inside
      rw [table, queued] at empty
      cases empty
    · obtain ⟨other, frame, also, alsoBuffer, apart⟩ := full i inside
      rw [table, also] at queued
      cases queued
      rw [buffer] at alsoBuffer
      cases alsoBuffer
      exact apart flow

theorem exchange_balance (present : dhd.tcpackSupModule = some mod) (inside : i < tcpackInfoMaxnum)
    (queued : (mod.tcpackInfoTbl i).pktInQ = some held) (info : TcpackInfo) (p : Nat) :
    ((dhd.withModule (mod.setInfo i info)).pktfree held).stored p +
        ((dhd.withModule (mod.setInfo i info)).pktfree held).left p =
      dhd.stored p + dhd.left p + if info.pktInQ = some p then 1 else 0 := by
  have moved := stored_setInfo present inside info p
  have freed := left_pktfree (dhd.withModule (mod.setInfo i info)) held p
  rw [queued] at moved
  simp only [Option.some.injEq] at moved
  rw [freed]
  change (dhd.withModule (mod.setInfo i info)).stored p + (dhd.left p + _) = _
  omega

theorem enter_balance (present : dhd.tcpackSupModule = some mod) (inside : i < tcpackInfoMaxnum)
    (empty : (mod.tcpackInfoTbl i).pktInQ = none) (info : TcpackInfo) (cnt : Int) (p : Nat) :
    (dhd.withModule ((mod.setInfo i info).count cnt)).stored p +
        (dhd.withModule ((mod.setInfo i info).count cnt)).left p =
      dhd.stored p + dhd.left p + if info.pktInQ = some p then 1 else 0 := by
  have moved := stored_setInfo present inside info p
  rw [empty] at moved
  simp only [reduceCtorEq, if_false] at moved
  change (dhd.withModule (mod.setInfo i info)).stored p + dhd.left p = _
  omega

/-- Where there is room, a packet more is stored or has left exactly if the
answer says so, and nothing changes for the others. -/
theorem holdCase_balance (present : dhd.tcpackSupModule = some mod)
    (case : HoldCase order dhd mod pkt new ifidx result) (kept : result ≠ (dhd, true)) (p : Nat) :
    result.1.stored p + result.1.left p =
      dhd.stored p + dhd.left p + if p = pkt ∧ result.2 = true then 1 else 0 := by
  cases case with
  | passed other => simp
  | broken i inside oldpkt queued gone => simp
  | released i oldpkt old inside queued buffer flow newer =>
    rw [exchange_balance present inside queued]
    simp [TcpackInfo.release]
  | replaced i oldpkt old inside queued buffer flow newer =>
    rw [exchange_balance present inside queued]
    simp [eq_comm]
  | outdated i oldpkt old inside queued buffer flow older =>
    have freed := left_pktfree dhd pkt p
    change dhd.stored p + (dhd.pktfree pkt).left p = _
    simp only [freed, and_true, eq_comm (a := p)]
    omega
  | stored i inside empty =>
    rw [enter_balance present inside empty]
    simp [eq_comm]
  | lost looks several full => exact absurd rfl kept

theorem TcpSeq.ahead_of_ge (order : TcpSeq) {newer older : UInt32}
    (ge : order.ge newer older = true) : ahead newer older ≤ 2 ^ 31 := by
  by_contra far
  rw [order.ge_far newer older (by omega)] at ge
  cases ge

theorem TcpSeq.ahead_of_not_ge (order : TcpSeq) {newer older : UInt32}
    (notGe : ¬ order.ge newer older = true) :
    0 < ahead older newer ∧ ahead older newer ≤ 2 ^ 31 := by
  have far : ¬ ahead newer older < 2 ^ 31 := fun near => notGe (order.ge_near newer older near)
  have turn := UInt32.toNat_sub newer older
  have back := UInt32.toNat_sub older newer
  have small := newer.toNat_lt
  have low := older.toNat_lt
  unfold ahead at *
  omega

section

variable (sound : Holding dhd)
include sound

theorem holdCase_accounts (fresh : dhd.Fresh pkt)
    (present : dhd.tcpackSupModule = some mod)
    (case : HoldCase order (dhd.arrive pkt new) mod pkt new ifidx result)
    (kept : result ≠ (dhd.arrive pkt new, true)) : Accounts dhd (.hold pkt new ifidx) result := by
  have after := holdCase_holding sound fresh present case
  have arrivedPresent : (dhd.arrive pkt new).tcpackSupModule = some mod := present
  have balance := holdCase_balance arrivedPresent case kept
  have absent := Dhd.Fresh.unstored sound fresh
  have unstored : dhd.stored pkt = 0 := stored_eq_zero_iff.mpr absent
  have unleft : dhd.left pkt = 0 := Dhd.Fresh.left fresh
  have table : dhd.tbl = mod.tcpackInfoTbl := tbl_of present
  -- freed packets are among those that have left
  have unfreed : result.1.left pkt = 0 → result.1.effects.count (.freed pkt) = 0 := by
    intro none_
    apply List.count_eq_zero.mpr
    intro member
    exact absurd (List.countP_eq_zero.mp none_ _ member) (by simp [Effect.pkt])
  have own := balance pkt
  change _ = dhd.stored pkt + dhd.left pkt + _ at own
  rw [unstored, unleft] at own
  have still : ∀ {frame : Frame} {held i : Nat}, i < tcpackInfoMaxnum →
      (dhd.tbl i).pktInQ = some held → (dhd.arrive pkt new).frames held = some frame →
      dhd.frames held = some frame := by
    intro frame held i inside queued buffer
    have apart : held ≠ pkt := fun same => absent i inside (by rw [← same]; exact queued)
    rwa [show (dhd.arrive pkt new).frames held = dhd.frames held from
      update_of_ne apart _ _] at buffer
  -- an entry that gets another packet: the old one is freed
  have freed : ∀ {i oldpkt : Nat} {old : Frame} (info : TcpackInfo), i < tcpackInfoMaxnum →
      (mod.tcpackInfoTbl i).pktInQ = some oldpkt → (dhd.arrive pkt new).frames oldpkt = some old →
      old.flow = new.flow → order.ge new.tcpAckNum old.tcpAckNum = true →
      Holding (((dhd.arrive pkt new).withModule (mod.setInfo i info)).pktfree oldpkt) →
      ∀ j < tcpackInfoMaxnum, ∀ held, (dhd.tbl j).pktInQ = some held →
        ((((dhd.arrive pkt new).withModule (mod.setInfo i info)).pktfree oldpkt).tbl j).pktInQ =
            some held ∨
          (((dhd.arrive pkt new).withModule (mod.setInfo i info)).pktfree oldpkt).stored held = 0 ∧
            (((dhd.arrive pkt new).withModule (mod.setInfo i info)).pktfree oldpkt).effects =
              dhd.effects ++ [.freed held] ∧ Supersedes dhd new held := by
    intro i oldpkt old info inside queued buffer flow newer holds j below held here
    by_cases same : j = i
    · subst same
      rw [table, queued] at here
      cases here
      have gone : (((dhd.arrive pkt new).withModule (mod.setInfo j info)).pktfree oldpkt).frames
          oldpkt = none := update_self _ _ _
      refine Or.inr ⟨holds.stored_gone gone, rfl, old, ?_, flow, order.ahead_of_ge newer⟩
      exact still inside (by rw [table]; exact queued) buffer
    · left
      change (update mod.tcpackInfoTbl i info j).pktInQ = some held
      rw [update_of_ne same, ← table]
      exact here
  refine ⟨fun taken => ?_, fun refused => ?_, ?_⟩
  · rw [if_pos ⟨rfl, taken⟩] at own
    cases case with
    | passed other => cases taken
    | broken i inside oldpkt queued gone => cases taken
    | released i oldpkt old inside queued buffer flow newer => cases taken
    | replaced i oldpkt old inside queued buffer flow newer =>
      have one := after.stored_one inside (setInfo_pktInQ mod i _)
      exact Or.inl ⟨one, unfreed (by omega)⟩
    | outdated i oldpkt old inside queued buffer flow older =>
      refine Or.inr ⟨after.stored_gone (update_self _ _ _), rfl, i, oldpkt, old, ?_, flow,
        order.ahead_of_not_ge older⟩
      have apart : oldpkt ≠ pkt := fun same => absent i inside (by rw [table, queued, same])
      have others : update (dhd.arrive pkt new).frames pkt none oldpkt = some old := by
        rw [update_of_ne apart, buffer]
      exact ⟨inside, by rw [← table] at queued; exact queued, others⟩
    | stored i inside empty =>
      have one := after.stored_one inside (setInfo_pktInQ mod i _)
      exact Or.inl ⟨one, unfreed (by omega)⟩
    | lost looks several full => exact absurd rfl kept
  · rw [if_neg (by simp [refused])] at own
    exact ⟨by omega, unfreed (by omega)⟩
  · cases case with
    | passed other => exact fun j _ held here => Or.inl here
    | broken i inside oldpkt queued gone => exact fun j _ held here => Or.inl here
    | released i oldpkt old inside queued buffer flow newer =>
      exact freed _ inside queued buffer flow newer after
    | replaced i oldpkt old inside queued buffer flow newer =>
      exact freed _ inside queued buffer flow newer after
    | outdated i oldpkt old inside queued buffer flow older => exact fun j _ held here => Or.inl here
    | stored i inside empty =>
      intro j below held here
      left
      have other : j ≠ i := by
        rintro rfl
        rw [table, empty] at here
        cases here
      change (update mod.tcpackInfoTbl i _ j).pktInQ = some held
      rw [update_of_ne other, ← table]
      exact here
    | lost looks several full => exact fun j _ held here => Or.inl here

theorem send_held (present : dhd.tcpackSupModule = some mod)
    (inside : i < tcpackInfoMaxnum) (queued : (mod.tcpackInfoTbl i).pktInQ = some held) :
    ∃ info : TcpackInfo, info.pktInQ = none ∧ info.dhdp = true ∧ dhdTcpackSend dhd i =
      { dhd.withModule ((mod.setInfo i info).count (mod.tcpackInfoCnt - 1)) with
        effects := dhd.effects ++ [.sent (mod.tcpackInfoTbl i).ifidx held] } := by
  have driver := sound.driver i inside
  rw [tbl_of present] at driver
  refine ⟨{ mod.tcpackInfoTbl i with timer := false }.release, rfl, driver, ?_⟩
  unfold dhdTcpackSend
  rw [present]
  dsimp only
  rw [if_neg (by simp [driver]), queued]

theorem send_empty (present : dhd.tcpackSupModule = some mod)
    (inside : i < tcpackInfoMaxnum) (empty : (mod.tcpackInfoTbl i).pktInQ = none) :
    dhdTcpackSend dhd i =
      dhd.withModule (mod.setInfo i { mod.tcpackInfoTbl i with timer := false }) := by
  have driver := sound.driver i inside
  rw [tbl_of present] at driver
  unfold dhdTcpackSend
  rw [present]
  dsimp only
  rw [if_neg (by simp [driver]), empty]

theorem Holding.present : ∃ mod, dhd.tcpackSupModule = some mod :=
  Option.isSome_iff_exists.mp sound.module'

theorem send_holding (inside : i < tcpackInfoMaxnum) :
    Holding (dhdTcpackSend dhd i) := by
  obtain ⟨mod, present⟩ := sound.present
  have driver := sound.driver i inside
  rw [tbl_of present] at driver
  cases queued : (mod.tcpackInfoTbl i).pktInQ with
  | none =>
    rw [send_empty sound present inside queued]
    exact sound.setInfo present i { mod.tcpackInfoTbl i with timer := false } driver
      (fun _ same => absurd (queued.symm.trans same) (by simp)) mod.tcpackInfoCnt
  | some held =>
    obtain ⟨info, empty, known, sends⟩ := send_held sound present inside queued
    rw [sends]
    have emptied := sound.setInfo present i info known
      (fun _ same => absurd (empty.symm.trans same) (by simp)) (mod.tcpackInfoCnt - 1)
    exact ⟨emptied.mode, emptied.module', emptied.driver, emptied.live, emptied.apart, emptied.timed⟩

theorem send_balance (inside : i < tcpackInfoMaxnum) (p : Nat) :
    (dhdTcpackSend dhd i).stored p + (dhdTcpackSend dhd i).left p = dhd.stored p + dhd.left p := by
  obtain ⟨mod, present⟩ := sound.present
  cases queued : (mod.tcpackInfoTbl i).pktInQ with
  | none =>
    rw [send_empty sound present inside queued]
    have moved := enter_balance present inside queued { mod.tcpackInfoTbl i with timer := false }
      mod.tcpackInfoCnt p
    rwa [if_neg (by simp [queued])] at moved
  | some held =>
    obtain ⟨info, empty, _, sends⟩ := send_held sound present inside queued
    rw [sends]
    have moved := stored_setInfo present inside info p
    rw [queued, empty] at moved
    simp only [Option.some.injEq, reduceCtorEq, if_false] at moved
    have sent : (dhd.effects ++ [Effect.sent (mod.tcpackInfoTbl i).ifidx held]).countP
        (fun effect => effect.pkt == p) = dhd.left p + if held = p then 1 else 0 := by
      simp [Dhd.left, List.countP_append, List.countP_cons, Effect.pkt]
    change (dhd.withModule (mod.setInfo i _)).stored p + List.countP _ (dhd.effects ++ _) = _
    rw [sent]
    omega

theorem send_accounts (i : Fin tcpackInfoMaxnum) (answer : Bool) :
    Accounts dhd (.expire i) (dhdTcpackSend dhd i, answer) := by
  obtain ⟨mod, present⟩ := sound.present
  have inside := i.isLt
  intro j below held here
  rw [tbl_of present] at here ⊢
  split
  · rename_i same
    subst same
    obtain ⟨info, empty, _, sends⟩ := send_held sound present inside here
    rw [sends]
    refine ⟨stored_eq_zero_iff.mpr fun k within => ?_, rfl⟩
    exact sound.withdrawn present inside here (by simp [empty]) k within
  · rename_i other
    have elsewhere : ∀ info, (update mod.tcpackInfoTbl i info j).pktInQ = some held := by
      intro info
      rw [update_of_ne other]
      exact here
    cases queued : (mod.tcpackInfoTbl i).pktInQ with
    | none =>
      rw [send_empty sound present inside queued]
      exact elsewhere _
    | some sent =>
      obtain ⟨info, _, _, sends⟩ := send_held sound present inside queued
      rw [sends]
      exact elsewhere info

theorem roomy_arrive (fresh : dhd.Fresh pkt) :
    Roomy (dhd.arrive pkt new) (.hold pkt new ifidx) ↔ Roomy dhd (.hold pkt new ifidx) := by
  have absent := Dhd.Fresh.unstored sound fresh
  have same : ∀ i held frame, (dhd.arrive pkt new).Holds i held frame ↔ dhd.Holds i held frame := by
    intro i held frame
    refine and_congr_right fun inside => and_congr_right fun queued => ?_
    have apart : held ≠ pkt := fun same => absent i inside (by rw [← same]; exact queued)
    change update dhd.frames pkt (some new) held = some frame ↔ _
    rw [update_of_ne apart]
  unfold Roomy
  simp only [same]
  exact Iff.rfl

theorem step_holding (admitted : HoldAdmits dhd call) :
    Holding (holdStep order dhd call).1 := by
  obtain ⟨mod, present⟩ := sound.present
  cases call with
  | hold pkt new ifidx =>
    exact holdCase_holding sound admitted present (dhdTcpackHold_case sound.mode present)
  | expire i => exact send_holding sound i.isLt

/-- The step accounts for the packets exactly if there is room. -/
theorem step_accounts_iff (admitted : HoldAdmits dhd call) :
    Accounts dhd call (holdStep order dhd call) ↔ Roomy dhd call := by
  obtain ⟨mod, present⟩ := sound.present
  cases call with
  | expire i => exact ⟨fun _ => trivial, fun _ => send_accounts sound i false⟩
  | hold pkt new ifidx =>
    have arrivedPresent : (dhd.arrive pkt new).tcpackSupModule = some mod := present
    have arrivedMode : (dhd.arrive pkt new).tcpackSupMode = .hold := sound.mode
    have case : HoldCase order (dhd.arrive pkt new) mod pkt new ifidx
        (holdStep order dhd (.hold pkt new ifidx)) := dhdTcpackHold_case arrivedMode arrivedPresent
    rw [← roomy_arrive sound admitted]
    rcases holdCase_roomy sound present case with ⟨roomy, kept⟩ | ⟨cramped, lost⟩
    · exact ⟨fun _ => roomy, fun _ => holdCase_accounts sound admitted present case kept⟩
    · refine ⟨fun accounts => ?_, fun roomy => absurd roomy cramped⟩
      rw [lost] at accounts
      rcases accounts.1 rfl with ⟨one, _⟩ | ⟨_, gained, _⟩
      · have none_ : dhd.stored pkt = 0 := sound.stored_gone admitted.1
        change dhd.stored pkt = 1 at one
        omega
      · have longer := congrArg List.length gained
        change dhd.effects.length = _ at longer
        simp at longer

end

/-- A packet that was handed over at some time: its buffer is there or it has left. -/
def Dhd.Known (dhd : Dhd) (pkt : Nat) : Prop := dhd.frames pkt ≠ none ∨ 0 < dhd.left pkt

theorem Dhd.Fresh.not_known (fresh : dhd.Fresh pkt) : ¬ dhd.Known pkt := by
  rintro (buffer | gone)
  · exact buffer fresh.1
  · rw [Dhd.Fresh.left fresh] at gone
    omega

theorem Dhd.Known.pktfree {after : Dhd} (known : dhd.Known pkt) (frames : after.frames = dhd.frames)
    (effects : after.effects = dhd.effects) (freed : Nat) : (after.pktfree freed).Known pkt := by
  have same : after.left pkt = dhd.left pkt := congrArg (List.countP _) effects
  unfold Dhd.Known at *
  rw [left_pktfree, same]
  by_cases own : freed = pkt
  · right
    rw [if_pos own]
    omega
  · refine known.imp (fun buffer => ?_) fun gone => by omega
    change update after.frames freed none pkt ≠ none
    rw [update_of_ne (Ne.symm own), frames]
    exact buffer

theorem Dhd.Known.arrive (known : dhd.Known pkt) (other : Nat) (new : Frame) :
    (dhd.arrive other new).Known pkt := by
  refine known.imp (fun buffer => ?_) id
  change update dhd.frames other (some new) pkt ≠ none
  by_cases own : pkt = other
  · rw [own, update_self]
    simp
  · rwa [update_of_ne own]

theorem holdCase_known (case : HoldCase order dhd mod held new ifidx result)
    (known : dhd.Known pkt) : result.1.Known pkt := by
  cases case with
  | passed other => exact known
  | broken i inside oldpkt queued gone => exact known
  | released i oldpkt old inside queued buffer flow newer => exact Dhd.Known.pktfree known rfl rfl oldpkt
  | replaced i oldpkt old inside queued buffer flow newer => exact Dhd.Known.pktfree known rfl rfl oldpkt
  | outdated i oldpkt old inside queued buffer flow older => exact Dhd.Known.pktfree known rfl rfl held
  | stored i inside empty => exact known
  | lost looks several full => exact known

theorem send_known (sound : Holding dhd) (inside : i < tcpackInfoMaxnum) (known : dhd.Known pkt) :
    (dhdTcpackSend dhd i).Known pkt := by
  obtain ⟨mod, present⟩ := sound.present
  cases queued : (mod.tcpackInfoTbl i).pktInQ with
  | none =>
    rw [send_empty sound present inside queued]
    exact known
  | some held =>
    obtain ⟨info, _, _, sends⟩ := send_held sound present inside queued
    rw [sends]
    refine known.imp id fun gone => ?_
    change 0 < List.countP _ (dhd.effects ++ _)
    rw [List.countP_append]
    exact Nat.add_pos_left gone _

/-- `Settled`, and the packets of the past do not come back. -/
def Kept (dhd : Dhd) (history : List (HoldCall × Bool)) : Prop :=
  Holding dhd ∧ Settled dhd history ∧ ∀ pkt frame ifidx answer,
    (HoldCall.hold pkt frame ifidx, answer) ∈ history → dhd.Known pkt

theorem step_kept {history : List (HoldCall × Bool)} (kept : Kept dhd history)
    (admitted : HoldAdmits dhd call) (roomy : Roomy dhd call) :
    Kept (holdStep order dhd call).1 (history ++ [(call, (holdStep order dhd call).2)]) := by
  obtain ⟨sound, settled, known⟩ := kept
  obtain ⟨mod, present⟩ := sound.present
  refine ⟨step_holding sound admitted, ?_⟩
  cases call with
  | expire i =>
    have old : ∀ {entry}, entry ∈ history ++ [(HoldCall.expire i, false)] →
        (∀ j, entry.1 ≠ .expire j) → entry ∈ history := by
      intro entry member other
      rcases List.mem_append.mp member with before | last
      · exact before
      · rw [List.mem_singleton.mp last] at other
        exact absurd rfl (other i)
    refine ⟨fun pkt frame ifidx answer member => ?_, fun pkt frame ifidx answer member => ?_⟩
    · rw [← settled pkt frame ifidx answer (old member (by simp))]
      exact send_balance sound i.isLt pkt
    · exact send_known sound i.isLt (known pkt frame ifidx answer (old member (by simp)))
  | hold new' new ifidx =>
    have arrivedPresent : (dhd.arrive new' new).tcpackSupModule = some mod := present
    have arrivedMode : (dhd.arrive new' new).tcpackSupMode = .hold := sound.mode
    have case : HoldCase order (dhd.arrive new' new) mod new' new ifidx
        (holdStep order dhd (.hold new' new ifidx)) := dhdTcpackHold_case arrivedMode arrivedPresent
    have balance := holdCase_balance arrivedPresent case (by
      rw [← roomy_arrive sound admitted] at roomy
      rcases holdCase_roomy sound present case with ⟨_, kept⟩ | ⟨cramped, _⟩
      · exact kept
      · exact absurd roomy cramped)
    refine ⟨fun pkt frame ifidx' answer member => ?_, fun pkt frame ifidx' answer member => ?_⟩
    · rcases List.mem_append.mp member with before | last
      · have apart : pkt ≠ new' := by
          rintro rfl
          exact Dhd.Fresh.not_known admitted (known pkt frame ifidx' answer before)
        rw [balance pkt, if_neg (fun both => apart both.1), Nat.add_zero]
        exact settled pkt frame ifidx' answer before
      · cases List.mem_singleton.mp last
        have unstored : dhd.stored new' = 0 := sound.stored_gone admitted.1
        have unleft : dhd.left new' = 0 := Dhd.Fresh.left admitted
        rw [balance new']
        change dhd.stored new' + dhd.left new' + _ = _
        rw [unstored, unleft]
        simp
    · rcases List.mem_append.mp member with before | last
      · exact holdCase_known case (Dhd.Known.arrive (known pkt frame ifidx' answer before) new' new)
      · cases List.mem_singleton.mp last
        have here : (dhd.arrive new' new).Known new' := by
          left
          change update dhd.frames new' (some new) new' ≠ none
          rw [update_self]
          simp
        exact holdCase_known case here

end

theorem holdStart_holding (ratio : Nat) : Holding (holdStart ratio) := by
  have empty : ∀ i < tcpackInfoMaxnum, ((holdStart ratio).tbl i).pktInQ = none :=
    fun i _ => initTimers_pktInQ _ i
  refine ⟨rfl, rfl, fun i inside => ?_, fun i inside pkt queued => ?_,
    fun i inside j _ pkt queued => ?_, fun i inside pkt queued => ?_⟩
  · change ((initTimers newModule).tcpackInfoTbl i).dhdp = true
    unfold initTimers
    dsimp only
    rw [if_pos inside]
  all_goals
    rw [empty i inside] at queued
    cases queued

/-- In hold mode every packet is accounted for, all along a run, exactly if every
ACK for the table finds its flow or an empty entry there. -/
theorem hold_accounts {order : TcpSeq} {ratio : Nat} {calls : List HoldCall}
    (admitted : (holding order).Admitted (holdStart ratio) calls) :
    Accounted order (holdStart ratio) calls ↔ ∀ past call rest, calls = past ++ call :: rest →
      Roomy ((holding order).run (holdStart ratio) past) call := by
  have preserved : (holding order).Preserves Holding :=
    fun dhd call sound admits => step_holding sound admits
  have sound : ∀ past call rest, calls = past ++ call :: rest →
      Holding ((holding order).run (holdStart ratio) past) ∧
        HoldAdmits ((holding order).run (holdStart ratio) past) call := by
    intro past call rest split
    rw [split, Machine.admitted_append] at admitted
    exact ⟨(holding order).run_invariant preserved (holdStart_holding ratio) admitted.1,
      admitted.2.1⟩
  constructor
  · intro accounted past call rest split
    obtain ⟨holds, admits⟩ := sound past call rest split
    exact (step_accounts_iff holds admits).mp (accounted.steps past call rest split)
  · intro roomy
    refine ⟨fun past call rest split => ?_, fun past rest split => ?_, fun past rest split => ?_⟩
    · obtain ⟨holds, admits⟩ := sound past call rest split
      exact (step_accounts_iff holds admits).mpr (roomy past call rest split)
    · have promised := ((holding order).admitted_restrict_iff (holdStart ratio) calls).mpr
        ⟨admitted, roomy⟩
      rw [split, Machine.admitted_append] at promised
      have begins : Kept (holdStart ratio) [] := ⟨holdStart_holding ratio, by simp [Settled], by simp⟩
      have kept := ((holding order).restrict Roomy).run_history_invariant
        (fun dhd history call kept admits => step_kept kept admits.1 admits.2) begins promised.1
      rw [Machine.restrict_run, Machine.restrict_history] at kept
      exact kept.2.1
    · rw [split, Machine.admitted_append] at admitted
      exact ((holding order).run_invariant preserved (holdStart_holding ratio) admitted.1).timed

/-- Two ACKs of one flow, of which the second replaces the first, and the timer. -/
def heldCalls : List HoldCall :=
  [.hold 1 (.sample 0 1 10) 0, .hold 2 (.sample 0 1 20) 0, .expire ⟨0, by decide⟩]

theorem hold_accounts_heldCalls :
    Accounted tcpSeq (holdStart 3) heldCalls ↔ ∀ past call rest, heldCalls = past ++ call :: rest →
      Roomy ((holding tcpSeq).run (holdStart 3) past) call :=
  hold_accounts (by decide +kernel)

/-- ACKs of five flows. -/
def fullCalls : List HoldCall :=
  [.hold 1 (.sample 0 1 10) 0, .hold 2 (.sample 0 2 10) 0, .hold 3 (.sample 0 3 10) 0,
    .hold 4 (.sample 0 4 10) 0, .hold 5 (.sample 0 5 10) 0]

/-- The fifth one is taken, but it is neither kept nor freed. -/
theorem hold_loses :
    ¬ ∀ calls : List HoldCall, (holding tcpSeq).Admitted (holdStart 3) calls →
      Accounted tcpSeq (holdStart 3) calls := by
  intro all
  have settled := (all fullCalls (by decide +kernel)).states fullCalls [] rfl
  have taken : (holding tcpSeq).answer ((holding tcpSeq).run (holdStart 3) (fullCalls.take 4))
      (.hold 5 (.sample 0 5 10) 0) = true := by decide +kernel
  have recorded : (HoldCall.hold 5 (.sample 0 5 10) 0, true) ∈
      (holding tcpSeq).history (holdStart 3) fullCalls := by
    rw [← taken]
    exact List.mem_of_getElem? (i := 4) rfl
  have lost : ((holding tcpSeq).run (holdStart 3) fullCalls).stored 5 +
      ((holding tcpSeq).run (holdStart 3) fullCalls).left 5 = 0 := by decide +kernel
  have kept := settled 5 _ 0 true recorded
  rw [lost] at kept
  exact absurd kept (by decide)

end BcmDhd.TcpAck
