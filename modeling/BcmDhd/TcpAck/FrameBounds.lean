import BcmDhd.TcpAck.Hold
import BcmDhd.TcpAck.Replace
import BcmDhd.TcpAck.TableCount

/-! Where the inspection of TCP ACKs reads and writes: the places come from length fields of the
frames, and only assertions compare them with the lengths of the frames. -/

namespace BcmDhd.TcpAck

open BcmDhd.Lib

/-- Bytes of a packet's frame that are read or written. -/
structure Touch where
  pkt : Nat
  place : Nat
  size : Nat
  deriving DecidableEq, Repr

/-- What is read of the frame up to the last check of its headers. -/
def headerReads (pkt : Nat) (new : Frame) : List Touch :=
  if new.len < tcpackszmin ∨ tcpackszmax < new.len then []
  else ⟨pkt, 12, 2⟩ :: if new.etherType ≠ etherTypeIp then []
  else ⟨pkt, etherHdrLen, 1⟩ :: if new.ipVer ≠ ipVer4 then []
  else ⟨pkt, etherHdrLen + 9, 1⟩ :: if new.ipProt ≠ ipProtTcp then []
  else ⟨pkt, new.tcpHdr + 13, 1⟩ :: if new.tcpFlags ≠ tcpFlagAck then []
  else ⟨pkt, etherHdrLen + 2, 2⟩ :: ⟨pkt, new.tcpHdr + 12, 1⟩ ::
    if new.ipTotalLen > new.ipHdrLen + new.tcpHdrLen then [] else [⟨pkt, new.tcpHdr + 8, 4⟩]

/-- The comparison with one queued frame. The ports are compared if the addresses are the same. -/
def entryReads (pkt : Nat) (new : Frame) (oldpkt : Nat) (old : Frame) : List Touch :=
  [⟨oldpkt, etherHdrLen, 1⟩, ⟨oldpkt, old.tcpHdr + 12, 1⟩, ⟨pkt, etherHdrLen + 12, 8⟩,
    ⟨oldpkt, etherHdrLen + 12, 8⟩] ++
  if old.flow.1 ≠ new.flow.1 then [] else ⟨pkt, new.tcpHdr, 4⟩ :: ⟨oldpkt, old.tcpHdr, 4⟩ ::
    if old.flow.2 ≠ new.flow.2 then [] else [⟨oldpkt, old.tcpHdr + 8, 4⟩]

/-- The search of the table, which ends at an empty entry or passes it over. -/
def searchReads (frames : Nat → Option Frame) (tbl : Nat → TcpackInfo) (pkt : Nat) (new : Frame)
    (passes : Bool) : List Nat → List Touch
  | [] => []
  | i :: rest =>
    match (tbl i).pktInQ with
    | none => if passes then searchReads frames tbl pkt new passes rest else []
    | some oldpkt =>
      match frames oldpkt with
      | none => []
      | some old => entryReads pkt new oldpkt old ++
          if old.flow = new.flow then [] else searchReads frames tbl pkt new passes rest

/-- The new IP packet is copied over the queued one. -/
def Overwrites (order : TcpSeq) (dhd : Dhd) (mod : TcpackSupModule) (new : Frame) (oldpkt : Nat)
    (old : Frame) : Prop :=
  ∃ i, findQueued dhd.frames mod.tcpackInfoTbl new.flow (List.range mod.tcpackInfoCnt.toNat) =
    .found i oldpkt old ∧ order.gt new.tcpAckNum old.tcpAckNum = true ∧
    new.ipHdrLen = old.ipHdrLen ∧ new.tcpHdrLen = old.tcpHdrLen

/-- What `bcopy` reads and writes then. -/
def copied (order : TcpSeq) (dhd : Dhd) (mod : TcpackSupModule) (pkt : Nat) (new : Frame) : List Touch :=
  match findQueued dhd.frames mod.tcpackInfoTbl new.flow (List.range mod.tcpackInfoCnt.toNat) with
  | .found _ oldpkt old =>
    if order.gt new.tcpAckNum old.tcpAckNum = true ∧
        new.ipHdrLen = old.ipHdrLen ∧ new.tcpHdrLen = old.tcpHdrLen then
      [⟨pkt, etherHdrLen, new.ipTotalLen⟩, ⟨oldpkt, etherHdrLen, new.ipTotalLen⟩]
    else []
  | .broken => []
  | .ended => []

/-- What a call touches. `dhd` has the packet already. -/
def suppressTouches (order : TcpSeq) (dhd : Dhd) (pkt : Nat) (new : Frame) : List Touch :=
  if dhd.tcpackSupMode = .off then []
  else headerReads pkt new ++ if ¬ new.LooksAck then [] else
    match dhd.tcpackSupModule with
    | none => []
    | some mod =>
      searchReads dhd.frames mod.tcpackInfoTbl pkt new false (List.range mod.tcpackInfoCnt.toNat) ++
        copied order dhd mod pkt new

def holdTouches (dhd : Dhd) (pkt : Nat) (new : Frame) : List Touch :=
  if dhd.tcpackSupMode ≠ .hold ∨ dhd.tcpackSupRatio = 1 then []
  else headerReads pkt new ++ if ¬ new.LooksAck then [] else
    match dhd.tcpackSupModule with
    | none => []
    | some mod => searchReads dhd.frames mod.tcpackInfoTbl pkt new true (List.range tcpackInfoMaxnum)

/-- The bytes are bytes of the frame. -/
def Touch.Inside (touch : Touch) (frames : Nat → Option Frame) : Prop :=
  ∃ frame, frames touch.pkt = some frame ∧ touch.place + touch.size ≤ frame.len

/-- The inspection stays inside the frames. -/
def StaysInside (order : TcpSeq) (dhd : Dhd) : Call → Prop
  | .suppress pkt new =>
    ∀ touch ∈ suppressTouches order (dhd.arrive pkt new) pkt new, touch.Inside (dhd.arrive pkt new).frames
  | .hold pkt new _ =>
    ∀ touch ∈ holdTouches (dhd.arrive pkt new) pkt new, touch.Inside (dhd.arrive pkt new).frames
  | _ => True

/-- A frame that the code takes for TCP over IPv4 has its TCP flags inside. -/
def Frame.Headed (frame : Frame) : Prop :=
  tcpackszmin ≤ frame.len → frame.len ≤ tcpackszmax → frame.etherType = etherTypeIp →
    frame.ipVer = ipVer4 → frame.ipProt = ipProtTcp → frame.tcpHdr + 14 ≤ frame.len

/-- The headers of the frame fit, and its IP packet fits into both frames if it is copied. -/
def HeadersFit (order : TcpSeq) (dhd : Dhd) : Call → Prop
  | .suppress pkt new => dhd.tcpackSupMode ≠ .off → new.Headed ∧
      (new.LooksAck → ∀ mod, dhd.tcpackSupModule = some mod → ∀ oldpkt old,
        Overwrites order (dhd.arrive pkt new) mod new oldpkt old →
        etherHdrLen + new.ipTotalLen ≤ new.len ∧ etherHdrLen + new.ipTotalLen ≤ old.len)
  | .hold _ new _ => dhd.tcpackSupMode = .hold → dhd.tcpackSupRatio ≠ 1 → new.Headed
  | _ => True

/-- A packet that is handed over is not one of the table. -/
def Arrives (dhd : Dhd) : Call → Prop
  | .suppress pkt _ => ∀ i, (dhd.tbl i).pktInQ ≠ some pkt
  | .hold pkt _ _ => ∀ i, (dhd.tbl i).pktInQ ≠ some pkt
  | _ => True

/-- The headers up to the TCP flags are inside the frame. -/
structure Frame.Fit (frame : Frame) : Prop where
  long : tcpackszmin ≤ frame.len
  flags : frame.tcpHdr + 14 ≤ frame.len

theorem Frame.LooksAck.fit {frame : Frame} (looks : frame.LooksAck) (headed : frame.Headed) : frame.Fit :=
  ⟨looks.1, headed looks.1 looks.2.1 looks.2.2.1 looks.2.2.2.1 looks.2.2.2.2.1⟩

theorem headerReads_iff {pkt : Nat} {new : Frame} {frames : Nat → Option Frame}
    (here : frames pkt = some new) :
    (∀ touch ∈ headerReads pkt new, touch.Inside frames) ↔ new.Headed := by
  have inside : ∀ place size, (Touch.mk pkt place size).Inside frames ↔ place + size ≤ new.len := by
    intro place size
    constructor
    · rintro ⟨frame, same, fits⟩
      cases here.symm.trans same
      exact fits
    · exact fun fits => ⟨new, here, fits⟩
  have least : tcpackszmin = 54 := rfl
  have hdr : etherHdrLen = 14 := rfl
  unfold headerReads Frame.Headed
  constructor
  · intro all low high ethernet version protocol
    rw [if_neg (by omega), if_neg (not_not.mpr ethernet), if_neg (not_not.mpr version),
      if_neg (not_not.mpr protocol)] at all
    exact (inside _ _).mp (all ⟨pkt, new.tcpHdr + 13, 1⟩ (by simp))
  · intro headed touch member
    split at member
    · cases member
    rename_i size
    rcases List.mem_cons.mp member with rfl | member
    · exact (inside _ _).mpr (by omega)
    split at member
    · cases member
    rename_i ethernet
    rcases List.mem_cons.mp member with rfl | member
    · exact (inside _ _).mpr (by omega)
    split at member
    · cases member
    rename_i version
    rcases List.mem_cons.mp member with rfl | member
    · exact (inside _ _).mpr (by omega)
    split at member
    · cases member
    rename_i protocol
    have flags := headed (by omega) (by omega) (not_not.mp ethernet) (not_not.mp version)
      (not_not.mp protocol)
    rcases List.mem_cons.mp member with rfl | member
    · exact (inside _ _).mpr flags
    split at member
    · cases member
    rcases List.mem_cons.mp member with rfl | member
    · exact (inside _ _).mpr (by omega)
    rcases List.mem_cons.mp member with rfl | member
    · exact (inside _ _).mpr (by omega)
    split at member
    · cases member
    · rw [List.mem_singleton.mp member]
      exact (inside _ _).mpr (by omega)

theorem entryReads_inside {pkt oldpkt : Nat} {new old : Frame} {frames : Nat → Option Frame}
    (here : frames pkt = some new) (there : frames oldpkt = some old) (fit : new.Fit) (also : old.Fit) :
    ∀ touch ∈ entryReads pkt new oldpkt old, touch.Inside frames := by
  have least : tcpackszmin = 54 := rfl
  have hdr : etherHdrLen = 14 := rfl
  obtain ⟨long, flags⟩ := fit
  obtain ⟨oldLong, oldFlags⟩ := also
  intro touch member
  unfold entryReads at member
  have cases_ : (touch.pkt = oldpkt ∧ touch.place + touch.size ≤ old.len) ∨
      (touch.pkt = pkt ∧ touch.place + touch.size ≤ new.len) := by
    rcases List.mem_append.mp member with first | later
    · simp only [List.mem_cons, List.not_mem_nil, or_false] at first
      rcases first with rfl | rfl | rfl | rfl
      · exact Or.inl ⟨rfl, by dsimp only; omega⟩
      · exact Or.inl ⟨rfl, by dsimp only; omega⟩
      · exact Or.inr ⟨rfl, by dsimp only; omega⟩
      · exact Or.inl ⟨rfl, by dsimp only; omega⟩
    split at later
    · cases later
    rcases List.mem_cons.mp later with rfl | later
    · exact Or.inr ⟨rfl, by dsimp only; omega⟩
    rcases List.mem_cons.mp later with rfl | later
    · exact Or.inl ⟨rfl, by dsimp only; omega⟩
    split at later
    · cases later
    · rw [List.mem_singleton.mp later]
      exact Or.inl ⟨rfl, by dsimp only; omega⟩
  rcases cases_ with ⟨which, fits⟩ | ⟨which, fits⟩
  · exact ⟨old, by rw [which, there], fits⟩
  · exact ⟨new, by rw [which, here], fits⟩

/-- The frames of the table have their headers inside. -/
def TableFits (frames : Nat → Option Frame) (tbl : Nat → TcpackInfo) : Prop :=
  ∀ i oldpkt old, (tbl i).pktInQ = some oldpkt → frames oldpkt = some old → old.Fit

theorem searchReads_inside {pkt : Nat} {new : Frame} {frames : Nat → Option Frame}
    {tbl : Nat → TcpackInfo} (here : frames pkt = some new) (fit : new.Fit) (fits : TableFits frames tbl)
    (passes : Bool) (indices : List Nat) :
    ∀ touch ∈ searchReads frames tbl pkt new passes indices, touch.Inside frames := by
  induction indices with
  | nil => simp [searchReads]
  | cons i rest ih =>
    intro touch member
    unfold searchReads at member
    split at member
    · split at member
      · exact ih touch member
      · cases member
    · rename_i oldpkt queued
      split at member
      · cases member
      · rename_i old buffer
        rcases List.mem_append.mp member with first | later
        · exact entryReads_inside here buffer fit (fits i oldpkt old queued buffer) touch first
        · split at later
          · cases later
          · exact ih touch later

theorem copied_iff {order : TcpSeq} {dhd : Dhd} {mod : TcpackSupModule} {pkt : Nat} {new : Frame}
    (here : dhd.frames pkt = some new) :
    (∀ touch ∈ copied order dhd mod pkt new, touch.Inside dhd.frames) ↔
      ∀ oldpkt old, Overwrites order dhd mod new oldpkt old →
        etherHdrLen + new.ipTotalLen ≤ new.len ∧ etherHdrLen + new.ipTotalLen ≤ old.len := by
  unfold copied
  constructor
  · rintro all oldpkt old ⟨i, found, shape⟩
    rw [found] at all
    dsimp only at all
    rw [if_pos shape] at all
    obtain ⟨frame, same, reads⟩ := all _ List.mem_cons_self
    cases here.symm.trans same
    obtain ⟨frame, same, writes⟩ := all _ (List.mem_cons_of_mem _ List.mem_cons_self)
    cases (findQueued_found found).2.2.1.symm.trans same
    exact ⟨reads, writes⟩
  · intro fits touch member
    split at member
    · rename_i i oldpkt old found
      split at member
      · rename_i shape
        obtain ⟨reads, writes⟩ := fits oldpkt old ⟨i, found, shape⟩
        rcases List.mem_cons.mp member with rfl | member
        · exact ⟨new, here, reads⟩
        · rw [List.mem_singleton.mp member]
          exact ⟨old, (findQueued_found found).2.2.1, writes⟩
      · cases member
    · cases member
    · cases member

/-- The frames in the table fit, whatever has become of the packets in between. -/
def Dhd.Fits (dhd : Dhd) : Prop := TableFits dhd.frames dhd.tbl

section

variable {order : TcpSeq} {dhd : Dhd} {pkt : Nat} {new : Frame}

theorem frames_arrive (dhd : Dhd) (pkt : Nat) (new : Frame) :
    (dhd.arrive pkt new).frames pkt = some new := Function.update_self _ _ _

theorem Dhd.Fits.arrive (fits : dhd.Fits) (fresh : ∀ i, (dhd.tbl i).pktInQ ≠ some pkt) :
    (dhd.arrive pkt new).Fits := by
  intro i oldpkt old queued buffer
  have other : oldpkt ≠ pkt := fun same => fresh i (same ▸ queued)
  change Function.update dhd.frames pkt (some new) oldpkt = some old at buffer
  rw [Function.update_of_ne other] at buffer
  exact fits i oldpkt old queued buffer

/-- Where the headers fit, they are all that can lead out of a frame but the copy. -/
theorem staysInside_iff {call : Call} (fits : dhd.Fits) (arrives : Arrives dhd call) :
    StaysInside order dhd call ↔ HeadersFit order dhd call := by
  have here := frames_arrive dhd
  have split_ : ∀ (first second : List Touch) (holds : Touch → Prop),
      (∀ touch ∈ first ++ second, holds touch) ↔
        (∀ touch ∈ first, holds touch) ∧ ∀ touch ∈ second, holds touch :=
    fun _ _ _ => List.forall_mem_append
  cases call with
  | suppress pkt new =>
    have after : (dhd.arrive pkt new).Fits := fits.arrive arrives
    change (∀ touch ∈ suppressTouches order (dhd.arrive pkt new) pkt new, _) ↔ _
    unfold suppressTouches HeadersFit
    by_cases off : dhd.tcpackSupMode = .off
    · simp [Dhd.arrive, off]
    rw [if_neg (show ¬(dhd.arrive pkt new).tcpackSupMode = .off from off), split_,
      headerReads_iff (here pkt new)]
    refine ⟨fun both _ => ⟨both.1, fun looks mod present => ?_⟩, fun all => ⟨(all off).1, ?_⟩⟩
    · have rest := both.2
      rw [if_neg (not_not.mpr looks), show (dhd.arrive pkt new).tcpackSupModule = some mod from present]
        at rest
      exact (copied_iff (here pkt new)).mp ((split_ _ _ _).mp rest).2
    · obtain ⟨headed, copies⟩ := all off
      by_cases looks : new.LooksAck
      · rw [if_neg (not_not.mpr looks)]
        cases present : (dhd.arrive pkt new).tcpackSupModule with
        | none => simp
        | some mod =>
          refine (split_ _ _ _).mpr ⟨searchReads_inside (here pkt new) (looks.fit headed) ?_ _ _,
            (copied_iff (here pkt new)).mpr (copies looks mod present)⟩
          rw [← tbl_of present]
          exact after
      · simp [looks]
  | hold pkt new ifidx =>
    have after : (dhd.arrive pkt new).Fits := fits.arrive arrives
    change (∀ touch ∈ holdTouches (dhd.arrive pkt new) pkt new, _) ↔ _
    unfold holdTouches HeadersFit
    by_cases idle : dhd.tcpackSupMode ≠ .hold ∨ dhd.tcpackSupRatio = 1
    · rw [if_pos (show (dhd.arrive pkt new).tcpackSupMode ≠ .hold ∨
        (dhd.arrive pkt new).tcpackSupRatio = 1 from idle)]
      refine ⟨fun _ mode several => absurd idle (by simp [mode, several]), fun _ touch none_ => ?_⟩
      cases none_
    · rw [if_neg (show ¬((dhd.arrive pkt new).tcpackSupMode ≠ .hold ∨
        (dhd.arrive pkt new).tcpackSupRatio = 1) from idle), split_, headerReads_iff (here pkt new)]
      rw [not_or, not_not] at idle
      refine ⟨fun both _ _ => both.1, fun all => ⟨all idle.1 idle.2, ?_⟩⟩
      have headed := all idle.1 idle.2
      by_cases looks : new.LooksAck
      · rw [if_neg (not_not.mpr looks)]
        cases present : (dhd.arrive pkt new).tcpackSupModule with
        | none => simp
        | some mod =>
          refine searchReads_inside (here pkt new) (looks.fit headed) ?_ _ _
          rw [← tbl_of present]
          exact after
      · simp [looks]
  | suppressSet mode allocated => exact Iff.rfl
  | send i => exact Iff.rfl
  | checkXmit pkt pktlen => exact Iff.rfl
  | tblClean => exact Iff.rfl

/-- An IP packet with a header of the same length leaves the TCP header where it was. -/
theorem Frame.Fit.overwrite {old : Frame} (fit : old.Fit) (same : new.ipHdrLen = old.ipHdrLen) :
    (old.overwrite new).Fit := by
  have hdr : (old.overwrite new).ipHdrLen = old.ipHdrLen := by
    have length : new.ipPacket.length = new.ipTotalLen := Bytes.length_load
    by_cases nothing : new.ipTotalLen = 0
    · unfold Frame.ipHdrLen Frame.overwrite
      dsimp only
      rw [Bytes.store_outside (Or.inr (by omega))]
    · have first : (old.overwrite new).data etherHdrLen = new.data etherHdrLen := by
        have inside : 0 < new.ipPacket.length := by omega
        have stored : store old.data etherHdrLen new.ipPacket (etherHdrLen + 0) = new.ipPacket[0] :=
          Bytes.store_inside inside
        rw [show new.ipPacket[0] = new.data etherHdrLen by simp [Frame.ipPacket, load]] at stored
        exact stored
      unfold Frame.ipHdrLen at same ⊢
      rw [first, same]
  refine ⟨fit.long, ?_⟩
  have flags := fit.flags
  unfold Frame.tcpHdr at flags ⊢
  rw [hdr]
  exact flags

/-- What is in the table afterwards was there before, or is the new packet. -/
theorem Dhd.Fits.of {after : Dhd} (fits : dhd.Fits)
    (entries : ∀ i q, (after.tbl i).pktInQ = some q → ∃ j, (dhd.tbl j).pktInQ = some q)
    (frames : ∀ q frame, after.frames q = some frame → dhd.frames q = some frame) : after.Fits := by
  intro i oldpkt old queued buffer
  obtain ⟨j, before⟩ := entries i oldpkt queued
  exact fits j oldpkt old before (frames oldpkt old buffer)

theorem frames_pktfree {dhd : Dhd} {pkt q : Nat} {frame : Frame}
    (buffer : (dhd.pktfree pkt).frames q = some frame) : dhd.frames q = some frame := by
  change Function.update dhd.frames pkt none q = some frame at buffer
  by_cases same : q = pkt
  · rw [same, Function.update_self] at buffer
    cases buffer
  · rw [Function.update_of_ne same] at buffer
    exact buffer

theorem setInfo_entries {mod : TcpackSupModule} {i j q : Nat} {info : TcpackInfo}
    (queued : ((mod.setInfo i info).tcpackInfoTbl j).pktInQ = some q) :
    info.pktInQ = some q ∨ (mod.tcpackInfoTbl j).pktInQ = some q := by
  change (Function.update mod.tcpackInfoTbl i info j).pktInQ = some q at queued
  by_cases same : j = i
  · rw [same, Function.update_self] at queued
    exact Or.inl queued
  · rw [Function.update_of_ne same] at queued
    exact Or.inr queued

/-- A frame that fits goes into the table. -/
theorem Dhd.Fits.enter {mod mod' : TcpackSupModule} {i : Nat} {info : TcpackInfo} (fits : dhd.Fits)
    (present : dhd.tcpackSupModule = some mod) (fit : ∀ frame, dhd.frames pkt = some frame → frame.Fit)
    (mine : info.pktInQ = some pkt) (table : mod'.tcpackInfoTbl = (mod.setInfo i info).tcpackInfoTbl) :
    (dhd.withModule mod').Fits := by
  intro j oldpkt old queued buffer
  change (mod'.tcpackInfoTbl j).pktInQ = some oldpkt at queued
  rw [table] at queued
  rcases setInfo_entries queued with same | before
  · cases mine.symm.trans same
    exact fit old buffer
  · rw [← tbl_of present] at before
    exact fits j oldpkt old before buffer

theorem Dhd.Fits.suppress {mod : TcpackSupModule} {result : Dhd × Bool}
    (case : SuppressCase order dhd mod pkt new result) (fits : dhd.Fits)
    (present : dhd.tcpackSupModule = some mod) (here : dhd.frames pkt = some new)
    (headed : new.LooksAck → new.Fit) : result.1.Fits := by
  have fit : new.LooksAck → ∀ frame, dhd.frames pkt = some frame → frame.Fit := by
    intro looks frame same
    cases here.symm.trans same
    exact headed looks
  cases case with
  | passed => exact fits
  | replaced i oldpkt old inside queued buffer flow looks newer ipLen tcpLen =>
    intro j q frame entry kept
    have before := frames_pktfree kept
    change Function.update dhd.frames oldpkt (some (old.overwrite new)) q = some frame at before
    by_cases same : q = oldpkt
    · subst same
      rw [Function.update_self] at before
      cases before
      rw [← tbl_of present] at queued
      exact (fits i q old queued buffer).overwrite ipLen
    · rw [Function.update_of_ne same] at before
      exact fits j q frame entry before
  | entered looks room => exact fits.enter present (fit looks) rfl rfl

theorem Dhd.Fits.hold {mod : TcpackSupModule} {ifidx : Nat} {result : Dhd × Bool}
    (case : HoldCase order dhd mod pkt new ifidx result) (fits : dhd.Fits)
    (present : dhd.tcpackSupModule = some mod) (fit : ∀ frame, dhd.frames pkt = some frame → frame.Fit) :
    result.1.Fits := by
  cases case with
  | passed other => exact fits
  | broken i inside oldpkt queued gone => exact fits
  | released i oldpkt old inside queued buffer flow newer =>
    refine fits.of (fun j q entry => ⟨j, ?_⟩) fun _ _ => frames_pktfree
    rw [tbl_of present]
    rcases setInfo_entries entry with same | before
    · cases same
    · exact before
  | replaced i oldpkt old inside queued buffer flow newer =>
    have entered : (dhd.withModule (mod.setInfo i { mod.tcpackInfoTbl i with
        pktInQ := some pkt, ifidx := ifidx,
        suppCnt := (mod.tcpackInfoTbl i).suppCnt + 1 })).Fits := fits.enter present fit rfl rfl
    exact entered.of (fun j q entry => ⟨j, entry⟩) fun _ _ => frames_pktfree
  | outdated i oldpkt old inside queued buffer flow older =>
    exact fits.of (fun j q entry => ⟨j, entry⟩) fun _ _ => frames_pktfree
  | stored i inside empty => exact fits.enter present fit rfl rfl
  | lost looks several full => exact fits

theorem freeHeld_shrinks (dhd : Dhd) (mod : TcpackSupModule) (indices : List Nat) :
    (∀ i q, ((freeHeld dhd mod indices).2.tcpackInfoTbl i).pktInQ = some q →
      (mod.tcpackInfoTbl i).pktInQ = some q) ∧
    ∀ q frame, (freeHeld dhd mod indices).1.frames q = some frame → dhd.frames q = some frame := by
  induction indices generalizing dhd mod with
  | nil => exact ⟨fun _ _ => id, fun _ _ => id⟩
  | cons first rest ih =>
    unfold freeHeld
    split
    · exact ih dhd mod
    · obtain ⟨entries, frames⟩ := ih (dhd.pktfree _) (mod.setInfo first (mod.tcpackInfoTbl first).release)
      refine ⟨fun i q entry => ?_, fun q frame buffer => frames_pktfree (frames q frame buffer)⟩
      rcases setInfo_entries (entries i q entry) with same | before
      · cases same
      · exact before

/-- A table of which some entries are empty now. -/
theorem Dhd.Fits.shrink {after : Dhd} {mod mod' : TcpackSupModule} (fits : dhd.Fits)
    (present : dhd.tcpackSupModule = some mod) (now : after.tcpackSupModule = some mod')
    (entries : ∀ i q, (mod'.tcpackInfoTbl i).pktInQ = some q → ∃ j, (mod.tcpackInfoTbl j).pktInQ = some q)
    (frames : ∀ q frame, after.frames q = some frame → dhd.frames q = some frame) : after.Fits := by
  refine fits.of ?_ frames
  rw [tbl_of present, tbl_of now]
  exact entries

theorem Dhd.Fits.send (fits : dhd.Fits) (i : Nat) : (dhdTcpackSend dhd i).Fits := by
  unfold dhdTcpackSend
  split
  · exact fits
  rename_i mod present
  have kept : ∀ info : TcpackInfo, (∀ q, info.pktInQ = some q → (mod.tcpackInfoTbl i).pktInQ = some q) →
      ∀ j q, ((mod.setInfo i info).tcpackInfoTbl j).pktInQ = some q →
        ∃ k, (mod.tcpackInfoTbl k).pktInQ = some q := by
    intro info mine j q entry
    rcases setInfo_entries entry with same | before
    · exact ⟨i, mine q same⟩
    · exact ⟨j, before⟩
  dsimp only
  split
  · exact fits.shrink present rfl (kept _ fun _ => id) fun _ _ => id
  · split
    · exact fits.shrink present rfl (kept _ fun _ => id) fun _ _ => id
    · exact fits.shrink present rfl (kept (TcpackInfo.release _) fun _ none_ => by cases none_) fun _ _ => id

theorem Dhd.Fits.checkXmit (fits : dhd.Fits) (pkt pktlen : Nat) :
    (dhdTcpackCheckXmit dhd pkt pktlen).1.Fits := by
  unfold dhdTcpackCheckXmit
  split
  · exact fits
  split
  · exact fits
  split
  · exact fits
  rename_i mod present
  dsimp only
  split
  · exact fits
  · refine fits.shrink present rfl (fun j q entry => ?_) fun _ _ => id
    obtain ⟨k, source, -⟩ := moved_entry entry
    exact ⟨k, source⟩

theorem Dhd.Fits.tblClean (fits : dhd.Fits) : (dhdTcpackInfoTblClean dhd).Fits := by
  unfold dhdTcpackInfoTblClean
  split
  · exact fits
  split
  · exact fits
  rename_i mod present
  split
  · obtain ⟨entries, frames⟩ := freeHeld_shrinks dhd mod (List.range tcpackInfoMaxnum)
    refine fits.shrink present rfl (fun i q entry => ⟨i, entries i q ?_⟩) frames
    rw [← delTimers_pktInQ]
    exact entry
  · refine fits.shrink present rfl (fun i q entry => ⟨i, ?_⟩) fun _ _ => id
    dsimp only at entry
    split at entry
    · cases entry
    · exact entry

theorem Dhd.Fits.suppressSet (fits : dhd.Fits) (mode : UInt8) (allocated : Bool) :
    (dhdTcpackSuppressSet dhd mode allocated).1.Fits := by
  have table : TableFits dhd.frames (dhd.tcpackSupModule.getD newModule).tcpackInfoTbl := by
    cases present : dhd.tcpackSupModule with
    | none => exact fun _ _ _ queued => by cases queued
    | some mod =>
      rw [Option.getD_some, ← tbl_of present]
      exact fits
  unfold dhdTcpackSuppressSet
  split
  · exact fits
  split
  · exact fits
  · exact fits
  · exact fun _ _ _ queued => by cases queued
  · dsimp only
    split
    · exact fits
    split
    · intro i oldpkt old queued buffer
      have before := (initTimers_pktInQ _ i).symm.trans queued
      exact table i oldpkt old before buffer
    · exact table

theorem suppress_absent (absent : dhd.tcpackSupModule = none) :
    (dhdTcpackSuppress order dhd pkt new).1 = dhd := by
  unfold dhdTcpackSuppress
  split
  · rfl
  split
  · rfl
  · rw [absent]

theorem hold_quiet {ifidx : Nat} (quiet : dhd.tcpackSupMode = .hold → dhd.tcpackSupRatio ≠ 1 →
    new.LooksAck → dhd.tcpackSupModule = none) : (dhdTcpackHold order dhd pkt new ifidx).1 = dhd := by
  unfold dhdTcpackHold
  split
  · rfl
  split
  · rfl
  split
  · rfl
  · rename_i mode several looks
    rw [quiet (not_not.mp mode) several (not_not.mp looks)]

/-- Every call that stays inside leaves a table of frames that fit. -/
theorem callStep_fits {call : Call} (fits : dhd.Fits) (arrives : Arrives dhd call)
    (inside : StaysInside order dhd call) : (callStep order dhd call).1.Fits := by
  have fit := (staysInside_iff fits arrives).mp inside
  cases call with
  | suppressSet mode allocated => exact fits.suppressSet mode allocated
  | suppress pkt new =>
    have after : (dhd.arrive pkt new).Fits := fits.arrive arrives
    by_cases off : dhd.tcpackSupMode = .off
    · have same : dhdTcpackSuppress order (dhd.arrive pkt new) pkt new = (dhd.arrive pkt new, false) :=
        if_pos off
      rw [callStep, same]
      exact after
    · cases present : dhd.tcpackSupModule with
      | none =>
        rw [callStep, suppress_absent (show (dhd.arrive pkt new).tcpackSupModule = none from present)]
        exact after
      | some mod =>
        exact after.suppress (dhdTcpackSuppress_case present) present (frames_arrive _ _ _)
          fun looks => looks.fit (fit off).1
  | hold pkt new ifidx =>
    have after : (dhd.arrive pkt new).Fits := fits.arrive arrives
    by_cases busy : dhd.tcpackSupMode = .hold ∧ dhd.tcpackSupRatio ≠ 1 ∧ new.LooksAck
    · obtain ⟨mode, several, looks⟩ := busy
      cases present : dhd.tcpackSupModule with
      | none =>
        rw [callStep, @hold_quiet order (dhd.arrive pkt new) pkt new ifidx fun _ _ _ => present]
        exact after
      | some mod =>
        refine after.hold (dhdTcpackHold_case mode present) present fun frame same => ?_
        cases (frames_arrive dhd pkt new).symm.trans same
        exact looks.fit (fit mode several)
    · rw [callStep, @hold_quiet order (dhd.arrive pkt new) pkt new ifidx
        fun mode several looks => absurd ⟨mode, several, looks⟩ busy]
      exact after
  | send i => exact fits.send i
  | checkXmit pkt pktlen => exact fits.checkXmit pkt pktlen
  | tblClean => exact fits.tblClean

end

/-- All along a run the inspection stays inside the frames exactly if the headers of every frame
that comes in fit. -/
theorem inspection_inside_iff {order : TcpSeq} {calls : List Call}
    (admitted : ((tcpack order).restrict Arrives).Admitted dhdStart calls) :
    (∀ past call rest, calls = past ++ call :: rest →
      StaysInside order ((tcpack order).run dhdStart past) call) ↔
      ∀ past call rest, calls = past ++ call :: rest →
        HeadersFit order ((tcpack order).run dhdStart past) call := by
  have each := ((tcpack order).restrict Arrives).each_iff Dhd.Fits
    (fun dhd call fits meets => staysInside_iff fits meets.2)
    (fun dhd call fits meets inside => callStep_fits fits meets.2 inside)
    (fun _ _ _ queued => by cases queued) admitted
  simpa only [Machine.restrict_run] using each

theorem inspection_inside_iff_replacedCalls :
    StaysInside tcpSeq ((tcpack tcpSeq).run dhdStart [.suppressSet 1 true])
      (.suppress 1 (.sample 0 1 10)) := by
  have admitted : ((tcpack tcpSeq).restrict Arrives).Admitted dhdStart
      [.suppressSet 1 true, .suppress 1 (.sample 0 1 10)] :=
    ⟨⟨trivial, trivial⟩, ⟨trivial, fun _ queued => by cases queued⟩, trivial⟩
  refine (inspection_inside_iff admitted).mpr (fun past call rest split => ?_) [.suppressSet 1 true] _ [] rfl
  rcases List.cons_eq_append_iff.mp split with ⟨rfl, same⟩ | ⟨before, rfl, same⟩
  · cases same
    trivial
  · rcases List.cons_eq_append_iff.mp same with ⟨rfl, last⟩ | ⟨_, rfl, none_⟩
    · cases last
      refine fun _ => ⟨fun _ _ _ _ _ => by decide, fun _ mod present oldpkt old copies => ?_⟩
      obtain ⟨i, found, -⟩ := copies
      cases present
      cases found
    · simp at none_

/-- A frame of the least length whose IP header claims 60 bytes: the TCP flags would be 34 bytes
behind its end. -/
def longHeader : Frame := .ofBytes
  ([2, 0, 0, 0, 0, 1, 2, 0, 0, 0, 0, 2, 8, 0, 0x4f, 0, 0, 40, 0, 0, 0, 0, 64, 6] ++ List.replicate 30 0)

theorem inspection_leaves_frame :
    ((tcpack tcpSeq).restrict Arrives).Admitted dhdStart [.suppressSet 1 true, .suppress 1 longHeader] ∧
      longHeader.len = tcpackszmin ∧
      ⟨1, 87, 1⟩ ∈ suppressTouches tcpSeq
        (((tcpack tcpSeq).run dhdStart [.suppressSet 1 true]).arrive 1 longHeader) 1 longHeader ∧
      ¬ StaysInside tcpSeq ((tcpack tcpSeq).run dhdStart [.suppressSet 1 true]) (.suppress 1 longHeader) := by
  have touched : (⟨1, 87, 1⟩ : Touch) ∈ suppressTouches tcpSeq
      (((tcpack tcpSeq).run dhdStart [.suppressSet 1 true]).arrive 1 longHeader) 1 longHeader := by
    decide +kernel
  refine ⟨⟨⟨trivial, trivial⟩, ⟨trivial, fun _ queued => by cases queued⟩, trivial⟩, rfl, touched, ?_⟩
  intro inside
  obtain ⟨frame, same, fits⟩ := inside _ touched
  cases (frames_arrive _ 1 longHeader).symm.trans same
  exact absurd fits (by decide +kernel)

end BcmDhd.TcpAck
