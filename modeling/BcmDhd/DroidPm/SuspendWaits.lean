import Mathlib.Data.Fintype.EquivFin
import BcmDhd.DroidPm.Driver

namespace BcmDhd.DroidPm

open BcmDhd.Lib

/-- The driver together with the record of the last attempt to suspend. -/
def watched : Machine (PrivData × Attempt) PmCall (Option Int) := pm.observe (Attempt.note suspendBegins)

/-- When the attempt succeeds, it has been signalled, and only ever after everybody who was
registered had acknowledged it. -/
def Waited (seen : PrivData × Attempt) : Prop :=
  pm.answer seen.1 .prepareSuspendEnd = some 0 → seen.2.signals ≠ [] ∧
    ∀ signal ∈ seen.2.signals, ∀ a ∈ signal.registered, a ∈ signal.acknowledged

/-- No open file has an acknowledgement on it when an attempt begins. -/
def BeginsClean (s : PrivData) : Prop :=
  s.ready = true → ∀ a ∈ s.instanceList, (s.inst a).suspendAck = false

/-- Acknowledgements that count were given to this attempt. -/
structure InTime (seen : PrivData × Attempt) : Prop where
  acknowledged : ∀ a ∈ seen.1.instanceList, (seen.1.inst a).suspendAck = true → a ∈ seen.2.acknowledged
  signals : ∀ signal ∈ seen.2.signals, ∀ a ∈ signal.registered, a ∈ signal.acknowledged
  waiting : seen.1.suspendWait = .waiting → 0 < seen.1.suspendComplete → seen.2.signals ≠ []
  woken : ∀ ret, seen.1.suspendWait = .woken ret → 0 < ret → seen.2.signals ≠ []

section

variable {s after : PrivData} {attempt : Attempt} {a : InstancePtr}

theorem setInst_self (s : PrivData) (a : InstancePtr) (inst : Instance) : (s.setInst a inst).inst a = inst :=
  Function.update_self ..

theorem setInst_other {inst : Instance} {other : InstancePtr} (differs : other ≠ a) :
    (s.setInst a inst).inst other = s.inst other := Function.update_of_ne differs ..

theorem setInst_same {Part : Type*} (part : Instance → Part) {inst : Instance} (same : part inst = part (s.inst a))
    (other : InstancePtr) : part ((s.setInst a inst).inst other) = part (s.inst other) := by
  by_cases here : other = a
  · rw [here, setInst_self, same]
  · rw [setInst_other here]

theorem inTime_waited {seen : PrivData × Attempt} (inTime : InTime seen) : Waited seen := by
  intro succeeded
  refine ⟨?_, inTime.signals⟩
  change (droidPmPrepareSuspendEnd seen.1).2 = some 0 at succeeded
  unfold droidPmPrepareSuspendEnd at succeeded
  split at succeeded
  · rename_i ret woken
    refine inTime.woken ret woken ?_
    by_cases timeout : ret = 0
    · rw [if_pos timeout] at succeeded
      cases succeeded
    · by_cases interrupted : ret < 0
      · rw [if_neg timeout, if_pos interrupted] at succeeded
        cases succeeded
      · omega
  · cases succeeded

theorem InTime.same (inTime : InTime (s, attempt)) (list : after.instanceList = s.instanceList)
    (flags : ∀ a, (after.inst a).suspendAck = (s.inst a).suspendAck) (wait : after.suspendWait = s.suspendWait)
    (done : after.suspendComplete ≤ s.suspendComplete) : InTime (after, attempt) := by
  refine ⟨fun a member flagged => ?_, inTime.signals, fun waiting signalled => ?_, fun ret woken => ?_⟩
  · exact inTime.acknowledged a (list ▸ member) ((flags a).symm.trans flagged)
  · exact inTime.waiting (wait.symm.trans waiting) (Nat.lt_of_lt_of_le signalled done)
  · exact inTime.woken ret (wait.symm.trans woken)

theorem canWeNowSuspend_iff :
    droidPmCanWeNowSuspend s = true ↔
      ∀ a ∈ s.instanceList, (s.inst a).registered = true → (s.inst a).suspendAck = true := by
  unfold droidPmCanWeNowSuspend
  rw [List.all_eq_true]
  refine forall_congr' fun a => forall_congr' fun _ => ?_
  cases (s.inst a).registered with
  | false => simp
  | true => simp

theorem mem_registeredClients :
    a ∈ s.registeredClients ↔ a ∈ s.instanceList ∧ (s.inst a).registered = true := List.mem_filter

theorem acknowledge_spec (s : PrivData) (a other : InstancePtr) :
    ((acknowledge s a).inst other).registered = (s.inst other).registered ∧
      (((acknowledge s a).inst other).suspendAck = true ↔
        (s.inst other).suspendAck = true ∨ other = a ∧ (s.inst a).registered = true) := by
  unfold acknowledge
  by_cases registered : (s.inst a).registered = true
  · rw [if_pos registered]
    refine ⟨setInst_same Instance.registered (by rfl) other, ?_⟩
    by_cases here : other = a
    · rw [here, setInst_self]
      exact iff_of_true rfl (Or.inr ⟨rfl, registered⟩)
    · rw [setInst_other here]
      simp [here]
  · rw [if_neg registered]
    simp [registered]

theorem acknowledge_frame (s : PrivData) (a : InstancePtr) :
    (acknowledge s a).instanceList = s.instanceList ∧ (acknowledge s a).suspendWait = s.suspendWait ∧
      (acknowledge s a).suspendComplete = s.suspendComplete ∧
      (acknowledge s a).shutdownWait = s.shutdownWait := by
  unfold acknowledge
  split
  · exact ⟨rfl, rfl, rfl, rfl⟩
  · exact ⟨rfl, rfl, rfl, rfl⟩

theorem take_frame (s : PrivData) (ret : Int) :
    (s.take ret).instanceList = s.instanceList ∧ (s.take ret).inst = s.inst ∧
      (s.take ret).suspendWait = s.suspendWait ∧ (s.take ret).suspendComplete ≤ s.suspendComplete := by
  unfold PrivData.take
  split
  · exact ⟨rfl, rfl, rfl, Nat.sub_le ..⟩
  · exact ⟨rfl, rfl, rfl, le_rfl⟩

section

variable (inTime : InTime (s, attempt))
include inTime

theorem InTime.openFile (object : Option InstancePtr) :
    InTime ((droidPmOpen s object).1, attempt) := by
  cases object with
  | none => exact inTime
  | some a =>
    refine ⟨fun b member flagged => ?_, inTime.signals, inTime.waiting, inTime.woken⟩
    change ((s.setInst a .zeroed).inst b).suspendAck = true at flagged
    by_cases here : b = a
    · rw [here, setInst_self] at flagged
      cases flagged
    · rw [setInst_other here] at flagged
      rcases List.mem_append.mp member with old | new
      · exact inTime.acknowledged b old flagged
      · exact absurd (List.mem_singleton.mp new) here

theorem InTime.close (unique : s.instanceList.Nodup) :
    InTime (droidPmClose s a, { attempt with acknowledged := attempt.acknowledged.filter (· ≠ a) }) := by
  refine ⟨fun b member flagged => ?_, inTime.signals, inTime.waiting, inTime.woken⟩
  obtain ⟨differs, listed⟩ := unique.mem_erase_iff.mp member
  exact List.mem_filter.mpr ⟨inTime.acknowledged b listed flagged, by simpa using differs⟩

theorem InTime.registerEvents (eventfd : Option Int) (ctx : Option EventfdCtx) :
    InTime ((registerEvents s a eventfd ctx).1, attempt) := by
  unfold DroidPm.registerEvents
  split
  · exact inTime
  split
  · exact inTime
  dsimp only
  split
  · exact inTime.same rfl (setInst_same Instance.suspendAck (by rfl)) rfl le_rfl
  · exact inTime.same rfl (setInst_same Instance.suspendAck (by rfl)) rfl le_rfl

theorem InTime.unregisterEvents : InTime ((unregisterEvents s a).1, attempt) := by
  unfold DroidPm.unregisterEvents
  split
  · exact inTime.same rfl (setInst_same Instance.suspendAck (by rfl)) rfl le_rfl
  · exact inTime

/-- A signal finds only acknowledgements of this attempt. -/
theorem InTime.setSuspendAck :
    InTime ((setSuspendAck s a).1, attempt.note suspendBegins s (.setSuspendAck a)) := by
  have noted : attempt.note suspendBegins s (.setSuspendAck a) =
      if (s.suspending || s.shutdown) = true then
        let acknowledged := if (s.inst a).registered then a :: attempt.acknowledged else attempt.acknowledged
        if droidPmCanWeNowSuspend (acknowledge s a) then
          ⟨acknowledged, attempt.signals ++ [⟨s.registeredClients, acknowledged⟩]⟩
        else ⟨acknowledged, attempt.signals⟩
      else attempt := rfl
  rw [noted]
  unfold DroidPm.setSuspendAck
  by_cases asked : (s.suspending || s.shutdown) = true
  · rw [if_pos asked, if_pos asked]
    generalize same : (if (s.inst a).registered then a :: attempt.acknowledged else attempt.acknowledged) = now
    obtain ⟨list, wait, done, _⟩ := acknowledge_frame s a
    have flagged : ∀ b ∈ s.instanceList, ((acknowledge s a).inst b).suspendAck = true → b ∈ now := by
      intro b member flag
      rw [← same]
      rcases (acknowledge_spec s a b).2.mp flag with old | ⟨here, registered⟩
      · have before := inTime.acknowledged b member old
        split
        · exact List.mem_cons_of_mem a before
        · exact before
      · rw [if_pos registered, here]
        exact List.mem_cons_self
    dsimp only
    by_cases all : droidPmCanWeNowSuspend (acknowledge s a) = true
    · rw [if_pos all, if_pos all]
      have signalled : attempt.signals ++ [⟨s.registeredClients, now⟩] ≠ [] := by simp
      refine ⟨fun b member flag => ?_, fun signal member b among => ?_, fun _ _ => signalled, fun _ _ _ => signalled⟩
      · refine flagged b (list ▸ member) ?_
        change (if b ∈ _ ∧ _ then { (acknowledge s a).inst b with suspendAck := false } else
          (acknowledge s a).inst b).suspendAck = true at flag
        split at flag
        · cases flag
        · exact flag
      · rcases List.mem_append.mp member with old | new
        · exact inTime.signals signal old b among
        · cases List.mem_singleton.mp new
          obtain ⟨listed, registered⟩ := mem_registeredClients.mp among
          refine flagged b listed (canWeNowSuspend_iff.mp all b (list.symm ▸ listed) ?_)
          rw [(acknowledge_spec s a b).1]
          exact registered
    · rw [if_neg all, if_neg all]
      refine ⟨fun b member flag => flagged b (list ▸ member) flag, inTime.signals, fun waiting signalled => ?_,
        fun ret woken => inTime.woken ret (wait.symm.trans woken)⟩
      exact inTime.waiting (wait.symm.trans waiting) (done ▸ signalled)
  · rw [if_neg asked, if_neg asked]
    exact inTime

theorem InTime.prepareSuspend (clean : BeginsClean s) :
    InTime ((droidPmPrepareSuspend s).1, attempt.note suspendBegins s .prepareSuspend) := by
  by_cases ready : s.ready = true
  · have begun : attempt.note suspendBegins s .prepareSuspend = .fresh := if_pos (by simp [suspendBegins, ready])
    rw [begun, droidPmPrepareSuspend, if_pos ready]
    refine ⟨fun b member flagged => ?_, fun signal member => absurd member List.not_mem_nil,
      fun _ signalled => absurd signalled (Nat.lt_irrefl 0), fun ret woken => Wait.noConfusion woken⟩
    exact absurd ((clean ready b member).symm.trans flagged) (by decide)
  · have idle : attempt.note suspendBegins s .prepareSuspend = attempt := if_neg (by simp [suspendBegins, ready])
    rw [idle, droidPmPrepareSuspend, if_neg ready]
    exact inTime

theorem InTime.suspendWoken {ret : Int}
    (admitted : pm.admits s (.suspendWoken ret)) :
    InTime ({ s.take ret with suspendWait := .woken ret }, attempt) := by
  obtain ⟨list, inst, _⟩ := take_frame s ret
  refine ⟨fun b member flagged => ?_, inTime.signals, fun waiting => Wait.noConfusion waiting,
    fun other woken positive => ?_⟩
  · exact inTime.acknowledged b (list ▸ member) (inst ▸ flagged)
  · cases woken
    exact inTime.waiting admitted.1 (admitted.2.mp positive)

theorem InTime.prepareSuspendEnd : InTime ((droidPmPrepareSuspendEnd s).1, attempt) := by
  unfold droidPmPrepareSuspendEnd
  split
  · have ended : ∀ suspending, InTime ({ s with suspendWait := .idle, suspending := suspending }, attempt) :=
      fun _ => ⟨inTime.acknowledged, inTime.signals, fun waiting => Wait.noConfusion waiting,
        fun _ woken => Wait.noConfusion woken⟩
    split
    · exact ended false
    split
    · exact ended false
    · exact ended s.suspending
  · exact inTime

theorem InTime.rebootShutdownEnd : InTime ((droidPmRebootShutdownEnd s).1, attempt) := by
  unfold droidPmRebootShutdownEnd
  split
  · split
    · exact inTime.same rfl (fun _ => rfl) rfl le_rfl
    · exact inTime.same rfl (fun _ => rfl) rfl le_rfl
  · exact inTime

end

/-- The list has every instance once, and the driver's own, which takes no part. -/
structure Listed (s : PrivData) : Prop where
  unique : s.instanceList.Nodup
  own : s.localInstance ∈ s.instanceList
  silent : (s.inst s.localInstance).registered = false ∧ (s.inst s.localInstance).suspendAck = false

theorem Listed.same (listed : Listed s) (list : after.instanceList = s.instanceList)
    (own : after.localInstance = s.localInstance)
    (inst : after.inst s.localInstance = s.inst s.localInstance) : Listed after :=
  ⟨list ▸ listed.unique, by rw [list, own]; exact listed.own, by rw [own, inst]; exact listed.silent⟩

theorem Listed.setInst (listed : Listed s) (file : s.IsFile a) (inst : Instance) : Listed (s.setInst a inst) :=
  listed.same rfl rfl (setInst_other file.2.symm)

theorem pm_listed : pm.Preserves Listed := by
  intro s call listed admitted
  cases call with
  | openFile object =>
    cases object with
    | none => exact listed
    | some a =>
      have fresh : a ∉ s.instanceList := admitted
      have differs : s.localInstance ≠ a := fun here => fresh (here ▸ listed.own)
      refine ⟨?_, List.mem_append_left _ listed.own, ?_⟩
      · refine List.nodup_append.mpr ⟨listed.unique, List.nodup_singleton a, fun b old c new => ?_⟩
        rw [List.mem_singleton.mp new]
        exact fun here => fresh (here ▸ old)
      · change ((s.setInst a .zeroed).inst s.localInstance).registered = false ∧
          ((s.setInst a .zeroed).inst s.localInstance).suspendAck = false
        rw [setInst_other differs]
        exact listed.silent
  | close a =>
    have file : s.IsFile a := admitted
    exact ⟨listed.unique.erase a, listed.unique.mem_erase_iff.mpr ⟨file.2.symm, listed.own⟩, listed.silent⟩
  | registerEvents a eventfd ctx =>
    change Listed (registerEvents s a eventfd ctx).1
    unfold registerEvents
    split
    · exact listed
    split
    · exact listed
    dsimp only
    split
    · exact listed.setInst admitted _
    · exact listed.setInst admitted _
  | unregisterEvents a =>
    change Listed (unregisterEvents s a).1
    unfold unregisterEvents
    split
    · exact listed.setInst admitted _
    · exact listed
  | setSuspendAck a =>
    have noted : Listed (acknowledge s a) := by
      unfold acknowledge
      split
      · exact listed.setInst admitted _
      · exact listed
    change Listed (setSuspendAck s a).1
    unfold setSuspendAck
    split
    · dsimp only
      split
      · refine noted.same rfl rfl (if_neg fun both => ?_)
        exact absurd (noted.silent.1.symm.trans both.2) (by decide)
      · exact noted
    · exact listed
  | setInteractive on =>
    cases on with
    | none => exact listed
    | some on => exact listed.same rfl rfl rfl
  | prepareSuspend =>
    change Listed (droidPmPrepareSuspend s).1
    unfold droidPmPrepareSuspend
    split
    · exact listed.same rfl rfl rfl
    · exact listed
  | suspendWoken ret =>
    change Listed { s.take ret with suspendWait := .woken ret }
    unfold PrivData.take
    split
    · exact listed.same rfl rfl rfl
    · exact listed.same rfl rfl rfl
  | prepareSuspendEnd =>
    change Listed (droidPmPrepareSuspendEnd s).1
    unfold droidPmPrepareSuspendEnd
    split
    · split
      · exact listed.same rfl rfl rfl
      split
      · exact listed.same rfl rfl rfl
      · exact listed.same rfl rfl rfl
    · exact listed
  | completeResume event => exact listed.same rfl rfl rfl
  | rebootShutdown powerOff =>
    change Listed (droidPmRebootShutdown s powerOff).1
    unfold droidPmRebootShutdown
    split
    · exact listed.same rfl rfl rfl
    · exact listed
  | shutdownWoken ret =>
    change Listed { s.take ret with shutdownWait := .woken ret }
    unfold PrivData.take
    split
    · exact listed.same rfl rfl rfl
    · exact listed.same rfl rfl rfl
  | rebootShutdownEnd =>
    change Listed (droidPmRebootShutdownEnd s).1
    unfold droidPmRebootShutdownEnd
    split
    · split
      · exact listed.same rfl rfl rfl
      · exact listed.same rfl rfl rfl
    · exact listed

theorem pmStart_listed (localInstance : InstancePtr) : Listed (pmStart localInstance) :=
  ⟨List.nodup_singleton _, List.mem_singleton_self _, rfl, rfl⟩

/-- A call keeps acknowledgements in time, if it does not begin an attempt with old ones. -/
theorem watched_inTime {call : PmCall} (listed : Listed s) (inTime : InTime (s, attempt))
    (clean : call = .prepareSuspend → BeginsClean s) (admitted : pm.admits s call) :
    InTime (watched.next (s, attempt) call) := by
  cases call with
  | openFile object => exact inTime.openFile object
  | close a => exact inTime.close listed.unique
  | registerEvents a eventfd ctx => exact inTime.registerEvents eventfd ctx
  | unregisterEvents a => exact inTime.unregisterEvents
  | setSuspendAck a => exact inTime.setSuspendAck
  | setInteractive on =>
    cases on with
    | none => exact inTime
    | some on => exact inTime.same rfl (fun _ => rfl) rfl le_rfl
  | prepareSuspend => exact inTime.prepareSuspend (clean rfl)
  | suspendWoken ret => exact inTime.suspendWoken admitted
  | prepareSuspendEnd => exact inTime.prepareSuspendEnd
  | completeResume event => exact inTime.same rfl (fun _ => rfl) rfl le_rfl
  | rebootShutdown powerOff =>
    change InTime ((droidPmRebootShutdown s powerOff).1, attempt)
    unfold droidPmRebootShutdown
    split
    · exact inTime.same rfl (fun _ => rfl) rfl (Nat.zero_le _)
    · exact inTime
  | shutdownWoken ret =>
    obtain ⟨list, inst, wait, done⟩ := take_frame s ret
    exact inTime.same list (fun b => by rw [← inst]; rfl) wait done
  | rebootShutdownEnd => exact inTime.rebootShutdownEnd

/-- The call does not begin an attempt with old acknowledgements. -/
def CleanCall (seen : PrivData × Attempt) (call : PmCall) : Prop := call = .prepareSuspend → BeginsClean seen.1

theorem run_inTime {seen : PrivData × Attempt} {calls : List PmCall} (listed : Listed seen.1) (inTime : InTime seen)
    (admitted : pm.Admitted seen.1 calls)
    (clean : ∀ past rest, calls = past ++ .prepareSuspend :: rest → BeginsClean (pm.run seen.1 past)) :
    InTime (watched.run seen calls) := by
  have kept : (watched.restrict CleanCall).Preserves fun seen => Listed seen.1 ∧ InTime seen := by
    intro seen call both accepted
    exact ⟨pm_listed seen.1 call both.1 accepted.1, watched_inTime both.1 both.2 accepted.2 accepted.1⟩
  have met : (watched.restrict CleanCall).Admitted seen calls := by
    refine (watched.admitted_restrict_iff seen calls).mpr ⟨(pm.observe_admitted _ seen calls).mpr admitted, ?_⟩
    intro past call rest split begins
    rw [begins] at split
    rw [watched, pm.observe_run]
    exact clean past rest split
  have reached := Machine.run_invariant _ kept ⟨listed, inTime⟩ met
  rw [Machine.restrict_run] at reached
  exact reached.2

/-- Files that are closed leave the list, and nothing else happens. -/
theorem run_closes (listed : Listed s) {closing : List InstancePtr} (apart : closing.Nodup)
    (files : ∀ a ∈ closing, s.IsFile a) :
    pm.Admitted s (closing.map .close) ∧
      watched.run (s, .fresh) (closing.map .close) =
        ({ s with instanceList := s.instanceList.filter (· ∉ closing) }, .fresh) := by
  induction closing generalizing s with
  | nil => exact ⟨trivial, by simp⟩
  | cons a rest ih =>
    obtain ⟨elsewhere, later⟩ := List.nodup_cons.mp apart
    have file := files a List.mem_cons_self
    have kept : s.instanceList.erase a ≠ [] :=
      List.ne_nil_of_mem (listed.unique.mem_erase_iff.mpr ⟨file.2.symm, listed.own⟩)
    have closed : droidPmClose s a = { s with instanceList := s.instanceList.erase a } := by
      unfold droidPmClose
      simp only [if_neg kept]
    have still : ∀ b ∈ rest, PrivData.IsFile { s with instanceList := s.instanceList.erase a } b := by
      intro b among
      obtain ⟨listedB, own⟩ := files b (List.mem_cons_of_mem a among)
      exact ⟨listed.unique.mem_erase_iff.mpr ⟨fun here => elsewhere (here ▸ among), listedB⟩, own⟩
    have next := pm_listed s (.close a) listed file
    change Listed (droidPmClose s a) at next
    rw [closed] at next
    obtain ⟨admitted, run⟩ := ih next later still
    have step : watched.next (s, .fresh) (.close a) = ({ s with instanceList := s.instanceList.erase a }, .fresh) := by
      rw [← closed]
      rfl
    rw [List.map_cons, Machine.admitted_cons, Machine.run_cons, step, run]
    refine ⟨⟨file, ?_⟩, ?_⟩
    · change pm.Admitted (droidPmClose s a) _
      rw [closed]
      exact admitted
    · have order : (s.instanceList.erase a).filter (· ∉ rest) = s.instanceList.filter (· ∉ a :: rest) := by
        rw [listed.unique.erase_eq_filter, List.filter_filter]
        refine List.filter_congr fun b _ => ?_
        by_cases here : b = a
        · simp [here]
        · simp [here]
      rw [← order]

/-- A client with an old acknowledgement registers, and somebody else's call signals the
completion without it. -/
def skipClient (a b : InstancePtr) : List PmCall :=
  [.registerEvents a (some 1) (some 0), .openFile (some b), .setSuspendAck b, .suspendWoken 1]

theorem skipClient_skips (waiting : s.suspendWait = .waiting) (suspending : s.suspending = true)
    (done : s.suspendComplete = 0) (own : s.localInstance ∈ s.instanceList) (file : s.IsFile a)
    (old : (s.inst a).suspendAck = true)
    (others : ∀ other ∈ s.instanceList, other ≠ a → (s.inst other).registered = false) {b : InstancePtr}
    (fresh : b ∉ s.instanceList) :
    pm.Admitted s (skipClient a b) ∧ ¬Waited (watched.run (s, .fresh) (skipClient a b)) := by
  generalize again : s.setInst a { s.inst a with eventfdCtx := some 0, registered := true } = registered
  have first : watched.next (s, .fresh) (.registerEvents a (some 1) (some 0)) = (registered, .fresh) := by
    rw [← again]
    rfl
  generalize opens : (droidPmOpen registered (some b)).1 = opened
  have second : watched.next (registered, .fresh) (.openFile (some b)) = (opened, .fresh) := by
    rw [← opens]
    rfl
  have differs : b ≠ a := fun here => fresh (here ▸ file.1)
  have list : opened.instanceList = s.instanceList ++ [b] := by rw [← opens, ← again]; rfl
  have instA : opened.inst a = { s.inst a with eventfdCtx := some 0, registered := true } := by
    rw [← opens, ← again]
    exact (setInst_other differs.symm).trans (setInst_self ..)
  have instB : opened.inst b = .zeroed := by
    rw [← opens]
    exact setInst_self ..
  have instOther : ∀ other ∈ s.instanceList, other ≠ a → opened.inst other = s.inst other := by
    intro other member apart
    have new : other ≠ b := fun here => fresh (here ▸ member)
    rw [← opens, ← again]
    exact (setInst_other new).trans (setInst_other apart)
  have unmoved : acknowledge opened b = opened := if_neg (by rw [instB]; decide)
  have all : droidPmCanWeNowSuspend opened = true := by
    refine canWeNowSuspend_iff.mpr fun other member registered => ?_
    by_cases here : other = a
    · rw [here, instA]
      exact old
    · rw [list] at member
      rcases List.mem_append.mp member with before | new
      · rw [instOther other before here, others other before here] at registered
        cases registered
      · rw [List.mem_singleton.mp new, instB] at registered
        cases registered
  have asked : (opened.suspending || opened.shutdown) = true := by
    rw [← opens, ← again]
    exact Bool.or_eq_true_iff.mpr (Or.inl suspending)
  have third : watched.next (opened, .fresh) (.setSuspendAck b) =
      (droidPmClearSuspend opened.complete, ⟨[], [⟨opened.registeredClients, []⟩]⟩) := by
    change ((setSuspendAck opened b).1, Attempt.fresh.note suspendBegins opened (.setSuspendAck b)) = _
    have unregistered : (opened.inst b).registered = false := by rw [instB]; rfl
    have noted : Attempt.fresh.note suspendBegins opened (.setSuspendAck b) =
        ⟨[], [⟨opened.registeredClients, []⟩]⟩ := by
      simp [Attempt.note, suspendBegins, asked, unregistered, unmoved, all, Attempt.fresh]
    rw [noted, setSuspendAck, if_pos asked]
    simp only [unmoved, all, if_true]
  have signalled : (droidPmClearSuspend opened.complete).suspendComplete = 1 := by
    rw [← opens, ← again]
    exact congrArg (· + 1) done
  have waits : (droidPmClearSuspend opened.complete).suspendWait = .waiting := by
    rw [← opens, ← again]
    exact waiting
  refine ⟨?_, fun waited => ?_⟩
  · have accepts : pm.Admitted s (skipClient a b) ↔ watched.Admitted (s, .fresh) (skipClient a b) :=
      (pm.observe_admitted (Attempt.note suspendBegins) (s, .fresh) (skipClient a b)).symm
    rw [accepts, skipClient, Machine.admitted_cons, first, Machine.admitted_cons, second, Machine.admitted_cons, third]
    refine ⟨file, ?_, ⟨?_, ?_⟩, ⟨waits, ?_⟩, trivial⟩
    · rw [← again]
      exact fresh
    · rw [list]
      exact List.mem_append_right _ (List.mem_singleton_self b)
    · rw [← opens, ← again]
      exact fun here => fresh (here ▸ own)
    · rw [signalled]
      decide
  · rw [skipClient, Machine.run_cons, first, Machine.run_cons, second, Machine.run_cons, third] at waited
    obtain ⟨_, everybody⟩ := waited rfl
    have member : a ∈ opened.registeredClients := by
      refine mem_registeredClients.mpr ⟨?_, ?_⟩
      · rw [list]
        exact List.mem_append_left _ file.1
      · rw [instA]
    exact List.not_mem_nil (everybody _ (List.mem_singleton_self _) a member)

/-- An attempt that begins with an old acknowledgement can succeed without the client. -/
theorem stale_skipped (listed : Listed s) (idle : s.suspendWait = .idle) (stale : ¬BeginsClean s)
    (attempt : Attempt) :
    ∃ during, pm.Admitted s (.prepareSuspend :: during) ∧ .prepareSuspend ∉ during ∧
      ¬Waited (watched.run (s, attempt) (.prepareSuspend :: during)) := by
  obtain ⟨ready, a, member, old⟩ : s.ready = true ∧ ∃ a ∈ s.instanceList, (s.inst a).suspendAck = true := by
    unfold BeginsClean at stale
    push Not at stale
    obtain ⟨ready, a, member, flagged⟩ := stale
    exact ⟨ready, a, member, by simpa using flagged⟩
  have own : a ≠ s.localInstance := by
    intro here
    rw [here] at old
    exact absurd (listed.silent.2.symm.trans old) (by decide)
  generalize begins : (droidPmPrepareSuspend s).1 = begun
  have started : begun = { (droidPmSignalEvent { s with suspending := true } eventSuspending).reinitCompletion with
      suspendWait := .waiting } := by
    rw [← begins, droidPmPrepareSuspend, if_pos ready]
  have first : watched.next (s, attempt) .prepareSuspend = (begun, .fresh) := by
    have fresh : attempt.note suspendBegins s .prepareSuspend = .fresh := if_pos (by simp [suspendBegins, ready])
    change ((droidPmPrepareSuspend s).1, attempt.note suspendBegins s .prepareSuspend) = _
    rw [fresh, begins]
  have list : begun.instanceList = s.instanceList := by rw [started]; rfl
  have inst : begun.inst = s.inst := by rw [started]; rfl
  have driver : begun.localInstance = s.localInstance := by rw [started]; rfl
  have there : Listed begun := listed.same list driver (by rw [inst])
  -- Everybody else closes, and a new file's call finds nothing that is missing.
  let closing := begun.instanceList.filter fun b => b ≠ a ∧ b ≠ begun.localInstance
  have files : ∀ b ∈ closing, begun.IsFile b := by
    intro b among
    obtain ⟨inList, apart⟩ := List.mem_filter.mp among
    exact ⟨inList, (of_decide_eq_true apart).2⟩
  obtain ⟨closes, left⟩ := run_closes there (there.unique.filter _) files
  generalize alone : ({ begun with instanceList := begun.instanceList.filter (· ∉ closing) } : PrivData) = rest at left
  have remain : ∀ b, b ∈ rest.instanceList ↔ b ∈ s.instanceList ∧ (b = a ∨ b = s.localInstance) := by
    intro b
    rw [← alone, ← list, ← driver]
    simp only [closing, List.mem_filter]
    by_cases inList : b ∈ begun.instanceList
    · simp [inList]
    · simp [inList]
  obtain ⟨b, fresh⟩ := Infinite.exists_notMem_finset rest.instanceList.toFinset
  rw [List.mem_toFinset] at fresh
  have instRest : rest.inst = s.inst := by rw [← alone]; exact inst
  have ownRest : rest.localInstance = s.localInstance := by rw [← alone]; exact driver
  have skips := @skipClient_skips rest a (by rw [← alone, started]) (by rw [← alone, started]; rfl)
    (by rw [← alone, started]; rfl) (by rw [ownRest]; exact (remain _).mpr ⟨listed.own, Or.inr rfl⟩)
    ⟨(remain a).mpr ⟨member, Or.inl rfl⟩, by rw [ownRest]; exact own⟩ (by rw [instRest]; exact old)
    (fun other among apart => by
      rw [((remain other).mp among).2.resolve_left apart, instRest]
      exact listed.silent.1) b fresh
  refine ⟨closing.map .close ++ skipClient a b, ?_, ?_, ?_⟩
  · refine ⟨idle, ?_⟩
    change pm.Admitted (droidPmPrepareSuspend s).1 _
    have reached : pm.run begun (closing.map .close) = rest :=
      (pm.observe_run (Attempt.note suspendBegins) (begun, .fresh) _).symm.trans (congrArg Prod.fst left)
    rw [begins, pm.admitted_append, reached]
    exact ⟨closes, skips.1⟩
  · intro again
    rcases List.mem_append.mp again with close | skip
    · obtain ⟨b, _, same⟩ := List.mem_map.mp close
      cases same
    · simp [skipClient] at skip
  · rw [Machine.run_cons, first, watched.run_append, left]
    exact skips.2

end

/-- In every run, an attempt to suspend that succeeds has waited for everybody who is
registered, if attempts only begin while no open file has an acknowledgement on it; where
one begins otherwise, it can succeed without a client. -/
theorem suspend_waits_iff (localInstance : InstancePtr) (calls : List PmCall)
    (admitted : pm.Admitted (pmStart localInstance) calls) :
    let reached := pm.run (pmStart localInstance)
    let seen := watched.run (pmStart localInstance, .fresh)
    ((∀ past rest, calls = past ++ .prepareSuspend :: rest → BeginsClean (reached past)) →
      ∀ past rest, calls = past ++ rest → Waited (seen past)) ∧
    ((reached calls).suspendWait = .idle → ¬BeginsClean (reached calls) →
      ∃ during, pm.Admitted (pmStart localInstance) (calls ++ .prepareSuspend :: during) ∧
        .prepareSuspend ∉ during ∧ ¬Waited (seen (calls ++ .prepareSuspend :: during))) := by
  intro reached seen
  have listed := pmStart_listed localInstance
  have inTime : InTime (pmStart localInstance, .fresh) := by
    refine ⟨fun a _ flagged => ?_, fun signal member => absurd member List.not_mem_nil,
      fun waiting => Wait.noConfusion waiting, fun ret woken => Wait.noConfusion woken⟩
    cases flagged
  constructor
  · intro clean past rest split
    have before : pm.Admitted (pmStart localInstance) past := by
      rw [split, pm.admitted_append] at admitted
      exact admitted.1
    refine inTime_waited (run_inTime listed inTime before fun earlier later begins => ?_)
    refine clean earlier (later ++ rest) ?_
    rw [split, begins, List.append_assoc, List.cons_append]
  · intro idle stale
    have there : Listed (reached calls) := pm.run_invariant pm_listed listed admitted
    obtain ⟨during, accepts, alone, skipped⟩ := stale_skipped there idle stale (seen calls).2
    refine ⟨during, (pm.admitted_append _ _ _).mpr ⟨admitted, accepts⟩, alone, ?_⟩
    have same : seen calls = (reached calls, (seen calls).2) :=
      Prod.ext (pm.observe_run _ _ calls) rfl
    change ¬Waited (watched.run _ (calls ++ .prepareSuspend :: during))
    rw [watched.run_append]
    change ¬Waited (watched.run (seen calls) _)
    rw [same]
    exact skipped

instance (s : PrivData) : Decidable (BeginsClean s) := inferInstanceAs (Decidable (_ → _))

/-- Two clients that both acknowledge the attempt. -/
def cleanAttempt : List PmCall :=
  [.openFile (some 1), .registerEvents 1 (some 5) (some 1), .openFile (some 2),
    .registerEvents 2 (some 6) (some 2), .prepareSuspend, .setSuspendAck 1, .setSuspendAck 2, .suspendWoken 1]

theorem suspend_waits_iff_cleanAttempt :
    pm.answer (pm.run (pmStart 0) cleanAttempt) .prepareSuspendEnd = some 0 ∧
      ∀ past rest, cleanAttempt = past ++ rest → Waited (watched.run (pmStart 0, .fresh) past) := by
  have clean : (pm.restrict fun s call => call = .prepareSuspend → BeginsClean s).Admitted (pmStart 0)
      cleanAttempt := by
    decide +kernel
  obtain ⟨admitted, begins⟩ := (pm.admitted_restrict_iff _ _).mp clean
  exact ⟨by decide +kernel, (suspend_waits_iff 0 cleanAttempt admitted).1 fun past rest split =>
    begins past _ rest split rfl⟩

/-- Two clients, of which one acknowledges an attempt that times out, and the other one the
next. -/
def twoAttempts : List PmCall :=
  [.openFile (some 1), .registerEvents 1 (some 5) (some 1), .openFile (some 2),
    .registerEvents 2 (some 6) (some 2), .prepareSuspend, .setSuspendAck 1, .suspendWoken 0, .prepareSuspendEnd,
    .completeResume 3, .prepareSuspend, .setSuspendAck 2, .suspendWoken 1]

theorem twoAttempts_admitted : pm.Admitted (pmStart 0) twoAttempts := by decide +kernel

/-- The second attempt succeeds, but the first client has not acknowledged it. -/
theorem second_attempt_skips :
    let seen := watched.run (pmStart 0, .fresh) twoAttempts
    pm.Admitted (pmStart 0) twoAttempts ∧ pm.answer seen.1 .prepareSuspendEnd = some 0 ∧
      seen.2.signals = [⟨[1, 2], [2]⟩] ∧ ¬Waited seen := by
  intro seen
  have signals : seen.2.signals = [⟨[1, 2], [2]⟩] := by decide +kernel
  have succeeded : pm.answer seen.1 .prepareSuspendEnd = some 0 := by decide +kernel
  refine ⟨twoAttempts_admitted, succeeded, signals, fun waited => ?_⟩
  have everybody := (waited succeeded).2 ⟨[1, 2], [2]⟩ (by rw [signals]; exact List.mem_singleton_self _) 1 (by decide)
  exact absurd everybody (by decide)

end BcmDhd.DroidPm
