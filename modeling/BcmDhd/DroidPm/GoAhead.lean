import BcmDhd.DroidPm.SuspendWaits

namespace BcmDhd.DroidPm

open BcmDhd.Lib

/-- The driver together with the records of the last attempts to suspend and to shut down. -/
def followed : Machine (PrivData × Attempt × Attempt) PmCall (Option Int) :=
  pm.observe fun s attempts call => (attempts.1.note suspendBegins s call, attempts.2.note shutdownBegins s call)

/-- An attempt is waited for, and all registered clients, but for one perhaps, have
acknowledged it. -/
def AllBut (a : Option InstancePtr) (wait : Wait) (attempt : Attempt) (s : PrivData) : Prop :=
  wait = .waiting ∧ ∀ b ∈ s.registeredClients, some b ≠ a → b ∈ attempt.acknowledged

/-- An attempt that all have acknowledged is signalled, and so the wait for it cannot fail. -/
structure GoAhead (seen : PrivData × Attempt × Attempt) : Prop where
  suspend : AllBut none seen.1.suspendWait seen.2.1 seen.1 → 0 < seen.1.suspendComplete
  shutdown : AllBut none seen.1.shutdownWait seen.2.2 seen.1 → 0 < seen.1.suspendComplete
  released : AllBut none seen.1.suspendWait seen.2.1 seen.1 →
    ∀ ret, pm.admits seen.1 (.suspendWoken ret) → 0 < ret

/-- The call leaves an attempt without anybody who could still acknowledge it: it begins one
while nobody is registered, or takes the last client away that has not acknowledged. -/
def LosesGoAhead (seen : PrivData × Attempt × Attempt) : PmCall → Prop
  | .prepareSuspend => seen.1.ready = true ∧ seen.1.registeredClients = []
  | .rebootShutdown powerOff => powerOff = true ∧ seen.1.registeredClients = []
  | .unregisterEvents a => seen.1.suspendComplete = 0 ∧
      (AllBut (some a) seen.1.suspendWait seen.2.1 seen.1 ∨ AllBut (some a) seen.1.shutdownWait seen.2.2 seen.1)
  | .close a => seen.1.suspendComplete = 0 ∧
      (AllBut (some a) seen.1.suspendWait seen.2.1 seen.1 ∨ AllBut (some a) seen.1.shutdownWait seen.2.2 seen.1)
  | _ => False

/-- Suspending and shutting down are waited for at once, and the call takes the only signal
from the other one, or resets it. -/
def Overlaps (s : PrivData) : PmCall → Prop
  | .prepareSuspend => s.ready = true ∧ s.shutdownWait = .waiting ∧ 0 < s.suspendComplete
  | .rebootShutdown powerOff => powerOff = true ∧ s.suspendWait = .waiting ∧ 0 < s.suspendComplete
  | .suspendWoken _ => s.shutdownWait = .waiting ∧ s.suspendComplete = 1
  | .shutdownWoken _ => s.suspendWait = .waiting ∧ s.suspendComplete = 1
  | _ => False

/-- While an attempt is waited for without a signal, an acknowledgement is missing, and none
that was given is lost. -/
structure Pending (wait : Wait) (attempt : Attempt) (s : PrivData) : Prop where
  known : ∀ a ∈ attempt.acknowledged, a ∈ s.instanceList
  missing : wait = .waiting → s.suspendComplete = 0 → ∃ a ∈ s.registeredClients, a ∉ attempt.acknowledged
  flagged : wait = .waiting → s.suspendComplete = 0 → ∀ a ∈ attempt.acknowledged, (s.inst a).suspendAck = true

section

variable {s after : PrivData} {wait : Wait} {attempt : Attempt} {a : InstancePtr} {begins : PrivData → PmCall → Bool}

theorem Pending.signalled (pending : Pending wait attempt s) (all : AllBut none wait attempt s) :
    0 < s.suspendComplete := by
  obtain ⟨waiting, everybody⟩ := all
  by_contra unsignalled
  obtain ⟨b, registered, missing⟩ := pending.missing waiting (by omega)
  exact missing (everybody b registered (by simp))

theorem pending_goAhead {seen : PrivData × Attempt × Attempt} (suspend : Pending seen.1.suspendWait seen.2.1 seen.1)
    (shutdown : Pending seen.1.shutdownWait seen.2.2 seen.1) : GoAhead seen :=
  ⟨suspend.signalled, shutdown.signalled, fun all _ admitted => admitted.2.mpr (suspend.signalled all)⟩

theorem Pending.ended (known : ∀ a ∈ attempt.acknowledged, a ∈ s.instanceList) (over_ : wait ≠ .waiting) :
    Pending wait attempt s :=
  ⟨known, fun waiting => absurd waiting over_, fun waiting => absurd waiting over_⟩

theorem Pending.same (pending : Pending wait attempt s) (list : after.instanceList = s.instanceList)
    (registered : ∀ a, (after.inst a).registered = (s.inst a).registered)
    (flags : ∀ a, (after.inst a).suspendAck = (s.inst a).suspendAck)
    (done : wait = .waiting → after.suspendComplete = 0 → s.suspendComplete = 0) : Pending wait attempt after := by
  refine ⟨fun b member => list ▸ pending.known b member, fun waiting none_ => ?_, fun waiting none_ b member => ?_⟩
  · obtain ⟨b, among, missing⟩ := pending.missing waiting (done waiting none_)
    refine ⟨b, ?_, missing⟩
    rw [mem_registeredClients, list, registered]
    exact mem_registeredClients.mp among
  · rw [flags]
    exact pending.flagged waiting (done waiting none_) b member

theorem Pending.openFile (pending : Pending wait attempt s) (fresh : a ∉ s.instanceList) :
    Pending wait attempt (droidPmOpen s (some a)).1 := by
  have inst : ∀ b ∈ s.instanceList, (s.setInst a .zeroed).inst b = s.inst b := by
    intro b member
    exact setInst_other fun here => fresh (here ▸ member)
  refine ⟨fun b member => List.mem_append_left _ (pending.known b member), fun waiting none_ => ?_,
    fun waiting none_ b member => ?_⟩
  · obtain ⟨b, among, missing⟩ := pending.missing waiting none_
    obtain ⟨member, registered⟩ := mem_registeredClients.mp among
    refine ⟨b, mem_registeredClients.mpr ⟨List.mem_append_left _ member, ?_⟩, missing⟩
    change ((s.setInst a .zeroed).inst b).registered = true
    rw [inst b member]
    exact registered
  · change ((s.setInst a .zeroed).inst b).suspendAck = true
    rw [inst b (pending.known b member)]
    exact pending.flagged waiting none_ b member

theorem missing_other
    (stays : ¬(s.suspendComplete = 0 ∧ AllBut (some a) wait attempt s)) (waiting : wait = .waiting)
    (none_ : s.suspendComplete = 0) : ∃ b ∈ s.registeredClients, b ≠ a ∧ b ∉ attempt.acknowledged := by
  by_contra nobody
  push Not at nobody
  refine stays ⟨none_, waiting, fun b member differs => nobody b member fun here => differs (by rw [here])⟩

theorem Pending.close (pending : Pending wait attempt s) (unique : s.instanceList.Nodup)
    (stays : ¬(s.suspendComplete = 0 ∧ AllBut (some a) wait attempt s)) :
    Pending wait { attempt with acknowledged := attempt.acknowledged.filter (· ≠ a) } (droidPmClose s a) := by
  refine ⟨fun b member => ?_, fun waiting none_ => ?_, fun waiting none_ b member => ?_⟩
  · obtain ⟨old, differs⟩ := List.mem_filter.mp member
    exact unique.mem_erase_iff.mpr ⟨of_decide_eq_true differs, pending.known b old⟩
  · obtain ⟨b, among, differs, missing⟩ := missing_other stays waiting none_
    obtain ⟨member, registered⟩ := mem_registeredClients.mp among
    refine ⟨b, mem_registeredClients.mpr ⟨unique.mem_erase_iff.mpr ⟨differs, member⟩, registered⟩, ?_⟩
    exact fun kept => missing (List.mem_filter.mp kept).1
  · exact pending.flagged waiting none_ b (List.mem_filter.mp member).1

theorem Pending.registerEvents (pending : Pending wait attempt s) (eventfd : Option Int) (ctx : Option EventfdCtx) :
    Pending wait attempt (registerEvents s a eventfd ctx).1 := by
  unfold DroidPm.registerEvents
  split
  · exact pending
  split
  · exact pending
  dsimp only
  split
  · exact pending.same rfl (setInst_same Instance.registered (by rfl)) (setInst_same Instance.suspendAck (by rfl))
      fun _ => id
  · refine ⟨pending.known, fun waiting none_ => ?_, fun waiting none_ b member => ?_⟩
    · obtain ⟨b, among, missing⟩ := pending.missing waiting none_
      obtain ⟨member, registered⟩ := mem_registeredClients.mp among
      refine ⟨b, mem_registeredClients.mpr ⟨member, ?_⟩, missing⟩
      by_cases here : b = a
      · rw [here, setInst_self]
      · rw [setInst_other here]
        exact registered
    · rw [setInst_same Instance.suspendAck (by rfl)]
      exact pending.flagged waiting none_ b member

theorem Pending.unregisterEvents (pending : Pending wait attempt s)
    (stays : ¬(s.suspendComplete = 0 ∧ AllBut (some a) wait attempt s)) :
    Pending wait attempt (unregisterEvents s a).1 := by
  unfold DroidPm.unregisterEvents
  split
  · refine ⟨pending.known, fun waiting none_ => ?_, fun waiting none_ b member => ?_⟩
    · obtain ⟨b, among, differs, missing⟩ := missing_other stays waiting none_
      obtain ⟨member, registered⟩ := mem_registeredClients.mp among
      refine ⟨b, mem_registeredClients.mpr ⟨member, ?_⟩, missing⟩
      rw [setInst_other differs]
      exact registered
    · rw [setInst_same Instance.suspendAck (by rfl)]
      exact pending.flagged waiting none_ b member
  · exact pending

/-- An acknowledgement is kept until the signal, and the last one that is missing signals. -/
theorem Pending.setSuspendAck (pending : Pending wait attempt s) (member : a ∈ s.instanceList)
    (goesOn : begins s (.setSuspendAck a) = false) :
    Pending wait (attempt.note begins s (.setSuspendAck a)) (setSuspendAck s a).1 := by
  have noted : attempt.note begins s (.setSuspendAck a) =
      if (s.suspending || s.shutdown) = true then
        let acknowledged := if (s.inst a).registered then a :: attempt.acknowledged else attempt.acknowledged
        if droidPmCanWeNowSuspend (acknowledge s a) then
          ⟨acknowledged, attempt.signals ++ [⟨s.registeredClients, acknowledged⟩]⟩
        else ⟨acknowledged, attempt.signals⟩
      else attempt := if_neg (by simp [goesOn])
  rw [noted]
  unfold DroidPm.setSuspendAck
  by_cases asked : (s.suspending || s.shutdown) = true
  · rw [if_pos asked, if_pos asked]
    generalize same : (if (s.inst a).registered then a :: attempt.acknowledged else attempt.acknowledged) = now
    obtain ⟨list, _, done, _⟩ := acknowledge_frame s a
    have mem_now : ∀ b, b ∈ now ↔ b ∈ attempt.acknowledged ∨ b = a ∧ (s.inst a).registered = true := by
      intro b
      rw [← same]
      by_cases registered : (s.inst a).registered = true
      · simp [registered, or_comm]
      · simp [registered]
    have known : ∀ b ∈ now, b ∈ s.instanceList := by
      intro b among
      rcases (mem_now b).mp among with old | ⟨here, _⟩
      · exact pending.known b old
      · exact here ▸ member
    dsimp only
    by_cases all : droidPmCanWeNowSuspend (acknowledge s a) = true
    · rw [if_pos all, if_pos all]
      refine ⟨fun b among => list ▸ known b among, fun _ none_ => ?_, fun _ none_ => ?_⟩
      · exact absurd none_ (Nat.succ_ne_zero _)
      · exact absurd none_ (Nat.succ_ne_zero _)
    · rw [if_neg all, if_neg all]
      have flagged : wait = .waiting → s.suspendComplete = 0 → ∀ b ∈ now,
          ((acknowledge s a).inst b).suspendAck = true := by
        intro waiting none_ b among
        refine (acknowledge_spec s a b).2.mpr ?_
        exact ((mem_now b).mp among).imp_left (pending.flagged waiting none_ b)
      refine ⟨fun b among => list ▸ known b among, fun waiting none_ => ?_, fun waiting none_ => ?_⟩
      · rw [canWeNowSuspend_iff] at all
        push Not at all
        obtain ⟨b, among, registered, unflagged⟩ := all
        refine ⟨b, mem_registeredClients.mpr ⟨among, registered⟩, fun acknowledged => unflagged ?_⟩
        exact flagged waiting (done ▸ none_) b acknowledged
      · exact flagged waiting (done ▸ none_)
  · rw [if_neg asked, if_neg asked]
    exact pending

theorem Pending.begun (somebody : s.registeredClients ≠ []) : Pending wait .fresh s := by
  obtain ⟨b, among⟩ := List.exists_mem_of_ne_nil _ somebody
  exact ⟨fun b member => absurd member List.not_mem_nil, fun _ _ => ⟨b, among, List.not_mem_nil⟩,
    fun _ _ b member => absurd member List.not_mem_nil⟩

theorem unregister_frame (s : PrivData) (a : InstancePtr) :
    (unregisterEvents s a).1.suspendWait = s.suspendWait ∧ (unregisterEvents s a).1.shutdownWait = s.shutdownWait ∧
      (unregisterEvents s a).1.suspendComplete = s.suspendComplete := by
  unfold unregisterEvents
  split
  · exact ⟨rfl, rfl, rfl⟩
  · exact ⟨rfl, rfl, rfl⟩

/-- Both attempts, where they are waited for, still miss somebody. -/
def BothPending (seen : PrivData × Attempt × Attempt) : Prop :=
  Pending seen.1.suspendWait seen.2.1 seen.1 ∧ Pending seen.1.shutdownWait seen.2.2 seen.1

variable {suspend shutdown : Attempt}

theorem prepareSuspend_pending (both : BothPending (s, suspend, shutdown))
    (keeps : ¬LosesGoAhead (s, suspend, shutdown) .prepareSuspend) (apart : ¬Overlaps s .prepareSuspend) :
    BothPending (followed.next (s, suspend, shutdown) .prepareSuspend) := by
  have goesOn : shutdown.note shutdownBegins s .prepareSuspend = shutdown := rfl
  change BothPending ((droidPmPrepareSuspend s).1, suspend.note suspendBegins s .prepareSuspend,
    shutdown.note shutdownBegins s .prepareSuspend)
  rw [goesOn]
  by_cases ready : s.ready = true
  · have begun : suspend.note suspendBegins s .prepareSuspend = .fresh := if_pos (by simp [suspendBegins, ready])
    rw [begun, droidPmPrepareSuspend, if_pos ready]
    refine ⟨Pending.begun fun nobody => keeps ⟨ready, nobody⟩, ?_⟩
    refine both.2.same rfl (fun _ => rfl) (fun _ => rfl) fun waiting _ => ?_
    by_contra signalled
    exact apart ⟨ready, waiting, Nat.pos_of_ne_zero signalled⟩
  · have idle : suspend.note suspendBegins s .prepareSuspend = suspend := if_neg (by simp [suspendBegins, ready])
    rw [idle, droidPmPrepareSuspend, if_neg ready]
    exact both

theorem rebootShutdown_pending {powerOff : Bool} (both : BothPending (s, suspend, shutdown))
    (keeps : ¬LosesGoAhead (s, suspend, shutdown) (.rebootShutdown powerOff))
    (apart : ¬Overlaps s (.rebootShutdown powerOff)) :
    BothPending (followed.next (s, suspend, shutdown) (.rebootShutdown powerOff)) := by
  have goesOn : suspend.note suspendBegins s (.rebootShutdown powerOff) = suspend := rfl
  change BothPending ((droidPmRebootShutdown s powerOff).1, suspend.note suspendBegins s (.rebootShutdown powerOff),
    shutdown.note shutdownBegins s (.rebootShutdown powerOff))
  rw [goesOn]
  cases powerOff with
  | false => exact both
  | true =>
    refine ⟨?_, Pending.begun fun nobody => keeps ⟨rfl, nobody⟩⟩
    refine both.1.same rfl (fun _ => rfl) (fun _ => rfl) fun waiting _ => ?_
    by_contra signalled
    exact apart ⟨rfl, waiting, Nat.pos_of_ne_zero signalled⟩

theorem Pending.take (pending : Pending wait attempt s) {ret : Int} (admitted : 0 < ret ↔ 0 < s.suspendComplete)
    (apart : ¬(wait = .waiting ∧ s.suspendComplete = 1)) : Pending wait attempt (s.take ret) := by
  obtain ⟨list, inst, _⟩ := take_frame s ret
  refine pending.same list (fun b => by rw [inst]) (fun b => by rw [inst]) fun waiting none_ => ?_
  unfold PrivData.take at none_
  split at none_
  · rename_i completed
    have signalled := admitted.mp completed
    have several : s.suspendComplete ≠ 1 := fun one => apart ⟨waiting, one⟩
    change s.suspendComplete - 1 = 0 at none_
    omega
  · exact none_

theorem Pending.takeEnds (pending : Pending wait attempt s) {ret : Int} (ended : after.instanceList = s.instanceList) :
    Pending (.woken ret) attempt after :=
  Pending.ended (fun b member => ended ▸ pending.known b member) (by simp)

theorem followed_pending {call : PmCall} (listed : Listed s) (both : BothPending (s, suspend, shutdown))
    (keeps : ¬LosesGoAhead (s, suspend, shutdown) call) (apart : ¬Overlaps s call) (admitted : pm.admits s call) :
    BothPending (followed.next (s, suspend, shutdown) call) := by
  cases call with
  | openFile object =>
    cases object with
    | none => exact both
    | some a => exact ⟨both.1.openFile admitted, both.2.openFile admitted⟩
  | close a =>
    exact ⟨both.1.close listed.unique fun last => keeps ⟨last.1, Or.inl last.2⟩,
      both.2.close listed.unique fun last => keeps ⟨last.1, Or.inr last.2⟩⟩
  | registerEvents a eventfd ctx =>
    have waits : ∀ part : PrivData → Wait, (∀ inst, part (s.setInst a inst) = part s) →
        part (registerEvents s a eventfd ctx).1 = part s := by
      intro part same
      unfold registerEvents
      split
      · rfl
      split
      · rfl
      dsimp only
      split
      · exact same _
      · exact same _
    change Pending (registerEvents s a eventfd ctx).1.suspendWait _ _ ∧
      Pending (registerEvents s a eventfd ctx).1.shutdownWait _ _
    rw [waits PrivData.suspendWait fun _ => rfl, waits PrivData.shutdownWait fun _ => rfl]
    exact ⟨both.1.registerEvents eventfd ctx, both.2.registerEvents eventfd ctx⟩
  | unregisterEvents a =>
    obtain ⟨suspends, shuts, _⟩ := unregister_frame s a
    change Pending (unregisterEvents s a).1.suspendWait _ _ ∧ Pending (unregisterEvents s a).1.shutdownWait _ _
    rw [suspends, shuts]
    exact ⟨both.1.unregisterEvents fun last => keeps ⟨last.1, Or.inl last.2⟩,
      both.2.unregisterEvents fun last => keeps ⟨last.1, Or.inr last.2⟩⟩
  | setSuspendAck a =>
    have waits : (setSuspendAck s a).1.suspendWait = s.suspendWait ∧
        (setSuspendAck s a).1.shutdownWait = s.shutdownWait := by
      obtain ⟨_, suspends, _, shuts⟩ := acknowledge_frame s a
      unfold setSuspendAck
      split
      · dsimp only
        split
        · exact ⟨suspends, shuts⟩
        · exact ⟨suspends, shuts⟩
      · exact ⟨rfl, rfl⟩
    change Pending (setSuspendAck s a).1.suspendWait _ _ ∧ Pending (setSuspendAck s a).1.shutdownWait _ _
    rw [waits.1, waits.2]
    have suspendGoesOn : suspendBegins s (.setSuspendAck a) = false := rfl
    have shutdownGoesOn : shutdownBegins s (.setSuspendAck a) = false := rfl
    exact ⟨both.1.setSuspendAck admitted.1 suspendGoesOn, both.2.setSuspendAck admitted.1 shutdownGoesOn⟩
  | setInteractive on =>
    cases on with
    | none => exact both
    | some on =>
      exact ⟨both.1.same rfl (fun _ => rfl) (fun _ => rfl) fun _ => id,
        both.2.same rfl (fun _ => rfl) (fun _ => rfl) fun _ => id⟩
  | prepareSuspend => exact prepareSuspend_pending both keeps apart
  | suspendWoken ret =>
    have frame := take_frame s ret
    have waits : (s.take ret).shutdownWait = s.shutdownWait := by
      unfold PrivData.take
      split
      · rfl
      · rfl
    refine ⟨both.1.takeEnds frame.1, ?_⟩
    change Pending (s.take ret).shutdownWait shutdown { s.take ret with suspendWait := .woken ret }
    rw [waits]
    exact (both.2.take admitted.2 apart).same rfl (fun _ => rfl) (fun _ => rfl) fun _ => id
  | prepareSuspendEnd =>
    change BothPending ((droidPmPrepareSuspendEnd s).1, suspend, shutdown)
    have ended : ∀ suspending, BothPending
        ({ s with suspendWait := .idle, suspending := suspending }, suspend, shutdown) := fun _ =>
      ⟨Pending.ended both.1.known (by simp), both.2.same rfl (fun _ => rfl) (fun _ => rfl) fun _ => id⟩
    unfold droidPmPrepareSuspendEnd
    split
    · split
      · exact ended false
      split
      · exact ended false
      · exact ended s.suspending
    · exact both
  | completeResume event =>
    exact ⟨both.1.same rfl (fun _ => rfl) (fun _ => rfl) fun _ => id,
      both.2.same rfl (fun _ => rfl) (fun _ => rfl) fun _ => id⟩
  | rebootShutdown powerOff => exact rebootShutdown_pending both keeps apart
  | shutdownWoken ret =>
    have frame := take_frame s ret
    refine ⟨?_, both.2.takeEnds frame.1⟩
    change Pending (s.take ret).suspendWait suspend { s.take ret with shutdownWait := .woken ret }
    rw [frame.2.2.1]
    exact (both.1.take admitted.2 apart).same rfl (fun _ => rfl) (fun _ => rfl) fun _ => id
  | rebootShutdownEnd =>
    change BothPending ((droidPmRebootShutdownEnd s).1, suspend, shutdown)
    have ended : ∀ down, BothPending ({ s with shutdownWait := .idle, shutdown := down }, suspend, shutdown) :=
      fun _ => ⟨both.1.same rfl (fun _ => rfl) (fun _ => rfl) fun _ => id, Pending.ended both.2.known (by simp)⟩
    unfold droidPmRebootShutdownEnd
    split
    · split
      · exact ended false
      · exact ended s.shutdown
    · exact both

/-- The call leaves every attempt with its signal or somebody who can give it. -/
def KeepsGoAhead (seen : PrivData × Attempt × Attempt) (call : PmCall) : Prop :=
  ¬LosesGoAhead seen call ∧ ¬Overlaps seen.1 call

theorem run_pending {seen : PrivData × Attempt × Attempt} {calls : List PmCall} (listed : Listed seen.1)
    (both : BothPending seen) (admitted : pm.Admitted seen.1 calls)
    (keeps : ∀ past call rest, calls = past ++ call :: rest → KeepsGoAhead (followed.run seen past) call) :
    BothPending (followed.run seen calls) := by
  have kept : (followed.restrict KeepsGoAhead).Preserves fun seen => Listed seen.1 ∧ BothPending seen := by
    intro seen call invariant accepted
    obtain ⟨accepts, keeps, apart⟩ := accepted
    exact ⟨pm_listed seen.1 call invariant.1 accepts,
      followed_pending invariant.1 invariant.2 keeps apart accepts⟩
  have met := (followed.admitted_restrict_iff seen calls).mpr ⟨(pm.observe_admitted _ seen calls).mpr admitted, keeps⟩
  have reached := Machine.run_invariant _ kept ⟨listed, both⟩ met
  rw [Machine.restrict_run] at reached
  exact reached.2

theorem AllBut.close (all : AllBut (some a) wait attempt s) (unique : s.instanceList.Nodup) :
    AllBut none wait { attempt with acknowledged := attempt.acknowledged.filter (· ≠ a) } (droidPmClose s a) := by
  refine ⟨all.1, fun b among _ => ?_⟩
  obtain ⟨stays, registered⟩ := mem_registeredClients.mp among
  obtain ⟨differs, member⟩ := unique.mem_erase_iff.mp stays
  refine List.mem_filter.mpr ⟨all.2 b (mem_registeredClients.mpr ⟨member, registered⟩) ?_, by simpa using differs⟩
  exact fun here => differs (Option.some.inj here)

theorem AllBut.unregisterEvents (all : AllBut (some a) wait attempt s) :
    AllBut none wait attempt (DroidPm.unregisterEvents s a).1 := by
  have others : ∀ b ∈ (DroidPm.unregisterEvents s a).1.registeredClients, b ∈ s.registeredClients ∧ b ≠ a := by
    intro b among
    unfold DroidPm.unregisterEvents at among
    split at among
    · obtain ⟨member, registered⟩ := mem_registeredClients.mp among
      by_cases here : b = a
      · rw [here, setInst_self] at registered
        cases registered
      · rw [setInst_other here] at registered
        exact ⟨mem_registeredClients.mpr ⟨member, registered⟩, here⟩
    · rename_i unregistered
      refine ⟨among, fun here => unregistered ?_⟩
      rw [← here]
      exact (mem_registeredClients.mp among).2
  refine ⟨all.1, fun b among _ => ?_⟩
  obtain ⟨registered, differs⟩ := others b among
  exact all.2 b registered fun here => differs (Option.some.inj here)

/-- Where the last client that is missing goes away, or there is none from the beginning,
nothing signals the attempt. -/
theorem loses_goAhead {call : PmCall} (listed : Listed s) (loses : LosesGoAhead (s, suspend, shutdown) call) :
    ¬GoAhead (followed.next (s, suspend, shutdown) call) := by
  intro goAhead
  cases call with
  | prepareSuspend =>
    obtain ⟨ready, nobody⟩ := loses
    have next : (followed.next (s, suspend, shutdown) .prepareSuspend).1 =
        { (droidPmSignalEvent { s with suspending := true } eventSuspending).reinitCompletion with
          suspendWait := .waiting } := by
      change (droidPmPrepareSuspend s).1 = _
      rw [droidPmPrepareSuspend, if_pos ready]
    have signalled := goAhead.suspend
    rw [next] at signalled
    refine absurd (signalled ⟨rfl, fun b among => ?_⟩) (Nat.lt_irrefl 0)
    change b ∈ s.registeredClients at among
    rw [nobody] at among
    exact absurd among List.not_mem_nil
  | rebootShutdown powerOff =>
    obtain ⟨rfl, nobody⟩ := loses
    refine absurd (goAhead.shutdown ⟨rfl, fun b among => ?_⟩) (Nat.lt_irrefl 0)
    change b ∈ s.registeredClients at among
    rw [nobody] at among
    exact absurd among List.not_mem_nil
  | unregisterEvents a =>
    obtain ⟨none_, last⟩ := loses
    obtain ⟨suspends, shuts, done⟩ := unregister_frame s a
    have unsignalled : ¬0 < (unregisterEvents s a).1.suspendComplete := by
      rw [done, none_]
      exact Nat.lt_irrefl 0
    rcases last with suspended | shut
    · have all : AllBut none (unregisterEvents s a).1.suspendWait suspend (unregisterEvents s a).1 := by
        rw [suspends]
        exact AllBut.unregisterEvents suspended
      exact unsignalled (goAhead.suspend all)
    · have all : AllBut none (unregisterEvents s a).1.shutdownWait shutdown (unregisterEvents s a).1 := by
        rw [shuts]
        exact AllBut.unregisterEvents shut
      exact unsignalled (goAhead.shutdown all)
  | close a =>
    obtain ⟨none_, last⟩ := loses
    have unsignalled : ¬0 < s.suspendComplete := by
      rw [none_]
      exact Nat.lt_irrefl 0
    rcases last with suspended | shut
    · exact unsignalled (goAhead.suspend (AllBut.close suspended listed.unique))
    · exact unsignalled (goAhead.shutdown (AllBut.close shut listed.unique))
  | openFile object => exact loses
  | registerEvents a eventfd ctx => exact loses
  | setSuspendAck a => exact loses
  | setInteractive on => exact loses
  | suspendWoken ret => exact loses
  | prepareSuspendEnd => exact loses
  | completeResume event => exact loses
  | shutdownWoken ret => exact loses
  | rebootShutdownEnd => exact loses

end

/-- In every run, an attempt to suspend or to shut down that all registered clients have
acknowledged is signalled, if no call takes the last client away that has not acknowledged
or begins an attempt without any, and none takes a signal that another wait needs. Where a
call of the first kind is made, the attempt is not signalled. -/
theorem go_ahead_iff (localInstance : InstancePtr) (calls : List PmCall)
    (admitted : pm.Admitted (pmStart localInstance) calls) :
    let seen := followed.run (pmStart localInstance, .fresh, .fresh)
    ((∀ past call rest, calls = past ++ call :: rest →
        ¬LosesGoAhead (seen past) call ∧ ¬Overlaps (seen past).1 call) →
      ∀ past rest, calls = past ++ rest → GoAhead (seen past)) ∧
    ∀ past call rest, calls = past ++ call :: rest → LosesGoAhead (seen past) call →
      ¬GoAhead (seen (past ++ [call])) := by
  intro seen
  have listed := pmStart_listed localInstance
  constructor
  · intro keeps past rest split
    have before : pm.Admitted (pmStart localInstance) past := by
      rw [split, pm.admitted_append] at admitted
      exact admitted.1
    have begins : BothPending (pmStart localInstance, .fresh, .fresh) :=
      ⟨Pending.ended (fun b member => absurd member List.not_mem_nil) Wait.noConfusion,
        Pending.ended (fun b member => absurd member List.not_mem_nil) Wait.noConfusion⟩
    have both : BothPending (seen past) := run_pending listed begins before
      fun earlier call later inside => keeps earlier call (later ++ rest) (by simp [split, inside])
    exact pending_goAhead both.1 both.2
  · intro past call rest split loses
    have before : pm.Admitted (pmStart localInstance) past := by
      rw [split, pm.admitted_append] at admitted
      exact admitted.1
    have reached : (seen past).1 = pm.run (pmStart localInstance) past := pm.observe_run _ _ past
    have there : Listed (seen past).1 := by
      rw [reached]
      exact pm.run_invariant pm_listed listed before
    have step : seen (past ++ [call]) = followed.next (seen past) call := followed.run_append _ past [call]
    rw [step]
    exact loses_goAhead there loses

instance (seen : PrivData × Attempt × Attempt) : (call : PmCall) → Decidable (followed.admits seen call) :=
  decidablePmAdmits seen.1

instance (a : Option InstancePtr) (wait : Wait) (attempt : Attempt) (s : PrivData) :
    Decidable (AllBut a wait attempt s) := inferInstanceAs (Decidable (_ ∧ _))

instance (seen : PrivData × Attempt × Attempt) : (call : PmCall) → Decidable (LosesGoAhead seen call)
  | .prepareSuspend | .rebootShutdown _ | .unregisterEvents _ | .close _ => inferInstanceAs (Decidable (_ ∧ _))
  | .openFile _ | .registerEvents _ _ _ | .setSuspendAck _ | .setInteractive _ | .suspendWoken _
  | .prepareSuspendEnd | .completeResume _ | .shutdownWoken _ | .rebootShutdownEnd => .isFalse id

instance (s : PrivData) : (call : PmCall) → Decidable (Overlaps s call)
  | .prepareSuspend | .rebootShutdown _ | .suspendWoken _ | .shutdownWoken _ => inferInstanceAs (Decidable (_ ∧ _))
  | .openFile _ | .close _ | .registerEvents _ _ _ | .unregisterEvents _ | .setSuspendAck _ | .setInteractive _
  | .prepareSuspendEnd | .completeResume _ | .rebootShutdownEnd => .isFalse id

/-- Both clients have acknowledged, and the wait ends with the signal. -/
theorem go_ahead_iff_cleanAttempt :
    let seen := followed.run (pmStart 0, .fresh, .fresh)
    AllBut none (seen (cleanAttempt.take 7)).1.suspendWait (seen (cleanAttempt.take 7)).2.1
        (seen (cleanAttempt.take 7)).1 ∧
      ∀ past rest, cleanAttempt = past ++ rest → GoAhead (seen past) := by
  intro seen
  have keeps : (followed.restrict fun seen call => ¬LosesGoAhead seen call ∧ ¬Overlaps seen.1 call).Admitted
      (pmStart 0, .fresh, .fresh) cleanAttempt := by
    decide +kernel
  obtain ⟨admitted, keeps⟩ := (followed.admitted_restrict_iff _ _).mp keeps
  have admitted : pm.Admitted (pmStart 0) cleanAttempt := (pm.observe_admitted _ _ _).mp admitted
  exact ⟨by decide +kernel, (go_ahead_iff 0 cleanAttempt admitted).1 keeps⟩

/-- A client acknowledges, and the other one, which has not, closes its file. -/
def lastCloses : List PmCall :=
  [.openFile (some 1), .registerEvents 1 (some 5) (some 1), .openFile (some 2),
    .registerEvents 2 (some 6) (some 2), .prepareSuspend, .setSuspendAck 1, .close 2]

theorem lastCloses_admitted : pm.Admitted (pmStart 0) lastCloses := by decide +kernel

/-- The only client that is left has acknowledged, but the attempt is not signalled and may
still time out. -/
theorem last_closes_unsignalled :
    let seen := followed.run (pmStart 0, .fresh, .fresh) lastCloses
    pm.Admitted (pmStart 0) lastCloses ∧ seen.1.suspendWait = .waiting ∧ seen.1.registeredClients = [1] ∧
      seen.2.1.acknowledged = [1] ∧ seen.1.suspendComplete = 0 ∧ pm.admits seen.1 (.suspendWoken 0) ∧
      ¬GoAhead seen := by
  intro seen
  have waiting : seen.1.suspendWait = .waiting := by decide +kernel
  have clients : seen.1.registeredClients = [1] := by decide +kernel
  have acknowledged : seen.2.1.acknowledged = [1] := by decide +kernel
  have timeout : pm.admits seen.1 (.suspendWoken 0) := by decide +kernel
  refine ⟨lastCloses_admitted, waiting, clients, acknowledged, by decide +kernel, timeout, fun goAhead => ?_⟩
  have all : AllBut none seen.1.suspendWait seen.2.1 seen.1 := by
    refine ⟨waiting, fun b among _ => ?_⟩
    rw [acknowledged]
    rw [clients] at among
    exact among
  exact Int.lt_irrefl 0 (goAhead.released all 0 timeout)

end BcmDhd.DroidPm
