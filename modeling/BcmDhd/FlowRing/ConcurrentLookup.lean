import BcmDhd.FlowRing.LookupSections

namespace BcmDhd.FlowRing

open BcmDhd.Lib BcmDhd.Utils Function

variable {owner id : Nat} {known : Option Nat} {call : Nat × Bool} {after : Id16Map}

/-- How far a call of `dhd_flowid_lookup` has come. -/
inductive LookupPhase
  | start
  | missed
  | allocating
  | reserved (id : Nat)
  | linked (id : Nat)
  | initialised (id : Nat)
  | found (id : Nat)
  | returned (answer : FlowAnswer)
deriving DecidableEq

/-- The search has failed and the entry is not linked yet. -/
def LookupPhase.unlinked : LookupPhase → Bool
  | .missed => true
  | .allocating => true
  | .reserved _ => true
  | _ => false

/-- The next section of a call: the search, the test of the interface, the two
locked sections of the allocation, the set-up of the ring, the create request,
and for a flow that was found the test of its ring. -/
def lookupSection (flow : FlowInfo) (dhd : FlowDhd) (created : Bool) :
    LookupPhase → FlowDhd × LookupPhase
  | .start =>
    let id := dhdFlowidFind dhd flow.ifindex flow.tid flow.da
    (dhd, if id = flowidInvalid then .missed else .found id)
  | .missed =>
    (dhd, if (dhd.ifFlowLkup flow.ifindex).status = false then .returned .error else .allocating)
  | .allocating =>
    let (dhd, id) := flowidAllocTake dhd
    (dhd, if id = flowidInvalid then .returned .error else .reserved id)
  | .reserved id => (flowidAllocLink dhd flow.ifindex flow.tid flow.da id, .linked id)
  | .linked id =>
    (setFlowRing dhd id { active := true, status := .pending, flowInfo := flow }, .initialised id)
  | .initialised id => (dhd, .returned (if created then .flowid id else .error))
  | .found id =>
    let status := (dhd.flowRingTable id).status
    (dhd, .returned (if status = .opened ∨ status = .pending then .flowid id else .error))
  | .returned answer => (dhd, .returned answer)

/-- Any number of calls for one flow; the contexts are numbered. -/
structure LookupThreads where
  dhd : FlowDhd
  phase : Nat → LookupPhase

def lookupThreadsInit (dhd : FlowDhd) : LookupThreads where
  dhd := dhd
  phase _ := .start

/-- A step is a context that runs its next section, and the outcome of its create
request should it come to that. -/
def lookupMachine (flow : FlowInfo) : Machine LookupThreads (Nat × Bool) Unit where
  step threads call :=
    let (dhd, phase) := lookupSection flow threads.dhd call.2 (threads.phase call.1)
    ({ dhd := dhd, phase := update threads.phase call.1 phase }, ())
  admits _ _ := True

theorem lookup_alone (flow : FlowInfo) (threads : LookupThreads) (thread : Nat) (created : Bool)
    (start : threads.phase thread = .start) :
    (lookupMachine flow).run threads (List.replicate 6 (thread, created)) =
      { dhd := (dhdFlowidLookup threads.dhd flow.ifindex flow.tid flow.sa flow.da created).1
        phase := update threads.phase thread
          (.returned (dhdFlowidLookup threads.dhd flow.ifindex flow.tid flow.sa flow.da created).2) } := by
  simp only [List.replicate, Machine.run_cons, Machine.run_nil, lookupMachine, Machine.next, start,
    update_self, update_idem, dhdFlowidLookup, dhdFlowidAlloc_eq]
  by_cases missing : dhdFlowidFind threads.dhd flow.ifindex flow.tid flow.da = flowidInvalid
  · simp only [lookupSection, if_pos missing]
    by_cases down : (threads.dhd.ifFlowLkup flow.ifindex).status = false
    · simp only [if_pos down]
    · simp only [if_neg down]
      by_cases exhausted : (flowidAllocTake threads.dhd).2 = flowidInvalid
      · simp only [if_pos exhausted, if_true]
      · simp only [if_neg exhausted]
  · simp only [lookupSection, if_neg missing]

/-- The tables after calls one after the other. -/
def lookupsInTurn (flow : FlowInfo) (dhd : FlowDhd) (created : List Bool) : FlowDhd :=
  created.foldl (fun dhd created => (dhdFlowidLookup dhd flow.ifindex flow.tid flow.sa flow.da created).1) dhd

/-- Contexts that do not overlap leave the tables as `dhd_flowid_lookup` does, and return what it returns. -/
theorem lookups_serial {flow : FlowInfo} {calls : List (Nat × Bool)} (distinct : (calls.map Prod.fst).Nodup)
    {threads : LookupThreads} (fresh : ∀ call ∈ calls, threads.phase call.1 = .start) :
    let after := (lookupMachine flow).run threads (calls.flatMap (List.replicate 6))
    after.dhd = lookupsInTurn flow threads.dhd (calls.map Prod.snd) ∧
      (∀ thread ∉ calls.map Prod.fst, after.phase thread = threads.phase thread) ∧
      ∀ before call later, calls = before ++ call :: later → after.phase call.1 =
        .returned (dhdFlowidLookup (lookupsInTurn flow threads.dhd (before.map Prod.snd)) flow.ifindex flow.tid
          flow.sa flow.da call.2).2 := by
  induction calls generalizing threads with
  | nil => exact ⟨rfl, fun _ _ => rfl, fun before call later split => absurd split (by simp)⟩
  | cons first rest ih =>
    obtain ⟨new, distinct⟩ := List.nodup_cons.mp distinct
    have turn : (lookupMachine flow).run threads (List.replicate 6 first) = _ :=
      lookup_alone flow threads first.1 first.2 (fresh first List.mem_cons_self)
    have later : ∀ call ∈ rest, ((lookupMachine flow).run threads (List.replicate 6 first)).phase call.1 = .start := by
      intro call member
      have other : call.1 ≠ first.1 := fun same => new (List.mem_map.mpr ⟨call, member, same⟩)
      rw [turn]
      exact (update_of_ne other ..).trans (fresh call (List.mem_cons_of_mem first member))
    obtain ⟨tables, others, answers⟩ := ih distinct later
    rw [List.flatMap_cons, Machine.run_append]
    rw [turn] at tables others answers ⊢
    refine ⟨tables, ?_, ?_⟩
    · intro thread absent
      obtain ⟨other, absent⟩ := not_or.mp (mt List.mem_cons.mpr absent)
      exact (others thread absent).trans (update_of_ne other ..)
    · rintro (_ | ⟨_, before⟩) call after split
      · obtain ⟨rfl, rfl⟩ := List.cons.inj split
        exact (others first.1 new).trans (update_self ..)
      · obtain ⟨rfl, behind⟩ := List.cons.inj split
        exact answers before call after behind

/-- No context searches while another has searched in vain and not yet linked. -/
def FindAlone (threads : LookupThreads) (call : Nat × Bool) : Prop :=
  threads.phase call.1 = .start → ∀ other, (threads.phase other).unlinked = false

/-- A call that has nothing to link, once the flow has the id it is told. -/
def Settled (known : Option Nat) : LookupPhase → Prop
  | .start => True
  | .linked id => known = some id
  | .initialised id => known = some id
  | .found id => known = some id
  | .returned (.flowid id) => known = some id
  | .returned .error => True
  | _ => False

/-- The ids taken from the allocator since the state `dhd`. -/
def idsTaken (dhd : FlowDhd) (threads : LookupThreads) : Int :=
  dhd.flowidAllocator.stackIdx - threads.dhd.flowidAllocator.stackIdx

/-- How far the contexts have come together. Until the entry is linked only the
allocator has changed; from then on everyone is told the same id. -/
inductive LookupProgress (flow : FlowInfo) (dhd : FlowDhd) (threads : LookupThreads) : Prop
  | absent (after : Id16Map) (same : threads.dhd = { dhd with flowidAllocator := after })
      (missing : dhdFlowidFind dhd flow.ifindex flow.tid flow.da = flowidInvalid)
      (untaken : SameIds after dhd.flowidAllocator)
      (settled : ∀ thread, Settled none (threads.phase thread))
  | owned (owner : Nat) (after : Id16Map) (same : threads.dhd = { dhd with flowidAllocator := after })
      (missing : dhdFlowidFind dhd flow.ifindex flow.tid flow.da = flowidInvalid)
      (untaken : SameIds after dhd.flowidAllocator)
      (phase : threads.phase owner = .missed ∨ threads.phase owner = .allocating)
      (settled : ∀ thread, thread ≠ owner → Settled none (threads.phase thread))
  | reserved (owner id : Nat) (after : Id16Map)
      (same : threads.dhd = { dhd with flowidAllocator := after })
      (missing : dhdFlowidFind dhd flow.ifindex flow.tid flow.da = flowidInvalid)
      (taken : idsTaken dhd threads = 1) (real : id ≠ flowidInvalid)
      (phase : threads.phase owner = .reserved id)
      (settled : ∀ thread, thread ≠ owner → Settled none (threads.phase thread))
  | shared (id : Nat) (found : dhdFlowidFind threads.dhd flow.ifindex flow.tid flow.da = id)
      (taken : idsTaken dhd threads =
        if dhdFlowidFind dhd flow.ifindex flow.tid flow.da = flowidInvalid then 1 else 0)
      (real : id ≠ flowidInvalid)
      (settled : ∀ thread, Settled (some id) (threads.phase thread))

namespace LookupProgress

variable {flow : FlowInfo} {dhd : FlowDhd} {threads : LookupThreads}

theorem init (flow : FlowInfo) (dhd : FlowDhd) : LookupProgress flow dhd (lookupThreadsInit dhd) := by
  by_cases missing : dhdFlowidFind dhd flow.ifindex flow.tid flow.da = flowidInvalid
  · exact .absent dhd.flowidAllocator rfl missing ⟨rfl, rfl⟩
      fun _ => trivial
  · refine .shared _ rfl ?_ missing fun _ => trivial
    simp [idsTaken, lookupThreadsInit, missing]

theorem settled_update {phase : Nat → LookupPhase} {thread : Nat}
    {next : LookupPhase} (settled : ∀ other, other ≠ thread → Settled known (phase other))
    (moved : Settled known next) (other : Nat) :
    Settled known (update phase thread next other) := by
  by_cases here : other = thread
  · subst here
    rw [update_self]
    exact moved
  · rw [update_of_ne here]
    exact settled other here

theorem settled_away {phase : Nat → LookupPhase}
    {next : LookupPhase} (settled : ∀ thread, thread ≠ owner → Settled known (phase thread))
    (thread : Nat) (away : thread ≠ owner) :
    Settled known (update phase owner next thread) := by
  rw [update_of_ne away]
  exact settled thread away

theorem settled_none {phase : LookupPhase} (settled : Settled none phase) :
    Settled known phase := by
  cases phase with
  | start => trivial
  | returned answer => cases answer <;> trivial
  | _ => cases settled

theorem settled_waits (settled : Settled none (threads.phase call.1)) (alone : FindAlone threads call)
    (unlinked : (threads.phase owner).unlinked = true) :
    threads.phase call.1 = .returned .error := by
  cases phase : threads.phase call.1 with
  | start =>
    have linked := alone phase owner
    rw [unlinked] at linked
    cases linked
  | returned answer =>
    rw [phase] at settled
    cases answer <;> first | rfl | cases settled
  | _ =>
    rw [phase] at settled
    cases settled

theorem next_eq (flow : FlowInfo) (threads : LookupThreads) (call : Nat × Bool) :
    (lookupMachine flow).next threads call =
      { dhd := (lookupSection flow threads.dhd call.2 (threads.phase call.1)).1
        phase := update threads.phase call.1
          (lookupSection flow threads.dhd call.2 (threads.phase call.1)).2 } := rfl

theorem next_returned {answer : FlowAnswer} (phase : threads.phase call.1 = .returned answer) :
    (lookupMachine flow).next threads call = threads := by
  rw [next_eq, phase, lookupSection, ← phase, update_eq_self]

theorem step_absent (same : threads.dhd = { dhd with flowidAllocator := after })
    (missing : dhdFlowidFind dhd flow.ifindex flow.tid flow.da = flowidInvalid)
    (untaken : SameIds after dhd.flowidAllocator)
    (settled : ∀ thread, Settled none (threads.phase thread))
    (call : Nat × Bool) : LookupProgress flow dhd ((lookupMachine flow).next threads call) := by
  cases phase : threads.phase call.1 with
  | start =>
    have still : dhdFlowidFind threads.dhd flow.ifindex flow.tid flow.da = flowidInvalid := by
      rw [same]
      exact missing
    rw [next_eq, phase]
    simp only [lookupSection, if_pos still]
    exact .owned call.1 after same missing untaken (Or.inl (update_self _ _ _))
      (settled_away fun thread _ => settled thread)
  | returned answer =>
    rw [next_returned phase]
    exact .absent after same missing untaken settled
  | _ =>
    have here := settled call.1
    rw [phase] at here
    cases here

theorem step_owned (valid : LookupInvariant dhd) (same : threads.dhd = { dhd with flowidAllocator := after })
    (missing : dhdFlowidFind dhd flow.ifindex flow.tid flow.da = flowidInvalid)
    (untaken : SameIds after dhd.flowidAllocator)
    (phase : threads.phase owner = .missed ∨ threads.phase owner = .allocating)
    (settled : ∀ thread, thread ≠ owner → Settled none (threads.phase thread))
    {call : Nat × Bool} (alone : FindAlone threads call) :
    LookupProgress flow dhd ((lookupMachine flow).next threads call) := by
  have unlinked : (threads.phase owner).unlinked = true := by
    rcases phase with missed | allocating
    · rw [missed]
      rfl
    · rw [allocating]
      rfl
  by_cases here : call.1 = owner
  · subst here
    rcases phase with missed | allocating
    · rw [next_eq, missed]
      by_cases down : (threads.dhd.ifFlowLkup flow.ifindex).status = false
      · simp only [lookupSection, if_pos down]
        exact .absent after same missing untaken (settled_update settled trivial)
      · simp only [lookupSection, if_neg down]
        exact .owned call.1 after same missing untaken (Or.inr (update_self _ _ _))
          (settled_away settled)
    · rw [next_eq, allocating]
      rcases (valid.allocator.frame untaken).alloc_cases with
        ⟨-, failed⟩ | ⟨id, rest, ⟨-, below, -⟩, success, -⟩
      · have exhausted : flowidAllocTake threads.dhd =
            ({ dhd with flowidAllocator := { after with failures := after.failures + 1 } },
              flowidInvalid) := by
          rw [same, flowidAllocTake]
          simp only [failed]
          rfl
        simp only [lookupSection, exhausted, if_true]
        exact .absent _ rfl missing untaken (settled_update settled trivial)
      · have bounded := valid.bounded
        have real : id ≠ flowidInvalid := by
          simp only [flowidInvalid]
          omega
        have reserved : flowidAllocTake threads.dhd = ({ dhd with flowidAllocator := rest }, id) := by
          rw [same, flowidAllocTake]
          simp only [success]
        have one := flowidAllocTake_stackIdx (reserved ▸ real : (flowidAllocTake threads.dhd).2 ≠ _)
        rw [reserved, same] at one
        have one : rest.stackIdx = after.stackIdx - 1 := one
        simp only [lookupSection, reserved, if_neg real]
        refine .reserved call.1 id rest rfl missing ?_ real (update_self _ _ _)
          (settled_away settled)
        simp only [idsTaken, one, untaken.1]
        omega
  · rw [next_returned (settled_waits (settled call.1 here) alone unlinked)]
    exact .owned owner after same missing untaken phase settled

theorem step_reserved (real : RealEntries dhd) (ordinary : ¬ TdlsMulticast dhd flow.ifindex flow.da)
    (same : threads.dhd = { dhd with flowidAllocator := after })
    (missing : dhdFlowidFind dhd flow.ifindex flow.tid flow.da = flowidInvalid)
    (taken : idsTaken dhd threads = 1) (valid : id ≠ flowidInvalid)
    (phase : threads.phase owner = .reserved id)
    (settled : ∀ thread, thread ≠ owner → Settled none (threads.phase thread))
    {call : Nat × Bool} (alone : FindAlone threads call) :
    LookupProgress flow dhd ((lookupMachine flow).next threads call) := by
  by_cases here : call.1 = owner
  · subst here
    rw [next_eq, phase]
    simp only [lookupSection]
    refine .shared id ?_ ?_ valid (settled_update (fun other away => settled_none (settled other away)) rfl)
    · have entries : RealEntries { dhd with flowidAllocator := after } := real
      dsimp only
      rw [same]
      exact find_of_linked entries missing ordinary id
    · rw [if_pos missing, ← taken, idsTaken, idsTaken]
      dsimp only
      rw [flowidAllocLink_allocator]
  · have unlinked : (threads.phase owner).unlinked = true := by
      rw [phase]
      rfl
    rw [next_returned (settled_waits (settled call.1 here) alone unlinked)]
    exact .reserved owner id after same missing taken valid phase settled

theorem step_shared (found : dhdFlowidFind threads.dhd flow.ifindex flow.tid flow.da = id)
    (taken : idsTaken dhd threads =
      if dhdFlowidFind dhd flow.ifindex flow.tid flow.da = flowidInvalid then 1 else 0)
    (real : id ≠ flowidInvalid) (settled : ∀ thread, Settled (some id) (threads.phase thread))
    (call : Nat × Bool) : LookupProgress flow dhd ((lookupMachine flow).next threads call) := by
  have moved : ∀ next, Settled (some id) next → ∀ other,
      Settled (some id) (update threads.phase call.1 next other) :=
    fun next moved => settled_update (fun other _ => settled other) moved
  have here := settled call.1
  cases phase : threads.phase call.1 with
  | start =>
    rw [next_eq, phase]
    simp only [lookupSection, found, if_neg real]
    exact .shared id found taken real (moved _ rfl)
  | linked told =>
    rw [next_eq, phase]
    rw [phase] at here
    exact .shared id found taken real (moved _ here)
  | initialised told =>
    rw [next_eq, phase]
    rw [phase] at here
    simp only [lookupSection]
    refine .shared id found taken real (moved _ ?_)
    cases call.2
    · trivial
    · exact here
  | found told =>
    rw [next_eq, phase]
    rw [phase] at here
    simp only [lookupSection]
    refine .shared id found taken real (moved _ ?_)
    split
    · exact here
    · trivial
  | returned answer =>
    rw [next_returned phase]
    exact .shared id found taken real settled
  | _ =>
    rw [phase] at here
    cases here

theorem step (valid : LookupInvariant dhd) (ordinary : ¬ TdlsMulticast dhd flow.ifindex flow.da)
    (progress : LookupProgress flow dhd threads) (alone : FindAlone threads call) :
    LookupProgress flow dhd ((lookupMachine flow).next threads call) := by
  cases progress with
  | absent after same missing untaken settled => exact step_absent same missing untaken settled call
  | owned owner after same missing untaken phase settled =>
    exact step_owned valid same missing untaken phase settled alone
  | reserved owner id after same missing taken real phase settled =>
    exact step_reserved valid.realEntries ordinary same missing taken real phase settled alone
  | shared id found taken real settled => exact step_shared found taken real settled call

theorem taken_le (progress : LookupProgress flow dhd threads) : idsTaken dhd threads ≤ 1 := by
  cases progress with
  | absent after same missing untaken settled =>
    rw [idsTaken, same, untaken.1]
    omega
  | owned owner after same missing untaken phase settled =>
    rw [idsTaken, same, untaken.1]
    omega
  | reserved owner id after same missing taken real phase settled => exact taken.le
  | shared id found taken real settled =>
    rw [taken]
    split <;> omega

/-- A call that succeeded was told the id that the flow has from then on. -/
theorem returned_flowid (progress : LookupProgress flow dhd threads) {thread : Nat}
    (phase : threads.phase thread = .returned (.flowid id)) :
    dhdFlowidFind threads.dhd flow.ifindex flow.tid flow.da = id ∧
      idsTaken dhd threads =
        if dhdFlowidFind dhd flow.ifindex flow.tid flow.da = flowidInvalid then 1 else 0 := by
  have told : ∀ known, Settled known (threads.phase thread) → known = some id := by
    intro known settled
    rw [phase] at settled
    exact settled
  have waiting : ∀ owner, thread ≠ owner ∨ (threads.phase owner).unlinked = false := by
    intro owner
    by_cases here : thread = owner
    · subst here
      rw [phase]
      exact Or.inr rfl
    · exact Or.inl here
  cases progress with
  | absent after same missing untaken settled => cases told none (settled thread)
  | owned owner after same missing untaken unlinked settled =>
    rcases waiting owner with away | linked
    · cases told none (settled thread away)
    · rcases unlinked with missed | allocating
      · rw [missed] at linked
        cases linked
      · rw [allocating] at linked
        cases linked
  | reserved owner other after same missing taken real reserved settled =>
    rcases waiting owner with away | linked
    · cases told none (settled thread away)
    · rw [reserved] at linked
      cases linked
  | shared other found taken real settled =>
    obtain rfl : other = id := Option.some.inj (told (some other) (settled thread))
    exact ⟨found, taken⟩

end LookupProgress

/-- From every reachable state of the tables, for every interleaving of lookups of
one flow in which no search falls between another call's failed search and its
linking: all calls that succeed return the same id, and an id is taken from the
allocator at most once, exactly once if the flow had none and some call succeeded. -/
theorem concurrent_lookups_share_flowid {num : Nat} (admissible : FlowRingsAdmissible num)
    {past : List FlowCall} (reached : flowMachine.Admitted (dhdFlowRingsInit num) past)
    {flow : FlowInfo} {steps : List (Nat × Bool)}
    (ordinary : ¬ TdlsMulticast (flowMachine.run (dhdFlowRingsInit num) past) flow.ifindex flow.da)
    (alone : ((lookupMachine flow).restrict FindAlone).Admitted
      (lookupThreadsInit (flowMachine.run (dhdFlowRingsInit num) past)) steps) :
    let dhd := flowMachine.run (dhdFlowRingsInit num) past
    let threads := (lookupMachine flow).run (lookupThreadsInit dhd) steps
    (∀ first second id other, threads.phase first = .returned (.flowid id) →
      threads.phase second = .returned (.flowid other) → id = other) ∧
    idsTaken dhd threads ≤ 1 ∧
    ∀ thread id, threads.phase thread = .returned (.flowid id) →
      idsTaken dhd threads =
        if dhdFlowidFind dhd flow.ifindex flow.tid flow.da = flowidInvalid then 1 else 0 := by
  intro dhd threads
  have valid : LookupInvariant dhd := (flow_run_recorded admissible reached).1
  have preserved : ((lookupMachine flow).restrict FindAlone).Preserves (LookupProgress flow dhd) :=
    fun _ _ progress admitted => progress.step valid ordinary admitted.2
  have progress := Machine.run_invariant _ preserved (LookupProgress.init flow dhd) alone
  rw [Machine.restrict_run] at progress
  refine ⟨?_, progress.taken_le, fun thread id phase => (progress.returned_flowid phase).2⟩
  intro first second id other phase phase'
  exact (progress.returned_flowid phase).1.symm.trans (progress.returned_flowid phase').1

/-- The first flow of the access point. -/
def firstFlow : FlowInfo := { tid := 0, ifindex := 0, sa := stationAddr, da := stationAddr }

/-- One context that goes all the way, and a second one that comes after it. -/
theorem concurrent_lookups_share_flowid_in_turn :
    let steps := List.replicate 6 (0, true) ++ List.replicate 2 (1, true)
    let threads := (lookupMachine firstFlow).run (lookupThreadsInit accessPoint) steps
    threads.phase 0 = .returned (.flowid 3) ∧ threads.phase 1 = .returned (.flowid 3) ∧
      idsTaken accessPoint threads ≤ 1 := by
  intro steps threads
  have alone : ((lookupMachine firstFlow).restrict FindAlone).Admitted
      (lookupThreadsInit accessPoint) steps := by
    have idle : ∀ phase : LookupPhase, phase ≠ .start → ∀ {P : Prop}, phase = .start → P :=
      fun _ moved _ phase => absurd phase moved
    refine ⟨⟨trivial, fun _ _ => rfl⟩, ⟨trivial, idle _ (by decide)⟩, ⟨trivial, idle _ (by decide)⟩,
      ⟨trivial, idle _ (by decide)⟩, ⟨trivial, idle _ (by decide)⟩, ⟨trivial, idle _ (by decide)⟩,
      ⟨trivial, fun _ other => ?_⟩, ⟨trivial, idle _ (by decide)⟩, trivial⟩
    cases other with
    | zero => decide
    | succ other => rfl
  have reached : flowMachine.Admitted (dhdFlowRingsInit 4) [.interfaceFlowInfo 0 wlcEIfAdd 1] :=
    ⟨trivial, trivial⟩
  have shared := concurrent_lookups_share_flowid (by decide) reached (by decide) alone
  exact ⟨by decide, by decide, shared.2.1⟩

theorem lookups_serial_in_turn :
    ((lookupMachine firstFlow).run (lookupThreadsInit accessPoint)
      ([(0, true), (1, true)].flatMap (List.replicate 6))).phase 1 = .returned (.flowid 3) :=
  ((@lookups_serial firstFlow [(0, true), (1, true)] (by decide) (lookupThreadsInit accessPoint)
    fun _ _ => rfl).2.2 [(0, true)] (1, true) [] rfl).trans (by decide)

/-- Two contexts search before either has linked an entry: both take an id, and
they return different ones for the same flow. -/
theorem concurrent_lookups_take_two_flowids :
    let steps := [(0, true), (1, true)] ++ List.replicate 5 (0, true) ++ List.replicate 5 (1, true)
    let threads := (lookupMachine firstFlow).run (lookupThreadsInit accessPoint) steps
    (lookupMachine firstFlow).Admitted (lookupThreadsInit accessPoint) steps ∧
      threads.phase 0 = .returned (.flowid 3) ∧ threads.phase 1 = .returned (.flowid 2) ∧
      idsTaken accessPoint threads = 2 := by
  intro steps threads
  exact ⟨Machine.admitted_of_forall _ fun _ _ => trivial, by decide, by decide, by decide⟩

end BcmDhd.FlowRing
