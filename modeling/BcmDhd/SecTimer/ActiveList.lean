import BcmDhd.SecTimer.Timer

namespace BcmDhd.SecTimer

open BcmDhd.Lib

theorem carry_spec (time : Time) (positive : 0 ≤ time.usec) :
    (carry time).Proper ∧ (carry time).micros = time.micros := by
  induction time using carry.induct with
  | case1 time more ih =>
    rw [carry, if_pos more]
    obtain ⟨proper, same⟩ := ih (by dsimp only; omega)
    refine ⟨proper, same.trans ?_⟩
    simp only [Time.micros]
    omega
  | case2 time less =>
    rw [carry, if_neg less]
    exact ⟨⟨positive, by omega⟩, rfl⟩

theorem setExpiration_spec (ms : Nat) {now : Time} (proper : now.Proper) :
    (bcmseclibSetExpiration ms now).Proper ∧ (bcmseclibSetExpiration ms now).micros = now.micros + 1000 * ms := by
  unfold bcmseclibSetExpiration
  have positive : 0 ≤ now.usec + (ms % 1000 * 1000 : Nat) := by
    have := proper.1
    omega
  obtain ⟨carried, same⟩ :=
    carry_spec { sec := now.sec + (ms / 1000 : Nat), usec := now.usec + (ms % 1000 * 1000 : Nat) }
    positive
  refine ⟨carried, same.trans ?_⟩
  simp only [Time.micros]
  omega

theorem compareTimes_le {first second : Time} (here : first.Proper) (there : second.Proper) :
    bcmseclibCompareTimes first second ≤ 0 ↔ first.micros ≤ second.micros := by
  unfold Time.Proper at here there
  unfold bcmseclibCompareTimes Time.micros
  split_ifs <;> omega

theorem compareTimes_ge {first second : Time} (here : first.Proper) (there : second.Proper) :
    bcmseclibCompareTimes first second ≥ 0 ↔ second.micros ≤ first.micros := by
  unfold Time.Proper at here there
  unfold bcmseclibCompareTimes Time.micros
  split_ifs <;> omega

/-- The assertions hold. -/
theorem translate_spec {now expiry : Time} (clock : now.Proper) (proper : expiry.Proper) :
    ∃ left, bcmseclibTranslateExpiryToAbsolute now expiry = some left ∧ left.Proper ∧ 0 ≤ left.sec ∧
      left.micros = max 0 (expiry.micros - now.micros) := by
  unfold bcmseclibTranslateExpiryToAbsolute
  by_cases passed : bcmseclibCompareTimes now expiry ≥ 0
  · rw [if_pos passed]
    have later := (compareTimes_ge clock proper).mp passed
    refine ⟨_, rfl, by decide, by decide, ?_⟩
    rw [max_eq_left (by omega)]
    rfl
  · rw [if_neg passed]
    have sooner : now.micros < expiry.micros := by
      rw [compareTimes_ge clock proper] at passed
      omega
    unfold Time.Proper at clock proper
    unfold Time.micros at sooner
    by_cases under : expiry.usec - now.usec < 0
    · simp only [if_pos under]
      rw [if_pos (by omega)]
      refine ⟨_, rfl, ⟨by dsimp only; omega, by dsimp only; omega⟩, by dsimp only; omega, ?_⟩
      simp only [Time.micros]
      omega
    · simp only [if_neg under]
      rw [if_pos (by omega)]
      refine ⟨_, rfl, ⟨by dsimp only; omega, by dsimp only; omega⟩, by dsimp only; omega, ?_⟩
      simp only [Time.micros]
      omega

/-- When a timer expires. -/
def TimerMgr.due (mgr : TimerMgr) (t : Nat) : Int := (mgr.timers t).expiryTime.micros

/-- A timer expires no later than another one. -/
def TimerMgr.NoLater (mgr : TimerMgr) (first second : Nat) : Prop := mgr.due first ≤ mgr.due second

instance (mgr : TimerMgr) : DecidableRel mgr.NoLater := fun _ _ => Int.decLe ..

instance (mgr : TimerMgr) : Std.Total mgr.NoLater := ⟨fun _ _ => le_total ..⟩

instance (mgr : TimerMgr) : IsTrans Nat mgr.NoLater := ⟨fun _ _ _ => le_trans⟩

/-- The manager's lists. -/
structure Lists (mgr : TimerMgr) (active free : List Nat) : Prop where
  listed : Chain mgr.next mgr.timerlist active none
  unused : Chain mgr.next mgr.timerFreelist free none
  once : active.Nodup
  freeOnce : free.Nodup
  apart : active.Disjoint free
  inside : ∀ t ∈ active, t < mgr.maxtimers
  ascending : active.Pairwise mgr.NoLater
  proper : ∀ t ∈ active, (mgr.timers t).expiryTime.Proper

section

variable {mgr next : TimerMgr} {active free front rest : List Nat} {t : Nat} {now again : Time}

theorem Lists.enough (lists : Lists mgr (front ++ rest) free) : front.length < mgr.fuel := by
  have subset : front ++ rest ⊆ List.range mgr.maxtimers := fun t member => List.mem_range.mpr (lists.inside t member)
  have short := (lists.once.subperm subset).length_le
  rw [List.length_append, List.length_range] at short
  unfold TimerMgr.fuel
  omega

theorem Lists.unlist (lists : Lists mgr active free) (known : (mgr.timers t).mgr = true) :
    ∃ head link, mgr.unlist t = some ({ mgr with timerlist := head, next := link }, decide (t ∈ active)) ∧
      Lists { mgr with timerlist := head, next := link } (active.erase t) free := by
  unfold TimerMgr.unlist bcmLlistDelMember
  rw [if_pos known]
  by_cases member : t ∈ active
  · obtain ⟨front, rest, shape⟩ := List.append_of_mem member
    subst shape
    have absent : t ∉ front := by
      intro before
      exact (List.nodup_append.mp lists.once).2.2 t before t (by simp) rfl
    have nonempty : mgr.timerlist ≠ none := by
      rw [lists.listed.start_eq]
      simp
    have passed : ∀ node ∈ front, decide (some node = none ∨ some node = some t) = false := by
      intro node before
      have differs : node ≠ t := fun same => absent (same ▸ before)
      simp [differs]
    have walked := walk_eq (fun plist => plist = none ∨ plist = some t) none lists.listed passed (by simp) lists.enough
    rw [if_neg nonempty, walked, Option.or_none, List.head?_cons]
    have erased : (front ++ t :: rest).erase t = front ++ rest := by
      rw [List.erase_append_right _ absent, List.erase_cons_head]
    have still : (front ++ rest).Sublist (front ++ t :: rest) :=
      (List.Sublist.refl front).append (List.sublist_cons_self t rest)
    refine ⟨(relink mgr.timerlist mgr.next front.getLast? (mgr.next t)).1,
      (relink mgr.timerlist mgr.next front.getLast? (mgr.next t)).2, ?_, ?_⟩
    · rw [decide_eq_true member]
    rw [erased]
    exact {
      listed := lists.listed.remove lists.once
      unused := by
        refine lists.unused.frame fun node among => Chain.relink_other fun before => ?_
        exact lists.apart (List.mem_append_left _ before) among
      once := lists.once.sublist still
      freeOnce := lists.freeOnce
      apart := fun node there among => lists.apart (still.subset there) among
      inside := fun node there => lists.inside node (still.subset there)
      ascending := lists.ascending.sublist still
      proper := fun node there => lists.proper node (still.subset there) }
  · rw [List.erase_of_not_mem member]
    refine ⟨mgr.timerlist, mgr.next, ?_, lists⟩
    have passed : ∀ node ∈ active, decide (some node = none ∨ some node = some t) = false := by
      intro node among
      have differs : node ≠ t := fun same => member (same ▸ among)
      simp [differs]
    have chain : Chain mgr.next mgr.timerlist (active ++ []) none := by rw [List.append_nil]; exact lists.listed
    have all : Lists mgr (active ++ []) free := by rw [List.append_nil]; exact lists
    have walked := walk_eq (fun plist => plist = none ∨ plist = some t) none chain passed (by simp) all.enough
    rw [walked, List.head?_nil, decide_eq_false member]
    by_cases empty : mgr.timerlist = none
    · rw [if_pos empty]
    · rw [if_neg empty]

theorem Lists.compared (lists : Lists mgr active free) (proper : (mgr.timers t).expiryTime.Proper) {other : Nat}
    (among : other ∈ active) :
    decide (bcmseclibCompareTimes (mgr.timers t).expiryTime (mgr.timers other).expiryTime ≤ 0) =
      decide (mgr.NoLater t other) :=
  decide_eq_decide.mpr (compareTimes_le proper (lists.proper other among))

theorem Lists.place (lists : Lists mgr active free) (proper : (mgr.timers t).expiryTime.Proper) (absent : t ∉ active)
    (notFree : t ∉ free) (inside : t < mgr.maxtimers) :
    ∃ head link, mgr.place t = some { mgr with timerlist := head, next := link } ∧
      Lists { mgr with timerlist := head, next := link } (active.orderedInsert mgr.NoLater t) free := by
  have ordered := lists.ascending.orderedInsert t
  have members : ∀ {node}, node ∈ active.orderedInsert mgr.NoLater t ↔ node = t ∨ node ∈ active :=
    List.mem_orderedInsert ..
  have once : (active.orderedInsert mgr.NoLater t).Nodup :=
    (List.perm_orderedInsert mgr.NoLater t active).nodup_iff.mpr (List.nodup_cons.mpr ⟨absent, lists.once⟩)
  -- it is enough to say where the walk ends and which links it changes
  have result : ∀ head link, mgr.place t = some { mgr with timerlist := head, next := link } →
      Chain link head (active.orderedInsert mgr.NoLater t) none →
        (∀ node, node ≠ t → node ∉ active → link node = mgr.next node) →
      ∃ head link, mgr.place t = some { mgr with timerlist := head, next := link } ∧
        Lists { mgr with timerlist := head, next := link } (active.orderedInsert mgr.NoLater t) free := by
    intro head link placed listed frame
    refine ⟨head, link, placed, ?_⟩
    exact {
      listed := listed
      unused := lists.unused.frame fun node among =>
        frame node (fun same => notFree (same ▸ among)) fun also => lists.apart also among
      once := once
      freeOnce := lists.freeOnce
      apart := by
        intro node there among
        rcases members.mp there with same | before
        · exact notFree (same ▸ among)
        · exact lists.apart before among
      inside := by
        intro node there
        rcases members.mp there with same | before
        · exact same ▸ inside
        · exact lists.inside node before
      ascending := ordered
      proper := by
        intro node there
        rcases members.mp there with same | before
        · exact same ▸ proper
        · exact lists.proper node before }
  by_cases empty : mgr.timerlist = none
  · have nobody : active = [] := by
      have start := lists.listed.start_eq
      rw [empty] at start
      exact List.head?_eq_none_iff.mp start.symm
    subst nobody
    refine result (some t) (Function.update mgr.next t none) ?_ ⟨rfl, Function.update_self ..⟩ ?_
    · unfold TimerMgr.place
      rw [if_pos empty]
    · exact fun node differs _ => Function.update_of_ne differs _ _
  have passes := List.all_takeWhile (p := fun other => decide ¬mgr.NoLater t other) (l := active)
  have split := List.takeWhile_append_dropWhile (p := fun other => decide ¬mgr.NoLater t other) (l := active)
  rw [List.orderedInsert_eq_take_drop] at result ⊢
  generalize before : active.takeWhile (fun other => decide ¬mgr.NoLater t other) = front at passes split result ⊢
  generalize behind : active.dropWhile (fun other => decide ¬mgr.NoLater t other) = rest at split result ⊢
  subst split
  have passed : ∀ node ∈ front, (some node).elim true (fun other =>
      decide (bcmseclibCompareTimes (mgr.timers t).expiryTime (mgr.timers other).expiryTime ≤ 0)) = false := by
    intro node among
    have later := List.all_eq_true.mp passes node among
    rw [Option.elim_some, lists.compared proper (List.mem_append_left _ among)]
    simpa using later
  have stopped : rest.head?.elim true (fun other =>
      decide (bcmseclibCompareTimes (mgr.timers t).expiryTime (mgr.timers other).expiryTime ≤ 0)) = true := by
    cases rest with
    | nil => rfl
    | cons first more =>
      have sooner := List.head?_dropWhile_not (fun other => decide ¬mgr.NoLater t other) (front ++ first :: more)
      rw [behind] at sooner
      rw [List.head?_cons, Option.elim_some, lists.compared proper (by simp)]
      simpa using sooner
  have walked := walk_eq (fun plist => plist.elim true fun other =>
    decide (bcmseclibCompareTimes (mgr.timers t).expiryTime (mgr.timers other).expiryTime ≤ 0)) none lists.listed passed
    stopped lists.enough
  rw [Option.or_none] at walked
  have inserted := lists.listed.insert lists.once absent
  refine result _ _ ?_ inserted ?_
  · unfold TimerMgr.place
    rw [if_neg empty, walked]
    cases rest with
    | cons first more => rfl
    | nil =>
      -- the last timer is followed by this one
      rcases List.eq_nil_or_concat' front with rfl | ⟨others, last, rfl⟩
      · exact absurd lists.listed empty
      · rw [List.getLast?_concat, List.head?_nil]
        have differs : t ≠ last := fun same => absent (by simp [same])
        simp only [relink, Function.update_comm differs]
  · intro node differs outside
    rw [Chain.relink_other fun among => outside (List.mem_append_left _ among)]
    exact Function.update_of_ne differs _ _

theorem Lists.retimed (lists : Lists mgr active free) (absent : t ∉ active) (timer : BcmseclibTimer) :
    Lists { mgr with timers := Function.update mgr.timers t timer } active free := by
  have same : ∀ node ∈ active, Function.update mgr.timers t timer node = mgr.timers node := by
    intro node among
    have differs : node ≠ t := fun here => absent (here ▸ among)
    exact Function.update_of_ne differs _ _
  refine { lists with ascending := lists.ascending.imp_of_mem ?_, proper := ?_ }
  · intro first second here there ordered
    unfold TimerMgr.NoLater TimerMgr.due
    dsimp only
    rw [same first here, same second there]
    exact ordered
  · intro node among
    dsimp only
    rw [same node among]
    exact lists.proper node among

theorem addTimer_spec (lists : Lists mgr active free) (known : (mgr.timers t).mgr = true) (notFree : t ∉ free)
    (inside : t < mgr.maxtimers) (clock : now.Proper) (ms : Nat) (periodic : Bool) :
    ∃ after active', bcmseclibAddTimer mgr t ms periodic now = some after ∧ Lists after active' free ∧
      after.maxtimers = mgr.maxtimers ∧
      after.timers = Function.update mgr.timers t
        { mgr.timers t with ms := ms, periodic := periodic, expiryTime := bcmseclibSetExpiration ms now } ∧
      ∀ node, node ∈ active' ↔ node = t ∨ node ∈ active := by
  obtain ⟨head, link, unlisted, rest⟩ := lists.unlist known
  have absent : t ∉ active.erase t := lists.once.not_mem_erase
  have timed := rest.retimed absent
    { mgr.timers t with ms := ms, periodic := periodic, expiryTime := bcmseclibSetExpiration ms now }
  have proper : (bcmseclibSetExpiration ms now).Proper := (setExpiration_spec ms clock).1
  obtain ⟨_, _, placed, listed⟩ := timed.place (t := t) (by simpa using proper) absent notFree inside
  refine ⟨_, _, ?_, listed, rfl, rfl, ?_⟩
  · unfold bcmseclibAddTimer
    rw [unlisted]
    exact placed
  · intro node
    rw [List.mem_orderedInsert, lists.once.mem_erase_iff]
    by_cases same : node = t
    · simp [same]
    · simp [same]

end

def alarmOf (uses : Uses) (t : Nat) : Option Alarm := (uses t).bind Use.alarm

/-- What the manager knows of a timer in use. -/
structure Agrees (timer : BcmseclibTimer) (use : Use) : Prop where
  mgr : timer.mgr = true
  callback : timer.callback = use.callback
  alarm : ∀ alarm, use.alarm = some alarm →
    timer.ms = alarm.ms ∧ timer.periodic = alarm.periodic ∧ timer.expiryTime.micros = alarm.expiry

/-- The lists are those of the timers that are active, and those that are not in use. -/
structure Kept (n : Nat) (mgr : TimerMgr) (uses : Uses) (active free : List Nat) : Prop where
  lists : Lists mgr active free
  size : mgr.maxtimers = n
  active_iff : ∀ t, t ∈ active ↔ alarmOf uses t ≠ none
  free_iff : ∀ t, t ∈ free ↔ t < n ∧ uses t = none
  known : ∀ t use, uses t = some use → t < n ∧ Agrees (mgr.timers t) use

/-- No timer expires earlier. -/
def Earliest (uses : Uses) (t : Nat) (alarm : Alarm) : Prop :=
  alarmOf uses t = some alarm ∧ ∀ other later, alarmOf uses other = some later → alarm.expiry ≤ later.expiry

/-- Callbacks are those of the timer that expires first, after its time; timeouts are up to
this time; and only a callback that is not there ends the program. -/
def Right (session : Session) (call : TimerCall) : TimerAnswer → Prop
  | .fired t callback => ∃ use alarm now again, (call = .process now again ∨ call = .returned now again) ∧
      session.uses t = some use ∧ use.callback = callback ∧ Earliest session.uses t alarm ∧ alarm.expiry ≤ now.micros
  | .timeout none => ∀ t, alarmOf session.uses t = none
  | .timeout (some left) => ∃ now t alarm, call = .getTimeout now ∧ Earliest session.uses t alarm ∧
      left.Proper ∧ 0 ≤ left.sec ∧ left.micros = max 0 (alarm.expiry - now.micros)
  | .ended => session.running = false ∨ ∃ arg, call = .init none arg
  | _ => True

section

variable {n t ms arg pending : Nat} {mgr after : TimerMgr} {uses : Uses} {active active' free free' rest : List Nat}
  {use : Use} {alarm : Alarm} {now again : Time} {session : Session} {call : TimerCall} {periodic : Bool}

theorem alarmOf_some : alarmOf uses t = some alarm ↔ ∃ use, uses t = some use ∧ use.alarm = some alarm := by
  unfold alarmOf
  rw [Option.bind_eq_some_iff]

section

variable (kept : Kept n mgr uses active free)
include kept

/-- One timer changes its place. -/
theorem Kept.update (lists : Lists after active' free')
    (size : after.maxtimers = mgr.maxtimers) (others : ∀ other, other ≠ t → after.timers other = mgr.timers other)
    (moved : ∀ other, other ≠ t → ((other ∈ active' ↔ other ∈ active) ∧ (other ∈ free' ↔ other ∈ free)))
    (use : Option Use) (here : t ∈ active' ↔ use.bind Use.alarm ≠ none) (unused : t ∈ free' ↔ t < n ∧ use = none)
    (agrees : ∀ it, use = some it → t < n ∧ Agrees (after.timers t) it) :
    Kept n after (Function.update uses t use) active' free' where
  lists := lists
  size := size.trans kept.size
  active_iff other := by
    unfold alarmOf
    by_cases same : other = t
    · rw [same, Function.update_self]
      exact here
    · rw [Function.update_of_ne same, (moved other same).1]
      exact kept.active_iff other
  free_iff other := by
    by_cases same : other = t
    · rw [same, Function.update_self]
      exact unused
    · rw [Function.update_of_ne same, (moved other same).2]
      exact kept.free_iff other
  known other use used := by
    by_cases same : other = t
    · rw [same] at used ⊢
      rw [Function.update_self] at used
      exact agrees use used
    · rw [Function.update_of_ne same] at used
      rw [others other same]
      exact kept.known other use used

theorem Kept.not_free (used : uses t = some use) : t ∉ free := by
  rw [kept.free_iff, used]
  simp

/-- A timer in use is set. -/
theorem Kept.add (used : uses t = some use) (clock : now.Proper)
    (ms : Nat) (periodic : Bool) :
    ∃ after active', bcmseclibAddTimer mgr t ms periodic now = some after ∧
      (after.timers t).callback = use.callback ∧
      Kept n after (Function.update uses t (some (use.start ms periodic now))) active' free := by
  obtain ⟨inside, agrees⟩ := kept.known t use used
  obtain ⟨after, active', added, lists, size, timers, members⟩ :=
    addTimer_spec kept.lists agrees.mgr (kept.not_free used) (kept.size ▸ inside) clock ms periodic
  have timer : after.timers t = { mgr.timers t with
      ms := ms, periodic := periodic, expiryTime := bcmseclibSetExpiration ms now } := by
    rw [timers, Function.update_self]
  refine ⟨after, active', added, by rw [timer]; exact agrees.callback, ?_⟩
  refine kept.update lists size ?_ ?_ _ ?_ ?_ ?_
  · intro other differs
    rw [timers, Function.update_of_ne differs]
  · intro other differs
    rw [members]
    exact ⟨⟨fun either => either.resolve_left differs, Or.inr⟩, Iff.rfl⟩
  · simp [members, Use.start]
  · simp [kept.not_free used]
  · intro started same
    cases same
    refine ⟨inside, ?_⟩
    rw [timer]
    refine ⟨agrees.mgr, agrees.callback, fun alarm same => ?_⟩
    cases same
    exact ⟨rfl, rfl, (setExpiration_spec ms clock).2⟩

theorem Kept.del (known : (mgr.timers t).mgr = true) :
    ∃ after active', bcmseclibDelTimer mgr t = some (after, decide (t ∈ active)) ∧ after.timers = mgr.timers ∧
      Kept n after (Function.update uses t ((uses t).map Use.stop)) active' free := by
  obtain ⟨head, link, unlisted, rest⟩ := kept.lists.unlist known
  refine ⟨_, _, unlisted, rfl, kept.update rest rfl (fun _ _ => rfl) ?_ _ ?_ ?_ ?_⟩
  · intro other differs
    rw [kept.lists.once.mem_erase_iff]
    exact ⟨⟨And.right, fun among => ⟨differs, among⟩⟩, Iff.rfl⟩
  · rw [kept.lists.once.mem_erase_iff]
    cases uses t <;> simp [Use.stop]
  · rw [kept.free_iff]
    simp
  · intro use same
    obtain ⟨before, used, rfl⟩ := Option.map_eq_some_iff.mp same
    obtain ⟨inside, agrees⟩ := kept.known t before used
    exact ⟨inside, agrees.mgr, agrees.callback, fun alarm same => by cases same⟩

/-- A timer is given up. -/
theorem Kept.release (used : uses t = some use) :
    ∃ after active' free', bcmseclibFreeTimer mgr (some t) = some after ∧
      Kept n after (Function.update uses t none) active' free' := by
  obtain ⟨inside, agrees⟩ := kept.known t use used
  obtain ⟨head, link, unlisted, rest⟩ := kept.lists.unlist agrees.mgr
  have absent : t ∉ active.erase t := kept.lists.once.not_mem_erase
  have notFree := kept.not_free used
  have freed : Lists
    { mgr with timerlist := head, next := Function.update link t mgr.timerFreelist, timerFreelist := some t }
      (active.erase t) (t :: free) := {
    listed := rest.listed.update_of_not_mem absent _
    unused := by
      refine ⟨rfl, ?_⟩
      dsimp only
      rw [Function.update_self]
      exact rest.unused.update_of_not_mem notFree _
    once := rest.once
    freeOnce := List.nodup_cons.mpr ⟨notFree, rest.freeOnce⟩
    apart := by
      intro node there among
      rcases List.mem_cons.mp among with same | also
      · exact absent (same ▸ there)
      · exact rest.apart there also
    inside := rest.inside
    ascending := rest.ascending
    proper := rest.proper }
  refine ⟨_, _, _, ?_, kept.update freed rfl (fun _ _ => rfl) ?_ none ?_ ?_ ?_⟩
  · simp only [bcmseclibFreeTimer, unlisted]
  · intro other differs
    rw [kept.lists.once.mem_erase_iff, List.mem_cons]
    exact ⟨⟨And.right, fun among => ⟨differs, among⟩⟩, ⟨fun either => either.resolve_left differs, Or.inr⟩⟩
  · simp [absent]
  · simp [inside]
  · intro use same
    cases same

/-- The first free timer comes into use. -/
theorem Kept.init (first : mgr.timerFreelist = some t) (fn arg : Nat) :
    ∃ after free', bcmseclibInitTimerEx mgr (some fn) arg = some (after, some t) ∧
      Kept n after (Function.update uses t (some { callback := ⟨fn, arg⟩, alarm := none })) active free' := by
  have start := kept.lists.unused.start_eq
  rw [first] at start
  obtain ⟨others, shape⟩ := List.head?_eq_some_iff.mp start.symm
  subst shape
  have here : t ∈ t :: others := by simp
  obtain ⟨inside, unused⟩ := (kept.free_iff t).mp here
  have absent : t ∉ active := fun among => kept.lists.apart among here
  obtain ⟨notAgain, once⟩ := List.nodup_cons.mp kept.lists.freeOnce
  have taken : Lists { mgr with
      timerFreelist := mgr.next t, next := Function.update mgr.next t none } active others := {
    listed := kept.lists.listed.update_of_not_mem absent none
    unused := kept.lists.unused.2.update_of_not_mem notAgain none
    once := kept.lists.once
    freeOnce := once
    apart := fun node there among => kept.lists.apart there (List.mem_cons_of_mem t among)
    inside := kept.lists.inside
    ascending := kept.lists.ascending
    proper := kept.lists.proper }
  have named := taken.retimed absent { mgr.timers t with callback := ⟨fn, arg⟩, mgr := true }
  refine ⟨_, others, ?_, kept.update named rfl ?_ ?_ _ ?_ ?_ ?_⟩
  · unfold bcmseclibInitTimerEx
    rw [first]
  · exact fun other differs => Function.update_of_ne differs _ _
  · intro other differs
    rw [List.mem_cons]
    exact ⟨Iff.rfl, ⟨Or.inr, fun either => either.resolve_left differs⟩⟩
  · simp [absent]
  · simp [notAgain]
  · intro use same
    cases same
    refine ⟨inside, ?_⟩
    dsimp only
    rw [Function.update_self]
    exact ⟨rfl, rfl, fun alarm same => by cases same⟩

theorem Kept.nothing (empty : mgr.timerlist = none) (t : Nat) :
    alarmOf uses t = none := by
  have start := kept.lists.listed.start_eq
  rw [empty] at start
  have nobody := List.head?_eq_none_iff.mp start.symm
  by_contra rings
  have among := (kept.active_iff t).mpr rings
  rw [nobody] at among
  cases among

theorem Kept.first (head : mgr.timerlist = some t) :
    ∃ use alarm, uses t = some use ∧ use.alarm = some alarm ∧ Earliest uses t alarm ∧
      (mgr.timers t).expiryTime.Proper := by
  have start := kept.lists.listed.start_eq
  rw [head] at start
  obtain ⟨others, shape⟩ := List.head?_eq_some_iff.mp start.symm
  have here : t ∈ active := by simp [shape]
  obtain ⟨alarm, rings⟩ := Option.ne_none_iff_exists'.mp ((kept.active_iff t).mp here)
  obtain ⟨use, used, set⟩ := alarmOf_some.mp rings
  refine ⟨use, alarm, used, set, ⟨rings, fun other later ringsToo => ?_⟩, kept.lists.proper t here⟩
  obtain ⟨also, usedToo, setToo⟩ := alarmOf_some.mp ringsToo
  have among := (kept.active_iff other).mpr (by rw [ringsToo]; simp)
  rw [← ((kept.known t use used).2.alarm alarm set).2.2, ← ((kept.known other also usedToo).2.alarm later setToo).2.2]
  have ordered := kept.lists.ascending
  rw [shape] at among ordered
  rcases List.mem_cons.mp among with same | behind
  · rw [same]
  · exact (List.pairwise_cons.mp ordered).1 other behind

end

/-- What a call comes to. -/
def Does (n : Nat) (session : Session) (call : TimerCall) : Option (TimerMgr × Nat × TimerAnswer) → Prop
  | none => ∃ arg, call = .init none arg
  | some (mgr, _, answer) => (∃ active free, Kept n mgr (note session.uses call answer) active free) ∧
      Right session call answer

section

variable (kept : Kept n session.mgr session.uses active free)
include kept

theorem init_does (fn : Option Nat) (arg : Nat) :
    Does n session (.init fn arg) (perform session (.init fn arg)) := by
  dsimp only [perform]
  cases first : session.mgr.timerFreelist with
  | none =>
    have refused : bcmseclibInitTimerEx session.mgr fn arg = some (session.mgr, none) := by
      unfold bcmseclibInitTimerEx
      rw [first]
    rw [refused]
    exact ⟨⟨active, free, kept⟩, trivial⟩
  | some t =>
    cases fn with
    | none =>
      have stops : bcmseclibInitTimerEx session.mgr none arg = none := by
        unfold bcmseclibInitTimerEx
        rw [first]
      rw [stops]
      exact ⟨arg, rfl⟩
    | some fn =>
      obtain ⟨after, free', made, still⟩ := kept.init first fn arg
      rw [made]
      exact ⟨⟨active, free', still⟩, trivial⟩

theorem getTimeout_does (clock : now.Proper) :
    Does n session (.getTimeout now) (perform session (.getTimeout now)) := by
  dsimp only [perform]
  unfold bcmseclibGetTimeoutEx
  cases head : session.mgr.timerlist with
  | none => exact ⟨⟨active, free, kept⟩, kept.nothing head⟩
  | some t =>
    obtain ⟨use, alarm, used, set, earliest, proper⟩ := kept.first head
    obtain ⟨left, translated, normal, positive, micros⟩ := translate_spec clock proper
    dsimp only
    rw [translated]
    refine ⟨⟨active, free, kept⟩, now, t, alarm, rfl, earliest, normal, positive, ?_⟩
    rw [micros, ((kept.known t use used).2.alarm alarm set).2.2]

theorem expiryTurn_does (clock : now.Proper)
    (clockAgain : again.Proper) (calls : call = .process now again ∨ call = .returned now again) (pending : Nat) :
    Does n session call (expiryTurn session.mgr pending now again) := by
  have quiet : Does n session call (some (session.mgr, pending, .processed)) := by
    have same : note session.uses call .processed = session.uses := by
      rcases calls with same | same <;> rw [same] <;> rfl
    exact ⟨⟨active, free, by rw [same]; exact kept⟩, trivial⟩
  unfold expiryTurn bcmseclibProcessTimerExpiryEx
  cases head : session.mgr.timerlist with
  | none => exact quiet
  | some t =>
    obtain ⟨use, alarm, used, set, earliest, proper⟩ := kept.first head
    obtain ⟨inside, agrees⟩ := kept.known t use used
    obtain ⟨-, periodicity, expiry⟩ := agrees.alarm alarm set
    dsimp only
    by_cases expired : bcmseclibHasTimerExpired now (session.mgr.timers t).expiryTime
    · rw [if_pos expired]
      have passed : alarm.expiry ≤ now.micros := by
        rw [← expiry]
        exact (compareTimes_ge clock proper).mp (of_decide_eq_true expired)
      have noted : ∀ callback, note session.uses call (.fired t callback) =
          Function.update session.uses t (some (use.expire again)) := by
        intro callback
        rcases calls with same | same <;> simp only [same, note, used, Option.map_some]
      obtain ⟨stopped, others, deleted, same, kept'⟩ := kept.del agrees.mgr
      rw [deleted]
      dsimp only
      by_cases periodic : (stopped.timers t).periodic
      · -- the timer is back in the list when its callback begins
        rw [if_pos periodic]
        have rest : Function.update session.uses t ((session.uses t).map Use.stop) t = some use.stop := by
          rw [Function.update_self, used, Option.map_some]
        obtain ⟨after, active', added, callback, still⟩ :=
          kept'.add rest clockAgain (stopped.timers t).ms (stopped.timers t).periodic
        rw [added]
        refine ⟨⟨active', free, ?_⟩, use, alarm, now, again, calls, used, callback.symm, earliest, passed⟩
        rw [noted]
        rw [Function.update_idem, same] at still
        have periodically : use.expire again =
            use.stop.start (session.mgr.timers t).ms (session.mgr.timers t).periodic again := by
          rw [same, periodicity] at periodic
          unfold Use.expire Use.stop Use.start
          rw [set, Option.bind_some, if_pos periodic, (agrees.alarm alarm set).1, periodicity]
        rw [periodically]
        exact still
      · rw [if_neg periodic]
        refine ⟨⟨others, free, ?_⟩, use, alarm, now, again, calls, used, ?_, earliest, passed⟩
        · rw [noted]
          have once : use.expire again = use.stop := by
            rw [same, periodicity] at periodic
            unfold Use.expire Use.stop
            rw [set, Option.bind_some, if_neg periodic]
          rw [once]
          rw [used, Option.map_some] at kept'
          exact kept'
        · rw [same]
          exact agrees.callback.symm
    · rw [if_neg expired]
      exact quiet

theorem perform_does (permitted : Permitted session call) :
    Does n session call (perform session call) := by
  cases call with
  | init fn arg => exact init_does kept fn arg
  | add t ms periodic now =>
    obtain ⟨use, used⟩ := Option.ne_none_iff_exists'.mp permitted.1
    obtain ⟨after, active', added, _, still⟩ := kept.add used permitted.2 ms periodic
    dsimp only [perform]
    rw [added]
    refine ⟨⟨active', free, ?_⟩, trivial⟩
    simp only [note, used, Option.map_some]
    exact still
  | del t =>
    obtain ⟨after, active', deleted, _, still⟩ := kept.del permitted
    dsimp only [perform]
    rw [deleted]
    exact ⟨⟨active', free, still⟩, trivial⟩
  | free t =>
    dsimp only [perform]
    cases t with
    | none => exact ⟨⟨active, free, kept⟩, trivial⟩
    | some t =>
      obtain ⟨use, used⟩ := Option.ne_none_iff_exists'.mp (permitted t rfl)
      obtain ⟨after, active', free', freed, still⟩ := kept.release used
      rw [freed]
      exact ⟨⟨active', free', still⟩, trivial⟩
  | getTimeout now => exact getTimeout_does kept permitted
  | process now again => exact expiryTurn_does kept permitted.1 permitted.2 (Or.inl rfl) _
  | returned now again => exact expiryTurn_does kept permitted.2.1 permitted.2.2 (Or.inr rfl) _

theorem step_kept (permitted : Permitted session call) :
    (∃ active free, Kept n (sessionStep session call).1.mgr (sessionStep session call).1.uses active free) ∧
      Right session call (sessionStep session call).2 := by
  unfold sessionStep
  by_cases running : session.running
  · rw [if_pos running]
    have does := perform_does kept permitted
    cases performed : perform session call with
    | none =>
      rw [performed] at does
      exact ⟨⟨active, free, kept⟩, Or.inr does⟩
    | some result =>
      rw [performed] at does
      exact does
  · rw [if_neg running]
    exact ⟨⟨active, free, kept⟩, Or.inl (Bool.eq_false_iff.mpr running)⟩

end

end

/-- The timers that are in use and not active. -/
def idle (n : Nat) (uses : Uses) : List Nat :=
  (List.range n).filter fun t => (uses t).isSome ∧ (alarmOf uses t).isNone

/-- The active list has every active timer once, in the order in which they expire, and with
the free list and the idle timers it makes up all timers. -/
structure InOrder (n : Nat) (session : Session) (active free : List Nat) : Prop where
  listed : Chain session.mgr.next session.mgr.timerlist active none
  unused : Chain session.mgr.next session.mgr.timerFreelist free none
  ascending : active.Pairwise fun first second => session.mgr.due first ≤ session.mgr.due second
  due_eq : ∀ t alarm, alarmOf session.uses t = some alarm → session.mgr.due t = alarm.expiry
  active_iff : ∀ t, t ∈ active ↔ alarmOf session.uses t ≠ none
  together : (active ++ idle n session.uses ++ free).Perm (List.range n)

section

variable {n k : Nat} {session : Session} {active free : List Nat}

theorem Kept.inOrder (kept : Kept n session.mgr session.uses active free) : InOrder n session active free where
  listed := kept.lists.listed
  unused := kept.lists.unused
  ascending := kept.lists.ascending
  due_eq t alarm rings := by
    obtain ⟨use, used, set⟩ := alarmOf_some.mp rings
    exact ((kept.known t use used).2.alarm alarm set).2.2
  active_iff := kept.active_iff
  together := by
    have resting : ∀ t, t ∈ idle n session.uses ↔ t < n ∧ session.uses t ≠ none ∧ alarmOf session.uses t = none := by
      intro t
      simp [idle, Option.isSome_iff_ne_none]
    have nodup : (active ++ idle n session.uses ++ free).Nodup := by
      refine List.nodup_append'.mpr ⟨List.nodup_append'.mpr ⟨kept.lists.once, List.nodup_range.filter _, ?_⟩,
        kept.lists.freeOnce, ?_⟩
      · intro t rings rests
        exact (kept.active_iff t).mp rings ((resting t).mp rests).2.2
      · intro t used unused
        rcases List.mem_append.mp used with rings | rests
        · exact kept.lists.apart rings unused
        · exact ((resting t).mp rests).2.1 ((kept.free_iff t).mp unused).2
    refine (List.perm_ext_iff_of_nodup nodup List.nodup_range).mpr fun t => ?_
    rw [List.mem_append, List.mem_append, resting, kept.free_iff, List.mem_range]
    constructor
    · rintro ((rings | rests) | unused)
      · exact kept.size ▸ kept.lists.inside t rings
      · exact rests.1
      · exact unused.1
    · intro inside
      by_cases used : session.uses t = none
      · exact Or.inr ⟨inside, used⟩
      by_cases rings : alarmOf session.uses t = none
      · exact Or.inl (Or.inr ⟨inside, used, rings⟩)
      · exact Or.inl (Or.inl ((kept.active_iff t).mpr rings))

theorem start_chain (inside : k < n) :
    Chain (bcmseclibInitTimerUtilitiesEx n).next (some k) (List.range' k (n - k)) none := by
  obtain ⟨more, rfl⟩ := Nat.exists_eq_add_of_lt inside
  have count : k + more + 1 - k = more + 1 := by omega
  rw [count]
  induction more generalizing k with
  | zero =>
    refine ⟨rfl, ?_⟩
    simp [bcmseclibInitTimerUtilitiesEx, Chain]
  | succ more ih =>
    refine ⟨rfl, ?_⟩
    have next : (bcmseclibInitTimerUtilitiesEx (k + (more + 1) + 1)).next k = some (k + 1) := by
      simp only [bcmseclibInitTimerUtilitiesEx]
      rw [if_pos (by omega)]
    rw [next]
    have shift : k + (more + 1) + 1 = k + 1 + more + 1 := by omega
    rw [shift]
    exact ih (by omega) (by omega)

theorem start_kept (positive : 0 < n) :
    Kept n (sessionStart n).mgr (sessionStart n).uses [] (List.range n) where
  lists := {
    listed := rfl
    unused := by
      have chain := start_chain positive
      rw [Nat.sub_zero, ← List.range_eq_range'] at chain
      exact chain
    once := List.nodup_nil
    freeOnce := List.nodup_range
    apart := List.disjoint_nil_left _
    inside := by simp
    ascending := List.Pairwise.nil
    proper := by simp }
  size := rfl
  active_iff t := by simp [alarmOf, sessionStart]
  free_iff t := by simp [sessionStart]
  known t use used := by cases used

end

/-- Whatever the application and its callbacks do with their timers, the lists stay in order,
and callbacks and timeouts are right. -/
theorem timers_in_order (n : Nat) (calls : List TimerCall) (positive : 0 < n)
    (admitted : timerSession.Admitted (sessionStart n) calls) :
    (∀ past rest, calls = past ++ rest → ∃ active free,
      InOrder n (timerSession.run (sessionStart n) past) active free) ∧
    ∀ past call rest, calls = past ++ call :: rest →
      let session := timerSession.run (sessionStart n) past
      Right session call (timerSession.answer session call) := by
  have preserved : timerSession.Preserves fun session => ∃ active free,
      Kept n session.mgr session.uses active free := by
    intro session call kept permitted
    obtain ⟨active, free, kept⟩ := kept
    exact (step_kept kept permitted).1
  have reached : ∀ past rest, calls = past ++ rest →
      ∃ active free, Kept n (timerSession.run (sessionStart n) past).mgr
        (timerSession.run (sessionStart n) past).uses active free := by
    intro past rest split
    rw [split, Machine.admitted_append] at admitted
    exact timerSession.run_invariant preserved ⟨[], List.range n, start_kept positive⟩ admitted.1
  constructor
  · intro past rest split
    obtain ⟨active, free, kept⟩ := reached past rest split
    exact ⟨active, free, kept.inOrder⟩
  · intro past call rest split
    obtain ⟨active, free, kept⟩ := reached past (call :: rest) split
    rw [split, Machine.admitted_append, Machine.admitted_cons] at admitted
    exact (step_kept kept admitted.2.1).2

instance decidablePermitted (session : Session) : (call : TimerCall) → Decidable (timerSession.admits session call)
  | .init _ _ => .isTrue trivial
  | .add t _ _ now => decidable_of_iff ((session.uses t).isSome ∧ now.Proper)
      (and_congr_left' Option.isSome_iff_ne_none)
  | .del t => inferInstanceAs (Decidable ((session.mgr.timers t).mgr = true))
  | .free t => decidable_of_iff (t.all fun timer => (session.uses timer).isSome) (by
      simp only [Option.all_eq_true, Option.isSome_iff_ne_none]
      rfl)
  | .getTimeout now => inferInstanceAs (Decidable now.Proper)
  | .process now again => inferInstanceAs (Decidable (now.Proper ∧ again.Proper))
  | .returned now again => inferInstanceAs (Decidable (0 < session.pending ∧ now.Proper ∧ again.Proper))

/-- A periodic timer and one that its callback gives up. -/
def twoTimers : List TimerCall :=
  [.init (some 7) 0, .init (some 8) 1, .add 0 1500 true ⟨10, 900000⟩, .add 1 1000 false ⟨10, 950000⟩,
    .getTimeout ⟨11, 0⟩,
    .process ⟨12, 0⟩ ⟨12, 10⟩, .free (some 1), .del 1, .returned ⟨12, 500000⟩ ⟨12, 500010⟩,
      .add 0 10 false ⟨12, 600000⟩,
    .process ⟨13, 0⟩ ⟨13, 0⟩, .returned ⟨13, 0⟩ ⟨13, 0⟩, .returned ⟨13, 0⟩ ⟨13, 0⟩]

theorem timers_in_order_twoTimers :
    (∀ past rest, twoTimers = past ++ rest →
      ∃ active free, InOrder 3 (timerSession.run (sessionStart 3) past) active free) ∧
    ∀ past call rest, twoTimers = past ++ call :: rest →
      let session := timerSession.run (sessionStart 3) past
      Right session call (timerSession.answer session call) :=
  timers_in_order 3 twoTimers (by decide) (by decide +kernel)

end BcmDhd.SecTimer
