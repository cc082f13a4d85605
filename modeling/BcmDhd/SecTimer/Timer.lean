import BcmDhd.Lib.HeadedList
import BcmDhd.Lib.Machine

/-! The timers of the security library: a list of active timers by the time at which they
expire, a list of free ones, and callbacks that use both. Timers are places in the block that
was allocated, and `none` is `NULL`; a function that comes to no end, or follows a pointer
that leads nowhere, has no result. -/

namespace BcmDhd.SecTimer

open BcmDhd.Lib Function

/-- `bcmseclib_time_t`, `exp_time_t`. -/
structure Time where
  sec : Int
  usec : Int
deriving DecidableEq

/-- What the clock says. -/
def Time.Proper (time : Time) : Prop := 0 ≤ time.usec ∧ time.usec < 1000000

instance (time : Time) : Decidable time.Proper := inferInstanceAs (Decidable (_ ∧ _))

/-- The time in microseconds. -/
def Time.micros (time : Time) : Int := time.sec * 1000000 + time.usec

structure Callback where
  fn : Nat
  arg : Nat
deriving DecidableEq

/-- A timer apart from its link; `mgr` says whether it knows its manager. -/
structure BcmseclibTimer where
  callback : Callback
  ms : Nat
  periodic : Bool
  expiryTime : Time
  mgr : Bool

structure TimerMgr where
  next : Nat → Option Nat
  timers : Nat → BcmseclibTimer
  timerlist : Option Nat
  timerFreelist : Option Nat
  maxtimers : Nat

/-- The memory is zeroed, and all timers are free. -/
def bcmseclibInitTimerUtilitiesEx (ntimers : Nat) : TimerMgr where
  next i := if i + 1 < ntimers then some (i + 1) else none
  timers _ := { callback := ⟨0, 0⟩, ms := 0, periodic := false, expiryTime := ⟨0, 0⟩, mgr := false }
  timerlist := none
  timerFreelist := some 0
  maxtimers := ntimers

/-- The overflow of microseconds. -/
def carry (time : Time) : Time :=
  if 1000000 ≤ time.usec then carry { sec := time.sec + 1, usec := time.usec - 1000000 } else time
termination_by time.usec.toNat
decreasing_by omega

def bcmseclibSetExpiration (msec : Nat) (now : Time) : Time :=
  carry { sec := now.sec + (msec / 1000 : Nat), usec := now.usec + (msec % 1000 * 1000 : Nat) }

def bcmseclibCompareTimes (t1 t2 : Time) : Int :=
  if t1.sec > t2.sec then 1
  else if t1.sec < t2.sec then -1
  else if t1.usec > t2.usec then 1
  else if t1.usec < t2.usec then -1
  else 0

def bcmseclibHasTimerExpired (now t : Time) : Bool := bcmseclibCompareTimes now t ≥ 0

/-- The two assertions at the end hold, or there is no result. -/
def bcmseclibTranslateExpiryToAbsolute (now t : Time) : Option Time :=
  if bcmseclibCompareTimes now t ≥ 0 then some ⟨0, 0⟩
  else
    let sec := t.sec - now.sec
    let usec := t.usec - now.usec
    let left : Time := if usec < 0 then ⟨sec - 1, usec + 1000000⟩ else ⟨sec, usec⟩
    if left.sec ≥ 0 ∧ left.usec ≥ 0 then some left else none

/-- `bcm_llist_del_member`, with the list afterwards and whether the member was found. -/
def bcmLlistDelMember (fuel : Nat) (head : Option Nat) (next : Nat → Option Nat) (pdel : Nat) :
    Option ((Option Nat × (Nat → Option Nat)) × Bool) :=
  if head = none then some ((head, next), false)
  else match walk next (fun plist => plist = none ∨ plist = some pdel) fuel none head with
    | none => none
    | some (_, none) => some ((head, next), false)
    | some (pprev, some plist) => some (relink head next pprev (next plist), true)

/-- A walk meets the timers at most, and the end. -/
def TimerMgr.fuel (mgr : TimerMgr) : Nat := mgr.maxtimers + 1

/-- A timer is off the active list, and whether it was on it. -/
def TimerMgr.unlist (mgr : TimerMgr) (t : Nat) : Option (TimerMgr × Bool) :=
  if (mgr.timers t).mgr then
    match bcmLlistDelMember mgr.fuel mgr.timerlist mgr.next t with
    | none => none
    | some (list, found) => some ({ mgr with timerlist := list.1, next := list.2 }, found)
  else none

/-- The place in the list is the one before the first timer that does not expire earlier. -/
def TimerMgr.place (mgr : TimerMgr) (t : Nat) : Option TimerMgr :=
  if mgr.timerlist = none then some { mgr with next := update mgr.next t none, timerlist := some t }
  else match walk mgr.next (fun plist => plist.elim true fun other =>
      bcmseclibCompareTimes (mgr.timers t).expiryTime (mgr.timers other).expiryTime ≤
        0) mgr.fuel none mgr.timerlist with
    | none => none
    | some (pprev, some plist) =>
      let list := relink mgr.timerlist (update mgr.next t (some plist)) pprev (some t)
      some { mgr with timerlist := list.1, next := list.2 }
    | some (some pprev, none) =>
      some { mgr with next := update (update mgr.next pprev (some t)) t none }
    | some (none, none) => none

def bcmseclibAddTimer (mgr : TimerMgr) (t ms : Nat) (periodic : Bool) (now : Time) : Option TimerMgr :=
  match mgr.unlist t with
  | none => none
  | some (rest, _) =>
    let timer := { rest.timers t with ms := ms, periodic := periodic, expiryTime := bcmseclibSetExpiration ms now }
    TimerMgr.place { rest with timers := update rest.timers t timer } t

def bcmseclibDelTimer (mgr : TimerMgr) (t : Nat) : Option (TimerMgr × Bool) := mgr.unlist t

def bcmseclibFreeTimer (mgr : TimerMgr) (t : Option Nat) : Option TimerMgr :=
  match t with
  | none => some mgr
  | some t =>
    match mgr.unlist t with
    | none => none
    | some (rest, _) => some { rest with next := update rest.next t rest.timerFreelist, timerFreelist := some t }

/-- A callback that is not there ends the program. -/
def bcmseclibInitTimerEx (mgr : TimerMgr) (fn : Option Nat) (arg : Nat) : Option (TimerMgr × Option Nat) :=
  match mgr.timerFreelist with
  | none => some (mgr, none)
  | some pnew =>
    match fn with
    | none => none
    | some fn =>
      let timer := { mgr.timers pnew with callback := ⟨fn, arg⟩, mgr := true }
      let rest : TimerMgr := { mgr with timerFreelist := mgr.next pnew, next := update mgr.next pnew none }
      some ({ rest with timers := update mgr.timers pnew timer }, some pnew)

/-- The time left until the first timer expires, if there is one. -/
def bcmseclibGetTimeoutEx (mgr : TimerMgr) (now : Time) : Option (Option Time) :=
  match mgr.timerlist with
  | none => some none
  | some first => (bcmseclibTranslateExpiryToAbsolute now (mgr.timers first).expiryTime).map some

/-- One turn of the loop over the timers that have expired, up to the callback: which one
is made, if any. The clock is read once, and again if the timer is periodic. -/
def bcmseclibProcessTimerExpiryEx (mgr : TimerMgr) (now again : Time) : Option (TimerMgr × Option Nat) :=
  match mgr.timerlist with
  | none => some (mgr, none)
  | some ptimer =>
    if bcmseclibHasTimerExpired now (mgr.timers ptimer).expiryTime then
      match bcmseclibDelTimer mgr ptimer with
      | none => none
      | some (rest, _) =>
        if (rest.timers ptimer).periodic then
          (bcmseclibAddTimer rest ptimer (rest.timers ptimer).ms (rest.timers ptimer).periodic again).map
            fun added => (added, some ptimer)
        else some (rest, some ptimer)
    else some (mgr, none)

inductive TimerCall
  | init (fn : Option Nat) (arg : Nat)
  | add (t ms : Nat) (periodic : Bool) (now : Time)
  | del (t : Nat)
  | free (t : Option Nat)
  | getTimeout (now : Time)
  | process (now again : Time)
  | returned (now again : Time)

/-- `fired` is where a callback begins; it ends with the call `returned`, which goes on with
the loop. -/
inductive TimerAnswer
  | timer (t : Option Nat)
  | added
  | deleted (found : Bool)
  | freed
  | timeout (left : Option Time)
  | fired (t : Nat) (callback : Callback)
  | processed
  | ended
deriving DecidableEq

/-- When a timer expires next. -/
structure Alarm where
  ms : Nat
  periodic : Bool
  expiry : Int

/-- What a timer in use is for, and whether it is active. -/
structure Use where
  callback : Callback
  alarm : Option Alarm

def Alarm.start (ms : Nat) (periodic : Bool) (now : Time) : Alarm :=
  { ms := ms, periodic := periodic, expiry := now.micros + 1000 * ms }

def Use.start (use : Use) (ms : Nat) (periodic : Bool) (now : Time) : Use :=
  { use with alarm := some (.start ms periodic now) }

def Use.stop (use : Use) : Use := { use with alarm := none }

/-- A timer has expired. -/
def Use.expire (use : Use) (again : Time) : Use :=
  { use with alarm := use.alarm.bind fun alarm =>
      if alarm.periodic then some (.start alarm.ms alarm.periodic again) else none }

abbrev Uses := Nat → Option Use

/-- What the application knows of its timers after a call. -/
def note (uses : Uses) (call : TimerCall) (answer : TimerAnswer) : Uses :=
  match call, answer with
  | .init fn arg, .timer (some t) => update uses t (some { callback := ⟨fn.getD 0, arg⟩, alarm := none })
  | .add t ms periodic now, .added => update uses t ((uses t).map fun use => use.start ms periodic now)
  | .del t, .deleted _ => update uses t ((uses t).map Use.stop)
  | .free (some t), .freed => update uses t none
  | .process _ again, .fired t _ => update uses t ((uses t).map fun use => use.expire again)
  | .returned _ again, .fired t _ => update uses t ((uses t).map fun use => use.expire again)
  | _, _ => uses

/-- The library and its application; `pending` callbacks are running. -/
structure Session where
  mgr : TimerMgr
  pending : Nat
  running : Bool
  uses : Uses

/-- A turn of the loop, begun with so many callbacks running. -/
def expiryTurn (mgr : TimerMgr) (pending : Nat) (now again : Time) : Option (TimerMgr × Nat × TimerAnswer) :=
  match bcmseclibProcessTimerExpiryEx mgr now again with
  | none => none
  | some (after, none) => some (after, pending, .processed)
  | some (after, some t) => some (after, pending + 1, .fired t (after.timers t).callback)

def perform (session : Session) (call : TimerCall) : Option (TimerMgr × Nat × TimerAnswer) :=
  match call with
  | .init fn arg => (bcmseclibInitTimerEx session.mgr fn arg).map fun made => (made.1, session.pending, .timer made.2)
  | .add t ms periodic now =>
    (bcmseclibAddTimer session.mgr t ms periodic now).map fun after => (after, session.pending, .added)
  | .del t => (bcmseclibDelTimer session.mgr t).map fun done => (done.1, session.pending, .deleted done.2)
  | .free t => (bcmseclibFreeTimer session.mgr t).map fun after => (after, session.pending, .freed)
  | .getTimeout now => (bcmseclibGetTimeoutEx session.mgr now).map fun left =>
      (session.mgr, session.pending, .timeout left)
  | .process now again => expiryTurn session.mgr session.pending now again
  | .returned now again => expiryTurn session.mgr (session.pending - 1) now again

def sessionStep (session : Session) (call : TimerCall) : Session × TimerAnswer :=
  if session.running then
    match perform session call with
    | none => ({ session with running := false }, .ended)
    | some (mgr, pending, answer) =>
      ({ mgr := mgr, pending := pending, running := true, uses := note session.uses call answer }, answer)
  else (session, .ended)

/-- Only timers in use are added and freed, and those that have been in use deleted. -/
def Permitted (session : Session) : TimerCall → Prop
  | .init _ _ => True
  | .add t _ _ now => session.uses t ≠ none ∧ now.Proper
  | .del t => (session.mgr.timers t).mgr = true
  | .free t => ∀ timer, t = some timer → session.uses timer ≠ none
  | .getTimeout now => now.Proper
  | .process now again => now.Proper ∧ again.Proper
  | .returned now again => 0 < session.pending ∧ now.Proper ∧ again.Proper

def timerSession : Machine Session TimerCall TimerAnswer where
  step := sessionStep
  admits := Permitted

def sessionStart (ntimers : Nat) : Session :=
  { mgr := bcmseclibInitTimerUtilitiesEx ntimers, pending := 0, running := true, uses := fun _ => none }

end BcmDhd.SecTimer
