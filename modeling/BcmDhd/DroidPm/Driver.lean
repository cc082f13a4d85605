import Mathlib.Data.List.Basic
import BcmDhd.Lib.Machine

/-! The clients of `droid_pm`, and the attempts to suspend and to shut down, which wait for
their acknowledgements. Every section under `pm_mutex` is a step of its own, and so is the
end of a wait between two of them. -/

namespace BcmDhd.DroidPm

open BcmDhd.Lib

/-- The address of a `struct droid_pm_instance`. -/
abbrev InstancePtr := Nat

/-- The address of an eventfd context, not null. -/
abbrev EventfdCtx := Nat

def eventInteractiveOff : UInt64 := 1
def eventInteractiveOn : UInt64 := 2
def eventSuspending : UInt64 := 6
def eventShutdown : UInt64 := 7

def eAgain : Int := -11
def eNoMem : Int := -12
def eFault : Int := -14
def eInval : Int := -22
def eTime : Int := -62

def notifyDone : Int := 0
def notifyBad : Int := 0x8002

structure Instance where
  eventfdCtx : Option EventfdCtx
  registered : Bool
  suspendAck : Bool

/-- An instance as `kzalloc` gives it. -/
def Instance.zeroed : Instance := { eventfdCtx := none, registered := false, suspendAck := false }

/-- Who waits for the completion is not there, waits, or has been woken with a result:
0 after the time-out, negative if interrupted, and positive if it was completed. -/
inductive Wait
  | idle
  | waiting
  | woken (ret : Int)
deriving DecidableEq

structure PrivData where
  instanceList : List InstancePtr
  inst : InstancePtr → Instance
  /-- The driver's own instance, which no file has. -/
  localInstance : InstancePtr
  ready : Bool
  suspending : Bool
  shutdown : Bool
  /-- How often `pm_suspend_complete` is signalled and not yet taken. -/
  suspendComplete : Nat
  suspendWait : Wait
  shutdownWait : Wait
  /-- The counters of the eventfds. -/
  eventfd : EventfdCtx → UInt64

def PrivData.setInst (s : PrivData) (a : InstancePtr) (inst : Instance) : PrivData :=
  { s with inst := Function.update s.inst a inst }

def PrivData.registeredClients (s : PrivData) : List InstancePtr :=
  s.instanceList.filter fun a => (s.inst a).registered

/-- The counter of one registered instance is reset, and gets the event. -/
def signalInstance (s : PrivData) (event : UInt64) (eventfd : EventfdCtx → UInt64) (a : InstancePtr) :
    EventfdCtx → UInt64 :=
  if (s.inst a).registered then
    match (s.inst a).eventfdCtx with
    | some ctx => Function.update eventfd ctx event
    | none => eventfd
  else eventfd

def droidPmSignalEvent (s : PrivData) (event : UInt64) : PrivData :=
  { s with eventfd := s.instanceList.foldl (signalInstance s event) s.eventfd }

/-- The acknowledgement of every registered instance of the list is cleared. -/
def droidPmClearSuspend (s : PrivData) : PrivData :=
  { s with inst := fun a =>
      if a ∈ s.instanceList ∧ (s.inst a).registered then { s.inst a with suspendAck := false } else s.inst a }

def droidPmCanWeNowSuspend (s : PrivData) : Bool :=
  s.instanceList.all fun a => !((s.inst a).registered && !(s.inst a).suspendAck)

def PrivData.reinitCompletion (s : PrivData) : PrivData := { s with suspendComplete := 0 }

def PrivData.complete (s : PrivData) : PrivData := { s with suspendComplete := s.suspendComplete + 1 }

/-- A wait that was completed takes one signal. -/
def PrivData.take (s : PrivData) (ret : Int) : PrivData :=
  if 0 < ret then { s with suspendComplete := s.suspendComplete - 1 } else s

/-- Up to the wait. Nothing is waited for while no file has been opened. -/
def droidPmPrepareSuspend (s : PrivData) : PrivData × Option Int :=
  if s.ready then
    let sent := droidPmSignalEvent { s with suspending := true } eventSuspending
    ({ sent.reinitCompletion with suspendWait := .waiting }, none)
  else (s, some 0)

/-- After the wait. -/
def droidPmPrepareSuspendEnd (s : PrivData) : PrivData × Option Int :=
  match s.suspendWait with
  | .woken ret =>
    if ret = 0 then ({ s with suspendWait := .idle, suspending := false }, some eTime)
    else if ret < 0 then ({ s with suspendWait := .idle, suspending := false }, some eAgain)
    else ({ s with suspendWait := .idle }, some 0)
  | _ => (s, none)

/-- The event tells why the kernel resumed. -/
def droidPmCompleteResume (s : PrivData) (event : UInt64) : PrivData :=
  droidPmSignalEvent { s with suspending := false } event

/-- Up to the wait; only power-off is waited for. -/
def droidPmRebootShutdown (s : PrivData) (powerOff : Bool) : PrivData × Option Int :=
  if powerOff then
    let cleared := PrivData.reinitCompletion { s with shutdown := true }
    ({ droidPmSignalEvent cleared eventShutdown with shutdownWait := .waiting }, none)
  else (s, some notifyDone)

/-- After the wait: also when it timed out, shutting down goes on. -/
def droidPmRebootShutdownEnd (s : PrivData) : PrivData × Option Int :=
  match s.shutdownWait with
  | .woken ret =>
    if ret < 0 then ({ s with shutdownWait := .idle, shutdown := false }, some notifyBad)
    else ({ s with shutdownWait := .idle }, some ret)
  | _ => (s, none)

def droidPmOpen (s : PrivData) : Option InstancePtr → PrivData × Option Int
  | none => (s, some eNoMem)
  | some a => ({ s.setInst a .zeroed with instanceList := s.instanceList ++ [a], ready := true }, some 0)

def droidPmClose (s : PrivData) (a : InstancePtr) : PrivData :=
  let instanceList := s.instanceList.erase a
  { s with instanceList := instanceList, ready := if instanceList = [] then false else s.ready }

/-- `BRCM_IOCTL_REGISTER_EVENTS`, with the number that was copied from the caller, if it
could be, and the context behind it. -/
def registerEvents (s : PrivData) (a : InstancePtr) (eventfd : Option Int) (ctx : Option EventfdCtx) :
    PrivData × Option Int :=
  match eventfd with
  | none => (s, some eFault)
  | some eventfd =>
    if eventfd ≤ 0 then (s, some eInval)
    else
      let inst := { s.inst a with eventfdCtx := ctx }
      if ctx.isNone then (s.setInst a inst, some eInval)
      else (s.setInst a { inst with registered := true }, some 0)

/-- `BRCM_IOCTL_UNREGISTER_EVENTS`. -/
def unregisterEvents (s : PrivData) (a : InstancePtr) : PrivData × Option Int :=
  if (s.inst a).registered then
    (s.setInst a { s.inst a with eventfdCtx := none, registered := false }, some 0)
  else (s, some eInval)

/-- The instance's acknowledgement is noted, if it is registered. -/
def acknowledge (s : PrivData) (a : InstancePtr) : PrivData :=
  if (s.inst a).registered then s.setInst a { s.inst a with suspendAck := true } else s

/-- `BRCM_IOCTL_SET_SUSPEND_ACK`. -/
def setSuspendAck (s : PrivData) (a : InstancePtr) : PrivData × Option Int :=
  if s.suspending || s.shutdown then
    let acknowledged := acknowledge s a
    if droidPmCanWeNowSuspend acknowledged then (droidPmClearSuspend acknowledged.complete, some 0)
    else (acknowledged, some 0)
  else (s, some eAgain)

/-- `BRCM_IOCTL_SET_INTERACTIVE`. -/
def setInteractive (s : PrivData) : Option Int → PrivData × Option Int
  | none => (s, some eFault)
  | some on => (droidPmSignalEvent s (if on ≠ 0 then eventInteractiveOn else eventInteractiveOff), some 0)

/-- What processes and the kernel do with the driver. The address of a new instance, what
is copied from the caller, and the result of a wait come with the call. -/
inductive PmCall
  | openFile (object : Option InstancePtr)
  | close (a : InstancePtr)
  | registerEvents (a : InstancePtr) (eventfd : Option Int) (ctx : Option EventfdCtx)
  | unregisterEvents (a : InstancePtr)
  | setSuspendAck (a : InstancePtr)
  | setInteractive (on : Option Int)
  | prepareSuspend
  | suspendWoken (ret : Int)
  | prepareSuspendEnd
  | completeResume (event : UInt64)
  | rebootShutdown (powerOff : Bool)
  | shutdownWoken (ret : Int)
  | rebootShutdownEnd
deriving DecidableEq

/-- A call answers what it returns, or nothing if it goes on. -/
def pmStep (s : PrivData) : PmCall → PrivData × Option Int
  | .openFile object => droidPmOpen s object
  | .close a => (droidPmClose s a, some 0)
  | .registerEvents a eventfd ctx => registerEvents s a eventfd ctx
  | .unregisterEvents a => unregisterEvents s a
  | .setSuspendAck a => setSuspendAck s a
  | .setInteractive on => setInteractive s on
  | .prepareSuspend => droidPmPrepareSuspend s
  | .suspendWoken ret => ({ s.take ret with suspendWait := .woken ret }, none)
  | .prepareSuspendEnd => droidPmPrepareSuspendEnd s
  | .completeResume event => (droidPmCompleteResume s event, none)
  | .rebootShutdown powerOff => droidPmRebootShutdown s powerOff
  | .shutdownWoken ret => ({ s.take ret with shutdownWait := .woken ret }, none)
  | .rebootShutdownEnd => droidPmRebootShutdownEnd s

/-- A file uses its instance while it is open. -/
def PrivData.IsFile (s : PrivData) (a : InstancePtr) : Prop := a ∈ s.instanceList ∧ a ≠ s.localInstance

instance (s : PrivData) (a : InstancePtr) : Decidable (s.IsFile a) := inferInstanceAs (Decidable (_ ∧ _))

def Wait.isWoken : Wait → Bool
  | .woken _ => true
  | _ => false

/-- The kernel makes one attempt to suspend, and one to shut down, at a time, and a wait
ends as completed exactly if there is a signal. -/
def pmAdmits (s : PrivData) : PmCall → Prop
  | .openFile (some a) => a ∉ s.instanceList
  | .close a => s.IsFile a
  | .registerEvents a _ _ => s.IsFile a
  | .unregisterEvents a => s.IsFile a
  | .setSuspendAck a => s.IsFile a
  | .prepareSuspend => s.suspendWait = .idle
  | .suspendWoken ret => s.suspendWait = .waiting ∧ (0 < ret ↔ 0 < s.suspendComplete)
  | .prepareSuspendEnd => s.suspendWait.isWoken
  | .rebootShutdown _ => s.shutdownWait = .idle
  | .shutdownWoken ret => s.shutdownWait = .waiting ∧ (0 < ret ↔ 0 < s.suspendComplete)
  | .rebootShutdownEnd => s.shutdownWait.isWoken
  | _ => True

def pm : Machine PrivData PmCall (Option Int) where
  step := pmStep
  admits := pmAdmits

instance decidablePmAdmits (s : PrivData) : (call : PmCall) → Decidable (pm.admits s call)
  | .openFile none => inferInstanceAs (Decidable True)
  | .openFile (some a) => inferInstanceAs (Decidable (a ∉ s.instanceList))
  | .close a => inferInstanceAs (Decidable (s.IsFile a))
  | .registerEvents a _ _ => inferInstanceAs (Decidable (s.IsFile a))
  | .unregisterEvents a => inferInstanceAs (Decidable (s.IsFile a))
  | .setSuspendAck a => inferInstanceAs (Decidable (s.IsFile a))
  | .setInteractive _ => inferInstanceAs (Decidable True)
  | .prepareSuspend => inferInstanceAs (Decidable (s.suspendWait = .idle))
  | .suspendWoken ret => inferInstanceAs (Decidable (s.suspendWait = .waiting ∧ (0 < ret ↔ 0 < s.suspendComplete)))
  | .prepareSuspendEnd => inferInstanceAs (Decidable (s.suspendWait.isWoken = true))
  | .completeResume _ => inferInstanceAs (Decidable True)
  | .rebootShutdown _ => inferInstanceAs (Decidable (s.shutdownWait = .idle))
  | .shutdownWoken ret => inferInstanceAs (Decidable (s.shutdownWait = .waiting ∧ (0 < ret ↔ 0 < s.suspendComplete)))
  | .rebootShutdownEnd => inferInstanceAs (Decidable (s.shutdownWait.isWoken = true))

/-- The driver after its initialisation. -/
def pmStart (localInstance : InstancePtr) : PrivData :=
  { instanceList := [localInstance], inst := fun _ => .zeroed, localInstance := localInstance, ready := false
    suspending := false, shutdown := false, suspendComplete := 0, suspendWait := .idle, shutdownWait := .idle
    eventfd := fun _ => 0 }

/-- The completion is signalled: who was registered then, and who had acknowledged. -/
structure Signal where
  registered : List InstancePtr
  acknowledged : List InstancePtr
deriving DecidableEq

/-- What has happened since an attempt began: the clients that acknowledged as registered
ones, and the signals. -/
structure Attempt where
  acknowledged : List InstancePtr
  signals : List Signal

def Attempt.fresh : Attempt := ⟨[], []⟩

/-- What is on record of an attempt after one more call. -/
def Attempt.note (begins : PrivData → PmCall → Bool) (s : PrivData) (attempt : Attempt) (call : PmCall) : Attempt :=
  if begins s call then .fresh
  else match call with
    | .setSuspendAck a =>
      if s.suspending || s.shutdown then
        let acknowledged := if (s.inst a).registered then a :: attempt.acknowledged else attempt.acknowledged
        if droidPmCanWeNowSuspend (acknowledge s a) then
          ⟨acknowledged, attempt.signals ++ [⟨s.registeredClients, acknowledged⟩]⟩
        else ⟨acknowledged, attempt.signals⟩
      else attempt
    | .close a => { attempt with acknowledged := attempt.acknowledged.filter (· ≠ a) }
    | _ => attempt

def suspendBegins (s : PrivData) (call : PmCall) : Bool := call = .prepareSuspend && s.ready

def shutdownBegins (_ : PrivData) (call : PmCall) : Bool := call = .rebootShutdown true

end BcmDhd.DroidPm
