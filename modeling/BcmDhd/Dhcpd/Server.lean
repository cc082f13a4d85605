import BcmDhd.Lib.Machine
import Mathlib.Tactic

/-! The DHCP server: a pool of addresses, and what it answers to packets. -/

namespace BcmDhd.Dhcpd

open BcmDhd.Lib

abbrev Mac := BitVec 48

def broadcastMacAddress : Mac := 0xFFFFFFFFFFFF

/-- Addresses are numbers of 32 bits, the last part of the first and the last one a byte. -/
structure Config where
  subnet : Nat
  gateWay : Nat
  startingIP : Nat
  endingIP : Nat
  leaseTime : Nat
  ending : endingIP < 256

def Config.poolSize (config : Config) : Nat := config.endingIP - config.startingIP

def Config.address (config : Config) (i : Nat) : Nat := (config.subnet + config.startingIP + i) % 2 ^ 32

structure IP where
  ipAddress : Nat
  clientID : Mac
  timeAllocated : Nat
  leaseTime : Nat

abbrev Pool := List (Option IP)

/-- `newIP`, of which the caller sets the client at once, if `malloc` gives the memory. -/
def newIP (config : Config) (i seconds : Nat) (allocated : Bool) : Option IP :=
  if allocated then
    some { ipAddress := config.address i, clientID := 0, timeAllocated := seconds, leaseTime := config.leaseTime }
  else none

/-- From some slot on, the first one that is not the gateway's and was never used, or whose
time is over; the clock is read for each of them. -/
def ipAllocate (config : Config) (clock : Nat → Nat) (allocated : Bool) : (i reading : Nat) → Pool → Option (Nat × IP)
  | _, _, [] => none
  | i, reading, none :: rest =>
    if config.gateWay = config.address i then ipAllocate config clock allocated (i + 1) reading rest
    else (newIP config i (clock reading) allocated).map fun ip => (i, ip)
  | i, reading, some ip :: rest =>
    if config.gateWay = config.address i then ipAllocate config clock allocated (i + 1) reading rest
    else if (ip.timeAllocated + ip.leaseTime) % 2 ^ 32 < clock reading then some (i, ip)
    else ipAllocate config clock allocated (i + 1) (reading + 1) rest

/-- The first slot in use that is wanted. -/
def lookupFrom (wanted : IP → Bool) : (i : Nat) → Pool → Option (Nat × IP)
  | _, [] => none
  | i, none :: rest => lookupFrom wanted (i + 1) rest
  | i, some ip :: rest => if wanted ip then some (i, ip) else lookupFrom wanted (i + 1) rest

def ipLookup (pool : Pool) (requestedIP : Nat) : Option (Nat × IP) :=
  lookupFrom (fun ip => ip.ipAddress = requestedIP) 0 pool

def ipLookupByMAC (pool : Pool) (requestedMAC : Mac) : Option (Nat × IP) :=
  lookupFrom (fun ip => ip.clientID = requestedMAC) 0 pool

inductive PacketType
  | discover
  | request
  | decline
deriving DecidableEq

/-- A packet that is handled, with what the clock says meanwhile, and whether there is memory
for a new slot and what is sent gets out. An address that is not there is 0. -/
structure Call where
  packetType : PacketType
  clientMAC : Mac
  requestedIP : Nat
  clientIP : Nat
  clock : Nat → Nat
  now : Nat
  allocated : Bool
  sends : Bool

inductive Answer
  | offer (address : Nat)
  | ack (address : Nat)
  | nak
  | declined (address : Nat)
  | nothing
deriving DecidableEq

structure Server where
  ipPool : Pool
  /-- The clients that are allowed. -/
  macs : List Mac
  /-- No assertion has ended the program. -/
  running : Bool
  /-- When the last packet was handled. -/
  time : Nat

/-- The slot that a client is offered. -/
def discovered (config : Config) (pool : Pool) (call : Call) : Option (Nat × IP) :=
  match ipLookupByMAC pool call.clientMAC with
  | some found => some found
  | none =>
    if call.requestedIP = 0 then ipAllocate config call.clock call.allocated 0 0 pool
    else match ipLookup pool call.requestedIP with
      | some found => some found
      | none => ipAllocate config call.clock call.allocated 0 0 pool

/-- The address that a client wants to go on with. -/
def Call.wanted (call : Call) : Nat := if call.requestedIP = 0 then call.clientIP else call.requestedIP

def Server.registered (server : Server) (call : Call) : Bool :=
  call.clientMAC ∈ server.macs ∨ broadcastMacAddress ∈ server.macs

/-- The slot belongs to a client from now on. -/
def assign (pool : Pool) (i : Nat) (ip : IP) (mac : Mac) : Pool := pool.set i (some { ip with clientID := mac })

def Call.sent (call : Call) (answer : Answer) : Answer := if call.sends then answer else .nothing

def handle (config : Config) (server : Server) (call : Call) : Server × Answer :=
  match call.packetType with
  | .discover =>
    let known := if server.registered call then server else { server with macs := server.macs ++ [call.clientMAC] }
    match discovered config server.ipPool call with
    | none => (known, .nothing)
    | some (i, ip) =>
      ({ known with ipPool := assign server.ipPool i ip call.clientMAC }, call.sent (.offer ip.ipAddress))
  | .request =>
    if server.registered call then
      if call.wanted = 0 then ({ server with running := false }, .nothing)
      else match ipLookup server.ipPool call.wanted with
        | none => (server, call.sent .nak)
        | some (_, ip) => (server, call.sent (.ack ip.ipAddress))
    else (server, .nothing)
  | .decline =>
    if server.registered call then
      if call.requestedIP = 0 then ({ server with running := false }, .nothing)
      else match ipLookup server.ipPool call.requestedIP with
        | none => (server, .declined call.requestedIP)
        | some (i, ip) =>
          ({ server with ipPool := assign server.ipPool i ip broadcastMacAddress }, .declined call.requestedIP)
    else (server, .nothing)

def serverStep (config : Config) (server : Server) (call : Call) : Server × Answer :=
  if server.running then
    let handled := handle config server call
    ({ handled.1 with time := call.now }, handled.2)
  else ({ server with time := call.now }, .nothing)

/-- The clock does not go back. -/
def Steady (server : Server) (call : Call) : Prop :=
  server.time ≤ call.clock 0 ∧ Monotone call.clock ∧ ∀ reading, call.clock reading ≤ call.now

def dhcpServer (config : Config) : Machine Server Call Answer where
  step := serverStep config
  admits := Steady

/-- `DHCP_init`, with the clients that have been allowed. -/
def dhcpInit (config : Config) (macs : List Mac) (time : Nat) : Server :=
  { ipPool := List.replicate config.poolSize none, macs := macs, running := true, time := time }

/-- This slot is in use. -/
def Pool.At (pool : Pool) (i : Nat) (ip : IP) : Prop := pool[i]? = some (some ip)

/-- Every slot in use has its own address. -/
structure Pool.Placed (config : Config) (pool : Pool) : Prop where
  size : pool.length = config.poolSize
  own : ∀ i ip, pool.At i ip → ip.ipAddress = config.address i

section

variable {config : Config} {pool : Pool} {wanted : IP → Bool} {i j start reading : Nat} {ip other : IP} {mac : Mac}
  {clock : Nat → Nat} {allocated : Bool} {call : Call}

theorem lookupFrom_found (found : lookupFrom wanted start pool = some (i, ip)) :
    ∃ k, i = start + k ∧ pool.At k ip ∧ wanted ip = true := by
  induction pool generalizing start with
  | nil => cases found
  | cons slot rest ih =>
    cases slot with
    | none =>
      obtain ⟨k, place, there, right⟩ := ih found
      exact ⟨k + 1, by omega, there, right⟩
    | some first =>
      rw [lookupFrom] at found
      split at found
      · rename_i right
        cases found
        exact ⟨0, rfl, rfl, right⟩
      · obtain ⟨k, place, there, right⟩ := ih found
        exact ⟨k + 1, by omega, there, right⟩

theorem lookupFrom_none (missing : lookupFrom wanted start pool = none) (there : pool.At i ip) : wanted ip = false := by
  induction pool generalizing start i with
  | nil => cases there
  | cons slot rest ih =>
    cases slot with
    | none =>
      cases i with
      | zero => cases there
      | succ i => exact ih missing there
    | some first =>
      rw [lookupFrom] at missing
      split at missing
      · cases missing
      · rename_i wrong
        cases i with
        | zero =>
          cases there
          exact Bool.eq_false_iff.mpr wrong
        | succ i => exact ih missing there

theorem ipLookup_found {address : Nat} (found : ipLookup pool address = some (i, ip)) :
    pool.At i ip ∧ ip.ipAddress = address := by
  obtain ⟨k, place, there, right⟩ := lookupFrom_found found
  rw [Nat.zero_add] at place
  subst place
  exact ⟨there, of_decide_eq_true right⟩

theorem ipLookup_none {address : Nat} (missing : ipLookup pool address = none) (there : pool.At i ip) :
    ip.ipAddress ≠ address :=
  of_decide_eq_false (lookupFrom_none missing there)

theorem ipLookupByMAC_found (found : ipLookupByMAC pool mac = some (i, ip)) : pool.At i ip ∧ ip.clientID = mac := by
  obtain ⟨k, place, there, right⟩ := lookupFrom_found found
  rw [Nat.zero_add] at place
  subst place
  exact ⟨there, of_decide_eq_true right⟩

/-- A slot that is allocated is in use, or was free and gets its address. -/
theorem ipAllocate_found (found : ipAllocate config clock allocated start reading pool = some (i, ip)) :
    ∃ k, i = start + k ∧ (pool.At k ip ∨ pool[k]? = some none ∧ ip.ipAddress = config.address i) := by
  induction pool generalizing start reading with
  | nil => cases found
  | cons slot rest ih =>
    have later : ∀ {reading}, ipAllocate config clock allocated (start + 1) reading rest = some (i, ip) →
        ∃ k, i = start + k ∧ (Pool.At (slot :: rest) k ip ∨
          (slot :: rest)[k]? = some none ∧ ip.ipAddress = config.address i) := by
      intro reading found
      obtain ⟨k, place, there⟩ := ih found
      exact ⟨k + 1, by omega, there⟩
    cases slot with
    | none =>
      rw [ipAllocate] at found
      split at found
      · exact later found
      · obtain ⟨new, made, same⟩ := Option.map_eq_some_iff.mp found
        cases same
        unfold newIP at made
        split at made
        · cases made
          exact ⟨0, rfl, Or.inr ⟨rfl, rfl⟩⟩
        · cases made
    | some first =>
      rw [ipAllocate] at found
      split at found
      · exact later found
      split at found
      · cases found
        exact ⟨0, rfl, Or.inl rfl⟩
      · exact later found

/-- So it is with the slot that a client is offered. -/
theorem discovered_found (found : discovered config pool call = some (i, ip)) :
    pool.At i ip ∨ pool[i]? = some none ∧ ip.ipAddress = config.address i := by
  have allocated : ipAllocate config call.clock call.allocated 0 0 pool = some (i, ip) →
      pool.At i ip ∨ pool[i]? = some none ∧ ip.ipAddress = config.address i := by
    intro found
    obtain ⟨k, place, there⟩ := ipAllocate_found found
    rw [Nat.zero_add] at place
    subst place
    exact there
  unfold discovered at found
  split at found
  · rename_i byMac
    cases found
    exact Or.inl (ipLookupByMAC_found byMac).1
  · split at found
    · exact allocated found
    · split at found
      · rename_i byAddress
        cases found
        exact Or.inl (ipLookup_found byAddress).1
      · exact allocated found

theorem address_inj (first : i < config.poolSize) (second : j < config.poolSize)
    (same : config.address i = config.address j) : i = j := by
  have ending := config.ending
  unfold Config.poolSize at first second
  unfold Config.address at same
  omega

theorem Pool.At.inside (there : pool.At i ip) : i < pool.length := (List.getElem?_eq_some_iff.mp there).1

theorem Pool.Placed.unique (placed : pool.Placed config) (there : pool.At i ip) (also : pool.At j other)
    (same : ip.ipAddress = other.ipAddress) : i = j := by
  rw [placed.own i ip there, placed.own j other also] at same
  exact address_inj (placed.size ▸ there.inside) (placed.size ▸ also.inside) same

theorem assign_self (inside : i < pool.length) : Pool.At (assign pool i ip mac) i { ip with clientID := mac } :=
  List.getElem?_set_self inside

theorem assign_other (differs : j ≠ i) : Pool.At (assign pool i ip mac) j other ↔ pool.At j other := by
  unfold Pool.At assign
  rw [List.getElem?_set_ne differs.symm]

theorem Pool.Placed.assign (placed : pool.Placed config) (inside : i < pool.length)
    (address : ip.ipAddress = config.address i) : Pool.Placed config (assign pool i ip mac) := by
  refine ⟨by unfold Dhcpd.assign; rw [List.length_set, placed.size], fun j found there => ?_⟩
  by_cases here : j = i
  · subst here
    have same := Option.some.inj ((assign_self inside).symm.trans there)
    cases same
    exact address
  · exact placed.own j found ((assign_other here).mp there)

end

end BcmDhd.Dhcpd
