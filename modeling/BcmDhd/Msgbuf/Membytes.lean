import BcmDhd.Lib.Loop
import BcmDhd.Utils.Xtlv

/-! Transfers between host memory and dongle memory in accesses of eight bytes and of one. -/

namespace BcmDhd.Msgbuf

open BcmDhd.Lib BcmDhd.Utils

def load64 (memory : Memory) (address : Nat) : UInt64 :=
  UInt64.ofNat (ofLittleEndian (load memory address 8))

def store64 (memory : Memory) (address : Nat) (data : UInt64) : Memory :=
  store memory address (littleEndian 8 data.toNat)

def dhdpcieBusWtcm8 (tcm : Memory) (offset : Nat) (data : UInt8) : Memory := store tcm offset [data]

def dhdpcieBusRtcm8 (tcm : Memory) (offset : Nat) : UInt8 := tcm offset

def dhdpcieBusWtcm64 (tcm : Memory) (offset : Nat) (data : UInt64) : Memory := store64 tcm offset data

def dhdpcieBusRtcm64 (tcm : Memory) (offset : Nat) : UInt64 := load64 tcm offset

/-- The variables of `dhdpcie_bus_membytes`, and the memories that it works on. -/
structure Membytes where
  tcm : Memory
  host : Memory
  address : Nat
  data : Nat
  size : UInt32
  dsize : UInt32

/-- `little` is the host's byte order, `config64` is `CONFIG_64BIT`. -/
def Membytes.wide (little config64 : Bool) (bus : Membytes) : Bool :=
  bus.size ≥ 8 && little && (!config64 || bus.address % 8 = 0)

/-- One access: the dongle's memory and the host's after it. -/
def membytesAccess (write wide : Bool) (bus : Membytes) : Memory × Memory :=
  if write then
    (if wide then dhdpcieBusWtcm64 bus.tcm bus.address (load64 bus.host bus.data)
      else dhdpcieBusWtcm8 bus.tcm bus.address (bus.host bus.data), bus.host)
  else
    (bus.tcm, if wide then store64 bus.host bus.data (dhdpcieBusRtcm64 bus.tcm bus.address)
      else store bus.host bus.data [dhdpcieBusRtcm8 bus.tcm bus.address])

/-- A turn of the loop for `write`, or of the loop for reading. -/
def membytesTurn (write little config64 : Bool) (bus : Membytes) : Turn Membytes (Memory × Memory × Int) :=
  if bus.size = 0 then .leave (bus.tcm, bus.host, bcmeOk)
  else
    let wide := bus.wide little config64
    let memories := membytesAccess write wide bus
    -- Once a single byte was moved, `dsize` stays 1, also for the accesses of eight bytes.
    let dsize := if wide then bus.dsize else 1
    let size := bus.size - dsize
    .again {
      tcm := memories.1
      host := memories.2
      address := if size ≠ 0 then bus.address + dsize.toNat else bus.address
      data := if size ≠ 0 then bus.data + dsize.toNat else bus.data
      size := size
      dsize := dsize }

def membytesStart (tcm host : Memory) (address data : Nat) (size : UInt32) : Membytes :=
  ⟨tcm, host, address, data, size, 8⟩

variable {memory source : Memory} {address place count reach i : Nat}

theorem store_load_apply (target : Nat) : store memory address (load source place count) target =
    if address ≤ target ∧ target < address + count then source (place + (target - address)) else memory target := by
  unfold store load
  by_cases above : address ≤ target
  · by_cases below : target - address < count
    · simp [above, below, show target < address + count by omega]
    · simp [above, below, show ¬ target < address + count by omega]
  · simp [above]

theorem store_load_extend (inside : i ≤ reach) :
    store (store memory address (load source place reach)) (address + i) (load source (place + i) count) =
      store memory address (load source place (max reach (i + count))) := by
  funext target
  simp only [store_load_apply]
  split
  · rw [if_pos (by omega)]
    congr 1
    omega
  · split
    · rw [if_pos (by omega)]
    · rw [if_neg (by omega)]

theorem ofLittleEndian_lt (bytes : List UInt8) : ofLittleEndian bytes < 256 ^ bytes.length := by
  induction bytes with
  | nil => simp [ofLittleEndian]
  | cons byte rest ih =>
    have small := byte.toNat_lt
    rw [ofLittleEndian, List.length_cons, Nat.pow_succ]
    omega

theorem littleEndian_ofLittleEndian (bytes : List UInt8) :
    littleEndian bytes.length (ofLittleEndian bytes) = bytes := by
  induction bytes with
  | nil => rfl
  | cons byte rest ih =>
    have low : (byte.toNat + 256 * ofLittleEndian rest) % 256 = byte.toNat := by
      have small := byte.toNat_lt
      omega
    have high : (byte.toNat + 256 * ofLittleEndian rest) / 256 = ofLittleEndian rest := by
      have small := byte.toNat_lt
      omega
    rw [ofLittleEndian, List.length_cons, littleEndian, high, ih]
    congr 1
    apply UInt8.toNat.inj
    rw [UInt8.toNat_ofNat', low]

theorem store64_load64 : store64 memory address (load64 source place) =
    store memory address (load source place 8) := by
  have small := ofLittleEndian_lt (load source place 8)
  rw [Bytes.length_load] at small
  have back := littleEndian_ofLittleEndian (load source place 8)
  rw [Bytes.length_load] at back
  rw [store64, load64, UInt64.toNat_ofNat', Nat.mod_eq_of_lt (by omega), back]

theorem store_byte : store memory address [source place] = store memory address (load source place 1) := rfl

variable {write little config64 : Bool} {tcm host : Memory} {data n : Nat} {bus next : Membytes}

/-- What the first `reach` bytes of the transfer make of the two memories. -/
def transferred (write : Bool) (tcm host : Memory) (address data reach : Nat) : Memory × Memory :=
  if write then (store tcm address (load host data reach), host)
  else (tcm, store host data (load tcm address reach))

/-- Of `n` bytes all but `size` are done, and perhaps some of these. -/
structure Moving (write : Bool) (tcm host : Memory) (address data n : Nat) (bus : Membytes) : Prop where
  unit : bus.dsize = 8 ∨ bus.dsize = 1
  left : bus.size.toNat ≤ n
  moved : bus.size ≠ 0 → bus.address + bus.size.toNat = address + n ∧ bus.data + bus.size.toNat = data + n
  done : ∃ reach, n - bus.size.toNat ≤ reach ∧ reach ≤ n ∧
    (bus.tcm, bus.host) = transferred write tcm host address data reach

theorem membytesAccess_eq (inside : i ≤ reach) (wide : Bool) (addressed : bus.address = address + i)
    (pointed : bus.data = data + i)
    (sofar : (bus.tcm, bus.host) = transferred write tcm host address data reach) :
    membytesAccess write wide bus =
      transferred write tcm host address data (max reach (i + if wide then 8 else 1)) := by
  have busTcm : bus.tcm = (transferred write tcm host address data reach).1 := congrArg Prod.fst sofar
  have busHost : bus.host = (transferred write tcm host address data reach).2 := congrArg Prod.snd sofar
  unfold membytesAccess dhdpcieBusWtcm64 dhdpcieBusWtcm8 dhdpcieBusRtcm64 dhdpcieBusRtcm8
  rw [addressed, pointed, busTcm, busHost]
  unfold transferred
  cases write <;> cases wide <;>
    simp only [Bool.false_eq_true, if_true, if_false, store64_load64, store_byte, store_load_extend inside]

theorem membytes_step (moving : Moving write tcm host address data n bus) (more : bus.size ≠ 0) :
    ∃ next, membytesTurn write little config64 bus = .again next ∧
      Moving write tcm host address data n next ∧ next.size.toNat < bus.size.toNat := by
  obtain ⟨unit, left, moved, reach, least, most, sofar⟩ := moving
  obtain ⟨atAddress, atData⟩ := moved more
  have some : 0 < bus.size.toNat := Nat.pos_of_ne_zero fun zero => more (UInt32.toNat.inj zero)
  obtain ⟨i, whole⟩ : ∃ i, n = i + bus.size.toNat := ⟨n - bus.size.toNat, by omega⟩
  let wide := bus.wide little config64
  let dsize := if wide then bus.dsize else 1
  have eight : wide = true → 8 ≤ bus.size.toNat := by
    intro isWide
    simp only [wide, Membytes.wide, Bool.and_eq_true, decide_eq_true_eq] at isWide
    exact UInt32.le_iff_toNat_le.mp isWide.1.1
  have width : dsize.toNat ≤ (if wide then 8 else 1) ∧ 0 < dsize.toNat ∧ (dsize = 8 ∨ dsize = 1) := by
    cases one : wide with
    | false => simp [dsize, one]
    | true => rcases unit with unit | unit <;> simp [dsize, one, unit]
  have fits : (if wide then 8 else 1) ≤ bus.size.toNat := by
    split
    · exact eight ‹_›
    · omega
  have taken : (bus.size - dsize).toNat = bus.size.toNat - dsize.toNat :=
    UInt32.toNat_sub_of_le _ _ (UInt32.le_iff_toNat_le.mpr (by omega))
  have access := membytesAccess_eq (i := i) (by omega) wide (by omega) (by omega) sofar
  have turned : ∃ next, membytesTurn write little config64 bus = .again next ∧
      (next.tcm, next.host) = membytesAccess write wide bus ∧ next.size = bus.size - dsize ∧ next.dsize = dsize ∧
      (next.size ≠ 0 → next.address = bus.address + dsize.toNat ∧ next.data = bus.data + dsize.toNat) := by
    unfold membytesTurn
    rw [if_neg more]
    exact ⟨_, rfl, rfl, rfl, rfl, fun still => ⟨if_pos still, if_pos still⟩⟩
  obtain ⟨next, goesOn, memories, size, unit, pointers⟩ := turned
  have less : next.size.toNat = bus.size.toNat - dsize.toNat := by rw [size, taken]
  refine ⟨next, goesOn, ⟨by rw [unit]; exact width.2.2, by omega, ?_, _, ?_, ?_, memories.trans access⟩, by omega⟩
  · intro still
    obtain ⟨addressed, pointed⟩ := pointers still
    omega
  · omega
  · omega

/-- The loop ends with the memories after the whole transfer. -/
theorem membytes_leaves (write little config64 : Bool) (tcm host : Memory) (address data : Nat) (size : UInt32) :
    ∃ result, Leaves (membytesTurn write little config64) (membytesStart tcm host address data size) result ∧
      result.2.2 = bcmeOk ∧ (result.1, result.2.1) = transferred write tcm host address data size.toNat := by
  have start : Moving write tcm host address data size.toNat (membytesStart tcm host address data size) := by
    refine ⟨.inl rfl, le_refl _, fun _ => ⟨rfl, rfl⟩, 0, ?_, Nat.zero_le _, ?_⟩
    · simp [membytesStart]
    · unfold transferred membytesStart
      cases write <;> simp [funext_iff, store_load_apply]
  have kept : ∀ bus next, Moving write tcm host address data size.toNat bus →
      membytesTurn write little config64 bus = .again next →
      Moving write tcm host address data size.toNat next ∧ next.size.toNat < bus.size.toNat := by
    intro bus next moving goesOn
    have more : bus.size ≠ 0 := by
      intro none
      rw [membytesTurn, if_pos none] at goesOn
      cases goesOn
    obtain ⟨after, turned, still, less⟩ := membytes_step moving more
    rw [goesOn] at turned
    cases turned
    exact ⟨still, less⟩
  have ends : ∀ bus result, Moving write tcm host address data size.toNat bus →
      membytesTurn write little config64 bus = .leave result →
      result.2.2 = bcmeOk ∧ (result.1, result.2.1) = transferred write tcm host address data size.toNat := by
    intro bus result moving left
    by_cases none : bus.size = 0
    · obtain ⟨-, -, -, reach, least, most, sofar⟩ := moving
      rw [membytesTurn, if_pos none] at left
      cases left
      rw [none, UInt32.toNat_zero] at least
      obtain rfl : reach = size.toNat := by omega
      exact ⟨rfl, sofar⟩
    · obtain ⟨next, turned, -⟩ := membytes_step moving none
      rw [left] at turned
      cases turned
  obtain ⟨result, done⟩ := Loop.leaves_of_measure _ _ (fun bus => bus.size.toNat) kept _ start
  have final := Loop.loopFor_invariant (fun bus next moving goesOn => (kept bus next moving goesOn).1) ends start done
  exact ⟨result, ⟨_, done⟩, final⟩

/-- In either direction the transfer ends, having copied exactly the bytes asked for. -/
theorem membytes_transfers (write little config64 : Bool) (tcm host : Memory) (address data : Nat) (size : UInt32) :
    ∃ tcm' host', Leaves (membytesTurn write little config64) (membytesStart tcm host address data size)
        (tcm', host', bcmeOk) ∧
      (write = true → host' = host ∧ (∀ i < size.toNat, tcm' (address + i) = host (data + i)) ∧
        ∀ place, place < address ∨ address + size.toNat ≤ place → tcm' place = tcm place) ∧
      (write = false → tcm' = tcm ∧ (∀ i < size.toNat, host' (data + i) = tcm (address + i)) ∧
        ∀ place, place < data ∨ data + size.toNat ≤ place → host' place = host place) := by
  obtain ⟨⟨tcm', host', status⟩, left, ok, memories⟩ :=
    membytes_leaves write little config64 tcm host address data size
  simp only at ok memories
  subst ok
  refine ⟨tcm', host', left, fun writes => ?_, fun reads => ?_⟩
  · rw [writes, transferred, if_pos rfl] at memories
    cases memories
    refine ⟨rfl, fun i inside => ?_, fun place outside => ?_⟩
    · rw [store_load_apply, if_pos (by omega), Nat.add_sub_cancel_left]
    · rw [store_load_apply, if_neg (by omega)]
  · rw [reads, transferred, if_neg Bool.false_ne_true] at memories
    cases memories
    refine ⟨rfl, fun i inside => ?_, fun place outside => ?_⟩
    · rw [store_load_apply, if_pos (by omega), Nat.add_sub_cancel_left]
    · rw [store_load_apply, if_neg (by omega)]

end BcmDhd.Msgbuf
