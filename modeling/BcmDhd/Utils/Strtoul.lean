import Mathlib.Data.List.TakeWhile
import Mathlib.Tactic

/-! Numbers read from texts, in words of any width. -/

namespace BcmDhd.Utils

def bcmIsdigit (c : UInt8) : Bool := 48 ≤ c && c ≤ 57

def bcmIsxdigit (c : UInt8) : Bool := bcmIsdigit c || (65 ≤ c && c ≤ 70) || (97 ≤ c && c ≤ 102)

def bcmIsspace (c : UInt8) : Bool := (9 ≤ c && c ≤ 13) || c = 32 || c = 160

def bcmIslower (c : UInt8) : Bool := (97 ≤ c && c ≤ 122) || (223 ≤ c && c ≠ 247)

def bcmToupper (c : UInt8) : UInt8 := if bcmIslower c then c + 65 - 97 else c

def digitValue (c : UInt8) : Nat :=
  if bcmIsdigit c then c.toNat - 48 else (bcmToupper c).toNat - 65 + 10

def isDigitOf (base : Nat) (c : UInt8) : Bool := bcmIsxdigit c && digitValue c < base

/-- Whether there is a minus sign, and what follows the sign. -/
def skipSign : List UInt8 → Bool × List UInt8
  | 43 :: cp => (false, cp)
  | 45 :: cp => (true, cp)
  | cp => (false, cp)

/-- The base and the digits. The end of the text is a zero. -/
def skipBase (base : Nat) (cp : List UInt8) : Nat × List UInt8 :=
  let hex := cp.headD 0 = 48 ∧ (cp.getD 1 0 = 120 ∨ cp.getD 1 0 = 88)
  if base = 0 then
    if cp.headD 0 = 48 then if hex then (16, cp.drop 2) else (8, cp.drop 1)
    else (10, cp)
  else if base = 16 ∧ hex then (base, cp.drop 2)
  else (base, cp)

/-! Behind spaces there can be a sign, then what tells the base, then the digits. -/

def isMinus (cp : List UInt8) : Bool := (skipSign (cp.dropWhile bcmIsspace)).1

def baseOf (cp : List UInt8) (base : Nat) : Nat := (skipBase base (skipSign (cp.dropWhile bcmIsspace)).2).1

def digitsOf (cp : List UInt8) (base : Nat) : List UInt8 := (skipBase base (skipSign (cp.dropWhile bcmIsspace)).2).2

variable {w : Nat}

/-- The loop: nothing when it returns because of an overflow. -/
def strtoulLoop (minus : Bool) (base : Nat) :
    (cp : List UInt8) → (result lastResult : BitVec w) → Option (BitVec w × List UInt8)
  | [], result, _ => some (result, [])
  | c :: cp, result, lastResult =>
    if isDigitOf base c then
      let result := result * BitVec.ofNat w base + BitVec.ofNat w (digitValue c)
      if result < lastResult && !minus then none else strtoulLoop minus base cp result result
    else some (result, c :: cp)

/-- For `ulong` of `w` bits: the number, and what is stored in `*endp` if that is there. -/
def bcmStrtoul (w : Nat) (cp : List UInt8) (endp : Bool) (base : Nat) : BitVec w × Option (List UInt8) :=
  match strtoulLoop (isMinus cp) (baseOf cp base) (digitsOf cp base) (0 : BitVec w) 0 with
  | none => (-1, none)
  | some (result, cp') => (if isMinus cp then -result else result, if endp then some cp' else none)

def foldDigits (base : Nat) : (value : Nat) → List Nat → Nat
  | value, [] => value
  | value, d :: ds => foldDigits base (value * base + d) ds

def prefixValues (base : Nat) (cp : List UInt8) : List Nat := (cp.takeWhile (isDigitOf base)).map digitValue

/-- The value of the longest prefix of digits. -/
def digitsValue (cp : List UInt8) (base : Nat) : Nat :=
  foldDigits (baseOf cp base) 0 (prefixValues (baseOf cp base) (digitsOf cp base))

/-- With every digit the value modulo `2 ^ w` stays the same or rises. -/
def steady (w base : Nat) : (value : Nat) → List Nat → Bool
  | _, [] => true
  | value, d :: ds => value % 2 ^ w ≤ (value * base + d) % 2 ^ w && steady w base (value * base + d) ds

/-- The value of the digits, negated behind a minus sign, or the largest number if the value does not fit;
and the place behind the digits. -/
abbrev StrtoulMeets (w : Nat) (cp : List UInt8) (endp : Bool) (base : Nat) : Prop :=
  let value := digitsValue cp base
  bcmStrtoul w cp endp base =
    (if value < 2 ^ w then if isMinus cp then -BitVec.ofNat w value else BitVec.ofNat w value else -1,
      if endp then some ((digitsOf cp base).dropWhile (isDigitOf (baseOf cp base))) else none)

variable {base value : Nat} {minus : Bool} {cp : List UInt8} {ds : List Nat}

theorem foldDigits_ge (small : ∀ d ∈ ds, d < base) : value ≤ foldDigits base value ds := by
  induction ds generalizing value with
  | nil => exact le_refl _
  | cons d ds ih =>
    have positive : 0 < base := Nat.zero_lt_of_lt (small d List.mem_cons_self)
    calc value ≤ value * base := Nat.le_mul_of_pos_right _ positive
      _ ≤ value * base + d := Nat.le_add_right _ _
      _ ≤ foldDigits base (value * base + d) ds := ih fun d member => small d (List.mem_cons_of_mem _ member)

theorem steady_of_fits (small : ∀ d ∈ ds, d < base) (fits : foldDigits base value ds < 2 ^ w) :
    steady w base value ds = true := by
  induction ds generalizing value with
  | nil => rfl
  | cons d ds ih =>
    have later : ∀ d ∈ ds, d < base := fun d member => small d (List.mem_cons_of_mem _ member)
    have above : value * base + d ≤ _ := foldDigits_ge later
    have positive : 0 < base := Nat.zero_lt_of_lt (small d List.mem_cons_self)
    have least : value ≤ value * base := Nat.le_mul_of_pos_right _ positive
    unfold foldDigits at fits
    rw [steady, Bool.and_eq_true, decide_eq_true_iff, Nat.mod_eq_of_lt (by omega), Nat.mod_eq_of_lt (by omega)]
    exact ⟨by omega, ih later fits⟩

theorem prefixValues_lt : ∀ d ∈ prefixValues base cp, d < base := by
  intro d member
  obtain ⟨c, taken, rfl⟩ := List.mem_map.mp member
  have digit := List.mem_takeWhile_imp taken
  unfold isDigitOf at digit
  rw [Bool.and_eq_true, decide_eq_true_iff] at digit
  exact digit.2

/-- The loop computes the value modulo `2 ^ w`, and returns where this falls and there is no minus sign. -/
theorem strtoulLoop_eq : strtoulLoop minus base cp (BitVec.ofNat w value) (BitVec.ofNat w value) =
    if minus || steady w base value (prefixValues base cp) then
      some (BitVec.ofNat w (foldDigits base value (prefixValues base cp)), cp.dropWhile (isDigitOf base))
    else none := by
  induction cp generalizing value with
  | nil => simp [strtoulLoop, prefixValues, steady, foldDigits]
  | cons c cp ih =>
    cases digit : isDigitOf base c with
    | false => simp [strtoulLoop, prefixValues, digit, steady, foldDigits]
    | true =>
      have next : BitVec.ofNat w value * BitVec.ofNat w base + BitVec.ofNat w (digitValue c) =
          BitVec.ofNat w (value * base + digitValue c) := by
        rw [BitVec.ofNat_add, BitVec.ofNat_mul]
      have values : prefixValues base (c :: cp) = digitValue c :: prefixValues base cp := by
        simp [prefixValues, digit]
      have falls : BitVec.ofNat w (value * base + digitValue c) < BitVec.ofNat w value ↔
          ¬ value % 2 ^ w ≤ (value * base + digitValue c) % 2 ^ w := by
        rw [BitVec.lt_def, BitVec.toNat_ofNat, BitVec.toNat_ofNat, not_le]
      rw [strtoulLoop, if_pos digit, next, values, List.dropWhile_cons_of_pos digit, steady, foldDigits]
      dsimp only
      rw [ih]
      by_cases rises : value % 2 ^ w ≤ (value * base + digitValue c) % 2 ^ w
      · simp [falls, rises]
      · cases minus <;> simp [falls, rises]

theorem ofNat_eq_neg_one : BitVec.ofNat w value = -1#w ↔ value % 2 ^ w = 2 ^ w - 1 := by
  rw [BitVec.neg_one_eq_allOnes, ← BitVec.toNat_inj, BitVec.toNat_ofNat, BitVec.toNat_allOnes]

theorem ofNat_eq_one : BitVec.ofNat w value = 1#w ↔ value % 2 ^ w = 1 % 2 ^ w := by
  rw [← BitVec.toNat_inj, BitVec.toNat_ofNat, BitVec.toNat_ofNat]

theorem bcmStrtoul_eq (endp : Bool) : bcmStrtoul w cp endp base =
    if isMinus cp || steady w (baseOf cp base) 0 (prefixValues (baseOf cp base) (digitsOf cp base)) then
      (if isMinus cp then -BitVec.ofNat w (digitsValue cp base) else BitVec.ofNat w (digitsValue cp base),
        if endp then some ((digitsOf cp base).dropWhile (isDigitOf (baseOf cp base))) else none)
    else (-1, none) := by
  have loop := @strtoulLoop_eq w (baseOf cp base) 0 (isMinus cp) (digitsOf cp base)
  unfold bcmStrtoul digitsValue
  rw [show (0 : BitVec w) = BitVec.ofNat w 0 from rfl, loop]
  generalize (isMinus cp || steady w (baseOf cp base) 0 (prefixValues (baseOf cp base) (digitsOf cp base))) = going
  cases going <;> rfl

/-- The result is right for values that fit, and beyond these only where it happens to be the largest
number, or where an overflow is seen and there is nowhere to store the place. -/
theorem strtoul_meets_iff (w : Nat) (cp : List UInt8) (endp : Bool) (base : Nat) :
    StrtoulMeets w cp endp base ↔
      digitsValue cp base < 2 ^ w ∨
        if isMinus cp then digitsValue cp base % 2 ^ w = 1 % 2 ^ w
        else if steady w (baseOf cp base) 0 (prefixValues (baseOf cp base) (digitsOf cp base)) then
          digitsValue cp base % 2 ^ w = 2 ^ w - 1
        else endp = false := by
  have calm : digitsValue cp base < 2 ^ w →
      steady w (baseOf cp base) 0 (prefixValues (baseOf cp base) (digitsOf cp base)) = true :=
    steady_of_fits prefixValues_lt
  unfold StrtoulMeets
  rw [bcmStrtoul_eq]
  dsimp only
  generalize digitsValue cp base = value at *
  generalize steady w (baseOf cp base) 0 (prefixValues (baseOf cp base) (digitsOf cp base)) = calmly at *
  by_cases fits : value < 2 ^ w
  · simp [fits, calm fits]
  · cases isMinus cp with
    | true => simp [fits, ofNat_eq_one, neg_eq_iff_eq_neg]
    | false =>
      cases calmly with
      | true => simp [fits, ofNat_eq_neg_one]
      | false => cases endp <;> simp [fits]

/-- `30000000000000000000` is more than fits in 64 bits, but passes for a smaller number. -/
theorem strtoul_jumps_over :
    bcmStrtoul 64 (51 :: List.replicate 19 48) true 10 = (11553255926290448384, some []) ∧
      ¬ StrtoulMeets 64 (51 :: List.replicate 19 48) true 10 := by
  decide +kernel

end BcmDhd.Utils
