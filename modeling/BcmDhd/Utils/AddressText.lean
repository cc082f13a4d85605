import BcmDhd.Utils.Strtoul

/-! Ethernet addresses as texts. -/

namespace BcmDhd.Utils

def hexDigit (n : Nat) : UInt8 := UInt8.ofNat (if n < 10 then 48 + n else 87 + n)

/-- Two digits and a colon for each octet. -/
def colonText (octets : List UInt8) : List UInt8 :=
  octets.flatMap fun octet => [hexDigit (octet.toNat / 16), hexDigit (octet.toNat % 16), 58]

/-- The last colon is overwritten by the end of the text. -/
def bcmEtherNtoa (octets : List UInt8) : List UInt8 := (colonText octets).dropLast

/-- The loop, with so many octets left. Nothing where `ep` is read before anything is stored there. -/
def etherAtoeLoop (w : Nat) : (left : Nat) → (p : List UInt8) → (ep : Option (List UInt8)) → Option (List UInt8 × Bool)
  | 0, _, _ => some ([], true)
  | left + 1, p, ep =>
    let number := bcmStrtoul w p true 16
    let octet := UInt8.ofBitVec (number.1.setWidth 8)
    (number.2.or ep).bind fun ep =>
      if ep.headD 0 = 0 then some ([octet], left = 0)
      else (etherAtoeLoop w left ep.tail (some ep)).map fun rest => (octet :: rest.1, rest.2)

/-- The octets that are stored, and what is returned. -/
def bcmEtherAtoe (w : Nat) (p : List UInt8) : Option (List UInt8 × Bool) := etherAtoeLoop w 6 p none

variable {w : Nat} {octet : UInt8} {octets rest : List UInt8} {ep : Option (List UInt8)}

theorem hexDigit_digit : ∀ n < 16, bcmIsspace (hexDigit n) = false ∧ hexDigit n ∉ [43, 45, 88, 120] ∧
    isDigitOf 16 (hexDigit n) = true ∧ digitValue (hexDigit n) = n := by decide

theorem octet_fits (wide : 8 ≤ w) : octet.toNat < 2 ^ w :=
  lt_of_lt_of_le octet.toNat_lt (Nat.pow_le_pow_right (by decide) wide)

theorem bcmStrtoul_octet (wide : 8 ≤ w) (stop : isDigitOf 16 (rest.headD 0) = false) :
    bcmStrtoul w (hexDigit (octet.toNat / 16) :: hexDigit (octet.toNat % 16) :: rest) true 16 =
      (BitVec.ofNat w octet.toNat, some rest) := by
  have byte := octet.toNat_lt
  obtain ⟨space, sign, high, value⟩ := hexDigit_digit (octet.toNat / 16) (by omega)
  obtain ⟨-, mark, low, value'⟩ := hexDigit_digit (octet.toNat % 16) (by omega)
  generalize hexDigit (octet.toNat / 16) = first at *
  generalize hexDigit (octet.toNat % 16) = second at *
  simp only [List.mem_cons, not_or] at sign mark
  have skipped : skipSign ((first :: second :: rest).dropWhile bcmIsspace) = (false, first :: second :: rest) := by
    rw [List.dropWhile_cons_of_neg (by simp [space])]
    unfold skipSign
    split
    · rename_i same
      exact absurd (List.cons.inj same).1 sign.1
    · rename_i same
      exact absurd (List.cons.inj same).1 sign.2.1
    · rfl
  have base : skipBase 16 (first :: second :: rest) = (16, first :: second :: rest) := by
    simp [skipBase, mark]
  have digits : digitsOf (first :: second :: rest) 16 = first :: second :: rest := by
    rw [digitsOf, skipped, base]
  have sixteen : baseOf (first :: second :: rest) 16 = 16 := by rw [baseOf, skipped, base]
  have unsigned : isMinus (first :: second :: rest) = false := by rw [isMinus, skipped]
  have behind : rest.takeWhile (isDigitOf 16) = [] ∧ rest.dropWhile (isDigitOf 16) = rest := by
    cases rest with
    | nil => exact ⟨rfl, rfl⟩
    | cons c rest => simpa using stop
  have values : prefixValues 16 (first :: second :: rest) = [octet.toNat / 16, octet.toNat % 16] := by
    simp [prefixValues, high, low, behind.1, value, value']
  have sum : foldDigits 16 0 [octet.toNat / 16, octet.toNat % 16] = octet.toNat := by
    simp only [foldDigits]
    omega
  have calm := @steady_of_fits w 16 0 _ prefixValues_lt (by rw [values, sum]; exact octet_fits wide)
  rw [bcmStrtoul_eq, sixteen, digits, unsigned, calm, digitsValue, sixteen, digits, values, sum]
  simp [high, low, behind.2]

theorem octet_eq (wide : 8 ≤ w) : UInt8.ofBitVec ((BitVec.ofNat w octet.toNat).setWidth 8) = octet := by
  apply UInt8.toNat_inj.mp
  simp [BitVec.toNat_setWidth, Nat.mod_eq_of_lt (octet_fits wide)]

/-- A turn that goes on behind a colon. -/
theorem etherAtoeLoop_turn {value : BitVec w} {stored : Option (List UInt8)} {left : Nat} {p : List UInt8}
    (number : bcmStrtoul w p true 16 = (value, stored)) (pointer : stored.or ep = some (58 :: rest)) :
    etherAtoeLoop w (left + 1) p ep = (etherAtoeLoop w left rest (some (58 :: rest))).map
      fun later => (UInt8.ofBitVec (value.setWidth 8) :: later.1, later.2) := by
  rw [etherAtoeLoop, number]
  dsimp only
  rw [pointer]
  rfl

theorem etherAtoeLoop_colons (wide : 8 ≤ w) (left : Nat) (some_ : octets ≠ []) :
    etherAtoeLoop w (octets.length + left) (colonText octets ++ rest) ep =
      (etherAtoeLoop w left rest (some (58 :: rest))).map fun later => (octets ++ later.1, later.2) := by
  induction octets generalizing ep with
  | nil => exact absurd rfl some_
  | cons octet octets ih =>
    have turn := @etherAtoeLoop_turn w _ ep _ _ (octets.length + left) _ (@bcmStrtoul_octet w octet
      (58 :: (colonText octets ++ rest)) wide (show isDigitOf 16 58 = false by decide)) rfl
    rw [octet_eq wide] at turn
    rw [List.length_cons, Nat.add_right_comm]
    refine Eq.trans turn ?_
    by_cases last : octets = []
    · subst last
      rw [List.length_nil, Nat.zero_add]
      rfl
    · rw [ih last, Option.map_map]
      rfl

/-- An address comes back from its text. -/
theorem etherAtoe_ntoa (wide : 8 ≤ w) (six : octets.length = 6) :
    bcmEtherAtoe w (bcmEtherNtoa octets) = some (octets, true) := by
  obtain ⟨front, last, rfl⟩ := (List.eq_nil_or_concat octets).resolve_left (by rintro rfl; cases six)
  rw [List.concat_eq_append] at six ⊢
  rw [List.length_append, List.length_singleton] at six
  have text : bcmEtherNtoa (front ++ [last]) =
      colonText front ++ [hexDigit (last.toNat / 16), hexDigit (last.toNat % 16)] := by
    simp [bcmEtherNtoa, colonText]
  have number := @bcmStrtoul_octet w last [] wide (by decide)
  unfold bcmEtherAtoe
  rw [text, ← six, etherAtoeLoop_colons wide 1 (by rintro rfl; cases six), etherAtoeLoop, number]
  simp [octet_eq wide]

theorem etherAtoeLoop_stuck (wide : 8 ≤ w) (left : Nat) (beyond : bcmStrtoul w rest true 16 = (-1, none)) :
    etherAtoeLoop w left rest (some (58 :: rest)) = some (List.replicate left 0xff, true) := by
  have ones : UInt8.ofBitVec ((-1 : BitVec w).setWidth 8) = 0xff := by
    apply UInt8.toBitVec_inj.mp
    change (-1 : BitVec w).setWidth 8 = BitVec.allOnes 8
    apply BitVec.eq_of_getLsbD_eq
    intro i inside
    rw [BitVec.getLsbD_setWidth, show (-1 : BitVec w) = BitVec.allOnes w from BitVec.neg_one_eq_allOnes,
      BitVec.getLsbD_allOnes, BitVec.getLsbD_allOnes]
    simp [inside, lt_of_lt_of_le inside wide]
  induction left with
  | zero => rfl
  | succ left ih =>
    rw [etherAtoeLoop_turn beyond rfl, ih, ones]
    rfl

/-- A group that runs over is read again and again: however few groups there are, the text is accepted,
with 255 for the octets that are missing. -/
theorem etherAtoe_overflow (wide : 8 ≤ w) (some_ : octets ≠ []) (few : octets.length ≤ 6)
    (beyond : bcmStrtoul w rest true 16 = (-1, none)) : bcmEtherAtoe w (colonText octets ++ rest) =
      some (octets ++ List.replicate (6 - octets.length) 0xff, true) := by
  have six : octets.length + (6 - octets.length) = 6 := by omega
  have loop := @etherAtoeLoop_colons w octets rest none wide (6 - octets.length) some_
  rw [six, etherAtoeLoop_stuck wide _ beyond] at loop
  exact loop

/-- `00:200000000` -/
theorem etherAtoe_overflow_two : bcmEtherAtoe 32 (colonText [0] ++ 50 :: List.replicate 8 48) =
    some ([0, 255, 255, 255, 255, 255], true) :=
  etherAtoe_overflow (by decide) (by decide) (by decide) (by decide)

theorem etherAtoe_ntoa_broadcast :
    bcmEtherAtoe 64 (bcmEtherNtoa (List.replicate 6 255)) = some (List.replicate 6 255, true) :=
  etherAtoe_ntoa (by decide) (by decide)

end BcmDhd.Utils
