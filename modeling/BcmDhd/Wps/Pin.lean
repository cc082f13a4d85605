import BcmDhd.Lib.Decimal

/-! PINs: how one is made up, and which texts are accepted for one. -/

namespace BcmDhd.Wps

open BcmDhd.Lib Decimal

/-- The characters of a string in front of its end. -/
abbrev CString := {text : List UInt8 // 0 ∉ text}

/-- How many bits an `unsigned long` has. -/
abbrev LongBits := {bits : Nat // 32 ≤ bits}

def isSpace (char : UInt8) : Bool := char = 32 || (9 ≤ char && char ≤ 13)

/-- `strtoul` in base 10. -/
def strtoul (long : LongBits) (text : List UInt8) : Nat :=
  let rest := text.dropWhile isSpace
  let signed := rest.head? = some 45 ∨ rest.head? = some 43
  let value := number ((if signed then rest.tail else rest).takeWhile isDigit)
  if 2 ^ long.val ≤ value then 2 ^ long.val - 1
  else if rest.head? = some 45 then (2 ^ long.val - value) % 2 ^ long.val
  else value

/-- `%08u` of a number of 32 bits. -/
def printEight (value : Nat) : List UInt8 :=
  if value < 10 ^ 8 then fixed 8 value else if value < 10 ^ 9 then fixed 9 value else fixed 10 value

/-- The digits that the sum has of the first seven places. -/
def pinAccum (pin : Nat) : Nat :=
  3 * ((pin / 10000000) % 10) + 1 * ((pin / 1000000) % 10) + 3 * ((pin / 100000) % 10) + 1 * ((pin / 10000) % 10) +
    3 * ((pin / 1000) % 10) + 1 * ((pin / 100) % 10) + 3 * ((pin / 10) % 10)

/-- `wps_gen_pin`, with the number of the first random bytes. Nothing if the buffer is too small. -/
def wpsGenPin (long : LongBits) (random : UInt32) (devPwdLen : Int) : Option (List UInt8) :=
  if devPwdLen < 9 then none
  else
    let pin := strtoul long ((printEight random.toNat).take 7) * 10
    let digit := pinAccum pin % 10
    let pin := pin + (10 - digit) % 10
    some ((printEight (pin % 2 ^ 32)).take 8)

/-- What `wps_validate_pin` looks at: the first eight characters, or all but the middle one. -/
def pinText (pinStr : List UInt8) : List UInt8 :=
  if pinStr.length = 9 ∧ isDigit (pinStr.getD 4 0) = false then pinStr.take 4 ++ (pinStr.drop 5).take 4
  else pinStr.take 8

def wpsValidatePin (long : LongBits) (pinStr : List UInt8) : Bool :=
  let pin := pinText pinStr
  if pin.length = 4 then true
  else if pin.length ≠ 8 then false
  else
    let pinNum := strtoul long pin
    decide ((pinAccum pinNum + 1 * ((pinNum / 1) % 10)) % 10 = 0)

def FourDigits (text : List UInt8) : Prop := text.length = 4 ∧ ∀ char ∈ text, isDigit char = true

def EightDigits (text : List UInt8) : Prop := text.length = 8 ∧ ∀ char ∈ text, isDigit char = true

/-- Eight characters as they are, or with a hyphen or a blank in the middle. -/
def Written (pin text : List UInt8) : Prop :=
  text = pin ∨ ∃ between, (between = 45 ∨ between = 32) ∧ text = pin.take 4 ++ between :: pin.drop 4

/-- The last digit for seven others. -/
def pinChecksum (seven : List Nat) : Nat := (10 - weightedSum [3, 1, 3, 1, 3, 1, 3] seven % 10) % 10

def Checked (pin : List UInt8) : Prop := digit (pin.getLastD 0) = pinChecksum ((pin.take 7).map digit)

/-- Four digits, or eight of which the last one is right. -/
def ValidPin (text : List UInt8) : Prop := FourDigits text ∨ ∃ pin, EightDigits pin ∧ Written pin text ∧ Checked pin

/-- The texts that are accepted exactly if they are PINs. -/
def Recognised (long : LongBits) (text : List UInt8) : Prop :=
  FourDigits text ∨ (text.length < 8 ∧ text.length ≠ 4) ∨ (∃ pin, EightDigits pin ∧ Written pin text) ∨
    (8 ≤ text.length ∧ weightedSum [3, 1, 3, 1, 3, 1, 3, 1]
      ((fixed 8 (strtoul long (pinText text))).map digit) % 10 ≠ 0)

variable {long : LongBits} {text pin : List UInt8}

theorem isDigit_not_space {char : UInt8} (is : isDigit char = true) : isSpace char = false := by
  have bounds := isDigit_iff.mp is
  unfold isSpace
  rw [Bool.or_eq_false_iff, Bool.and_eq_false_iff, decide_eq_false_iff_not, decide_eq_false_iff_not,
    decide_eq_false_iff_not, ← UInt8.toNat_inj, UInt8.le_iff_toNat_le, UInt8.le_iff_toNat_le]
  change ¬ char.toNat = 32 ∧ (¬ 9 ≤ char.toNat ∨ ¬ char.toNat ≤ 13)
  omega

/-- Digits alone are read as their number. -/
theorem strtoul_digits (digits : ∀ char ∈ text, isDigit char = true) (few : text.length ≤ 8) :
    strtoul long text = number text := by
  have rest : text.dropWhile isSpace = text := by
    cases text with
    | nil => rfl
    | cons char text =>
      rw [List.dropWhile_cons_of_neg]
      rw [isDigit_not_space (digits char (List.mem_cons_self ..))]
      decide
  have unsigned : ∀ sign : UInt8, isDigit sign = false → text.head? ≠ some sign := by
    intro sign other same
    rw [digits sign (List.mem_of_head? same)] at other
    cases other
  have minus := unsigned 45 (by decide)
  have plus := unsigned 43 (by decide)
  have all : text.takeWhile isDigit = text := List.takeWhile_eq_self_iff.mpr digits
  have small : number text < 2 ^ long.val := by
    calc number text < 10 ^ text.length := number_lt digits
      _ ≤ 10 ^ 8 := Nat.pow_le_pow_right (by decide) few
      _ < 2 ^ 32 := by decide
      _ ≤ 2 ^ long.val := Nat.pow_le_pow_right (by decide) long.property
  unfold strtoul
  dsimp only
  rw [rest, if_neg (not_or.mpr ⟨minus, plus⟩), all, if_neg (Nat.not_le.mpr small), if_neg minus]

theorem pinAccum_weighted (pin : Nat) : pinAccum pin + 1 * ((pin / 1) % 10) =
    weightedSum [3, 1, 3, 1, 3, 1, 3, 1] ((fixed 8 pin).map digit) := by
  simp only [fixed, List.map_cons, List.map_nil, (last_digit _).2, Nat.div_div_eq_div_mul, List.nil_append,
    List.cons_append]
  norm_num [weightedSum, pinAccum]
  ring

theorem checked_iff (eight : EightDigits pin) :
    Checked pin ↔ weightedSum [3, 1, 3, 1, 3, 1, 3, 1] (pin.map digit) % 10 = 0 := by
  obtain ⟨length, digits⟩ := eight
  rcases List.eq_nil_or_concat pin with none_ | ⟨seven, last, more⟩
  · subst none_
    cases length
  · subst more
    rw [List.concat_eq_append] at length digits ⊢
    rw [List.length_append, List.length_singleton] at length
    have short : seven.length = 7 := by omega
    have small := digit_lt (digits last (List.mem_append_right _ (List.mem_singleton_self last)))
    have split_ := @weightedSum_append [3, 1, 3, 1, 3, 1, 3] (seven.map digit) (by rw [List.length_map, short]; rfl) 1
      (digit last)
    unfold Checked pinChecksum
    rw [List.getLastD_concat, ← short, List.take_left, List.map_append, List.map_singleton]
    change _ ↔ weightedSum ([3, 1, 3, 1, 3, 1, 3] ++ [1]) _ % 10 = 0
    rw [split_]
    omega

theorem pinText_length (long_ : 8 ≤ text.length) : (pinText text).length = 8 := by
  unfold pinText
  split
  · rename_i nine
    rw [List.length_append, List.length_take, List.length_take, List.length_drop, nine.1]
    rfl
  · rw [List.length_take]
    omega

theorem pinText_short (short : text.length < 8) : pinText text = text := by
  unfold pinText
  rw [if_neg (by omega), List.take_of_length_le (by omega)]

/-- The eight characters that are meant are looked at. -/
theorem pinText_written (length : pin.length = 8) (written : Written pin text) : pinText text = pin := by
  rcases written with same | ⟨between, separator, same⟩
  · subst same
    unfold pinText
    rw [if_neg (by omega), List.take_of_length_le (by omega)]
  · have front : (pin.take 4).length = 4 := by rw [List.length_take, length]; rfl
    have nine : text.length = 9 := by
      rw [same, List.length_append, List.length_cons, front, List.length_drop, length]
    have middle : text.getD 4 0 = between := by
      rw [same, List.getD_eq_getElem?_getD, List.getElem?_append_right (by omega), front]
      rfl
    have other : isDigit between = false := by
      rcases separator with hyphen | blank
      · rw [hyphen]; decide
      · rw [blank]; decide
    have behind : text.drop 5 = pin.drop 4 := by
      rw [same, List.drop_append, front, List.drop_of_length_le (by omega)]
      rfl
    have rest : (pin.drop 4).take 4 = pin.drop 4 := List.take_of_length_le (by rw [List.length_drop, length])
    unfold pinText
    rw [middle, if_pos ⟨nine, other⟩, behind, rest, same, List.take_left' front, List.take_append_drop]

theorem validate_four (four : text.length = 4) : wpsValidatePin long text = true := by
  unfold wpsValidatePin
  rw [pinText_short (by omega)]
  exact if_pos four

theorem validate_short (short : text.length < 8) (other : text.length ≠ 4) : wpsValidatePin long text = false := by
  unfold wpsValidatePin
  rw [pinText_short short]
  dsimp only
  rw [if_neg other, if_pos (by omega)]

theorem validate_long (long_ : 8 ≤ text.length) : wpsValidatePin long text = true ↔
    weightedSum [3, 1, 3, 1, 3, 1, 3, 1] ((fixed 8 (strtoul long (pinText text))).map digit) % 10 = 0 := by
  have length := pinText_length long_
  unfold wpsValidatePin
  dsimp only
  rw [if_neg (by omega), if_neg (by omega), pinAccum_weighted]
  exact decide_eq_true_iff

theorem written_length (length : pin.length = 8) (written : Written pin text) : 8 ≤ text.length := by
  rcases written with same | ⟨between, _, same⟩
  · rw [same, length]
  · rw [same, List.length_append, List.length_cons, List.length_take, List.length_drop, length]
    decide

theorem validate_written (eight : EightDigits pin) (written : Written pin text) :
    wpsValidatePin long text = true ↔ Checked pin := by
  have digits := fixed_number eight.2
  rw [eight.1] at digits
  rw [validate_long (written_length eight.1 written), pinText_written eight.1 written, checked_iff eight,
    strtoul_digits eight.2 (Nat.le_of_eq eight.1), digits]

theorem validPin_written (eight : EightDigits pin) (written : Written pin text) : ValidPin text ↔ Checked pin := by
  constructor
  · rintro (four | ⟨other, eight_, written_, checked⟩)
    · have long_ := written_length eight.1 written
      have length := four.1
      omega
    · rw [← pinText_written eight.1 written, pinText_written eight_.1 written_]
      exact checked
  · intro checked
    exact Or.inr ⟨pin, eight, written, checked⟩

theorem recognised_iff : (wpsValidatePin long text = true ↔ ValidPin text) ↔ Recognised long text := by
  unfold Recognised
  by_cases formed : ∃ pin, EightDigits pin ∧ Written pin text
  · have found := formed
    obtain ⟨pin, eight, written⟩ := formed
    rw [validate_written eight written, validPin_written eight written]
    exact iff_of_true Iff.rfl (Or.inr (Or.inr (Or.inl found)))
  · have invalid : ValidPin text ↔ FourDigits text := by
      constructor
      · rintro (four | ⟨pin, eight, written, _⟩)
        · exact four
        · exact absurd ⟨pin, eight, written⟩ formed
      · exact Or.inl
    rw [invalid]
    rcases Nat.lt_or_ge text.length 8 with short | long_
    · by_cases four : text.length = 4
      · rw [validate_four four]
        constructor
        · intro same
          exact Or.inl (same.mp rfl)
        · rintro (digits | ⟨_, other⟩ | found | ⟨long_, _⟩)
          · exact iff_of_true rfl digits
          · exact absurd four other
          · exact absurd found formed
          · omega
      · rw [validate_short short four]
        exact iff_of_true (iff_of_false (by decide) fun digits => four digits.1) (Or.inr (Or.inl ⟨short, four⟩))
    · have other : ¬ FourDigits text := fun digits => by
        have length := digits.1
        omega
      rw [validate_long long_]
      constructor
      · intro same
        exact Or.inr (Or.inr (Or.inr ⟨long_, fun zero => other (same.mp zero)⟩))
      · rintro (digits | ⟨short, _⟩ | found | ⟨_, refused⟩)
        · exact absurd digits other
        · omega
        · exact absurd found formed
        · exact iff_of_false refused other

theorem printEight_seven (value : Nat) : ∃ more, (printEight value).take 7 = fixed 7 (value / 10 ^ more) := by
  unfold printEight
  split
  · exact ⟨1, @take_fixed 7 1 value⟩
  · split
    · exact ⟨2, @take_fixed 7 2 value⟩
    · exact ⟨3, @take_fixed 7 3 value⟩

theorem pinAccum_last {front last : Nat} (digit_ : last < 10) :
    pinAccum (front * 10 + last) = pinAccum (front * 10) := by
  have same : ∀ more, (front * 10 + last) / (10 * more) = front * 10 / (10 * more) := by
    intro more
    rw [← Nat.div_div_eq_div_mul, ← Nat.div_div_eq_div_mul]
    congr 1
    omega
  unfold pinAccum
  rw [show (front * 10 + last) / 10000000 = _ from same 1000000,
    show (front * 10 + last) / 1000000 = _ from same 100000,
    show (front * 10 + last) / 100000 = _ from same 10000, show (front * 10 + last) / 10000 = _ from same 1000,
    show (front * 10 + last) / 1000 = _ from same 100, show (front * 10 + last) / 100 = _ from same 10,
    show (front * 10 + last) / 10 = _ from same 1]

/-- A PIN is seven digits and the one that belongs to them. -/
theorem wpsGenPin_checked {random : UInt32} {devPwdLen : Int} (made : wpsGenPin long random devPwdLen = some pin) :
    EightDigits pin ∧ Checked pin := by
  unfold wpsGenPin at made
  split at made
  · cases made
  · obtain ⟨more, seven⟩ := printEight_seven random.toNat
    rw [seven, strtoul_digits fixed_digits (by simp), number_fixed] at made
    have small : random.toNat / 10 ^ more % 10 ^ 7 < 10 ^ 7 := Nat.mod_lt _ (by decide)
    generalize random.toNat / 10 ^ more % 10 ^ 7 = front at made small
    dsimp only at made
    have last : (10 - pinAccum (front * 10) % 10) % 10 < 10 := Nat.mod_lt _ (by decide)
    have sum := @pinAccum_last front _ last
    generalize exact_ : (10 - pinAccum (front * 10) % 10) % 10 = digit_ at made last sum
    rw [Nat.mod_eq_of_lt (show front * 10 + digit_ < 2 ^ 32 by omega)] at made
    have text : printEight (front * 10 + digit_) = fixed 8 (front * 10 + digit_) := if_pos (by omega)
    rw [text, List.take_of_length_le (by simp)] at made
    cases made
    have eight : EightDigits (fixed 8 (front * 10 + digit_)) := ⟨length_fixed, fixed_digits⟩
    refine ⟨eight, (checked_iff eight).mpr ?_⟩
    rw [← pinAccum_weighted, sum]
    omega

/-- One digit has become another. -/
def OneDigitChanged (pin text : List UInt8) : Prop :=
  ∃ place old new, pin[place]? = some old ∧ isDigit new = true ∧ new ≠ old ∧ text = pin.set place new

theorem changed_refused (eight : EightDigits pin) (checked : Checked pin) (changed : OneDigitChanged pin text) :
    wpsValidatePin long text = false := by
  obtain ⟨place, old, new, there, is, other, same⟩ := changed
  have digitOld := eight.2 old (List.mem_of_getElem? there)
  have eight_ : EightDigits text := by
    rw [same]
    refine ⟨(List.length_set ..).trans eight.1, fun char member => ?_⟩
    rcases List.mem_or_eq_of_mem_set member with before | new_
    · exact eight.2 char before
    · rw [new_]
      exact is
  have inside : place < 8 := by
    rw [← eight.1]
    exact (List.getElem?_eq_some_iff.mp there).1
  have value : (pin.map digit)[place]? = some (digit old) := by rw [List.getElem?_map, there]; rfl
  have sum := @weightedSum_set 10 [3, 1, 3, 1, 3, 1, 3, 1] _ place _ (digit new) (by decide) inside value
    (digit_lt digitOld) (digit_lt is) (fun equal => other (digit_inj is digitOld equal))
  rw [← Bool.not_eq_true, validate_written eight_ (Or.inl rfl), checked_iff eight_, same, List.map_set]
  rw [(checked_iff eight).mp checked] at sum
  exact sum

/-- What is accepted but no PIN has other characters, or other lengths. The PINs that are made up
are accepted, and not with another digit. -/
theorem wpsValidatePin_iff (long : LongBits) :
    (∀ text : CString, (wpsValidatePin long text.val = true ↔ ValidPin text.val) ↔ Recognised long text.val) ∧
    ∀ random devPwdLen pin, wpsGenPin long random devPwdLen = some pin →
      wpsValidatePin long pin = true ∧ ∀ text, OneDigitChanged pin text → wpsValidatePin long text = false := by
  refine ⟨fun text => recognised_iff, fun random devPwdLen pin made => ?_⟩
  obtain ⟨eight, checked⟩ := wpsGenPin_checked made
  exact ⟨(validate_written eight (Or.inl rfl)).mpr checked, fun text changed => changed_refused eight checked changed⟩

/-- `abcd` and `abcdefgh`. -/
theorem letters_accepted :
    (wpsValidatePin ⟨32, Nat.le_refl 32⟩ [97, 98, 99, 100] = true ∧ ¬ ValidPin [97, 98, 99, 100]) ∧
      wpsValidatePin ⟨32, Nat.le_refl 32⟩ [97, 98, 99, 100, 101, 102, 103, 104] = true ∧
      ¬ ValidPin [97, 98, 99, 100, 101, 102, 103, 104] := by
  refine ⟨⟨by decide, ?_⟩, by decide, ?_⟩
  · rintro (four | ⟨pin, eight, written, _⟩)
    · exact absurd (four.2 97 (List.mem_cons_self ..)) (by decide)
    · exact absurd (written_length eight.1 written) (by decide)
  · rintro (four | ⟨pin, eight, written, _⟩)
    · exact absurd four.1 (by decide)
    · rw [← pinText_written eight.1 written] at eight
      exact absurd (eight.2 97 (by decide)) (by decide)

end BcmDhd.Wps
