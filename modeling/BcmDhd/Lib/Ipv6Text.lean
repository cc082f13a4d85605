import Mathlib.Tactic

/-! Texts of IPv6 addresses: a parser, and the text that RFC 5952 recommends. -/

namespace BcmDhd.Lib.Ipv6

abbrev Text := List Char

/-! ### Numbers -/

def digitOf (c : Char) : Option Nat :=
  if '0' ≤ c ∧ c ≤ '9' then some (c.toNat - 48)
  else if 'a' ≤ c ∧ c ≤ 'f' then some (c.toNat - 87)
  else if 'A' ≤ c ∧ c ≤ 'F' then some (c.toNat - 55)
  else none

/-- One digit more. -/
def addDigit (base value : Nat) (c : Char) : Option Nat :=
  (digitOf c).bind fun digit => if digit < base then some (base * value + digit) else none

/-- A number of so many digits at most. -/
def parseNumber (base width : Nat) (text : Text) : Option Nat :=
  if text = [] ∨ width < text.length then none else text.foldlM (addDigit base) 0

variable {base width number : Nat} {pieces : List Text} {groups before after : List Nat} {mixed allowed : Bool}
  {start count : Nat}

theorem digitOf_digitChar : ∀ digit < 16, digitOf digit.digitChar = some digit := by decide

theorem foldlM_toDigits (several : 1 < base) (small : base ≤ 16) (number : Nat) :
    (Nat.toDigits base number).foldlM (addDigit base) 0 = some number := by
  induction number using Nat.strong_induction_on with
  | _ number ih =>
    have last : ∀ value, addDigit base value (number % base).digitChar = some (base * value + number % base) := by
      intro value
      have less := Nat.mod_lt number (Nat.zero_lt_of_lt several)
      rw [addDigit, digitOf_digitChar _ (by omega), Option.bind_some, if_pos less]
    rw [Nat.toDigits_eq_if several]
    split
    · rename_i one
      have only := last 0
      rw [Nat.mod_eq_of_lt one] at only
      simp [only]
    · rename_i more
      have less := Nat.div_lt_self (by omega : 0 < number) several
      rw [List.foldlM_append, ih _ less]
      simp [last, Nat.div_add_mod]

theorem parseNumber_toDigits (several : 1 < base) (small : base ≤ 16) (some_ : 0 < width)
    (fits : number < base ^ width) : parseNumber base width (Nat.toDigits base number) = some number := by
  have short := (Nat.length_toDigits_le_iff several some_).mpr fits
  rw [parseNumber, if_neg (not_or.mpr ⟨Nat.toDigits_ne_nil, Nat.not_lt.mpr short⟩), foldlM_toDigits several small]

theorem mem_toDigits (several : 1 < base) {number : Nat} {c : Char} (member : c ∈ Nat.toDigits base number) :
    ∃ digit < base, c = digit.digitChar := by
  induction number using Nat.strong_induction_on with
  | _ number ih =>
    rw [Nat.toDigits_eq_if several] at member
    split at member
    · rename_i one
      exact ⟨number, one, List.mem_singleton.mp member⟩
    · rename_i more
      rcases List.mem_append.mp member with early | last
      · exact ih _ (Nat.div_lt_self (by omega) several) early
      · exact ⟨_, Nat.mod_lt _ (by omega), List.mem_singleton.mp last⟩

theorem toDigits_plain (several : 1 < base) (small : base ≤ 16) (number : Nat) :
    ':' ∉ Nat.toDigits base number ∧ '.' ∉ Nat.toDigits base number := by
  have other : ∀ digit < 16, digit.digitChar ≠ ':' ∧ digit.digitChar ≠ '.' := by decide
  constructor
  all_goals
    intro member
    obtain ⟨digit, less, same⟩ := mem_toDigits several member
  · exact (other digit (by omega)).1 same.symm
  · exact (other digit (by omega)).2 same.symm

/-! ### Pieces between colons -/

def hex (group : Nat) : Text := Nat.toDigits 16 group

/-- Octets in decimal, with dots. -/
def dotted (octets : List Nat) : Text := ['.'].intercalate (octets.map (Nat.toDigits 10))

/-- Two groups as four octets. -/
def quad (high low : Nat) : List Nat := [high / 256, high % 256, low / 256, low % 256]

def parseOctet (text : Text) : Option Nat := (parseNumber 10 3 text).filter (· < 256)

def parseDotted (text : Text) : Option (List Nat) :=
  match (text.splitOn '.').mapM parseOctet with
  | some [a, b, c, d] => some [a * 256 + b, c * 256 + d]
  | _ => none

/-- Groups, of which the last two may be in decimal. -/
def parsePieces (allowed : Bool) : List Text → Option (List Nat)
  | [] => some []
  | [last] =>
    if allowed ∧ '.' ∈ last then parseDotted last else (parseNumber 16 4 last).map fun group => [group]
  | piece :: next :: rest =>
    (parseNumber 16 4 piece).bind fun group => (parsePieces allowed (next :: rest)).map (group :: ·)

/-- The pieces of groups, the last two in decimal if the address is a mixed one. -/
def spelled (mixed : Bool) : List Nat → List Text
  | [] => []
  | [high, low] => if mixed then [dotted (quad high low)] else [hex high, hex low]
  | group :: rest => hex group :: spelled mixed rest

theorem parseDotted_dotted {high low : Nat} (fits : high < 65536 ∧ low < 65536) :
    parseDotted (dotted (quad high low)) = some [high, low] := by
  have octet : ∀ value < 256, parseOctet (Nat.toDigits 10 value) = some value := by
    intro value small
    rw [parseOctet, parseNumber_toDigits (by decide) (by decide) (by decide) (by omega)]
    simp [small]
  have apart : ∀ piece ∈ (quad high low).map (Nat.toDigits 10), '.' ∉ piece := by
    intro piece member
    obtain ⟨value, _, rfl⟩ := List.mem_map.mp member
    exact (toDigits_plain (by decide) (by decide) value).2
  have each : ((quad high low).map (Nat.toDigits 10)).mapM parseOctet = some (quad high low) := by
    simp [quad, octet (high / 256) (by omega), octet (high % 256) (by omega), octet (low / 256) (by omega),
      octet (low % 256) (by omega)]
  unfold parseDotted dotted
  rw [List.splitOn_intercalate '.' apart (by simp [quad]), each]
  simp only [quad, Nat.div_add_mod']

theorem parseNumber_hex {group : Nat} (fits : group < 65536) : parseNumber 16 4 (hex group) = some group :=
  parseNumber_toDigits (by decide) (by decide) (by decide) fits

theorem dot_mem_dotted (high low : Nat) : '.' ∈ dotted (quad high low) := by
  simp [dotted, quad, List.intercalate_cons_cons]

theorem parsePieces_cons {piece : Text} {rest : List Text} (some_ : rest ≠ []) : parsePieces allowed (piece :: rest) =
    (parseNumber 16 4 piece).bind fun group => (parsePieces allowed rest).map (group :: ·) := by
  cases rest with
  | nil => exact absurd rfl some_
  | cons next rest => rfl

theorem spelled_ne_nil (some_ : groups ≠ []) : spelled mixed groups ≠ [] := by
  fun_cases spelled mixed groups <;> simp_all

theorem parsePieces_hex {group : Nat} (fits : group < 65536) : parsePieces allowed [hex group] = some [group] := by
  have plain : ¬ (allowed = true ∧ '.' ∈ hex group) := fun both =>
    (toDigits_plain (by decide) (by decide) group).2 both.2
  rw [parsePieces, if_neg plain, parseNumber_hex fits, Option.map_some]

theorem parsePieces_spelled (may : mixed = true → allowed = true) (fits : ∀ group ∈ groups, group < 65536) :
    parsePieces allowed (spelled mixed groups) = some groups := by
  fun_induction spelled mixed groups with
  | case1 => rfl
  | case2 high low decimal =>
    rw [parsePieces, if_pos ⟨may decimal, dot_mem_dotted high low⟩,
      parseDotted_dotted ⟨fits _ (by simp), fits _ (by simp)⟩]
  | case3 high low =>
    rw [parsePieces_cons (by simp), parseNumber_hex (fits _ (by simp)), parsePieces_hex (fits _ (by simp))]
    rfl
  | case4 group rest _ ih =>
    by_cases last : rest = []
    · subst last
      exact parsePieces_hex (fits _ (by simp))
    · rw [parsePieces_cons (spelled_ne_nil last), parseNumber_hex (fits _ (by simp)),
        ih fun other member => fits other (List.mem_cons_of_mem _ member)]
      rfl

/-! ### Whole texts -/

def joined (pieces : List Text) : Text := [':'].intercalate pieces

/-- Each piece behind a colon. -/
def behindColons (pieces : List Text) : Text := pieces.flatMap (':' :: ·)

/-- What is in front of the first two colons in a row, and behind them. -/
def splitDouble : Text → Option (Text × Text)
  | [] => none
  | ':' :: ':' :: rest => some ([], rest)
  | c :: rest => (splitDouble rest).map fun parts => (c :: parts.1, parts.2)

/-- The groups on one side of two colons. -/
def parseSide (allowed : Bool) (text : Text) : Option (List Nat) :=
  if text = [] then some [] else parsePieces allowed (text.splitOn ':')

/-- Eight groups, of which one or more may be left out for two colons. -/
def parseGroups (text : Text) : Option (List Nat) :=
  match splitDouble text with
  | none => (parsePieces true (text.splitOn ':')).filter fun groups => groups.length = 8
  | some (left, right) =>
    (parseSide false left).bind fun front => (parseSide true right).bind fun back =>
      if front.length + back.length < 8 then
        some (front ++ List.replicate (8 - front.length - back.length) 0 ++ back)
      else none

def octetsOf (groups : List Nat) : List UInt8 :=
  groups.flatMap fun group => [UInt8.ofNat (group / 256), UInt8.ofNat group]

def parseIpv6 (text : Text) : Option (List UInt8) := (parseGroups text).map octetsOf

/-- So many groups from a place on are zero. -/
def ZeroRun (groups : List Nat) (start count : Nat) : Prop :=
  ∀ place, start ≤ place → place < start + count → groups[place]? = some 0

/-- The longest run of two or more, and the first one of its length. -/
structure FirstLongest (groups : List Nat) (start count : Nat) : Prop where
  several : 2 ≤ count
  zeros : ZeroRun groups start count
  first : ∀ place length, ZeroRun groups place length → length < count ∨ length = count ∧ start ≤ place

/-- The prefixes of IPv4-mapped and IPv4-translated addresses, whose last octets are in decimal. -/
def isMixed (groups : List Nat) : Bool :=
  groups.take 6 = [0, 0, 0, 0, 0, 0xffff] || groups.take 6 = [0, 0, 0, 0, 0xffff, 0]

/-- Two colons for a run of zeros. -/
def shortened (groups : List Nat) (start count : Nat) : Text :=
  joined (spelled false (groups.take start)) ++
    ':' :: ':' :: joined (spelled (isMixed groups) (groups.drop (start + count)))

/-- The text of RFC 5952. -/
def Recommended (groups : List Nat) (text : Text) : Prop :=
  (∃ start count, FirstLongest groups start count ∧ text = shortened groups start count) ∨
    (∀ start count, ZeroRun groups start count → count < 2) ∧ text = joined (spelled (isMixed groups) groups)

@[simp] theorem joined_nil : joined [] = [] := rfl

theorem joined_cons (piece : Text) (rest : List Text) : joined (piece :: rest) = piece ++ behindColons rest := by
  induction rest generalizing piece with
  | nil => simp [joined, behindColons]
  | cons next rest ih =>
    rw [joined, List.intercalate_cons_cons, ← joined, ih]
    simp [behindColons]

theorem behindColons_joined (some_ : pieces ≠ []) : behindColons pieces = ':' :: joined pieces := by
  cases pieces with
  | nil => exact absurd rfl some_
  | cons piece rest =>
    rw [joined_cons]
    rfl

theorem spelled_false (groups : List Nat) : spelled false groups = groups.map hex := by
  fun_induction spelled false groups with
  | case1 => rfl
  | case2 high low decimal => cases decimal
  | case3 high low => rfl
  | case4 group rest _ ih => rw [ih, List.map_cons]

/-- Pieces are not empty and have no colons. -/
theorem spelled_plain : ∀ piece ∈ spelled mixed groups, piece ≠ [] ∧ ':' ∉ piece := by
  have hexadecimal : ∀ group, hex group ≠ [] ∧ ':' ∉ hex group := fun group =>
    ⟨Nat.toDigits_ne_nil, (toDigits_plain (by decide) (by decide) group).1⟩
  have decimal : ∀ high low, dotted (quad high low) ≠ [] ∧ ':' ∉ dotted (quad high low) := by
    intro high low
    refine ⟨List.ne_nil_of_mem (dot_mem_dotted high low), ?_⟩
    have none_ := fun value => (@toDigits_plain 10 (by decide) (by decide) value).1
    simp [dotted, quad, List.intercalate_cons_cons, none_]
  fun_induction spelled mixed groups with
  | case1 => simp
  | case2 high low => simpa using decimal high low
  | case3 high low => simpa using ⟨hexadecimal high, hexadecimal low⟩
  | case4 group rest _ ih =>
    rintro piece (_ | ⟨_, member⟩)
    · exact hexadecimal group
    · exact ih piece member

theorem splitDouble_piece {piece : Text} (plain : ':' ∉ piece) (text : Text) :
    splitDouble (piece ++ text) = (splitDouble text).map fun parts => (piece ++ parts.1, parts.2) := by
  induction piece with
  | nil => simp
  | cons c piece ih =>
    obtain ⟨other, rest⟩ := not_or.mp (List.mem_cons.not.mp plain)
    rw [List.cons_append, splitDouble, ih rest, Option.map_map]
    · rfl
    · intro tail same _
      exact other same.symm

theorem splitDouble_colon {c : Char} (other : c ≠ ':') (text : Text) : splitDouble (':' :: c :: text) =
    (splitDouble (c :: text)).map fun parts => (':' :: parts.1, parts.2) := by
  rw [splitDouble]
  intro tail _ same
  exact other (List.cons.inj same).1

/-- Joined pieces have no two colons in a row. -/
theorem splitDouble_joined (plain : ∀ piece ∈ pieces, piece ≠ [] ∧ ':' ∉ piece) (text : Text) :
    splitDouble (joined pieces ++ text) = (splitDouble text).map fun parts => (joined pieces ++ parts.1, parts.2) := by
  induction pieces with
  | nil => simp
  | cons piece rest ih =>
    have first := (plain piece (by simp)).2
    have later := ih fun other member => plain other (by simp [member])
    rw [joined_cons, List.append_assoc, splitDouble_piece first]
    cases rest with
    | nil => simp [behindColons]
    | cons next rest =>
      obtain ⟨some_, none_⟩ := plain next (by simp)
      rw [behindColons_joined (by simp), List.cons_append]
      obtain ⟨c, tail, starts⟩ := List.exists_cons_of_ne_nil some_
      have begins : joined (next :: rest) ++ text = c :: (tail ++ behindColons rest ++ text) := by
        rw [joined_cons, starts]
        simp
      have other : c ≠ ':' := fun same => none_ (by simp [starts, same])
      rw [begins, splitDouble_colon other, ← begins, later, Option.map_map, Option.map_map]
      simp [Function.comp_def]

theorem parseSide_joined (may : mixed = true → allowed = true) (fits : ∀ group ∈ groups, group < 65536) :
    parseSide allowed (joined (spelled mixed groups)) = some groups := by
  unfold parseSide
  by_cases none_ : groups = []
  · subst none_
    rfl
  · obtain ⟨piece, rest, pieces⟩ := List.exists_cons_of_ne_nil (@spelled_ne_nil groups mixed none_)
    have some_ : joined (spelled mixed groups) ≠ [] := by
      rw [pieces, joined_cons]
      exact List.append_ne_nil_of_left_ne_nil (spelled_plain piece (by rw [pieces]; simp)).1 _
    rw [if_neg some_, joined, List.splitOn_intercalate ':' (fun piece member => (spelled_plain piece member).2)
      (spelled_ne_nil none_), parsePieces_spelled may fits]

theorem ZeroRun.inside (zeros : ZeroRun groups start count) (some_ : 0 < count) : start + count ≤ groups.length := by
  have last := zeros (start + count - 1) (by omega) (by omega)
  have inside := (List.getElem?_eq_some_iff.mp last).1
  omega

/-- A list with a run of zeros is what is in front of it, the zeros, and what is behind. -/
theorem ZeroRun.split (zeros : ZeroRun groups start count) :
    groups.take start ++ List.replicate count 0 ++ groups.drop (start + count) = groups := by
  rcases Nat.eq_zero_or_pos count with rfl | some_
  · simp
  have inside := zeros.inside some_
  refine List.ext_getElem? fun place => ?_
  rw [List.append_assoc]
  by_cases front : place < start
  · rw [List.getElem?_append_left (by simp; omega), List.getElem?_take_of_lt front]
  rw [List.getElem?_append_right (by simp; omega), List.length_take, Nat.min_eq_left (by omega)]
  by_cases within : place < start + count
  · rw [List.getElem?_append_left (by simp; omega), zeros place (by omega) within, List.getElem?_replicate,
      if_pos (by omega)]
  · rw [List.getElem?_append_right (by simp; omega), List.length_replicate, List.getElem?_drop]
    congr 1
    omega

/-- The text is read as the address it was made of. -/
theorem Recommended.parse {text : Text} (recommended : Recommended groups text) (eight : groups.length = 8)
    (fits : ∀ group ∈ groups, group < 65536) : parseGroups text = some groups := by
  rcases recommended with ⟨start, count, longest, rfl⟩ | ⟨_, rfl⟩
  · have inside := longest.zeros.inside (Nat.zero_lt_of_lt longest.several)
    have several := longest.several
    have front : parseSide false (joined (spelled false (groups.take start))) = some (groups.take start) :=
      parseSide_joined id fun group member => fits group (List.mem_of_mem_take member)
    have back : parseSide true (joined (spelled (isMixed groups) (groups.drop (start + count)))) =
        some (groups.drop (start + count)) :=
      parseSide_joined (fun _ => rfl) fun group member => fits group (List.mem_of_mem_drop member)
    have double := @splitDouble_joined _ (@spelled_plain (groups.take start) false)
      (':' :: ':' :: joined (spelled (isMixed groups) (groups.drop (start + count))))
    rw [splitDouble, Option.map_some, List.append_nil] at double
    have lengths : (groups.take start).length = start ∧
        (groups.drop (start + count)).length = 8 - (start + count) := by
      rw [List.length_take, List.length_drop]
      omega
    unfold parseGroups shortened
    rw [double]
    dsimp only
    rw [front, Option.bind_some, back, Option.bind_some, lengths.1, lengths.2, if_pos (by omega)]
    have gap : 8 - start - (8 - (start + count)) = count := by omega
    rw [gap, longest.zeros.split]
  · have single := @splitDouble_joined _ (@spelled_plain groups (isMixed groups)) []
    rw [splitDouble, Option.map_none, List.append_nil] at single
    have some_ : spelled (isMixed groups) groups ≠ [] := spelled_ne_nil (by rintro rfl; cases eight)
    unfold parseGroups
    rw [single]
    dsimp only
    rw [joined, List.splitOn_intercalate ':' (fun piece member => (spelled_plain piece member).2) some_,
      parsePieces_spelled (fun _ => rfl) fits]
    simp [eight]

/-- There is one text. -/
theorem Recommended.unique {text other : Text} (one : Recommended groups text) (also : Recommended groups other) :
    text = other := by
  rcases one with ⟨start, count, longest, rfl⟩ | ⟨none_, rfl⟩
  · rcases also with ⟨place, length, longest', rfl⟩ | ⟨none_, _⟩
    · have first := longest.first place length longest'.zeros
      have second := longest'.first start count longest.zeros
      obtain ⟨rfl, rfl⟩ : place = start ∧ length = count := by omega
      rfl
    · exact absurd longest.several (Nat.not_le.mpr (none_ start count longest.zeros))
  · rcases also with ⟨place, length, longest, _⟩ | ⟨_, rfl⟩
    · exact absurd longest.several (Nat.not_le.mpr (none_ place length longest.zeros))
    · rfl

end BcmDhd.Lib.Ipv6
