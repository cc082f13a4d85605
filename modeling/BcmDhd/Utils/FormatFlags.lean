import BcmDhd.Lib.Bytes

/-! Flags as a text of their names, in a buffer of limited length. -/

namespace BcmDhd.Utils

open BcmDhd.Lib

/-- `bcm_bit_desc_t`. A table ends with an entry without bits. -/
structure BcmBitDesc where
  bit : UInt32
  name : List UInt8

/-- `snprintf(hexstr, 16, "0x%X", flags)`. -/
def hexstr (flags : UInt32) : List UInt8 :=
  48 :: 120 :: (Nat.toDigits 16 flags.toNat).map fun c => UInt8.ofNat c.toUpper.toNat

/-- One name goes to `p`: whether the loop goes on, the buffer, `p` and `slen`. -/
def formatName (len : Nat) (name : List UInt8) (flags : UInt32) (buf : Memory) (p slen : Nat) :
    Bool × Memory × Nat × Nat :=
  let slen := slen + name.length + if flags ≠ 0 then 1 else 0
  if len ≤ slen then (false, buf, p, slen)
  else
    let buf := store buf p (name ++ [0])
    let p := p + name.length
    if flags ≠ 0 then (true, store buf p [32, 0], p + 1, slen) else (true, buf, p, slen)

/-- The number of the flags without a name, which ends the loop. -/
def formatUnnamed (len : Nat) (flags : UInt32) (buf : Memory) (p slen : Nat) : Memory × Nat × UInt32 :=
  let put := formatName len (hexstr flags) 0 buf p slen
  (put.2.1, put.2.2.1, 0)

/-- The loop: the buffer, `p` and the flags that are left. -/
def formatLoop (len : Nat) : List BcmBitDesc → (flags : UInt32) → (buf : Memory) → (p slen : Nat) →
    Memory × Nat × UInt32
  | [], flags, buf, p, slen => if flags = 0 then (buf, p, flags) else formatUnnamed len flags buf p slen
  | d :: bd, flags, buf, p, slen =>
    if flags = 0 then (buf, p, flags)
    else if d.bit = 0 then formatUnnamed len flags buf p slen
    else if flags &&& d.bit = 0 then formatLoop len bd flags buf p slen
    else
      let flags := flags &&& ~~~d.bit
      let put := formatName len d.name flags buf p slen
      if put.1 then formatLoop len bd flags put.2.1 put.2.2.1 put.2.2.2 else (put.2.1, put.2.2.1, flags)

/-- Behind the loop: the mark of a text that was too long. -/
def formatEnd (left : Memory × Nat × UInt32) : Memory × Nat :=
  if left.2.2 ≠ 0 then (store left.1 left.2.1 [62, 0], left.2.1 + 1) else (left.1, left.2.1)

/-- `bcm_format_flags` with a buffer: what it holds afterwards, and the length that is returned. -/
def bcmFormatFlags (bd : List BcmBitDesc) (flags : UInt32) (buf : Memory) (len : Nat) : Memory × Nat :=
  if len < 2 then (buf, 0) else formatEnd (formatLoop len bd flags (store buf 0 [0]) 0 0)

/-- The names of the flags that are set, and one number for those without a name. -/
def names : List BcmBitDesc → UInt32 → List (List UInt8)
  | [], flags => if flags = 0 then [] else [hexstr flags]
  | d :: bd, flags =>
    if flags = 0 then []
    else if d.bit = 0 then [hexstr flags]
    else if flags &&& d.bit = 0 then names bd flags
    else d.name :: names bd (flags &&& ~~~d.bit)

/-- Whatever the buffer held: no byte behind it changes, the text ends in it, and is the list of
names if that fits, otherwise one that ends with `>`. -/
def FormatMeets (bd : List BcmBitDesc) (flags : UInt32) (len : Nat) : Prop :=
  ∀ buf : Memory,
    let after := bcmFormatFlags bd flags buf len
    let text := load after.1 0 after.2
    (∀ place, len ≤ place → after.1 place = buf place) ∧ after.2 < len ∧ after.1 after.2 = 0 ∧
      if ([32].intercalate (names bd flags)).length < len then text = [32].intercalate (names bd flags)
      else text.getLast? = some 62

/-- The length of the first `k` names, each with the space behind it. -/
def spacedLen (names : List (List UInt8)) (k : Nat) : Nat := ((names.take k).map (·.length + 1)).sum

/-- What is written for the names in the room that there is. -/
def shown : List (List UInt8) → (room : Nat) → List UInt8
  | [], _ => []
  | [name], room => if name.length < room then name else []
  | name :: next :: rest, room =>
    if name.length + 1 < room then name ++ 32 :: shown (next :: rest) (room - (name.length + 1)) else [62]

variable {bd : List BcmBitDesc} {flags : UInt32} {len room : Nat} {buf : Memory} {sofar name text : List UInt8}
  {items : List (List UInt8)}

theorem names_eq_nil : names bd flags = [] ↔ flags = 0 := by
  induction bd generalizing flags with
  | nil => simp [names]
  | cons d bd ih =>
    rw [names]
    split
    · simp [*]
    · split
      · simp [*]
      · split
        · rw [ih]
        · simp [*]

theorem store_end (sofar text : List UInt8) (longer : text ≠ []) :
    store (store buf 0 (sofar ++ [0])) sofar.length text = store buf 0 (sofar ++ text) := by
  have some : 0 < text.length := List.length_pos_iff.mpr longer
  funext place
  unfold store
  by_cases before : place < sofar.length
  · simp [before, List.getElem?_append_left]
  · have behind : sofar.length ≤ place := by omega
    simp only [behind, if_true, Nat.zero_le, Nat.sub_zero, List.getElem?_append_right behind]
    cases here : text[place - sofar.length]? with
    | some byte => rfl
    | none =>
      have outside : text.length ≤ place - sofar.length := List.getElem?_eq_none_iff.mp here
      rw [List.getElem?_eq_none (by simp; omega)]
      rfl

theorem formatName_eq (inside : sofar.length < len) :
    formatName len name flags (store buf 0 (sofar ++ [0])) sofar.length sofar.length =
      let more := name ++ if flags ≠ 0 then [32] else []
      if more.length < len - sofar.length then
        (true, store buf 0 (sofar ++ more ++ [0]), (sofar ++ more).length, (sofar ++ more).length)
      else (false, store buf 0 (sofar ++ [0]), sofar.length, sofar.length + more.length) := by
  have copied := @store_end buf sofar (name ++ [0]) (by simp)
  have spacedOut := @store_end buf (sofar ++ name) [32, 0] (by simp)
  rw [List.length_append] at spacedOut
  simp only [List.append_assoc] at copied spacedOut
  unfold formatName
  by_cases last : flags = 0
  · by_cases fits : name.length < len - sofar.length
    · simp [last, fits, copied, show ¬ len ≤ sofar.length + name.length by omega]
    · simp [last, fits, show len ≤ sofar.length + name.length by omega]
  · by_cases fits : name.length + 1 < len - sofar.length
    · simp [last, fits, copied, spacedOut, Nat.add_assoc, show ¬ len ≤ sofar.length + (name.length + 1) by omega]
    · simp [last, fits, Nat.add_assoc, show len ≤ sofar.length + (name.length + 1) by omega]

theorem shown_cons : shown (name :: items) room =
    let more := name ++ if items ≠ [] then [32] else []
    if more.length < room then more ++ shown items (room - more.length) else if items = [] then [] else [62] := by
  cases items <;> simp [shown]

theorem formatUnnamed_eq (inside : sofar.length < len) :
    formatEnd (formatUnnamed len flags (store buf 0 (sofar ++ [0])) sofar.length sofar.length) =
      (store buf 0 (sofar ++ shown [hexstr flags] (len - sofar.length) ++ [0]),
        (sofar ++ shown [hexstr flags] (len - sofar.length)).length) := by
  rw [formatUnnamed, formatName_eq inside, shown]
  by_cases fits : (hexstr flags).length < len - sofar.length <;> simp [fits, formatEnd]

theorem formatLoop_eq (inside : sofar.length < len) :
    formatEnd (formatLoop len bd flags (store buf 0 (sofar ++ [0])) sofar.length sofar.length) =
      (store buf 0 (sofar ++ shown (names bd flags) (len - sofar.length) ++ [0]),
        (sofar ++ shown (names bd flags) (len - sofar.length)).length) := by
  induction bd generalizing flags sofar with
  | nil =>
    by_cases done : flags = 0
    · simp [formatLoop, names, done, formatEnd, shown]
    · simpa [formatLoop, names, done] using formatUnnamed_eq inside
  | cons d bd ih =>
    by_cases done : flags = 0
    · simp [formatLoop, names, done, formatEnd, shown]
    by_cases ended : d.bit = 0
    · simpa [formatLoop, names, done, ended] using formatUnnamed_eq inside
    by_cases other : flags &&& d.bit = 0
    · simpa [formatLoop, names, done, ended, other] using ih inside
    simp only [formatLoop, names, if_neg done, if_neg ended, if_neg other]
    generalize flags &&& ~~~d.bit = left
    rw [formatName_eq inside, shown_cons]
    simp only [ne_eq, names_eq_nil]
    by_cases fits : (d.name ++ if ¬ left = 0 then [32] else []).length < len - sofar.length
    · have next := @ih left (sofar ++ (d.name ++ if ¬ left = 0 then [32] else []))
        (by rw [List.length_append]; omega)
      simp only [if_pos fits, if_true]
      rw [next, List.length_append, Nat.sub_add_eq]
      simp only [List.append_assoc]
    · have marked := @store_end buf sofar [62, 0] (by simp)
      rw [if_neg fits, if_neg fits]
      by_cases last : left = 0 <;> simp [last, formatEnd, marked]

theorem bcmFormatFlags_eq (some : 2 ≤ len) : bcmFormatFlags bd flags buf len =
    (store buf 0 (shown (names bd flags) len ++ [0]), (shown (names bd flags) len).length) := by
  rw [bcmFormatFlags, if_neg (by omega)]
  exact @formatLoop_eq bd flags len buf [] (by simp; omega)

theorem shown_whole (fits : ([32].intercalate items).length < room) : shown items room = [32].intercalate items := by
  induction items generalizing room with
  | nil => rfl
  | cons name items ih =>
    cases items with
    | nil =>
      rw [List.intercalate_singleton] at *
      exact if_pos fits
    | cons next rest =>
      rw [List.intercalate_cons_cons] at *
      simp only [List.length_append, List.length_singleton] at fits
      rw [shown, if_pos (by omega), ih (by omega), List.append_assoc]
      rfl

/-- A text that does not fit ends with the mark where the first name that does not fit leaves room for it,
and is not the last. -/
theorem shown_marked (cut : room ≤ ([32].intercalate items).length) :
    (shown items room).length < room ∧ (shown items room).getLast? = some 62 ↔
      ∃ k, k + 1 < items.length ∧ spacedLen items k + 1 < room ∧ room ≤ spacedLen items (k + 1) := by
  induction items generalizing room with
  | nil => simp [shown]
  | cons name items ih =>
    have next : ∀ k, spacedLen (name :: items) (k + 1) = name.length + 1 + spacedLen items k := by simp [spacedLen]
    rw [← Nat.or_exists_add_one, List.length_cons]
    simp only [next]
    change _ ↔ (_ ∧ 0 + 1 < room ∧ room ≤ name.length + 1 + 0) ∨ _
    cases items with
    | nil =>
      rw [List.intercalate_singleton] at cut
      simp [shown, show ¬ name.length < room by omega]
    | cons second rest =>
      rw [List.intercalate_cons_cons, List.length_append, List.length_append, List.length_singleton] at cut
      by_cases fits : name.length + 1 < room
      · have tail := @ih (room - (name.length + 1)) (by omega)
        have last : (name ++ 32 :: shown (second :: rest) (room - (name.length + 1))).getLast? = some 62 ↔
            (shown (second :: rest) (room - (name.length + 1))).getLast? = some 62 := by
          cases shown (second :: rest) (room - (name.length + 1)) <;> simp
        rw [shown, if_pos fits, last, List.length_append, List.length_cons]
        constructor
        · rintro ⟨inside, marked⟩
          obtain ⟨k, more, enough, short⟩ := tail.mp ⟨by omega, marked⟩
          exact .inr ⟨k, by omega⟩
        · rintro (⟨-, -, short⟩ | ⟨k, more, enough, short⟩)
          · omega
          · have inner := tail.mpr ⟨k, by omega⟩
            exact ⟨by omega, inner.2⟩
      · rw [shown, if_neg fits, List.length_singleton]
        constructor
        · rintro ⟨enough, -⟩
          exact .inl ⟨by simp, by omega⟩
        · rintro (⟨-, enough, -⟩ | ⟨k, -, enough, -⟩) <;> exact ⟨by omega, rfl⟩

/-- The text is as it should be in buffers of at least two bytes that hold the whole, or in which the
names that fit leave two bytes and the next one is not the last. -/
theorem format_meets_iff (bd : List BcmBitDesc) (flags : UInt32) (len : Nat) :
    FormatMeets bd flags len ↔ 2 ≤ len ∧ (([32].intercalate (names bd flags)).length < len ∨
      ∃ k, k + 1 < (names bd flags).length ∧ spacedLen (names bd flags) k + 1 < len ∧
        len ≤ spacedLen (names bd flags) (k + 1)) := by
  unfold FormatMeets
  by_cases some : 2 ≤ len
  · simp only [bcmFormatFlags_eq some]
    generalize out : shown (names bd flags) len = text
    have loaded : ∀ buf : Memory, load (store buf 0 (text ++ [0])) 0 text.length = text := by
      intro buf
      have whole := Bytes.load_store buf 0 (text ++ [0])
      rw [@Bytes.load_take _ 0 (text ++ [0]).length text.length (by simp), whole, List.take_left' rfl]
    have ended : ∀ buf : Memory, store buf 0 (text ++ [0]) text.length = 0 := by
      intro buf
      simp [store]
    have kept : text.length < len → ∀ buf : Memory, ∀ place,
        len ≤ place → store buf 0 (text ++ [0]) place = buf place := by
      intro inside buf place behind
      exact Bytes.store_outside (by simp; omega)
    simp only [loaded, ended, true_and, some]
    by_cases fits : ([32].intercalate (names bd flags)).length < len
    · rw [shown_whole fits] at out
      subst out
      simpa [fits] using kept fits
    · simp only [fits, if_false, false_or]
      rw [← shown_marked (by omega), out]
      exact ⟨fun meets => (meets fun _ => 0).2, fun right buf => ⟨kept right.1 buf, right⟩⟩
  · simp only [some, false_and, iff_false]
    intro meets
    have zero := (meets fun _ => 1).2.2.1
    rw [bcmFormatFlags, if_pos (by omega)] at zero
    cases zero

/-- A name and its space fill a buffer of four bytes, and the end of the mark goes behind it. -/
theorem format_exact_fill :
    (bcmFormatFlags [⟨1, [117, 112]⟩, ⟨2, [98, 99]⟩, ⟨4, [97]⟩] 7 (fun _ => 1) 4).1 4 = 0 ∧
      ¬ FormatMeets [⟨1, [117, 112]⟩, ⟨2, [98, 99]⟩, ⟨4, [97]⟩] 7 4 := by
  have beyond : (bcmFormatFlags [⟨1, [117, 112]⟩, ⟨2, [98, 99]⟩, ⟨4, [97]⟩] 7 (fun _ => 1) 4).1 4 = 0 := by
    decide +kernel
  refine ⟨beyond, fun meets => ?_⟩
  have same := (meets fun _ => 1).1 4 (le_refl _)
  rw [beyond] at same
  cases same

end BcmDhd.Utils
