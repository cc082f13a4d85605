import BcmDhd.Lib.Bytes

/-! The filter that makes a file of variables a buffer of texts that end in zeros. -/

namespace BcmDhd.Utils

open BcmDhd.Lib

/-- `dp` is an offset into the buffer. -/
structure NvramScan where
  varbuf : Memory
  dp : Nat
  findNewline : Bool
  column : Nat

/-- One turn of the loop. Carriage return is 13, newline 10 and `#` 35. -/
def nvramTurn (scan : NvramScan) (n : Nat) : NvramScan :=
  let c := scan.varbuf n
  if c = 13 then scan
  else if scan.findNewline && c ≠ 10 then scan
  else if c = 35 then { scan with findNewline := true }
  else if c = 10 then
    if scan.column = 0 then { scan with findNewline := false }
    else ⟨store scan.varbuf scan.dp [0], scan.dp + 1, false, 0⟩
  else ⟨store scan.varbuf scan.dp [c], scan.dp + 1, false, scan.column + 1⟩

/-- The length is padded where the buffer has room; the sum is one of 32 bits. -/
def paddedLen (bufLen len : Nat) : Nat :=
  if bufLen % 4 ≠ 0 ∧ (bufLen + (4 - bufLen % 4)) % 2 ^ 32 ≤ len then (bufLen + (4 - bufLen % 4)) % 2 ^ 32
  else bufLen

/-- The buffer, and the length that is returned. -/
def processNvramVars (varbuf : Memory) (len : UInt32) : Memory × Nat :=
  let scan := (List.range' 0 len.toNat).foldl nvramTurn ⟨varbuf, 0, false, 0⟩
  (store scan.varbuf scan.dp (List.replicate (len.toNat - scan.dp) 0), paddedLen scan.dp len.toNat)

/-- A line becomes `keep` of it. Where nothing is left no newline becomes a zero. -/
def joinLines (keep : List UInt8 → List UInt8) : List (List UInt8) → List UInt8
  | [] => []
  | line :: rest =>
    keep line ++ if rest = [] then [] else (if keep line = [] then [] else [0]) ++ joinLines keep rest

/-- A line without carriage returns, or nothing of a comment. -/
def keepLine (line : List UInt8) : List UInt8 :=
  let line := line.filter (· ≠ 13)
  if line.head? = some 35 then [] else line

def nvramReference (text : List UInt8) : List UInt8 := joinLines keepLine (text.splitOn 10)

/-- Nothing is written behind the buffer, the text is that of the reference, padded with less than four
zeros, ends with two, and is left as it is by another call. -/
def NvramMeets (varbuf : Memory) (len : UInt32) : Prop :=
  let after := processNvramVars varbuf len
  let text := load after.1 0 after.2
  (∀ place, len.toNat ≤ place → after.1 place = varbuf place) ∧ after.2 ≤ len.toNat ∧
    (∃ pad < 4, text = nvramReference (load varbuf 0 len.toNat) ++ List.replicate pad 0) ∧ [0, 0] <:+ text ∧
    let again := processNvramVars after.1 (UInt32.ofNat after.2)
    again.2 = after.2 ∧ load again.1 0 again.2 = text

/-- What the loop keeps of a line. -/
def keepBefore (line : List UInt8) : List UInt8 := (line.filter (· ≠ 13)).takeWhile (· ≠ 35)

/-- What is kept of a text within a comment or not, in a line that has started or not. -/
def kept : (findNewline started : Bool) → List UInt8 → List UInt8
  | _, _, [] => []
  | findNewline, started, c :: text =>
    if c = 13 then kept findNewline started text
    else if findNewline && c ≠ 10 then kept findNewline started text
    else if c = 35 then kept true started text
    else if c = 10 then if started then 0 :: kept false false text else kept false false text
    else c :: kept false true text

variable {varbuf : Memory} {text line : List UInt8} {findNewline started : Bool} {count n bufLen len : Nat}
  {scan : NvramScan}

theorem store_append (memory : Memory) (address : Nat) (bytes more : List UInt8) :
    store (store memory address bytes) (address + bytes.length) more = store memory address (bytes ++ more) := by
  funext place
  unfold store
  by_cases before : place < address + bytes.length
  · rw [if_neg (by omega)]
    split
    · rw [List.getElem?_append_left (by omega)]
    · rfl
  · rw [if_pos (by omega), if_pos (by omega), if_pos (by omega), List.getElem?_append_right (by omega),
      List.getElem?_eq_none (l := bytes) (by omega), Nat.sub_sub]
    rfl

def Wrote (before after : NvramScan) (out : List UInt8) : Prop :=
  after.varbuf = store before.varbuf before.dp out ∧ after.dp = before.dp + out.length

theorem Wrote.cons {after : NvramScan} {byte : UInt8} {column : Nat} {out : List UInt8}
    (wrote : Wrote ⟨store scan.varbuf scan.dp [byte], scan.dp + 1, false, column⟩ after out) :
    Wrote scan after (byte :: out) := by
  obtain ⟨buffer, dp⟩ := wrote
  refine ⟨buffer.trans (store_append _ _ [byte] out), ?_⟩
  rw [dp, List.length_cons, Nat.add_assoc, Nat.add_comm 1]

/-- What the loop writes, which reads in front of what it writes. -/
theorem nvram_scan (behind : scan.dp ≤ n) (unread : ∀ place, n ≤ place → scan.varbuf place = varbuf place) :
    Wrote scan ((List.range' n count).foldl nvramTurn scan)
      (kept scan.findNewline (scan.column ≠ 0) (load varbuf n count)) := by
  induction count generalizing n scan with
  | zero =>
    refine ⟨funext fun place => ?_, rfl⟩
    simp [load, kept, store]
  | succ count ih =>
    have first : load varbuf n (count + 1) = varbuf n :: load varbuf (n + 1) count := by
      rw [Nat.add_comm, Bytes.load_add]
      rfl
    have skipped : ∀ find column, Wrote scan
        ((List.range' (n + 1) count).foldl nvramTurn ⟨scan.varbuf, scan.dp, find, column⟩)
        (kept find (column ≠ 0) (load varbuf (n + 1) count)) :=
      fun find column => @ih (n + 1) ⟨scan.varbuf, scan.dp, find, column⟩ (Nat.le_succ_of_le behind)
        fun place above => unread place (by omega)
    have written : ∀ byte column, Wrote scan
        ((List.range' (n + 1) count).foldl nvramTurn ⟨store scan.varbuf scan.dp [byte], scan.dp + 1, false, column⟩)
        (byte :: kept false (column ≠ 0) (load varbuf (n + 1) count)) := by
      intro byte column
      refine Wrote.cons (ih (Nat.succ_le_succ behind) fun place above => ?_)
      exact (Bytes.store_outside (Or.inr (by simp; omega))).trans (unread place (by omega))
    rw [List.range'_succ, List.foldl_cons, first, kept, nvramTurn, unread n (le_refl n)]
    split
    · exact skipped _ _
    · split
      · exact skipped _ _
      · split
        · exact skipped _ _
        · split
          · by_cases column : scan.column = 0
            · simpa [column] using skipped false 0
            · simpa [column] using written 0 0
          · simpa using written (varbuf n) (scan.column + 1)

theorem kept_eq {rest : List (List UInt8)} (lines : text.splitOn 10 = line :: rest) :
    kept findNewline started text =
      let first := if findNewline then [] else keepBefore line
      first ++ if rest = [] then [] else (if started || first ≠ [] then [0] else []) ++ joinLines keepBefore rest := by
  induction text generalizing findNewline started line rest with
  | nil =>
    rw [List.splitOn_nil] at lines
    cases lines
    simp [kept, keepBefore]
  | cons c text ih =>
    obtain ⟨head, tail, split⟩ := List.exists_cons_of_ne_nil (List.splitOnP_ne_nil (· == 10) text)
    have later := fun find started => @ih head find started tail split
    rw [List.splitOn, List.splitOnP_cons_eq_if_modifyHead, split] at lines
    by_cases newline : c = 10
    · simp only [newline, beq_self_eq_true, if_true, List.cons.injEq] at lines
      obtain ⟨rfl, rfl⟩ := lines
      have ended := later false false
      have whole : kept false false text = joinLines keepBefore (head :: tail) := by
        simp [ended, joinLines]
      rw [kept, newline]
      cases started <;> simp [whole, keepBefore]
    · simp only [newline, beq_iff_eq, if_false, List.modifyHead_cons, List.cons.injEq] at lines
      obtain ⟨rfl, rfl⟩ := lines
      by_cases dropped : c = 13
      · simp [kept, dropped, later, keepBefore]
      · by_cases comment : c = 35
        · cases findNewline <;> simp [kept, comment, later, keepBefore]
        · cases findNewline <;> simp [kept, newline, dropped, comment, later, keepBefore]

theorem kept_lines : kept false false text = joinLines keepBefore (text.splitOn 10) := by
  obtain ⟨head, tail, split⟩ := List.exists_cons_of_ne_nil (List.splitOnP_ne_nil (· == 10) text)
  simp [kept_eq split, List.splitOn, split, joinLines]

theorem kept_clean : ∀ c ∈ kept findNewline started text, c ≠ 13 ∧ c ≠ 35 ∧ c ≠ 10 := by
  induction text generalizing findNewline started with
  | nil => simp [kept]
  | cons c text ih =>
    rw [kept]
    repeat' split
    all_goals first | exact ih | (rw [List.forall_mem_cons]; exact ⟨by simp [*], ih⟩)

theorem length_kept : (kept findNewline started text).length ≤ text.length := by
  induction text generalizing findNewline started with
  | nil => simp [kept]
  | cons c text ih =>
    rw [kept, List.length_cons]
    repeat' split
    all_goals first | exact Nat.le_succ_of_le ih | exact Nat.succ_le_succ ih

theorem kept_self (clean : ∀ c ∈ text, c ≠ 13 ∧ c ≠ 35 ∧ c ≠ 10) : kept false started text = text := by
  induction text generalizing started with
  | nil => rfl
  | cons c text ih =>
    obtain ⟨here, later⟩ := List.forall_mem_cons.mp clean
    simp [kept, here, ih later]

/-- Lines in which nothing is a comment are all that the code and the reference agree about. -/
theorem kept_reference : kept false false text = nvramReference text ↔ 35 ∉ nvramReference text := by
  constructor
  · intro same member
    rw [← same] at member
    exact (kept_clean 35 member).2.1 rfl
  · rw [kept_lines, nvramReference]
    generalize text.splitOn 10 = lines
    intro free
    induction lines with
    | nil => rfl
    | cons line rest ih =>
      simp only [joinLines, List.mem_append, not_or] at free ⊢
      have agree : keepBefore line = keepLine line := by
        have only_ := free.1
        unfold keepBefore
        unfold keepLine at only_ ⊢
        generalize line.filter (· ≠ 13) = line at *
        cases line with
        | nil => rfl
        | cons c line =>
          by_cases comment : c = 35
          · simp [comment]
          · simp only [List.head?_cons, Option.some.injEq, comment, if_false] at only_ ⊢
            simpa using @List.takeWhile_append_of_pos _ (fun c => decide (c ≠ 35)) (c :: line) []
              fun byte member => decide_eq_true fun same => only_ (same ▸ member)
      rw [agree]
      split
      · rfl
      · rw [ih (by simpa [*] using free.2)]

/-- As many zeros as fit and are missing to a multiple of four. -/
def nvramPad (length len : Nat) : Nat :=
  if length + (4 - length % 4) % 4 ≤ len then (4 - length % 4) % 4 else 0

theorem paddedLen_eq (fits : bufLen ≤ 2 ^ 32 - 4) : paddedLen bufLen len = bufLen + nvramPad bufLen len := by
  unfold paddedLen nvramPad
  split <;> split <;> omega

theorem paddedLen_wraps (large : ¬ bufLen ≤ 2 ^ 32 - 4) (small : bufLen < 2 ^ 32) : paddedLen bufLen len = 0 := by
  unfold paddedLen
  rw [if_pos (by omega)]
  omega

theorem processNvramVars_eq (varbuf : Memory) (size : UInt32) :
    let out := kept false false (load varbuf 0 size.toNat)
    processNvramVars varbuf size =
      (store varbuf 0 (out ++ List.replicate (size.toNat - out.length) 0), paddedLen out.length size.toNat) := by
  obtain ⟨buffer, dp⟩ := @nvram_scan varbuf size.toNat 0 ⟨varbuf, 0, false, 0⟩ (le_refl 0) fun _ _ => rfl
  unfold processNvramVars
  dsimp only at *
  rw [buffer, dp]
  refine Prod.ext ?_ ?_
  · simpa using store_append varbuf 0 (kept false false (load varbuf 0 size.toNat)) _
  · simp

theorem zeros_suffix_iff (text : List UInt8) (pad : Nat) :
    [0, 0] <:+ text ++ List.replicate pad 0 ↔ [0, 0] <:+ text ∨ pad = 1 ∧ [0] <:+ text ∨ 2 ≤ pad := by
  match pad with
  | 0 => simp
  | 1 =>
    have one : [0, 0] <:+ text ++ [0] ↔ [0] <:+ text :=
      @List.suffix_append_self_iff _ [0] text [0]
    have fewer : [0, 0] <:+ text → [0] <:+ text := (List.suffix_append [0] [0]).trans
    simpa [one] using fewer
  | more + 2 =>
    refine iff_of_true ?_ (Or.inr (Or.inr (Nat.le_add_left 2 more)))
    rw [List.replicate_add, ← List.append_assoc]
    exact List.suffix_append _ _

/-- The zeros at the end of a filtered text suffice: it has two, or one and lacks one byte
of a multiple of four, or lacks more, and the buffer has room for what it lacks. -/
def EndsWell (text : List UInt8) (len : Nat) : Prop :=
  [0, 0] <:+ text ∨ text.length % 4 = 3 ∧ [0] <:+ text ∧ text.length + 1 ≤ len ∨
    (text.length % 4 = 1 ∨ text.length % 4 = 2) ∧ text.length + (4 - text.length % 4) ≤ len

theorem padded_zeros_iff (text : List UInt8) (len : Nat) :
    [0, 0] <:+ text ++ List.replicate (nvramPad text.length len) 0 ↔ EndsWell text len := by
  rw [zeros_suffix_iff, EndsWell]
  have one : nvramPad text.length len = 1 ↔ text.length % 4 = 3 ∧ text.length + 1 ≤ len := by
    unfold nvramPad
    split <;> omega
  have more : 2 ≤ nvramPad text.length len ↔
      (text.length % 4 = 1 ∨ text.length % 4 = 2) ∧ text.length + (4 - text.length % 4) ≤ len := by
    unfold nvramPad
    split <;> omega
  rw [one, more, and_right_comm, and_assoc]

/-- The text is right where no line that is kept has a `#` in it, its length can be rounded up in 32 bits, and its
last bytes and its length leave two zeros at its end. -/
theorem nvram_meets_iff (varbuf : Memory) (len : UInt32) :
    NvramMeets varbuf len ↔
      let reference := nvramReference (load varbuf 0 len.toNat)
      35 ∉ reference ∧ reference.length ≤ 2 ^ 32 - 4 ∧ EndsWell reference len.toNat := by
  have agree := @kept_reference (load varbuf 0 len.toNat)
  have clean := @kept_clean (load varbuf 0 len.toNat) false false
  have short := @length_kept (load varbuf 0 len.toNat) false false
  rw [Bytes.length_load] at short
  unfold NvramMeets
  simp only [← padded_zeros_iff]
  rw [processNvramVars_eq]
  generalize kept false false (load varbuf 0 len.toNat) = out at *
  generalize nvramReference (load varbuf 0 len.toNat) = reference at *
  have bound := len.toNat_lt
  dsimp only
  by_cases fits : out.length ≤ 2 ^ 32 - 4
  · obtain ⟨pad, padding⟩ : ∃ pad, pad = nvramPad out.length len.toNat := ⟨_, rfl⟩
    have room : out.length + pad ≤ len.toNat ∧ pad < 4 ∧ out.length + pad ≤ 2 ^ 32 - 4 := by
      unfold nvramPad at padding
      split at padding <;> omega
    have loaded : load (store varbuf 0 (out ++ List.replicate (len.toNat - out.length) 0)) 0 (out.length + pad) =
        out ++ List.replicate pad 0 := by
      have whole := Bytes.load_store varbuf 0 (out ++ List.replicate (len.toNat - out.length) 0)
      rw [@Bytes.load_take _ 0 (out ++ List.replicate (len.toNat - out.length) 0).length (out.length + pad)
        (by simp; omega),
        whole, List.take_append, List.take_of_length_le (by omega), List.take_replicate]
      congr
      omega
    rw [paddedLen_eq fits, ← padding, loaded]
    constructor
    · rintro ⟨-, -, ⟨more, -, same⟩, ended, -⟩
      have free : 35 ∉ reference := by
        intro member
        have kept : (35 : UInt8) ∈ out ++ List.replicate pad 0 := same ▸ List.mem_append_left _ member
        rcases List.mem_append.mp kept with old | zero
        · exact (clean 35 old).2.1 rfl
        · cases List.eq_of_mem_replicate zero
      rw [← agree.mpr free]
      exact ⟨agree.mpr free ▸ free, fits, padding ▸ ended⟩
    · rintro ⟨free, -, ended⟩
      have same := agree.mpr free
      rw [← same, ← padding] at ended
      refine ⟨fun place behind => Bytes.store_outside (by simp; omega), room.1,
        ⟨pad, room.2.1, by rw [same]⟩, ended, ?_⟩
      have size : (UInt32.ofNat (out.length + pad)).toNat = out.length + pad := by
        rw [UInt32.toNat_ofNat', Nat.mod_eq_of_lt (by omega)]
      have again : kept false false (out ++ List.replicate pad 0) = out ++ List.replicate pad 0 := by
        refine kept_self fun c member => ?_
        rcases List.mem_append.mp member with old | zero
        · exact clean c old
        · cases List.eq_of_mem_replicate zero
          decide
      have length : (out ++ List.replicate pad 0).length = out.length + pad := by simp
      have still : paddedLen (out.length + pad) (out.length + pad) = out.length + pad := by
        rw [paddedLen_eq room.2.2, nvramPad]
        split <;> omega
      rw [processNvramVars_eq, size, loaded, again, length, still]
      refine ⟨rfl, ?_⟩
      have stored := Bytes.load_store (store varbuf 0 (out ++ List.replicate (len.toNat - out.length) 0)) 0
        (out ++ List.replicate pad 0)
      simpa [length] using stored
  · rw [paddedLen_wraps fits (by omega)]
    constructor
    · rintro ⟨-, -, ⟨more, -, same⟩, -⟩
      have none : reference = [] := (List.append_eq_nil_iff.mp same.symm).1
      have empty := agree.mpr (none ▸ List.not_mem_nil)
      rw [empty, none] at fits
      exact absurd (Nat.zero_le _) fits
    · rintro ⟨free, small, -⟩
      rw [agree.mpr free] at fits
      exact absurd small fits

/-- `a=b` and a newline end with one zero. -/
theorem nvram_one_zero :
    processNvramVars (store (fun _ => 0) 0 [97, 61, 98, 10]) 4 =
        (store (store (fun _ => 0) 0 [97, 61, 98, 10]) 0 [97, 61, 98, 0], 4) ∧
      ¬ NvramMeets (store (fun _ => 0) 0 [97, 61, 98, 10]) 4 := by
  have loaded : load (store (fun _ => 0) 0 [97, 61, 98, 10]) 0 (4 : UInt32).toNat = [97, 61, 98, 10] := by
    decide +kernel
  have run := processNvramVars_eq (store (fun _ => 0) 0 [97, 61, 98, 10]) 4
  rw [loaded] at run
  refine ⟨run, fun meets => ?_⟩
  have ended := meets.2.2.2.1
  revert ended
  decide +kernel

end BcmDhd.Utils
