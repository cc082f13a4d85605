import Mathlib.Tactic

namespace BcmDhd.Lib

/-- An operation on blocks that takes back what it did. -/
structure Masking {Block : Type*} (mix : Block → Block → Block) : Prop where
  comm : ∀ first second, mix first second = mix second first
  undo : ∀ first second, mix (mix first second) second = first

namespace Masking

variable {Block : Type*} {mix : Block → Block → Block} {first second third : Block}

theorem undo_left (masking : Masking mix) (first second : Block) : mix (mix first second) first = second := by
  rw [masking.comm first second, masking.undo]

theorem right_inj (masking : Masking mix) : mix first third = mix second third ↔ first = second := by
  constructor
  · intro same
    rw [← masking.undo first third, same, masking.undo]
  · rintro rfl
    rfl

theorem left_inj (masking : Masking mix) : mix third first = mix third second ↔ first = second := by
  rw [masking.comm third first, masking.comm third second, masking.right_inj]

end Masking

namespace Cbc

variable {Block : Type*} (mix : Block → Block → Block) (encrypt decrypt : Block → Block)

/-- Every block is masked with the encrypted one before it. -/
def encrypted : Block → List Block → List Block
  | _, [] => []
  | chain, plain :: rest => encrypt (mix chain plain) :: encrypted (encrypt (mix chain plain)) rest

def decrypted : Block → List Block → List Block
  | _, [] => []
  | chain, crypt :: rest => mix (decrypt crypt) chain :: decrypted crypt rest

/-- Decryption whose masks have been overwritten with what was decrypted. -/
def overwritten : Block → List Block → List Block
  | _, [] => []
  | chain, crypt :: rest => mix (decrypt crypt) chain :: overwritten (mix (decrypt crypt) chain) rest

/-- The value of a chain that is encrypted over blocks, which authenticates them. -/
def authenticated (chain : Block) (blocks : List Block) : Block :=
  blocks.foldl (fun chain block => encrypt (mix chain block)) chain

/-- Every block but the last is decrypted to itself. -/
def SelfDecrypted : Block → List Block → Prop
  | chain, crypt :: next :: rest => mix (decrypt crypt) chain = crypt ∧ SelfDecrypted crypt (next :: rest)
  | _, _ => True

/-- Every block but the last is encrypted to itself, and the last one as is allowed. -/
def SelfEncrypted (last : Block → Block → Prop) : Block → List Block → Prop
  | _, [] => True
  | chain, [plain] => last (encrypt (mix chain plain)) plain
  | chain, plain :: next :: rest => encrypt (mix chain plain) = plain ∧ SelfEncrypted last plain (next :: rest)

variable {mix encrypt decrypt}

theorem authenticated_append (chain : Block) (blocks more : List Block) :
    authenticated mix encrypt chain (blocks ++ more) =
      authenticated mix encrypt (authenticated mix encrypt chain blocks) more := List.foldl_append

theorem encrypted_append (chain : Block) (blocks : List Block) (last : Block) :
    encrypted mix encrypt chain (blocks ++ [last]) = encrypted mix encrypt chain blocks ++
      [encrypt (mix ((encrypted mix encrypt chain blocks).getLastD chain) last)] := by
  induction blocks generalizing chain with
  | nil => rfl
  | cons plain rest ih =>
    rw [List.cons_append, encrypted, ih, encrypted, List.cons_append, List.getLastD_cons]

theorem decrypted_encrypted (masking : Masking mix) (inverse : ∀ block, decrypt (encrypt block) = block)
    (chain : Block) (blocks : List Block) :
    decrypted mix decrypt chain (encrypted mix encrypt chain blocks) = blocks := by
  induction blocks generalizing chain with
  | nil => rfl
  | cons plain rest ih => rw [encrypted, decrypted, inverse, masking.undo_left, ih]

theorem overwritten_iff (masking : Masking mix) (chain : Block) (blocks : List Block) :
    overwritten mix decrypt chain blocks = decrypted mix decrypt chain blocks ↔
      SelfDecrypted mix decrypt chain blocks := by
  induction blocks generalizing chain with
  | nil => exact iff_of_true rfl trivial
  | cons crypt rest ih =>
    cases rest with
    | nil => exact iff_of_true rfl trivial
    | cons next rest =>
      rw [overwritten, decrypted, List.cons_inj_right, SelfDecrypted]
      constructor
      · intro same
        have heads := (List.cons.inj same).1
        have mask := masking.left_inj.mp heads
        rw [mask] at same
        exact ⟨mask, (ih crypt).mp same⟩
      · rintro ⟨mask, others⟩
        rw [mask]
        exact (ih crypt).mpr others

theorem overwritten_next (masking : Masking mix) (inverse : ∀ block, decrypt (encrypt block) = block)
    {mask chain plain : Block} : mix (decrypt (encrypt (mix chain plain))) mask = plain ↔ chain = mask := by
  rw [inverse]
  constructor
  · intro same
    rw [← masking.undo_left mask plain] at same
    exact masking.right_inj.mp (masking.right_inj.mp (same.trans (by rw [masking.undo_left, masking.undo_left])))
  · rintro rfl
    exact masking.undo_left chain plain

/-- What was encrypted is decrypted over overwritten masks exactly if they were the blocks
themselves. -/
theorem overwritten_encrypted_iff (masking : Masking mix) (inverse : ∀ block, decrypt (encrypt block) = block)
    (chain : Block) (blocks : List Block) :
    overwritten mix decrypt chain (encrypted mix encrypt chain blocks) = blocks ↔
      SelfEncrypted mix encrypt (fun _ _ => True) chain blocks := by
  induction blocks generalizing chain with
  | nil => exact iff_of_true rfl trivial
  | cons plain rest ih =>
    have first : mix (decrypt (encrypt (mix chain plain))) chain = plain := by rw [inverse, masking.undo_left]
    rw [encrypted, overwritten, first, List.cons_inj_right]
    cases rest with
    | nil => exact iff_of_true rfl trivial
    | cons next rest =>
      rw [SelfEncrypted]
      constructor
      · intro same
        have mask : encrypt (mix chain plain) = plain := by
          rw [encrypted, overwritten] at same
          exact (overwritten_next masking inverse).mp (List.cons.inj same).1
        rw [mask] at same
        exact ⟨mask, (ih plain).mp same⟩
      · rintro ⟨mask, others⟩
        rw [mask]
        exact (ih plain).mpr others

/-- The same with one more block, of which something must be right. -/
theorem overwritten_padded_iff (masking : Masking mix) (inverse : ∀ block, decrypt (encrypt block) = block)
    (right : Block → Prop) (chain : Block) (blocks : List Block) (padding : Block) (padded : right padding) :
    (∃ last, overwritten mix decrypt chain (encrypted mix encrypt chain (blocks ++ [padding])) = blocks ++ [last] ∧
      right last) ↔
      SelfEncrypted mix encrypt (fun crypt plain => right (mix (mix crypt padding) plain)) chain blocks := by
  induction blocks generalizing chain with
  | nil =>
    refine iff_of_true ⟨padding, ?_, padded⟩ trivial
    rw [List.nil_append, encrypted, overwritten, inverse, masking.undo_left]
    rfl
  | cons plain rest ih =>
    have first : mix (decrypt (encrypt (mix chain plain))) chain = plain := by rw [inverse, masking.undo_left]
    rw [List.cons_append, encrypted, overwritten, first]
    simp only [List.cons_append, List.cons_inj_right]
    cases rest with
    | nil =>
      rw [SelfEncrypted, List.nil_append, encrypted, overwritten, inverse]
      constructor
      · rintro ⟨last, same, fine⟩
        rw [List.nil_append] at same
        rw [(List.cons.inj same).1]
        exact fine
      · intro fine
        exact ⟨_, rfl, fine⟩
    | cons next rest =>
      rw [SelfEncrypted]
      constructor
      · rintro ⟨last, same, fine⟩
        have mask : encrypt (mix chain plain) = plain := by
          rw [List.cons_append, encrypted, overwritten] at same
          exact (overwritten_next masking inverse).mp (List.cons.inj same).1
        rw [mask] at same
        exact ⟨mask, (ih plain).mp ⟨last, same, fine⟩⟩
      · rintro ⟨mask, others⟩
        rw [mask]
        exact (ih plain).mpr others

end Cbc

end BcmDhd.Lib
