import SpriteBytecode.Disassembly
import SpriteBytecode.Proofs.Instruction.Codec

/-!
Word streams as spelled instructions. `Spells instructions words` says that the words are the
encodings of the instructions one after another. Decoding a stream finds exactly that
(`decodeStream_eq_ok_iff`), so a stream spells one list of instructions at most
(`Spells.instructions_unique`).
-/

set_option autoImplicit false
set_option relaxedAutoImplicit false

namespace SpriteBytecode

/-- The words are the encodings of the instructions in order. -/
inductive Spells : List RawInstruction → List UInt16 → Prop where
  | nil : Spells [] []
  | cons {i : RawInstruction} {front : List UInt16} {instructions : List RawInstruction}
      {words : List UInt16} (hlabel : i.isLabel = false) (hencode : i.encode = .ok front)
      (hrest : Spells instructions words) : Spells (i :: instructions) (front ++ words)

theorem Spells.isLabel_eq_false {instructions : List RawInstruction} {words : List UInt16}
    (h : Spells instructions words) : ∀ i ∈ instructions, i.isLabel = false := by
  induction h with
  | nil => simp
  | cons hlabel _ _ ih => exact List.forall_mem_cons.mpr ⟨hlabel, ih⟩

theorem spells_singleton {i : RawInstruction} {words : List UInt16} (hlabel : i.isLabel = false)
    (hencode : i.encode = .ok words) : Spells [i] words := by
  have h := Spells.cons hlabel hencode .nil
  rwa [List.append_nil] at h

theorem Spells.append {first second : List RawInstruction} {words more : List UInt16}
    (hfirst : Spells first words) (hsecond : Spells second more) :
    Spells (first ++ second) (words ++ more) := by
  induction hfirst with
  | nil => exact hsecond
  | cons hlabel hencode _ ih =>
    rw [List.append_assoc]
    exact .cons hlabel hencode ih

/-- Pieces that are spelled one by one are spelled one after another. -/
theorem Spells.flatMap {α : Type} {instructions : α → List RawInstruction}
    {words : α → List UInt16} (h : ∀ a, Spells (instructions a) (words a)) (pieces : List α) :
    Spells (pieces.flatMap instructions) (pieces.flatMap words) := by
  induction pieces with
  | nil => exact .nil
  | cons a rest ih =>
    rw [List.flatMap_cons, List.flatMap_cons]
    exact (h a).append ih

theorem decodeStream_nil (offset : Nat) : decodeStream offset [] = .ok [] := by
  rw [decodeStream]

theorem decodeStream_of_decode {words rest : List UInt16} {i : RawInstruction}
    (h : Instruction.decode words = .ok (i, rest)) (offset : Nat) :
    decodeStream offset words = (decodeStream (offset + i.wordLen) rest).map (i :: ·) := by
  cases words with
  | nil => simp [Instruction.decode] at h
  | cons word tail =>
    rw [decodeStream]
    split
    · next reason herror => simp [h] at herror
    · next i' rest' hok =>
      rw [h] at hok
      cases hok
      rfl

theorem decodeStream_of_error {words : List UInt16} {reason : MalformedReason}
    (h : Instruction.decode words = .error reason) (hwords : words ≠ []) (offset : Nat) :
    decodeStream offset words = .error (.malformedStream offset reason) := by
  cases words with
  | nil => exact absurd rfl hwords
  | cons word tail =>
    rw [decodeStream]
    split
    · next reason' herror =>
      rw [h] at herror
      cases herror
      rfl
    · next i rest hok => simp [h] at hok

theorem Spells.decodeStream_eq {instructions : List RawInstruction} {words : List UInt16}
    (h : Spells instructions words) (offset : Nat) :
    decodeStream offset words = .ok instructions := by
  induction h generalizing offset with
  | nil => exact decodeStream_nil offset
  | @cons i front instructions words hlabel hencode _ ih =>
    rw [decodeStream_of_decode (Instruction.decode_of_encode hencode hlabel words), ih]
    rfl

theorem spells_of_decodeStream {offset : Nat} {words : List UInt16}
    {instructions : List RawInstruction} (h : decodeStream offset words = .ok instructions) :
    Spells instructions words := by
  induction offset, words using decodeStream.induct generalizing instructions with
  | case1 offset =>
    rw [decodeStream_nil] at h
    cases h
    exact .nil
  | case2 offset word tail reason herror =>
    rw [decodeStream_of_error herror (List.cons_ne_nil word tail)] at h
    cases h
  | case3 offset word tail i rest hok ih =>
    rw [decodeStream_of_decode hok] at h
    obtain ⟨others, hothers, rfl⟩ := (map_eq_ok_iff _ _ _).mp h
    obtain ⟨front, hencode, hlabel, hwords⟩ := Instruction.exists_encode_of_decode hok
    rw [hwords]
    exact .cons hlabel hencode (ih hothers)

theorem decodeStream_eq_ok_iff (offset : Nat) (words : List UInt16)
    (instructions : List RawInstruction) :
    decodeStream offset words = .ok instructions ↔ Spells instructions words :=
  ⟨spells_of_decodeStream, fun h ↦ h.decodeStream_eq offset⟩

theorem Spells.instructions_unique {first second : List RawInstruction} {words : List UInt16}
    (hfirst : Spells first words) (hsecond : Spells second words) : first = second := by
  have h := hfirst.decodeStream_eq 0
  rw [hsecond.decodeStream_eq 0] at h
  exact (Except.ok.inj h).symm

end SpriteBytecode
