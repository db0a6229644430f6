import SpriteBytecode.Proofs.Assembly.Destination

/-!
The words of a list, command by command. Every command has a slice of the words, from its own offset
to that of the next index, and the slice is what the command is written as
(`CommandList.writes_slice`). The slices in order are all of the words
(`CommandList.flatMap_slice`), so that the offset of the list's end counts them
(`assembled_in_slices`).
-/

set_option autoImplicit false
set_option relaxedAutoImplicit false

namespace SpriteBytecode

namespace CommandList

/-- The words from the offset of an index to that of the next one. -/
def slice (list : CommandList) (words : List UInt16) (index : Nat) : List UInt16 :=
  match list.wordOffset? index, list.wordOffset? (index + 1) with
  | some first, some next => (words.take next).drop first
  | _, _ => []

/-- The command is written as these words. An instruction is encoded with the position of its label
for the label; a marker is not written at all. -/
inductive Writes (list : CommandList) : Command → List UInt16 → Prop where
  | marker (id : LabelId) : Writes list (.label id) []
  | instruction {command : Command} {raw : RawInstruction} {words : List UInt16}
      (hlabel : command.isLabel = false) (hraw : command.mapTargetM list.jumpWord = .ok raw)
      (hencode : raw.encode = .ok words) : Writes list command words

variable {list : CommandList} {assembled : Assembled}

theorem slice_of_lt {index : Nat} (h : index < list.length) (words : List UInt16) :
    list.slice words index =
      (words.take (wordsBefore list.commands (index + 1))).drop
        (wordsBefore list.commands index) := by
  rw [slice, wordOffset?_of_le (Nat.le_of_lt h), wordOffset?_of_le h]

/-- Slices in order are the words up to the offset behind the last of them. -/
theorem flatMap_slice {count : Nat} (h : count ≤ list.length) (words : List UInt16) :
    (List.range count).flatMap (list.slice words) =
      words.take (wordsBefore list.commands count) := by
  induction count with
  | zero => rfl
  | succ count ih =>
    have htake : words.take (wordsBefore list.commands count) =
        (words.take (wordsBefore list.commands (count + 1))).take
          (wordsBefore list.commands count) := by
      rw [List.take_take, Nat.min_eq_left (wordsBefore_le list.commands (Nat.le_succ count))]
    rw [List.range_succ, List.flatMap_append, List.flatMap_singleton, ih (Nat.le_of_lt h),
      slice_of_lt h, htake, List.take_append_drop]

theorem length_of_assemble (h : assemble list = .ok assembled) :
    assembled.words.length = list.wordLen := by
  obtain ⟨⟨raws, hraws, hspells⟩, -⟩ := (assemble_eq_ok_iff _ _).mp h
  rw [← hspells.streamLen_eq, streamLen_of_forall₂_mapTargetM hraws, streamLen_withoutLabels,
    wordLen, wordCount_eq_streamLen]

/-- What stands in the slice of an index is what its command is written as. -/
theorem writes_slice (h : assemble list = .ok assembled) {index : Nat} {command : Command}
    (hget : list.get? index = some command) :
    list.Writes command (list.slice assembled.words index) := by
  rw [slice_of_lt (List.getElem?_eq_some_iff.mp hget).1, wordsBefore_succ hget]
  rcases hlabel : command.isLabel with - | -
  · obtain ⟨raw, front, words, back, hraw, hencode, hwords, hfront⟩ :=
      exists_slice_of_assemble h hget hlabel
    have hlength : command.wordLen = words.length := by
      rw [Instruction.length_of_encode hencode, Instruction.wordLen_of_mapTargetM hraw]
    rw [hwords, ← hfront, hlength, ← List.append_assoc, ← List.length_append, List.take_left,
      List.drop_left]
    exact .instruction hlabel hraw hencode
  · obtain ⟨id, rfl⟩ := eq_label_of_isLabel hlabel
    rw [(Instruction.wordLen_eq_zero_iff _).mpr hlabel, Nat.add_zero,
      List.drop_eq_nil_of_le (List.length_take_le _ _)]
    exact .marker id

end CommandList

/-- An assembled list is written command by command. The words from the offset of an index to that
of the next one are its command's, one slice behind the other until the list and its words end. -/
theorem assembled_in_slices {list : CommandList} {assembled : Assembled}
    (h : assemble list = .ok assembled) :
    (∀ index command, list.get? index = some command →
      list.Writes command (list.slice assembled.words index)) ∧
    assembled.words = (List.range list.length).flatMap (list.slice assembled.words) ∧
    assembled.words.length = list.wordLen ∧
    list.wordOffset? list.length = some assembled.words.length := by
  have hlength := CommandList.length_of_assemble h
  have hend : list.wordOffset? list.length = some assembled.words.length := by
    rw [hlength, CommandList.wordOffset?_length]
  refine ⟨fun index command ↦ CommandList.writes_slice h, ?_, hlength, hend⟩
  rw [wordOffset?_of_le (Nat.le_refl _), Option.some.injEq] at hend
  rw [CommandList.flatMap_slice (Nat.le_refl _), hend, List.take_length]

/-- A loop behind the marker that it leads to. -/
def turningLoop : CommandList :=
  ⟨[.setRotation (-1) 5 6, .label ⟨0⟩, .loop ⟨0⟩ 2, .wait 3], ["A"]⟩

theorem assembled_in_slices_loop : turningLoop.Writes (.loop ⟨0⟩ 2) [0x7003, 0x0002] := by
  have hassembled : assemble turningLoop =
      .ok ⟨[0x4FFF, 0x0005, 0x0006, 0x7003, 0x0002, 0x0003], ⟨[(0, "Start"), (3, "A")]⟩⟩ := by
    decide +kernel
  exact (assembled_in_slices hassembled).1 2 _ rfl

end SpriteBytecode
