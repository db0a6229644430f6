import Mathlib.Data.List.Perm.Basic
import SpriteBytecode.Assembly
import SpriteBytecode.CommandList.LabelTable
import SpriteBytecode.Proofs.Stream.Boundary

/-!
Markers of a command list and their word offsets. A command begins at a word if an instruction does
or a marker stands there (`beginsAt_iff_instruction_or_marker`). Putting a marker in leaves the
instructions alone (`withoutLabels_insertMarker`) and adds that one marker, at the landing of its
position (`markerOffsets_insertMarker_perm`).
-/

set_option autoImplicit false
set_option relaxedAutoImplicit false

namespace SpriteBytecode

open CommandList

@[simp] theorem markerOffsets_label_cons (offset : Nat) (id : LabelId) (rest : List Command) :
    markerOffsets offset (.label id :: rest) = (id, offset) :: markerOffsets offset rest := rfl

theorem markerOffsets_cons_of_not_label (offset : Nat) {command : Command} (rest : List Command)
    (h : command.isLabel = false) :
    markerOffsets offset (command :: rest) = markerOffsets (offset + command.wordLen) rest := by
  cases command with
  | label id => simp [Instruction.isLabel] at h
  | _ => rfl

theorem eq_label_of_isLabel {command : Command} (h : command.isLabel = true) :
    ∃ id, command = .label id := by
  cases command with
  | label id => exact ⟨id, rfl⟩
  | _ => simp [Instruction.isLabel] at h

theorem ne_label_of_not_isLabel {command : Command} (h : command.isLabel = false) (id : LabelId) :
    command ≠ .label id := by
  rintro rfl
  simp [Instruction.isLabel] at h

theorem not_isLabel_of_jumpTarget? {command : Command} {id : LabelId}
    (h : command.jumpTarget? = some id) : command.isLabel = false := by
  cases command with
  | label other => exact absurd h (by simp [Instruction.jumpTarget?])
  | _ => rfl

/-- A marker stands where the commands in front of it end. -/
theorem mem_markerOffsets_iff (offset : Nat) (commands : List Command) (id : LabelId)
    (position : Nat) :
    (id, position) ∈ markerOffsets offset commands ↔
      ∃ front back, commands = front ++ .label id :: back ∧
        offset + streamLen front = position := by
  induction commands generalizing offset with
  | nil => simp [markerOffsets]
  | cons command rest ih =>
    have hcons : (∃ front back, command :: rest = front ++ .label id :: back ∧
          offset + streamLen front = position) ↔
        command = .label id ∧ offset = position ∨
          ∃ front back, rest = front ++ .label id :: back ∧
            offset + command.wordLen + streamLen front = position := by
      constructor
      · rintro ⟨front, back, h, hlen⟩
        cases front with
        | nil =>
          obtain ⟨rfl, -⟩ := List.cons_eq_cons.mp h
          exact Or.inl ⟨rfl, hlen⟩
        | cons first others =>
          obtain ⟨rfl, hrest⟩ := List.cons_eq_cons.mp h
          rw [streamLen_cons, ← Nat.add_assoc] at hlen
          exact Or.inr ⟨others, back, hrest, hlen⟩
      · rintro (⟨rfl, hoffset⟩ | ⟨front, back, rfl, hlen⟩)
        · exact ⟨[], rest, rfl, hoffset⟩
        · refine ⟨command :: front, back, rfl, ?_⟩
          rw [streamLen_cons, ← Nat.add_assoc, hlen]
    rw [hcons]
    cases hlabel : command.isLabel
    · have hne := ne_label_of_not_isLabel hlabel id
      simp only [markerOffsets_cons_of_not_label offset rest hlabel, ih, hne, false_and, false_or]
    · obtain ⟨other, rfl⟩ := eq_label_of_isLabel hlabel
      have hzero : (Instruction.label other).wordLen = 0 := rfl
      simp only [markerOffsets_label_cons, List.mem_cons, Prod.mk.injEq, ih,
        Instruction.label.injEq, hzero, Nat.add_zero, eq_comm]

/-! ### Placing a marker -/

theorem startsAt_eq_true_iff (position : Nat) (commands : List Command) :
    startsAt position commands = true ↔ BeginsAt commands position := by
  induction commands generalizing position with
  | nil => simp [startsAt, not_beginsAt_nil]
  | cons command rest ih => simp [startsAt, beginsAt_cons_iff, ih]

theorem withoutLabels_insertMarker (id : LabelId) (position : Nat) (commands : List Command) :
    withoutLabels (insertMarker (.label id) position commands) = withoutLabels commands := by
  induction commands generalizing position with
  | nil => rfl
  | cons command rest ih =>
    unfold withoutLabels at ih ⊢
    rw [insertMarker]
    split
    · rfl
    · rw [List.filter_cons, List.filter_cons, ih]

theorem insertMarker_zero (marker : Command) (commands : List Command) :
    insertMarker marker 0 commands = marker :: commands := by
  cases commands <;> rfl

/-- A position behind the front is one among the rest. -/
theorem insertMarker_append (marker : Command) {position : Nat} (hposition : 0 < position)
    (front rest : List Command) :
    insertMarker marker (streamLen front + position) (front ++ rest) =
      front ++ insertMarker marker position rest := by
  induction front with
  | nil => rw [streamLen_nil, Nat.zero_add, List.nil_append, List.nil_append]
  | cons command front ih =>
    have hbehind : command.wordLen + streamLen front + position - command.wordLen =
        streamLen front + position := by omega
    rw [List.cons_append, streamLen_cons, insertMarker, if_neg (by omega), hbehind, ih,
      List.cons_append]

/-- The marker lands at the first boundary at its position or behind it. -/
theorem markerOffsets_insertMarker_perm (offset : Nat) (id : LabelId) (position : Nat)
    (commands : List Command) :
    (markerOffsets offset (insertMarker (.label id) position commands)).Perm
      ((id, offset + landing position commands) :: markerOffsets offset commands) := by
  induction commands generalizing offset position with
  | nil => exact List.Perm.refl _
  | cons command rest ih =>
    rw [insertMarker, landing]
    split
    · exact List.Perm.refl _
    · cases hlabel : command.isLabel
      · rw [markerOffsets_cons_of_not_label _ _ hlabel, markerOffsets_cons_of_not_label _ _ hlabel,
          ← Nat.add_assoc]
        exact ih _ _
      · obtain ⟨other, rfl⟩ := eq_label_of_isLabel hlabel
        have hzero : (Instruction.label other).wordLen = 0 := rfl
        rw [markerOffsets_label_cons, markerOffsets_label_cons, hzero, Nat.zero_add]
        exact (List.Perm.cons _ (ih offset _)).trans (List.Perm.swap _ _ _)

/-! ### Beginnings of commands -/

theorem withoutLabels_append (front back : List Command) :
    withoutLabels (front ++ back) = withoutLabels front ++ withoutLabels back :=
  List.filter_append front back

theorem withoutLabels_cons_of_not_label {command : Command} (rest : List Command)
    (h : command.isLabel = false) :
    withoutLabels (command :: rest) = command :: withoutLabels rest :=
  List.filter_cons_of_pos (by simp [h])

/-- Instructions begin where they do without the markers. -/
theorem standsAt_withoutLabels_iff (commands : List Command) (command : Command)
    (position : Nat) :
    StandsAt (withoutLabels commands) command position ↔
      command.isLabel = false ∧ StandsAt commands command position := by
  constructor
  · rintro ⟨front, back, hsplit, rfl⟩
    obtain ⟨before, after, rfl, rfl, hafter⟩ := List.filter_eq_append_iff.mp hsplit
    obtain ⟨labels, rest, rfl, hlabels, hcommand, -⟩ := List.filter_eq_cons_iff.mp hafter
    have hzero : streamLen labels = 0 := by
      rw [← streamLen_withoutLabels labels, withoutLabels, List.filter_eq_nil_iff.mpr hlabels]
      rfl
    refine ⟨by simpa using hcommand, before ++ labels, rest, by simp, ?_⟩
    rw [streamLen_append, hzero, Nat.add_zero]
    exact (streamLen_withoutLabels before).symm
  · rintro ⟨hlabel, front, back, rfl, rfl⟩
    refine ⟨withoutLabels front, withoutLabels back, ?_, streamLen_withoutLabels front⟩
    rw [withoutLabels_append, withoutLabels_cons_of_not_label back hlabel]

theorem standsAt_label_iff (commands : List Command) (id : LabelId) (position : Nat) :
    StandsAt commands (.label id) position ↔ (id, position) ∈ markerOffsets 0 commands := by
  simp only [StandsAt, mem_markerOffsets_iff, Nat.zero_add]

theorem beginsAt_iff_instruction_or_marker (commands : List Command) (position : Nat) :
    BeginsAt commands position ↔
      BeginsAt (withoutLabels commands) position ∨
        ∃ id, (id, position) ∈ markerOffsets 0 commands := by
  simp only [beginsAt_iff_exists_standsAt, standsAt_withoutLabels_iff, ← standsAt_label_iff]
  constructor
  · rintro ⟨command, hstands⟩
    cases hlabel : command.isLabel
    · exact Or.inl ⟨command, hlabel, hstands⟩
    · obtain ⟨id, rfl⟩ := eq_label_of_isLabel hlabel
      exact Or.inr ⟨id, hstands⟩
  · rintro (⟨command, -, hstands⟩ | ⟨id, hstands⟩)
    · exact ⟨command, hstands⟩
    · exact ⟨.label id, hstands⟩

/-! ### Looking markers up -/

theorem mem_of_lastOffset? {markers : List (LabelId × Nat)} {id : LabelId} {offset : Nat}
    (h : lastOffset? markers id = some offset) : (id, offset) ∈ markers := by
  obtain ⟨marker, hmarker, rfl⟩ := Option.map_eq_some_iff.mp h
  obtain rfl : marker.1 = id := eq_of_beq (List.find?_some hmarker :)
  exact List.mem_reverse.mp (List.mem_of_find?_eq_some hmarker)

theorem exists_lastOffset?_of_mem {markers : List (LabelId × Nat)} {id : LabelId} {offset : Nat}
    (h : (id, offset) ∈ markers) : ∃ last, lastOffset? markers id = some last := by
  have hfound : (markers.reverse.find? (·.1 == id)).isSome := by
    rw [List.find?_isSome]
    exact ⟨(id, offset), List.mem_reverse.mpr h, beq_self_eq_true id⟩
  obtain ⟨marker, hmarker⟩ := Option.isSome_iff_exists.mp hfound
  exact ⟨marker.2, by rw [lastOffset?, hmarker, Option.map_some]⟩

/-- With one offset for all markers of a label, it does not matter which of them is the last. -/
theorem lastOffset?_eq_some {markers : List (LabelId × Nat)} {id : LabelId} {offset : Nat}
    (h : (id, offset) ∈ markers) (hunique : ∀ other, (id, other) ∈ markers → other = offset) :
    lastOffset? markers id = some offset := by
  obtain ⟨last, hlast⟩ := exists_lastOffset?_of_mem h
  rw [hlast, hunique last (mem_of_lastOffset? hlast)]

end SpriteBytecode
