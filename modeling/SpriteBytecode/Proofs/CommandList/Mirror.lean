import SpriteBytecode.Proofs.CommandList.Place

/-!
A list and a copy of it that may drop and merge markers. The copy has the instructions of the list
in order, its jumps lead to the same words, and it has at most one marker at a word, and only where
the list has one (`Mirrors`). Indices of the two are aligned if the same word is in front of both
and the copy has a marker next only if the list has (`Aligned`). Aligned indices stay so past
markers and instructions and across jumps, and what comes next in the copy is what comes next in the
list, whenever that is no marker (`get?_of_aligned`).
-/

set_option autoImplicit false
set_option relaxedAutoImplicit false

namespace SpriteBytecode

/-- What `copy` keeps of `list`, with `f` for the handles. -/
structure Mirrors (list copy : CommandList) (f : LabelId → LabelId) : Prop where
  commands : withoutLabels copy.commands = (withoutLabels list.commands).map (·.mapTarget f)
  leads : ∀ command ∈ list.commands, ∀ id, command.jumpTarget? = some id →
    ∃ place copyPlace, list.findLabel? id = some place ∧ copy.findLabel? (f id) = some copyPlace ∧
      wordsBefore list.commands place = wordsBefore copy.commands copyPlace
  apart : ((markerOffsets 0 copy.commands).map Prod.snd).Nodup
  marked : ∀ id position, (id, position) ∈ markerOffsets 0 copy.commands →
    ∃ other, (other, position) ∈ markerOffsets 0 list.commands

/-- The same comes next at the two indices, but for markers that only the list has. -/
structure Aligned (list copy : CommandList) (index copyIndex : Nat) : Prop where
  words : wordsBefore list.commands index = wordsBefore copy.commands copyIndex
  marker : ∀ id, copy.get? copyIndex = some (.label id) →
    ∃ other, list.get? index = some (.label other)

theorem aligned_zero {list copy : CommandList} {f : LabelId → LabelId} (h : Mirrors list copy f) :
    Aligned list copy 0 0 where
  words := rfl
  marker := by
    intro id hcopy
    obtain ⟨other, hother⟩ := h.marked id 0
      ((mem_markerOffsets_iff_index _ _ _).mpr ⟨0, hcopy, rfl⟩)
    obtain ⟨index, hindex, hwords⟩ := (mem_markerOffsets_iff_index _ _ _).mp hother
    rcases hfirst : list.commands[0]? with - | command
    · have := List.getElem?_eq_none_iff.mp hfirst
      have := (List.getElem?_eq_some_iff.mp hindex).1
      omega
    · rcases hlabel : command.isLabel with - | -
      · have hlt := (lt_iff_wordsBefore_le hindex hfirst hlabel).mpr (Nat.le_of_eq hwords)
        exact absurd hlt (Nat.not_lt_zero _)
      · obtain ⟨other, rfl⟩ := eq_label_of_isLabel hlabel
        exact ⟨other, hfirst⟩

theorem Aligned.behind_label {list copy : CommandList} {index copyIndex : Nat} {id : LabelId}
    (haligned : Aligned list copy index copyIndex) (hget : list.get? index = some (.label id))
    (hcopy : ∀ other, copy.get? copyIndex ≠ some (.label other)) :
    Aligned list copy (index + 1) copyIndex where
  words := (wordsBefore_succ hget).trans haligned.words
  marker other hother := absurd hother (hcopy other)

/-- Where instructions are cut after the same number of words, the cut is at the same place. -/
theorem append_inj_of_streamLen {τ : Type} {front back front' back' : List (Instruction τ)}
    (hlabels : ∀ i ∈ front ++ back, i.isLabel = false)
    (h : front ++ back = front' ++ back') (hlen : streamLen front = streamLen front') :
    front = front' ∧ back = back' := by
  have hnil (more : List (Instruction τ)) (hmore : ∀ i ∈ more, i.isLabel = false)
      (hzero : streamLen more = 0) : more = [] := by
    rcases more with - | ⟨i, rest⟩
    · rfl
    · rw [streamLen_cons, Nat.add_eq_zero_iff, Instruction.wordLen_eq_zero_iff,
        hmore i List.mem_cons_self] at hzero
      exact absurd hzero.1 Bool.false_ne_true
  rcases List.append_eq_append_iff.mp h with ⟨more, rfl, rfl⟩ | ⟨more, rfl, rfl⟩
  · rw [streamLen_append] at hlen
    obtain rfl := hnil more (fun i hi ↦ hlabels i (by simp [hi])) (by omega)
    simp
  · rw [streamLen_append] at hlen
    obtain rfl := hnil more (fun i hi ↦ hlabels i (by simp [hi])) (by omega)
    simp

namespace Mirrors

variable {list copy : CommandList} {f : LabelId → LabelId} {index copyIndex : Nat}
  {command : Command} (h : Mirrors list copy f)

include h

/-- Aligned indices have the same instructions in front of them and behind them. -/
theorem withoutLabels_drop (haligned : Aligned list copy index copyIndex) :
    withoutLabels (copy.commands.drop copyIndex) =
      (withoutLabels (list.commands.drop index)).map (·.mapTarget f) := by
  have hcommands := h.commands
  rw [← List.take_append_drop copyIndex copy.commands,
    ← List.take_append_drop index list.commands, withoutLabels_append, withoutLabels_append,
    List.map_append] at hcommands
  refine (append_inj_of_streamLen ?_ hcommands ?_).2
  · rw [← withoutLabels_append, List.take_append_drop]
    intro i hi
    simpa using (List.mem_filter.mp hi).2
  · rw [streamLen_map, streamLen_withoutLabels, streamLen_withoutLabels]
    exact haligned.words.symm

theorem get?_of_aligned (haligned : Aligned list copy index copyIndex)
    (hlabel : ∀ id, list.get? index ≠ some (.label id)) :
    copy.get? copyIndex = (list.get? index).map (·.mapTarget f) := by
  have hdrop := h.withoutLabels_drop haligned
  have hhead (commands : List Command) (place : Nat)
      (hplace : ∀ id, commands[place]? ≠ some (.label id)) :
      commands[place]? = (withoutLabels (commands.drop place)).head? := by
    rcases hget : commands[place]? with - | command
    · rw [List.drop_eq_nil_of_le (List.getElem?_eq_none_iff.mp hget)]
      rfl
    · obtain ⟨hlt, rfl⟩ := List.getElem?_eq_some_iff.mp hget
      rcases hkind : commands[place].isLabel with - | -
      · rw [List.drop_eq_getElem_cons hlt, withoutLabels_cons_of_not_label _ hkind]
        rfl
      · obtain ⟨id, hid⟩ := eq_label_of_isLabel hkind
        exact absurd (hget.trans (congrArg some hid)) (hplace id)
  have hcopy : ∀ id, copy.get? copyIndex ≠ some (.label id) := by
    intro id hid
    obtain ⟨other, hother⟩ := haligned.marker id hid
    exact hlabel other hother
  rw [CommandList.get?, hhead _ _ hcopy, hdrop, List.head?_map, ← hhead _ _ hlabel]
  rfl

theorem get?_of_instruction (haligned : Aligned list copy index copyIndex)
    (hget : list.get? index = some command) (hlabel : command.isLabel = false) :
    copy.get? copyIndex = some (command.mapTarget f) := by
  rw [h.get?_of_aligned haligned, hget, Option.map_some]
  intro id hid
  exact ne_label_of_not_isLabel hlabel id (Option.some.inj (hget.symm.trans hid))

theorem aligned_behind_instruction (haligned : Aligned list copy index copyIndex)
    (hget : list.get? index = some command) (hlabel : command.isLabel = false) :
    Aligned list copy (index + 1) (copyIndex + 1) := by
  have hcopy := h.get?_of_instruction haligned hget hlabel
  have hwords : wordsBefore list.commands (index + 1) =
      wordsBefore copy.commands (copyIndex + 1) := by
    rw [wordsBefore_succ hget, wordsBefore_succ hcopy, haligned.words,
      Instruction.wordLen_mapTarget]
  refine ⟨hwords, fun id hid ↦ ?_⟩
  obtain ⟨other, hother⟩ := h.marked id _ ((mem_markerOffsets_iff_index _ _ _).mpr ⟨_, hid, rfl⟩)
  rw [← hwords] at hother
  exact label_behind_of_marker hget hlabel hother

/-- The copy never has two markers in a row. -/
theorem not_label_behind_label {first second : LabelId}
    (hfirst : copy.get? copyIndex = some (.label first)) :
    copy.get? (copyIndex + 1) ≠ some (.label second) := by
  intro hsecond
  obtain ⟨hlt, hfirst⟩ := List.getElem?_eq_some_iff.mp hfirst
  obtain ⟨hlt', hsecond⟩ := List.getElem?_eq_some_iff.mp hsecond
  have hapart := h.apart
  rw [← List.take_append_drop copyIndex copy.commands, List.drop_eq_getElem_cons hlt,
    List.drop_eq_getElem_cons hlt', hfirst, hsecond, markerOffsets_append,
    markerOffsets_label_cons, markerOffsets_label_cons, List.map_append,
    List.nodup_append] at hapart
  exact absurd hapart.2.1 (by simp)

theorem aligned_behind_labels {id other : LabelId} (haligned : Aligned list copy index copyIndex)
    (hget : list.get? index = some (.label id))
    (hcopy : copy.get? copyIndex = some (.label other)) :
    Aligned list copy (index + 1) (copyIndex + 1) where
  words := by
    rw [wordsBefore_succ hget, wordsBefore_succ hcopy, haligned.words]
    rfl
  marker next hnext := absurd hnext (h.not_label_behind_label hcopy)

/-- Jumps of aligned commands lead to aligned indices, and in the same direction. -/
theorem aligned_jump (haligned : Aligned list copy index copyIndex)
    (hget : list.get? index = some command) {id : LabelId}
    (htarget : command.jumpTarget? = some id) :
    ∃ place copyPlace, list.findLabel? id = some place ∧ copy.findLabel? (f id) = some copyPlace ∧
      Aligned list copy place copyPlace ∧ (copyPlace < copyIndex ↔ place < index) := by
  obtain ⟨place, copyPlace, hplace, hcopyPlace, hwords⟩ :=
    h.leads command (List.mem_of_getElem? hget) id htarget
  have hlabel := not_isLabel_of_jumpTarget? htarget
  have hcopy := h.get?_of_instruction haligned hget hlabel
  refine ⟨place, copyPlace, hplace, hcopyPlace, ⟨hwords, fun _ _ ↦ ⟨id, ?_⟩⟩, ?_⟩
  · exact get?_of_findLabel? hplace
  · rw [lt_iff_wordsBefore_le (get?_of_findLabel? hplace) hget hlabel,
      lt_iff_wordsBefore_le (get?_of_findLabel? hcopyPlace) hcopy (by simp [hlabel]), hwords,
      haligned.words]

end Mirrors

end SpriteBytecode
