import Mathlib.Data.List.Nodup
import SpriteBytecode.Proofs.CommandList.Marker

/-!
Indices of a command list against words. `wordsBefore` is the word at which the command at an index
begins, and it grows with the index by what each command takes up (`wordsBefore_succ`). Markers take
up nothing, so that many indices may share a word, but an instruction is behind exactly the markers
that do not lie behind it in the stream (`lt_iff_wordsBefore_le`).
-/

set_option autoImplicit false
set_option relaxedAutoImplicit false

namespace SpriteBytecode

/-- Words in front of the command at `index`. -/
def wordsBefore (commands : List Command) (index : Nat) : Nat := streamLen (commands.take index)

section WordsBefore

variable {commands : List Command} {index marker : Nat} {command : Command} {id : LabelId}

theorem wordsBefore_succ (h : commands[index]? = some command) :
    wordsBefore commands (index + 1) = wordsBefore commands index + command.wordLen := by
  obtain ⟨hlt, rfl⟩ := List.getElem?_eq_some_iff.mp h
  rw [wordsBefore, List.take_succ_eq_append_getElem hlt, streamLen_append, streamLen_cons,
    streamLen_nil, Nat.add_zero, wordsBefore]

theorem wordsBefore_le {first second : Nat} (commands : List Command) (h : first ≤ second) :
    wordsBefore commands first ≤ wordsBefore commands second := by
  obtain ⟨more, rfl⟩ := Nat.exists_eq_add_of_le h
  rw [wordsBefore, wordsBefore, List.take_add, streamLen_append]
  exact Nat.le_add_right _ _

theorem wordOffset?_of_le {list : CommandList} (h : index ≤ list.length) :
    list.wordOffset? index = some (wordsBefore list.commands index) := by
  rw [CommandList.wordOffset?, if_pos h, wordCount_eq_streamLen, wordsBefore]

theorem wordOffset?_of_get? {list : CommandList} (h : list.get? index = some command) :
    list.wordOffset? index = some (wordsBefore list.commands index) :=
  wordOffset?_of_le (Nat.le_of_lt (List.getElem?_eq_some_iff.mp h).1)

theorem wordLen_pos (h : command.isLabel = false) : 0 < command.wordLen := by
  have := mt (Instruction.wordLen_eq_zero_iff command).mp (by simp [h])
  omega

theorem standsAt_iff_index (commands : List Command) (command : Command) (position : Nat) :
    StandsAt commands command position ↔
      ∃ index, commands[index]? = some command ∧ wordsBefore commands index = position := by
  constructor
  · rintro ⟨front, back, rfl, rfl⟩
    refine ⟨front.length, ?_, ?_⟩
    · rw [List.getElem?_append_right (Nat.le_refl _), Nat.sub_self]
      rfl
    · rw [wordsBefore, List.take_left]
  · rintro ⟨index, hget, rfl⟩
    obtain ⟨hlt, hget⟩ := List.getElem?_eq_some_iff.mp hget
    refine ⟨commands.take index, commands.drop (index + 1), ?_, rfl⟩
    rw [← hget, List.getElem_cons_drop, List.take_append_drop]

theorem mem_markerOffsets_iff_index (commands : List Command) (id : LabelId) (position : Nat) :
    (id, position) ∈ markerOffsets 0 commands ↔
      ∃ index, commands[index]? = some (.label id) ∧ wordsBefore commands index = position := by
  rw [← standsAt_label_iff, standsAt_iff_index]

/-- An instruction stands behind the markers whose words are not behind its own. -/
theorem lt_iff_wordsBefore_le (hmarker : commands[marker]? = some (.label id))
    (hcommand : commands[index]? = some command) (hlabel : command.isLabel = false) :
    marker < index ↔ wordsBefore commands marker ≤ wordsBefore commands index := by
  constructor
  · intro hlt
    exact wordsBefore_le commands (Nat.le_of_lt hlt)
  · intro hle
    by_contra hnot
    rcases Nat.eq_or_lt_of_le (Nat.le_of_not_lt hnot) with rfl | hlt
    · exact ne_label_of_not_isLabel hlabel id (Option.some.inj (hcommand.symm.trans hmarker))
    · have hpast := wordsBefore_le commands (Nat.succ_le_of_lt hlt)
      rw [Nat.succ_eq_add_one, wordsBefore_succ hcommand] at hpast
      have := wordLen_pos hlabel
      omega

/-- Markers at the word where an instruction ends stand directly behind it. -/
theorem label_behind_of_marker (hcommand : commands[index]? = some command)
    (hlabel : command.isLabel = false)
    (hmarker : (id, wordsBefore commands (index + 1)) ∈ markerOffsets 0 commands) :
    ∃ other, commands[index + 1]? = some (.label other) := by
  obtain ⟨place, hplace, hwords⟩ := (mem_markerOffsets_iff_index _ _ _).mp hmarker
  have hbehind : index + 1 ≤ place := by
    by_contra hnot
    have hle := (lt_iff_wordsBefore_le hplace hcommand hlabel).not
    rw [hwords, wordsBefore_succ hcommand] at hle
    have := wordLen_pos hlabel
    have hfront : ¬ place < index := hle.mpr (by omega)
    obtain rfl : place = index := by omega
    exact ne_label_of_not_isLabel hlabel id (Option.some.inj (hcommand.symm.trans hplace))
  rcases hnext : commands[index + 1]? with - | next
  · have hlength := List.getElem?_eq_none_iff.mp hnext
    have := (List.getElem?_eq_some_iff.mp hplace).1
    omega
  · rcases hkind : next.isLabel with - | -
    · have hlt := (lt_iff_wordsBefore_le hplace hnext hkind).mpr (Nat.le_of_eq hwords)
      omega
    · obtain ⟨other, rfl⟩ := eq_label_of_isLabel hkind
      exact ⟨other, rfl⟩

end WordsBefore

/-! ### Commands that stand in one place -/

section Unique

variable {list : CommandList} {chosen : Command → Bool} {first second : Nat}
  {command other : Command}

theorem one_lt_countP (hlt : first < second) (hfirst : list.get? first = some command)
    (hcommand : chosen command = true) (hsecond : list.get? second = some other)
    (hother : chosen other = true) : 1 < list.commands.countP chosen := by
  have hfront : 0 < (list.commands.take second).countP chosen := by
    refine List.countP_pos_iff.mpr ⟨command, List.mem_of_getElem? (i := first) ?_, hcommand⟩
    rw [List.getElem?_take_of_lt hlt]
    exact hfirst
  have hback : 0 < (list.commands.drop second).countP chosen := by
    refine List.countP_pos_iff.mpr ⟨other, List.mem_of_getElem? (i := 0) ?_, hother⟩
    rw [List.getElem?_drop]
    exact hsecond
  rw [← List.take_append_drop second list.commands, List.countP_append]
  omega

/-- Where at most one command is of a kind, two of the kind are in the same place. -/
theorem get?_unique_of_countP (h : list.commands.countP chosen ≤ 1)
    (hfirst : list.get? first = some command) (hcommand : chosen command = true)
    (hsecond : list.get? second = some other) (hother : chosen other = true) :
    first = second := by
  rcases Nat.lt_trichotomy first second with hlt | heq | hgt
  · exact absurd (one_lt_countP hlt hfirst hcommand hsecond hother) (Nat.not_lt_of_le h)
  · exact heq
  · exact absurd (one_lt_countP hgt hsecond hother hfirst hcommand) (Nat.not_lt_of_le h)

end Unique

/-! ### Placed labels -/

theorem get?_of_findLabel? {list : CommandList} {id : LabelId} {place : Nat}
    (h : list.findLabel? id = some place) : list.get? place = some (.label id) := by
  obtain ⟨hlt, hlabel, -⟩ := List.findIdx?_eq_some_iff_getElem.mp h
  rw [CommandList.get?, List.getElem?_eq_getElem hlt, eq_of_beq hlabel]

theorem mem_markerOffsets_of_findLabel? {list : CommandList} {id : LabelId} {place : Nat}
    (h : list.findLabel? id = some place) :
    (id, wordsBefore list.commands place) ∈ markerOffsets 0 list.commands :=
  (mem_markerOffsets_iff_index _ _ _).mpr ⟨place, get?_of_findLabel? h, rfl⟩

theorem exists_findLabel?_of_mem {list : CommandList} {id : LabelId} {position : Nat}
    (h : (id, position) ∈ markerOffsets 0 list.commands) :
    ∃ place, list.findLabel? id = some place := by
  obtain ⟨index, hget, -⟩ := (mem_markerOffsets_iff_index _ _ _).mp h
  rw [← Option.isSome_iff_exists, CommandList.findLabel?, List.findIdx?_isSome, List.any_eq_true]
  exact ⟨_, List.mem_of_getElem? hget, beq_self_eq_true _⟩

/-- A label that stands once is found where it stands. -/
theorem findLabel?_of_count {list : CommandList} {id : LabelId} {place : Nat}
    (honce : list.commands.count (.label id) = 1) (h : list.get? place = some (.label id)) :
    list.findLabel? id = some place := by
  obtain ⟨other, hother⟩ := exists_findLabel?_of_mem
    ((mem_markerOffsets_iff_index list.commands id _).mpr ⟨place, h, rfl⟩)
  have hsame := get?_unique_of_countP (Nat.le_of_eq honce) (get?_of_findLabel? hother)
    (beq_self_eq_true _) h (beq_self_eq_true _)
  rw [hother, hsame]

theorem count_labels (list : CommandList) (id : LabelId) :
    list.labels.count id = list.commands.count (.label id) := by
  rw [CommandList.labels, List.count_filterMap, List.count_eq_countP]
  apply List.countP_congr
  intro command _
  rw [beq_iff_eq, beq_iff_eq]
  exact CommandList.labelOf?_eq_some_iff command id

/-- Where no label stands twice, each is found where it stands. -/
theorem findLabel?_of_nodup {list : CommandList} (hnodup : list.labels.Nodup) {id : LabelId}
    {place : Nat} (h : list.get? place = some (.label id)) : list.findLabel? id = some place := by
  have hmem : id ∈ list.labels := List.mem_filterMap.mpr ⟨_, List.mem_of_getElem? h, rfl⟩
  refine findLabel?_of_count ?_ h
  rw [← count_labels, List.count_eq_one_of_mem hnodup hmem]

theorem markerOffsets_append (offset : Nat) (front back : List Command) :
    markerOffsets offset (front ++ back) =
      markerOffsets offset front ++ markerOffsets (offset + streamLen front) back := by
  induction front generalizing offset with
  | nil => rfl
  | cons command rest ih =>
    rw [List.cons_append, streamLen_cons]
    rcases hlabel : command.isLabel with - | -
    · rw [markerOffsets_cons_of_not_label _ _ hlabel, markerOffsets_cons_of_not_label _ _ hlabel,
        ih, Nat.add_assoc]
    · obtain ⟨id, rfl⟩ := eq_label_of_isLabel hlabel
      rw [markerOffsets_label_cons, markerOffsets_label_cons, ih, List.cons_append,
        (Instruction.wordLen_eq_zero_iff _).mpr hlabel, Nat.zero_add]

theorem map_fst_markerOffsets (offset : Nat) (commands : List Command) :
    (markerOffsets offset commands).map Prod.fst =
      commands.filterMap CommandList.labelOf? := by
  induction commands generalizing offset with
  | nil => rfl
  | cons command rest ih =>
    rcases hlabel : command.isLabel with - | -
    · have hnone : CommandList.labelOf? command = none := by
        rw [Option.eq_none_iff_forall_ne_some]
        intro id hid
        exact ne_label_of_not_isLabel hlabel id ((CommandList.labelOf?_eq_some_iff _ _).mp hid)
      rw [markerOffsets_cons_of_not_label _ _ hlabel, List.filterMap_cons_none hnone, ih]
    · obtain ⟨id, rfl⟩ := eq_label_of_isLabel hlabel
      rw [markerOffsets_label_cons, List.map_cons, ih]
      rfl

/-- A label that is placed once has one offset. -/
theorem offset_unique_of_count {list : CommandList} {id : LabelId} {first second : Nat}
    (hcount : list.labels.count id = 1) (hfirst : (id, first) ∈ markerOffsets 0 list.commands)
    (hsecond : (id, second) ∈ markerOffsets 0 list.commands) : first = second := by
  have hlength : ((markerOffsets 0 list.commands).filter (·.1 == id)).length = 1 := by
    rw [← List.countP_eq_length_filter, ← hcount, CommandList.labels,
      ← map_fst_markerOffsets 0, List.count_eq_countP, List.countP_map]
    rfl
  obtain ⟨marker, hmarker⟩ := List.length_eq_one_iff.mp hlength
  have honly (position : Nat) (h : (id, position) ∈ markerOffsets 0 list.commands) :
      (id, position) = marker := by
    rw [← List.mem_singleton, ← hmarker, List.mem_filter]
    exact ⟨h, beq_self_eq_true id⟩
  exact (Prod.mk.inj ((honly first hfirst).trans (honly second hsecond).symm)).2

end SpriteBytecode
