import Mathlib.Data.List.Induction
import SpriteBytecode.CommandList.Edit
import SpriteBytecode.Proofs.Assembly.Hints
import SpriteBytecode.Proofs.Disassembly.RoundTrip

/-!
Names across saving and reloading. A disassembled list stays reloadable while its free labels are
renamed (`Reloadable.renameAll`): its markers are those of its stream, a label that keeps its name
has a free one, and every other label has the escape of its target. A reloadable list assembles to
its stream, and the stream with the hints of the assembly disassembles to the same list
(`Reloadable.reload`). Renaming changes no command, and leaves each label with the name that it was
given last (`labelName?_renameAll`).
-/

set_option autoImplicit false
set_option relaxedAutoImplicit false

namespace SpriteBytecode

namespace CommandList

/-- Labels renamed one after another. -/
def renameAll (list : CommandList) (renames : List (LabelId × String)) : CommandList :=
  renames.foldl (fun list (id, name) ↦ (list.renameLabel id name).list) list

/-- Each rename is of a label with a free name, and gives it a free name that is not empty. -/
def RenamesFreely : CommandList → List (LabelId × String) → Prop
  | _, [] => True
  | list, (id, name) :: rest =>
    (∀ given, list.labelName? id = some given → LabelName.unescape? given = none) ∧
      name ≠ "" ∧ LabelName.unescape? name = none ∧
        RenamesFreely (list.renameLabel id name).list rest

theorem renameAll_concat (list : CommandList) (renames : List (LabelId × String)) (id : LabelId)
    (name : String) :
    list.renameAll (renames ++ [(id, name)]) =
      ((list.renameAll renames).renameLabel id name).list :=
  List.foldl_concat ..

theorem commands_renameAll (list : CommandList) (renames : List (LabelId × String)) :
    (list.renameAll renames).commands = list.commands := by
  induction renames using List.reverseRecOn with
  | nil => rfl
  | append_singleton renames rename ih =>
    rw [renameAll_concat, commands_renameLabel, ih]

/-- A label bears the name that it was given last. -/
theorem labelName?_renameAll (list : CommandList) (renames : List (LabelId × String))
    (id : LabelId) :
    (list.renameAll renames).labelName? id =
      (list.labelName? id).map fun given ↦ (renames.reverse.lookup id).getD given := by
  induction renames using List.reverseRecOn with
  | nil => exact Option.map_id'.symm
  | append_singleton renames rename ih =>
    obtain ⟨other, name⟩ := rename
    rw [renameAll_concat, labelName?_renameLabel, List.reverse_concat, List.lookup_cons]
    by_cases hid : id = other
    · subst hid
      rw [if_pos rfl, ih, beq_self_eq_true, Option.map_map]
      rfl
    · rw [if_neg hid, ih, beq_false_of_ne hid]

end CommandList

/-- A list that its own stream and hints give back. -/
structure Reloadable (instructions : List RawInstruction) (list : CommandList) : Prop where
  commands : list.commands = (Disassembly.ofInstructions .empty instructions).list.commands
  length_labelNames : list.labelNames.length = (jumpTargets instructions).length
  named : ∀ target ∈ jumpTargets instructions, KeepsName instructions target →
    ∃ name, list.labelName? (labelOf instructions target) = some name ∧ name ≠ "" ∧
      LabelName.unescape? name = none
  escaped : ∀ target ∈ jumpTargets instructions, ¬ KeepsName instructions target →
    list.labelName? (labelOf instructions target) = some (LabelName.escape target)

/-- A disassembled list is reloadable if no hint pins a position. -/
theorem reloadable_ofInstructions {instructions : List RawInstruction} {hints : LabelHints}
    (hlabels : ∀ i ∈ instructions, i.isLabel = false)
    (hfree : ∀ position name, hints.get? position = some name →
      LabelName.unescape? name = none) :
    Reloadable instructions (Disassembly.ofInstructions hints instructions).list where
  commands := by rw [commands_ofInstructions, commands_ofInstructions]
  length_labelNames := by rw [labelNames_ofInstructions hlabels, List.length_map]
  named := by
    intro target htarget hkeeps
    refine ⟨LabelName.ofPosition hints target, ?_, LabelName.ofPosition_ne_empty hints target, ?_⟩
    · rw [labelName?_ofInstructions hlabels hints htarget, targetName, if_pos hkeeps]
    · rw [LabelName.unescape?_ofPosition, Option.bind_eq_none_iff]
      exact hfree target
  escaped := by
    intro target htarget hkeeps
    rw [labelName?_ofInstructions hlabels hints htarget, targetName, if_neg hkeeps]

namespace Reloadable

variable {instructions : List RawInstruction} {words : List UInt16} {list : CommandList}

theorem renameLabel (h : Reloadable instructions list) {id : LabelId} {name : String}
    (hgiven : ∀ given, list.labelName? id = some given → LabelName.unescape? given = none)
    (hname : name ≠ "") (hfree : LabelName.unescape? name = none) :
    Reloadable instructions (list.renameLabel id name).list where
  commands := (list.commands_renameLabel id name).trans h.commands
  length_labelNames := (list.length_labelNames_renameLabel id name).trans h.length_labelNames
  named := by
    intro target htarget hkeeps
    obtain ⟨given, hlabel, hkept⟩ := h.named target htarget hkeeps
    rw [CommandList.labelName?_renameLabel]
    by_cases hid : labelOf instructions target = id
    · subst hid
      rw [if_pos rfl, hlabel]
      exact ⟨name, rfl, hname, hfree⟩
    · rw [if_neg hid]
      exact ⟨given, hlabel, hkept⟩
  escaped := by
    intro target htarget hkeeps
    have hescape := h.escaped target htarget hkeeps
    rw [CommandList.labelName?_renameLabel, if_neg]
    · exact hescape
    · rintro rfl
      have hpin := hgiven _ hescape
      rw [LabelName.unescape?_escape] at hpin
      exact absurd hpin (by simp)

theorem renameAll (renames : List (LabelId × String)) :
    ∀ {list : CommandList}, Reloadable instructions list → list.RenamesFreely renames →
      Reloadable instructions (list.renameAll renames) := by
  induction renames with
  | nil => intro list h _; exact h
  | cons rename rest ih =>
    rintro list h ⟨hgiven, hname, hfree, hrest⟩
    exact ih (h.renameLabel hgiven hname hfree) hrest

variable (h : Reloadable instructions list) (hspells : Spells instructions words)

include h hspells

theorem jumpWord {target : UInt16} (htarget : target ∈ jumpTargets instructions) :
    list.jumpWord (labelOf instructions target) = .ok target := by
  by_cases hkeeps : KeepsName instructions target
  · obtain ⟨name, hname, -, hfree⟩ := h.named target htarget hkeeps
    rw [jumpWord_of_commands_eq hspells h.commands htarget hname]
    exact Or.inr ⟨hfree, landing_of_keepsName hkeeps⟩
  · rw [jumpWord_of_commands_eq hspells h.commands htarget (h.escaped target htarget hkeeps)]
    exact Or.inl (LabelName.unescape?_escape target)

/-- No other free label has its marker at a target that keeps its name. -/
theorem eq_of_names {target : UInt16} {marker : LabelId × Nat} {name : String}
    (hmarker : marker ∈ markerOffsets 0 list.commands) (hnames : list.Names marker target name) :
    labelOf instructions target = marker.1 := by
  obtain ⟨hname, hfree, hoffset⟩ := hnames
  obtain ⟨other, hother, hid, hlanding⟩ :=
    (mem_markerOffsets_of_commands_eq hspells h.commands marker.1 marker.2).mp hmarker
  rw [← hid] at hname ⊢
  by_cases hkeeps : KeepsName instructions other
  · rw [landing_of_keepsName hkeeps, hoffset, UInt16.toNat_inj] at hlanding
    rw [hlanding]
  · rw [h.escaped other hother hkeeps, Option.some.injEq] at hname
    rw [← hname, LabelName.unescape?_escape] at hfree
    exact absurd hfree (by simp)

/-- Reloading gives every label the name that it has. -/
theorem labelName?_eq_targetName {target : UInt16} (htarget : target ∈ jumpTargets instructions) :
    list.labelName? (labelOf instructions target) =
      some (targetName (list.labelHints (markerOffsets 0 list.commands)) instructions target) := by
  by_cases hkeeps : KeepsName instructions target
  · obtain ⟨name, hname, hne, hfree⟩ := h.named target htarget hkeeps
    have hmarker := (mem_markerOffsets_of_commands_eq hspells h.commands _ _).mpr
      ⟨target, htarget, rfl, landing_of_keepsName hkeeps⟩
    have hhint : (list.labelHints (markerOffsets 0 list.commands)).get? target = some name := by
      refine CommandList.hint_of_marker hmarker ⟨hname, hfree, rfl⟩ ?_
      intro other hother otherName hnames
      have hother := h.eq_of_names hspells hother hnames
      rw [← Option.some.injEq, ← hname, hother]
      exact hnames.1.symm
    rw [hname, targetName, if_pos hkeeps, LabelName.ofPosition_of_get? hhint hne]
  · rw [h.escaped target htarget hkeeps, targetName, if_neg hkeeps]

theorem list_ofInstructions_labelHints :
    (Disassembly.ofInstructions (list.labelHints (markerOffsets 0 list.commands))
      instructions).list = list := by
  have hcommands : (Disassembly.ofInstructions (list.labelHints (markerOffsets 0 list.commands))
      instructions).list.commands = list.commands := by
    rw [h.commands, commands_ofInstructions, commands_ofInstructions]
  have hnames : (Disassembly.ofInstructions (list.labelHints (markerOffsets 0 list.commands))
      instructions).list.labelNames = list.labelNames := by
    rw [labelNames_ofInstructions hspells.isLabel_eq_false]
    refine List.ext_getElem (by rw [List.length_map, h.length_labelNames]) ?_
    intro index hindex _
    rw [List.length_map] at hindex
    have hname := h.labelName?_eq_targetName hspells (List.getElem_mem hindex)
    rw [CommandList.labelName?, labelOf, (nodup_jumpTargets instructions).idxOf_getElem,
      List.getElem?_eq_some_iff] at hname
    obtain ⟨_, hname⟩ := hname
    rw [List.getElem_map, hname]
  rw [CommandList.mk.injEq]
  exact ⟨hcommands, hnames⟩

theorem reload :
    ∃ assembled, assemble list = .ok assembled ∧ assembled.words = words ∧
      disassemble words assembled.hints = .ok list := by
  obtain ⟨assembled, hassembled, hwords⟩ :=
    (assemble_words_eq_iff hspells h.commands).mpr fun target htarget ↦ h.jumpWord hspells htarget
  refine ⟨assembled, hassembled, hwords, (disassemble_eq_ok_iff _ _ _).mpr ?_⟩
  rw [((assemble_eq_ok_iff _ _).mp hassembled).2]
  exact ⟨instructions, hspells, h.list_ofInstructions_labelHints hspells⟩

end Reloadable

/-- What a deep copy of a list is read from. -/
theorem CommandList.exists_reloadable_of_deepCopy {list copy : CommandList}
    (h : list.deepCopy = .ok copy) :
    ∃ original instructions, assemble list = .ok original ∧
      Spells instructions original.words ∧ Reloadable instructions copy := by
  unfold deepCopy at h
  rcases horiginal : assemble list with error | original
  · rw [horiginal] at h
    exact absurd h (by simp)
  rw [horiginal] at h
  obtain ⟨instructions, hspells, rfl⟩ := (disassemble_eq_ok_iff _ _ _).mp h
  refine ⟨original, instructions, rfl, hspells, ?_⟩
  refine reloadable_ofInstructions hspells.isLabel_eq_false fun position name hhint ↦ ?_
  rw [((assemble_eq_ok_iff _ _).mp horiginal).2] at hhint
  exact unescape?_of_hint hhint

/-- A deep copy is its own deep copy, and has the words of its list. -/
theorem CommandList.deepCopy_of_deepCopy {list copy : CommandList} (h : list.deepCopy = .ok copy) :
    copy.deepCopy = .ok copy ∧
      ∃ original again, assemble list = .ok original ∧ assemble copy = .ok again ∧
        again.words = original.words := by
  obtain ⟨original, instructions, horiginal, hspells, hreloadable⟩ :=
    exists_reloadable_of_deepCopy h
  obtain ⟨again, hagain, hwords, hreload⟩ := hreloadable.reload hspells
  refine ⟨?_, original, again, horiginal, hagain, hwords⟩
  rw [deepCopy, hagain]
  show disassemble again.words again.hints = _
  rw [hwords, hreload]

/-- Free names survive saving and reloading: what is reloaded has the commands of the list, and each
label has the name that it was given last. A deep copy is its own deep copy. -/
theorem disassemble_assemble_renameAll :
    (∀ (words : List UInt16) (hints : LabelHints) (list : CommandList)
        (renames : List (LabelId × String)), disassemble words hints = .ok list →
      (∀ position name, hints.get? position = some name → LabelName.unescape? name = none) →
      list.RenamesFreely renames →
      ∃ assembled, assemble (list.renameAll renames) = .ok assembled ∧ assembled.words = words ∧
        disassemble words assembled.hints = .ok (list.renameAll renames) ∧
        (list.renameAll renames).commands = list.commands ∧
        ∀ id, (list.renameAll renames).labelName? id =
          (list.labelName? id).map fun given ↦ (renames.reverse.lookup id).getD given) ∧
    ∀ list copy : CommandList, list.deepCopy = .ok copy →
      copy.deepCopy = .ok copy ∧
        ∃ original again, assemble list = .ok original ∧ assemble copy = .ok again ∧
          again.words = original.words := by
  constructor
  · intro words hints list renames hlist hfree hrenames
    obtain ⟨instructions, hspells, rfl⟩ := (disassemble_eq_ok_iff _ _ _).mp hlist
    have hreloadable := reloadable_ofInstructions hspells.isLabel_eq_false hfree
    obtain ⟨assembled, hassembled, hwords, hreload⟩ :=
      (hreloadable.renameAll renames hrenames).reload hspells
    exact ⟨assembled, hassembled, hwords, hreload, CommandList.commands_renameAll _ renames,
      CommandList.labelName?_renameAll _ renames⟩
  · exact fun list copy hcopy ↦ CommandList.deepCopy_of_deepCopy hcopy

/-- A wait, and a goto back to it by a label of this name. -/
def waitingAt (name : String) : CommandList := ⟨[.label ⟨0⟩, .wait 5, .goto ⟨0⟩], [name]⟩

/-- A goto past the end, as it is disassembled. -/
def leavingEnd : CommandList := ⟨[.wait 5, .goto ⟨0⟩, .label ⟨0⟩], ["#2"]⟩

/-- A loop over a wait, renamed twice, and a goto past the end whose label is its escape. -/
theorem disassemble_assemble_renameAll_goto :
    (∃ assembled, assemble (waitingAt "Again") = .ok assembled ∧
      assembled.words = [0x0005, 0x2000] ∧
      disassemble [0x0005, 0x2000] assembled.hints = .ok (waitingAt "Again")) ∧
    leavingEnd.deepCopy = .ok leavingEnd := by
  have hlist : disassemble [0x0005, 0x2000] .empty = .ok (waitingAt "Start") := by decide +kernel
  have hrenames : (waitingAt "Start").RenamesFreely [(⟨0⟩, "Blink"), (⟨0⟩, "Again")] := by
    refine ⟨?_, by decide, by decide, ?_, by decide, by decide, trivial⟩
    all_goals
      rintro _ ⟨⟩
      decide
  have hcopy : (⟨[.wait 5, .goto ⟨0⟩], ["#2"]⟩ : CommandList).deepCopy = .ok leavingEnd := by
    decide +kernel
  constructor
  · obtain ⟨assembled, hassembled, hwords, hreload, -⟩ :=
      disassemble_assemble_renameAll.1 _ .empty _ _ hlist (fun _ _ h ↦ absurd h (by simp)) hrenames
    exact ⟨assembled, hassembled, hwords, hreload⟩
  · exact (disassemble_assemble_renameAll.2 _ _ hcopy).1

end SpriteBytecode
