import Mathlib.Data.List.Find
import SpriteBytecode.Proofs.CommandList.Marker
import SpriteBytecode.Validation

/-!
Lists that differ in their handles only. A renumbering gives every handle that a command of a list
refers to a new place in another arena, under the same name, and never takes such a handle for a
placed label that it is not (`Renumbers`). Labels are then found at the same indices
(`Renumbers.findLabel?_eq`) and markers at the same words, so that the two lists have the same
problems (`Renumbers.validate_eq`).
-/

set_option autoImplicit false
set_option relaxedAutoImplicit false

namespace SpriteBytecode

/-- The target of a jump, or the handle that a marker stands for. -/
def Instruction.handle? {τ : Type} : Instruction τ → Option τ
  | goto target | loop target _ | label target => some target
  | _ => none

theorem Instruction.handle?_of_jumpTarget? {τ : Type} {i : Instruction τ} {target : τ}
    (h : i.jumpTarget? = some target) : i.handle? = some target := by
  cases i with
  | goto | loop => exact h
  | _ => exact absurd h (by simp [jumpTarget?])

namespace CommandList

/-- A command of the list has the handle. -/
def Refers (list : CommandList) (id : LabelId) : Prop :=
  ∃ command ∈ list.commands, command.handle? = some id

variable {list : CommandList} {id : LabelId}

theorem mem_labels_iff (list : CommandList) (id : LabelId) :
    id ∈ list.labels ↔ .label id ∈ list.commands := by
  simp only [labels, List.mem_filterMap, labelOf?_eq_some_iff, exists_eq_right]

theorem refers_of_mem_labels (h : id ∈ list.labels) : list.Refers id :=
  ⟨.label id, (mem_labels_iff list id).mp h, rfl⟩

theorem refers_of_jump {command : Command} (hcommand : command ∈ list.commands)
    (hjump : command.jumpTarget? = some id) : list.Refers id :=
  ⟨command, hcommand, Instruction.handle?_of_jumpTarget? hjump⟩

/-- A handle is that of a placed label or of a jump. -/
theorem mem_labels_or_jump_of_refers (h : list.Refers id) :
    id ∈ list.labels ∨ ∃ command ∈ list.commands, command.jumpTarget? = some id := by
  obtain ⟨command, hcommand, hid⟩ := h
  cases command with
  | goto target | loop target count => exact Or.inr ⟨_, hcommand, hid⟩
  | label target =>
    obtain rfl := Option.some.inj hid
    exact Or.inl ((mem_labels_iff _ _).mpr hcommand)
  | _ => exact absurd hid (by simp [Instruction.handle?])

theorem mem_labels_of_mem_markerOffsets {offset position : Nat}
    (h : (id, position) ∈ markerOffsets offset list.commands) : id ∈ list.labels := by
  obtain ⟨front, back, hcommands, -⟩ := (mem_markerOffsets_iff _ _ _ _).mp h
  rw [mem_labels_iff, hcommands]
  simp

end CommandList

/-- `other` is `list` with `f` for the handles. -/
structure Renumbers (list other : CommandList) (f : LabelId → LabelId) : Prop where
  commands : other.commands = list.commands.map (·.mapTarget f)
  names : ∀ id, list.Refers id →
    ∃ name, list.labelName? id = some name ∧ other.labelName? (f id) = some name
  apart : ∀ id, list.Refers id → ∀ marked ∈ list.labels, f id = f marked → id = marked

theorem mapTarget_eq_label_iff {f : LabelId → LabelId} {id : LabelId} {command : Command}
    (hapart : ∀ marked, command = .label marked → f id = f marked → id = marked) :
    command.mapTarget f = .label (f id) ↔ command = .label id := by
  constructor
  · intro h
    cases command with
    | label marked =>
      rw [hapart marked rfl (Instruction.label.inj h).symm]
    | _ => cases h
  · rintro rfl
    rfl

theorem findIdx?_label_map {f : LabelId → LabelId} {id : LabelId} {commands : List Command}
    (hapart : ∀ marked, .label marked ∈ commands → f id = f marked → id = marked) :
    (commands.map (·.mapTarget f)).findIdx? (· == .label (f id)) =
      commands.findIdx? (· == .label id) := by
  induction commands with
  | nil => rfl
  | cons command rest ih =>
    have hhead : (command.mapTarget f == .label (f id)) = (command == .label id) := by
      rw [Bool.eq_iff_iff, beq_iff_eq, beq_iff_eq]
      refine mapTarget_eq_label_iff ?_
      rintro marked rfl
      exact hapart marked List.mem_cons_self
    rw [List.map_cons, List.findIdx?_cons, List.findIdx?_cons, hhead,
      ih fun marked hmarked ↦ hapart marked (List.mem_cons_of_mem _ hmarked)]

theorem markerOffsets_map (f : LabelId → LabelId) (offset : Nat) (commands : List Command) :
    markerOffsets offset (commands.map (·.mapTarget f)) =
      (markerOffsets offset commands).map (Prod.map f id) := by
  induction commands generalizing offset with
  | nil => rfl
  | cons command rest ih =>
    rcases hlabel : command.isLabel with - | -
    · rw [List.map_cons, markerOffsets_cons_of_not_label _ _ hlabel,
        markerOffsets_cons_of_not_label _ _ (by simp [hlabel]), Instruction.wordLen_mapTarget, ih]
    · obtain ⟨id, rfl⟩ := eq_label_of_isLabel hlabel
      rw [List.map_cons, Instruction.mapTarget, markerOffsets_label_cons, markerOffsets_label_cons,
        ih, List.map_cons]
      rfl

namespace Renumbers

variable {list other : CommandList} {f : LabelId → LabelId} (h : Renumbers list other f)

include h

theorem length_eq : other.length = list.length := by
  rw [CommandList.length, h.commands, List.length_map, CommandList.length]

theorem get?_eq (index : Nat) : other.get? index = (list.get? index).map (·.mapTarget f) := by
  rw [CommandList.get?, h.commands, List.getElem?_map, CommandList.get?]

section Refers

variable {id : LabelId} (hid : list.Refers id)

include hid

theorem labelName?_eq : other.labelName? (f id) = list.labelName? id := by
  obtain ⟨name, hname, hother⟩ := h.names id hid
  rw [hname, hother]

theorem findLabel?_eq : other.findLabel? (f id) = list.findLabel? id := by
  rw [CommandList.findLabel?, h.commands]
  refine findIdx?_label_map fun marked hmarked ↦ h.apart id hid marked ?_
  rwa [CommandList.mem_labels_iff]

theorem lastOffset?_eq :
    lastOffset? (markerOffsets 0 other.commands) (f id) =
      lastOffset? (markerOffsets 0 list.commands) id := by
  rw [h.commands, markerOffsets_map, lastOffset?, ← List.map_reverse, List.find?_map,
    Option.map_map, lastOffset?]
  congr 1
  refine List.find?_congr fun marker hmarker ↦ ?_
  have hplaced := CommandList.mem_labels_of_mem_markerOffsets (List.mem_reverse.mp hmarker)
  rw [Function.comp_apply, Prod.map_fst, Bool.eq_iff_iff, beq_iff_eq, beq_iff_eq]
  constructor
  · intro hsame
    exact (h.apart id hid marker.1 hplaced hsame.symm).symm
  · rintro rfl
    rfl

end Refers

/-! ### Problems -/

theorem jumpProblem?_eq (index : Nat) {target : LabelId} (htarget : list.Refers target) :
    other.labelTable.jumpProblem? index (f target) = list.labelTable.jumpProblem? index target := by
  simp only [LabelTable.jumpProblem?, CommandList.place?_labelTable, CommandList.name?_labelTable,
    h.findLabel?_eq htarget, h.labelName?_eq htarget]

theorem problem?_eq (assets : Assets) (owner : Option Nat) (index : Nat) {command : Command}
    (hcommand : command ∈ list.commands) :
    other.labelTable.problem? assets owner index (command.mapTarget f) =
      list.labelTable.problem? assets owner index command := by
  cases command with
  | goto target | loop target count =>
    exact h.jumpProblem?_eq index (CommandList.refers_of_jump hcommand rfl)
  | _ => rfl

theorem diagnosticsFrom_eq (assets : Assets) (owner : Option Nat) (index : Nat)
    {commands : List Command} (hcommands : ∀ command ∈ commands, command ∈ list.commands) :
    other.labelTable.diagnosticsFrom assets owner index (commands.map (·.mapTarget f)) =
      list.labelTable.diagnosticsFrom assets owner index commands := by
  induction commands generalizing index with
  | nil => rfl
  | cons command rest ih =>
    rw [List.map_cons, LabelTable.diagnosticsFrom, LabelTable.diagnosticsFrom,
      h.problem?_eq assets owner index (hcommands _ List.mem_cons_self),
      ih (index + 1) fun later hlater ↦ hcommands later (List.mem_cons_of_mem _ hlater)]

/-- Renumbered lists have the same problems. -/
theorem validate_eq (assets : Assets) (owner : Option Nat) :
    other.validate assets owner = list.validate assets owner := by
  rw [CommandList.validate, h.commands,
    h.diagnosticsFrom_eq assets owner 0 fun _ hcommand ↦ hcommand, CommandList.validate]

end Renumbers

end SpriteBytecode
