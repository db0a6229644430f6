import Mathlib.Data.List.Basic
import Mathlib.Data.List.Nodup
import SpriteBytecode.Proofs.Assembly.Renumbering
import SpriteBytecode.Proofs.Playback.Renumbering
import SpriteBytecode.Record.Export
import SpriteBytecode.Record.Import

/-!
Records written from a list and read back. An operand comes back from its reference where assets
of a kind are told apart by name (`AssetRef.resolve?_ofOperand`). Instructions come back in order,
with labels looked up by name (`withoutLabels_ofRecords`). Markers come back as well where every
label record is the first of its name (`commandsFrom_eq_map`), and then the list read back is the
list renumbered (`Exportable.renumbers`), so that it assembles, plays and is reported on alike.
-/

set_option autoImplicit false
set_option relaxedAutoImplicit false

namespace SpriteBytecode

/-! ### Operands -/

/-- Where names are distinct, a name finds the asset that has it. -/
theorem Inventory.find?_of_getElem? {inventory : Inventory} {kind : AssetKind}
    (hnames : (inventory.names kind).toList.Nodup) {index : Nat} {name : String}
    (h : (inventory.names kind)[index]? = some name) :
    inventory.assets.find? kind name = some index := by
  obtain ⟨hlt, -⟩ := Array.getElem?_eq_some_iff.mp h
  rw [inventory.assets.find?_eq, List.find?_range_eq_some]
  refine ⟨beq_iff_eq.mpr h, List.mem_range.mpr hlt, ?_⟩
  intro earlier hearlier
  rw [Bool.not_eq_true', beq_eq_false_iff_ne, Inventory.name?_assets]
  intro hsame
  have hindex : earlier = index := by
    rw [← Array.getElem?_toList] at h hsame
    exact (List.getElem?_inj (Nat.lt_trans hearlier hlt) hnames).mp (hsame.trans h.symm)
  exact absurd hindex (Nat.ne_of_lt hearlier)

namespace AssetRef

variable {inventory : Inventory} {kind : AssetKind} (hnames : (inventory.names kind).toList.Nodup)

include hnames

/-- A reference leads back to the operand that it was made from. -/
theorem resolve?_ofOperand (operand : Int) :
    (ofOperand inventory.assets kind operand).resolve? inventory.assets kind = some operand := by
  unfold ofOperand
  split
  · next name hname =>
    obtain ⟨index, hindex, hget⟩ := Option.bind_eq_some_iff.mp hname
    obtain ⟨rfl, -⟩ :=
      (inventory.resolvesByIndex_assets.resolve?_eq_some_iff kind operand index).mp hindex
    rw [resolve?, Inventory.find?_of_getElem? hnames hget]
    rfl
  · rfl

theorem operand_exportOptional (value : Int16) :
    operand inventory.assets kind (CommandList.exportOptional inventory.assets kind value) =
      value := by
  rw [CommandList.exportOptional, operand]
  by_cases hnone : value = noAsset
  · rw [if_pos hnone, Option.bind_none]
    exact hnone.symm
  · rw [if_neg hnone, Option.bind_some, resolve?_ofOperand hnames]
    dsimp only
    rw [if_pos ⟨value.le_toInt, value.toInt_lt⟩, Int16.ofInt_toInt]

end AssetRef

theorem AssetRef.parentOperand_ofOperand {inventory : Inventory}
    (hnames : (inventory.names .component).toList.Nodup) (value : UInt8) :
    (ofOperand inventory.assets .component value.toNat).parentOperand inventory.assets = value := by
  rw [parentOperand, resolve?_ofOperand hnames]
  have hlt := value.toNat_lt
  dsimp only
  rw [if_pos (by omega), Int.toNat_natCast, UInt8.ofNat_toNat]

/-! ### Names of labels -/

namespace CommandList

variable (list : CommandList) (assets : Assets)

theorem labelNames_toRecords :
    Import.labelNames (list.toRecords assets) = list.labels.map list.exportName := by
  have hname : (fun command ↦ (list.toRecord assets command).labelName?) =
      fun command ↦ (labelOf? command).map list.exportName := by
    funext command
    cases command <;> rfl
  rw [Import.labelNames, toRecords, List.filterMap_map, labels, List.map_filterMap]
  exact congrArg (List.filterMap · list.commands) hname

theorem mem_arena_toRecords {id : LabelId} (h : list.Refers id) :
    list.exportName id ∈ Import.arena (list.toRecords assets) := by
  rw [Import.arena, List.mem_append, Import.danglingNames, List.mem_eraseDups, List.mem_filter,
    list.labelNames_toRecords]
  by_cases hname : list.exportName id ∈ list.labels.map list.exportName
  · exact Or.inl hname
  · obtain ⟨command, hcommand, hjump⟩ :=
      (mem_labels_or_jump_of_refers h).resolve_left fun hlabel ↦
        hname (List.mem_map_of_mem hlabel)
    refine Or.inr ⟨?_, by simpa using hname⟩
    refine List.mem_filterMap.mpr ⟨_, List.mem_map_of_mem hcommand, ?_⟩
    cases command with
    | goto target | loop target count =>
      obtain rfl := Option.some.inj hjump
      rfl
    | _ => exact absurd hjump (by simp [Instruction.jumpTarget?])

/-- The handle, in the list read back, of the label that a handle stands for. -/
def importedLabel (id : LabelId) : LabelId :=
  Import.labelFor (Import.arena (list.toRecords assets)) (list.exportName id)

theorem labelName?_importedLabel {id : LabelId} (h : list.Refers id) :
    (ofRecords (list.toRecords assets) assets).labelName? (list.importedLabel assets id) =
      some (list.exportName id) :=
  List.getElem?_idxOf (list.mem_arena_toRecords assets h)

/-- Handles are read back as one exactly if their labels have one name. -/
theorem importedLabel_eq_iff {id other : LabelId} (h : list.Refers id) :
    list.importedLabel assets id = list.importedLabel assets other ↔
      list.exportName id = list.exportName other := by
  rw [importedLabel, importedLabel, Import.labelFor, Import.labelFor, LabelId.mk.injEq,
    List.idxOf_inj (list.mem_arena_toRecords assets h)]

/-! ### Commands -/

section Commands

variable {inventory : Inventory} (hnames : ∀ kind, (inventory.names kind).toList.Nodup)
  (arena : List String)

include hnames

theorem command_toRecord {command : Command} (hlabel : command.isLabel = false)
    (marker : LabelId) :
    Import.command inventory.assets arena marker (list.toRecord inventory.assets command) =
      command.mapTarget fun id ↦ Import.labelFor arena (list.exportName id) := by
  cases command with
  | label id => exact absurd hlabel (by simp [Instruction.isLabel])
  | setRaster value =>
    exact congrArg Instruction.setRaster (AssetRef.operand_exportOptional (hnames .raster) value)
  | setPalette value =>
    exact congrArg Instruction.setPalette (AssetRef.operand_exportOptional (hnames .palette) value)
  | setParent value =>
    exact congrArg Instruction.setParent
      (AssetRef.parentOperand_ofOperand (hnames .component) value)
  | _ => rfl

theorem withoutLabels_commandsFrom (marker : Nat) (commands : List Command) :
    withoutLabels (Import.commandsFrom inventory.assets arena marker
        (commands.map (list.toRecord inventory.assets))) =
      (withoutLabels commands).map
        (·.mapTarget fun id ↦ Import.labelFor arena (list.exportName id)) := by
  induction commands generalizing marker with
  | nil => rfl
  | cons command rest ih =>
    rw [List.map_cons, Import.commandsFrom]
    rcases hlabel : command.isLabel with - | -
    · rw [list.command_toRecord hnames arena hlabel, withoutLabels_cons_of_not_label rest hlabel,
        withoutLabels_cons_of_not_label _ (by simp [hlabel]), List.map_cons, ih]
    · obtain ⟨id, rfl⟩ := eq_label_of_isLabel hlabel
      exact ih _

/-- Where the labels in order have the next numbers of the arena, their markers come back. -/
theorem commandsFrom_eq_map {marker : Nat} {commands : List Command}
    (hmarkers : ∀ index id, (commands.filterMap labelOf?)[index]? = some id →
      arena.idxOf (list.exportName id) = marker + index) :
    Import.commandsFrom inventory.assets arena marker
        (commands.map (list.toRecord inventory.assets)) =
      commands.map (·.mapTarget fun id ↦ Import.labelFor arena (list.exportName id)) := by
  induction commands generalizing marker with
  | nil => rfl
  | cons command rest ih =>
    cases command with
    | label id =>
      have hlabels : (Instruction.label id :: rest).filterMap labelOf? =
          id :: rest.filterMap labelOf? := rfl
      rw [hlabels] at hmarkers
      have hfirst : arena.idxOf (list.exportName id) = marker := hmarkers 0 id rfl
      have hrest := @ih (marker + 1) fun index other hother ↦ by
        rw [hmarkers (index + 1) other hother]
        omega
      rw [List.map_cons, List.map_cons, Import.commandsFrom, Instruction.mapTarget,
        Import.labelFor, hfirst]
      exact congrArg _ hrest
    | _ => exact congrArg₂ List.cons (list.command_toRecord hnames arena rfl _) (ih hmarkers)

/-- Instructions come back in order, with labels looked up by name. -/
theorem withoutLabels_ofRecords :
    withoutLabels (ofRecords (list.toRecords inventory.assets) inventory.assets).commands =
      (withoutLabels list.commands).map (·.mapTarget (list.importedLabel inventory.assets)) :=
  list.withoutLabels_commandsFrom hnames _ 0 list.commands

end Commands

/-- What records say of a list is enough to tell its labels apart: handles are its own, no label is
placed twice, and no label has the name of another one that is placed. -/
structure Exportable (list : CommandList) : Prop where
  own : ∀ id, list.Refers id → id.index < list.labelNames.length
  once : list.labels.Nodup
  distinct : ∀ id ∈ list.labels, ∀ other ∈ list.labels,
    list.labelName? id = list.labelName? other → id = other
  dangling : ∀ command ∈ list.commands, ∀ id, command.jumpTarget? = some id → id ∉ list.labels →
    ∀ placed ∈ list.labels, list.labelName? id ≠ list.labelName? placed

namespace Exportable

variable {list : CommandList} (h : list.Exportable)

include h

theorem labelName?_eq {id : LabelId} (hid : list.Refers id) :
    list.labelName? id = some (list.exportName id) := by
  have hsome := List.getElem?_eq_getElem (h.own id hid)
  rw [exportName, labelName?, hsome, Option.getD_some]

/-- A placed label shares its name with no other label that a command refers to. -/
theorem eq_of_exportName_eq {id placed : LabelId} (hid : list.Refers id)
    (hplaced : placed ∈ list.labels) (hsame : list.exportName id = list.exportName placed) :
    id = placed := by
  have hname : list.labelName? id = list.labelName? placed := by
    rw [h.labelName?_eq hid, h.labelName?_eq (refers_of_mem_labels hplaced), hsame]
  by_cases hlabel : id ∈ list.labels
  · exact h.distinct id hlabel placed hplaced hname
  · obtain ⟨command, hcommand, hjump⟩ := (mem_labels_or_jump_of_refers hid).resolve_left hlabel
    exact absurd hname (h.dangling command hcommand id hjump hlabel placed hplaced)

theorem nodup_labels_exportName : (list.labels.map list.exportName).Nodup :=
  h.once.map_on fun _ hid _ hother hsame ↦
    h.eq_of_exportName_eq (refers_of_mem_labels hid) hother hsame

/-- The list read back is the list with every handle for the first label of its name. -/
theorem renumbers {inventory : Inventory} (hnames : ∀ kind, (inventory.names kind).toList.Nodup) :
    Renumbers list (ofRecords (list.toRecords inventory.assets) inventory.assets)
      (list.importedLabel inventory.assets) where
  commands := by
    refine list.commandsFrom_eq_map hnames _ fun index id hid ↦ ?_
    have hlabels := h.nodup_labels_exportName
    have hget : (list.labels.map list.exportName)[index]? = some (list.exportName id) := by
      rw [List.getElem?_map]
      exact congrArg (Option.map list.exportName) hid
    obtain ⟨hlt, hget⟩ := List.getElem?_eq_some_iff.mp hget
    rw [Import.arena, list.labelNames_toRecords, ← hget,
      List.idxOf_append_of_mem (List.getElem_mem hlt), hlabels.idxOf_getElem, Nat.zero_add]
  names id hid :=
    ⟨list.exportName id, h.labelName?_eq hid, list.labelName?_importedLabel _ hid⟩
  apart id hid marked hmarked hsame :=
    h.eq_of_exportName_eq hid hmarked ((list.importedLabel_eq_iff _ hid).mp hsame)

end Exportable

end CommandList

/-- A list whose labels its records tell apart comes back from them with other handles only: with
the same operands and names, and its labels at the same places. It assembles to the same words and
hints or fails alike, has the same problems and timing, and plays the same. -/
theorem ofRecords_toRecords_alike {list : CommandList} {inventory : Inventory}
    (hlist : list.Exportable) (hnames : ∀ kind, (inventory.names kind).toList.Nodup) :
    ∃ copy f, CommandList.ofRecords (list.toRecords inventory.assets) inventory.assets = copy ∧
      copy.length = list.length ∧
      copy.commands = list.commands.map (·.mapTarget f) ∧
      (∀ id, list.Refers id → copy.labelName? (f id) = list.labelName? id ∧
        copy.findLabel? (f id) = list.findLabel? id) ∧
      assemble copy = assemble list ∧
      (∀ assets owner, copy.validate assets owner = list.validate assets owner) ∧
      (∀ timing, analyzeTiming copy timing = analyzeTiming list timing) ∧
      ∀ assets config count state,
        ((Player.mk copy.program assets config).ticks count state).map
            (fun tick ↦ (tick.outcome, tick.state)) =
          ((Player.mk list.program assets config).ticks count state).map
            (fun tick ↦ (tick.outcome, tick.state)) := by
  have hcopy := hlist.renumbers hnames
  refine ⟨_, _, rfl, hcopy.length_eq, hcopy.commands, ?_, hcopy.assemble_eq, hcopy.validate_eq,
    hcopy.analyzeTiming_eq, ?_⟩
  · intro id hid
    exact ⟨hcopy.labelName?_eq hid, hcopy.findLabel?_eq hid⟩
  · intro assets config count state
    have hplays : Renumbers (Player.mk list.program assets config).list _ _ := hcopy
    have hticks := congrArg (List.map fun tick ↦ (tick.outcome, tick.state))
      (hplays.ticks_eq count state)
    rw [List.map_map] at hticks
    exact hticks

/-- One raster and one component. -/
def idleBody : Inventory := ⟨#["Idle"], #[], #["Body"]⟩

theorem nodup_names_idleBody (kind : AssetKind) : (idleBody.names kind).toList.Nodup := by
  cases kind <;> decide

/-- A goto to a label without a marker, in front of a loop whose handle changes. -/
def danglingGoto : CommandList :=
  ⟨[.goto ⟨0⟩, .label ⟨1⟩, .setRaster 0, .setRaster (-1), .setPalette 7, .wait 2, .setParent 0,
    .loop ⟨1⟩ 3], ["Away", "Start"]⟩

/-- The records keep the error of the goto and the problem of the palette. -/
theorem ofRecords_toRecords_alike_dangling :
    ∃ copy, CommandList.ofRecords (danglingGoto.toRecords idleBody.assets) idleBody.assets = copy ∧
      copy.length = 8 ∧ assemble copy = .error (.unresolvedLabel "Away") ∧
      copy.validate idleBody.assets none =
        [⟨0, .missingLabel "Away"⟩, ⟨4, .danglingPalette 7⟩] := by
  have hhandles : ∀ command ∈ danglingGoto.commands, ∀ id ∈ command.handle?, id.index < 2 := by
    decide
  have hjumps : ∀ command ∈ danglingGoto.commands, ∀ id ∈ command.jumpTarget?,
      id = ⟨0⟩ ∨ id = ⟨1⟩ := by decide
  have hlist : danglingGoto.Exportable := by
    refine ⟨?_, by decide, by decide, ?_⟩
    · rintro id ⟨command, hcommand, hid⟩
      exact hhandles command hcommand id hid
    · intro command hcommand id hid hlabel
      rcases hjumps command hcommand id hid with rfl | rfl
      · decide
      · exact absurd hlabel (by decide)
  obtain ⟨copy, -, hcopy, hlength, -, -, hassemble, hvalidate, -⟩ :=
    ofRecords_toRecords_alike hlist nodup_names_idleBody
  refine ⟨copy, hcopy, hlength, hassemble.trans (by decide +kernel), ?_⟩
  exact (hvalidate _ none).trans (by decide +kernel)

end SpriteBytecode
