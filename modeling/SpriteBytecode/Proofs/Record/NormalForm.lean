import SpriteBytecode.Proofs.Record.RoundTrip

/-!
Records that a list is read from and written to again. Reading forgets only how a record spells its
asset, so that records come back one by one, each with its reference as it is written
(`toRecords_ofRecords`). What is written is written again when it is read (`normal_normal`): an
asset is written by its name even if its name finds another asset of that name. Where names are
distinct, the list itself comes back as well, with labels that share a name or are never placed.
-/

set_option autoImplicit false
set_option relaxedAutoImplicit false

namespace SpriteBytecode

/-! ### References -/

section Reference

variable {assets : Assets} (hassets : assets.ResolvesByIndex) (kind : AssetKind)

/-- The name of an asset finds the first asset of that name. -/
theorem Assets.exists_find?_of_name? {index : Nat} {name : String}
    (hindex : index < assets.count kind) (hname : assets.name? kind index = some name) :
    ∃ first ≤ index, assets.find? kind name = some first ∧ assets.name? kind first = some name := by
  have hfound : ((List.range (assets.count kind)).find? fun other ↦
      assets.name? kind other == some name).isSome := by
    rw [List.find?_isSome]
    exact ⟨index, List.mem_range.mpr hindex, beq_iff_eq.mpr hname⟩
  obtain ⟨first, hfirst⟩ := Option.isSome_iff_exists.mp hfound
  obtain ⟨hsame, -, hearlier⟩ := List.find?_range_eq_some.mp hfirst
  refine ⟨first, ?_, (assets.find?_eq kind name).trans hfirst, eq_of_beq hsame⟩
  by_contra hlt
  have hnot := hearlier index (Nat.lt_of_not_le hlt)
  rw [hname, beq_self_eq_true] at hnot
  exact absurd hnot (by simp)

include hassets

/-- The reference written for an operand leads to an operand that is written the same: the operand
itself, or the first asset of its name. -/
theorem AssetRef.exists_operand_of_ofOperand (operand : Int) :
    ∃ value, (ofOperand assets kind operand).resolve? assets kind = some value ∧
      ofOperand assets kind value = ofOperand assets kind operand ∧
      (value = operand ∨ 0 ≤ value ∧ value ≤ operand) := by
  rcases hname : (assets.resolve? kind operand).bind (assets.name? kind) with - | name
  · have href : ofOperand assets kind operand = .index operand := by
      rw [ofOperand, hname]
    rw [href]
    exact ⟨operand, rfl, href, Or.inl rfl⟩
  · have href : ofOperand assets kind operand = .named name := by
      rw [ofOperand, hname]
    obtain ⟨index, hindex, hget⟩ := Option.bind_eq_some_iff.mp hname
    obtain ⟨rfl, hlt⟩ := (hassets.resolve?_eq_some_iff kind operand index).mp hindex
    obtain ⟨first, hle, hfind, hfirst⟩ := Assets.exists_find?_of_name? kind hlt hget
    have hresolve : assets.resolve? kind first = some first :=
      (hassets.resolve?_eq_some_iff kind first first).mpr ⟨rfl, Nat.lt_of_le_of_lt hle hlt⟩
    refine ⟨first, ?_, ?_, Or.inr ⟨Int.natCast_nonneg first, Int.ofNat_le.mpr hle⟩⟩
    · rw [href, resolve?, hfind]
      rfl
    · rw [href, ofOperand, hresolve, Option.bind_some, hfirst]

/-- A raster or palette operand is written again as it was. -/
theorem exportOptional_operand_exportOptional (value : Int16) :
    CommandList.exportOptional assets kind
        (AssetRef.operand assets kind (CommandList.exportOptional assets kind value)) =
      CommandList.exportOptional assets kind value := by
  by_cases hnone : value = noAsset
  · rw [hnone]
    rfl
  · obtain ⟨other, hresolve, hsame, hother⟩ :=
      AssetRef.exists_operand_of_ofOperand hassets kind value.toInt
    have hlow := value.le_toInt
    have hhigh := value.toInt_lt
    have hexport : CommandList.exportOptional assets kind value =
        some (.ofOperand assets kind value.toInt) :=
      if_neg hnone
    have hread : AssetRef.operand assets kind (CommandList.exportOptional assets kind value) =
        Int16.ofInt other := by
      rw [hexport, AssetRef.operand, Option.bind_some, hresolve]
      exact if_pos (by omega)
    have hint : (Int16.ofInt other).toInt = other :=
      Int16.toInt_ofInt_of_le (by omega) (by omega)
    have hasset : Int16.ofInt other ≠ noAsset := by
      rcases hother with rfl | ⟨hnonneg, -⟩
      · rwa [Int16.ofInt_toInt]
      · intro heq
        rw [heq] at hint
        exact absurd hnonneg (by rw [← hint]; decide)
    rw [hread, hexport, CommandList.exportOptional, if_neg hasset, hint, hsame]

/-- A parent operand is written again as it was. -/
theorem ofOperand_parentOperand_ofOperand (value : UInt8) :
    AssetRef.ofOperand assets .component
        ((AssetRef.ofOperand assets .component value.toNat).parentOperand assets).toNat =
      AssetRef.ofOperand assets .component value.toNat := by
  obtain ⟨other, hresolve, hsame, hother⟩ :=
    AssetRef.exists_operand_of_ofOperand hassets .component value.toNat
  have hlt := value.toNat_lt
  have hread : (AssetRef.ofOperand assets .component value.toNat).parentOperand assets =
      UInt8.ofNat other.toNat := by
    rw [AssetRef.parentOperand, hresolve]
    exact if_pos (by omega)
  have hnat : ((UInt8.ofNat other.toNat).toNat : Int) = other := by
    rw [UInt8.toNat_ofNat_of_lt' (by show other.toNat < 256; omega)]
    omega
  rw [hread, hnat, hsame]

end Reference

/-! ### Records -/

namespace CommandRecord

/-- The record selects a raster, a palette or a parent. -/
def selectsAsset : CommandRecord → Bool
  | setRaster _ | setPalette _ | setParent _ => true
  | _ => false

/-- The record with its reference as it is written for what the reference was read as. -/
def normal (assets : Assets) : CommandRecord → CommandRecord
  | setRaster raster =>
    setRaster (CommandList.exportOptional assets .raster (AssetRef.operand assets .raster raster))
  | setPalette palette =>
    setPalette
      (CommandList.exportOptional assets .palette (AssetRef.operand assets .palette palette))
  | setParent parent => setParent (.ofOperand assets .component (parent.parentOperand assets).toNat)
  | record => record

variable (assets : Assets)

theorem normal_of_not_selectsAsset {record : CommandRecord} (h : record.selectsAsset = false) :
    record.normal assets = record := by
  cases record with
  | setRaster | setPalette | setParent => exact Bool.noConfusion h
  | _ => rfl

theorem normal_normal {assets : Assets} (hassets : assets.ResolvesByIndex)
    (record : CommandRecord) :
    (record.normal assets).normal assets = record.normal assets := by
  cases record with
  | setRaster raster =>
    exact congrArg setRaster (exportOptional_operand_exportOptional hassets .raster _)
  | setPalette palette =>
    exact congrArg setPalette (exportOptional_operand_exportOptional hassets .palette _)
  | setParent parent => exact congrArg setParent (ofOperand_parentOperand_ofOperand hassets _)
  | _ => rfl

@[simp] theorem labelName?_normal (record : CommandRecord) :
    (record.normal assets).labelName? = record.labelName? := by
  cases record <;> rfl

@[simp] theorem destination?_normal (record : CommandRecord) :
    (record.normal assets).destination? = record.destination? := by
  cases record <;> rfl

end CommandRecord

namespace Import

theorem labelNames_cons (record : CommandRecord) (rest : List CommandRecord) :
    labelNames (record :: rest) = record.labelName?.toList ++ labelNames rest := by
  rw [labelNames, labelNames, List.filterMap_cons]
  cases record.labelName? <;> rfl

/-- Every destination has a label of its name, placed or not. -/
theorem mem_arena_of_destination? {records : List CommandRecord} {record : CommandRecord}
    (hrecord : record ∈ records) {name : String} (hname : record.destination? = some name) :
    name ∈ arena records := by
  rw [arena, List.mem_append]
  by_cases hlabel : name ∈ labelNames records
  · exact Or.inl hlabel
  · refine Or.inr (List.mem_eraseDups.mpr (List.mem_filter.mpr ⟨?_, by simpa using hlabel⟩))
    exact List.mem_filterMap.mpr ⟨record, hrecord, hname⟩

theorem arena_map_normal (assets : Assets) (records : List CommandRecord) :
    arena (records.map (·.normal assets)) = arena records := by
  have hlabels : labelNames (records.map (·.normal assets)) = labelNames records := by
    simp only [labelNames, List.filterMap_map, Function.comp_def, CommandRecord.labelName?_normal]
  simp only [arena, danglingNames, hlabels, List.filterMap_map, Function.comp_def,
    CommandRecord.destination?_normal]

variable {list : CommandList} (assets : Assets)

/-- A record is written as its normal form once it is read. -/
theorem toRecord_command {record : CommandRecord} {marker : LabelId}
    (hlabel : ∀ name, record.labelName? = some name → list.labelName? marker = some name)
    (hdestination : ∀ name, record.destination? = some name → name ∈ list.labelNames) :
    list.toRecord assets (command assets list.labelNames marker record) = record.normal assets := by
  have hexport : ∀ name ∈ list.labelNames,
      list.exportName (labelFor list.labelNames name) = name := by
    intro name hname
    rw [CommandList.exportName, CommandList.labelName?, labelFor, List.getElem?_idxOf hname]
    rfl
  cases record with
  | label name =>
    rw [command, CommandList.toRecord, CommandList.exportName, hlabel name rfl]
    rfl
  | goto destination =>
    rw [command, CommandList.toRecord, hexport destination (hdestination destination rfl)]
    rfl
  | loop destination count =>
    rw [command, CommandList.toRecord, hexport destination (hdestination destination rfl)]
    rfl
  | _ => rfl

/-- Where the label records have the labels from `marker` on, records are written as their normal
forms. -/
theorem map_toRecord_commandsFrom {records : List CommandRecord} {marker : Nat}
    (hlabels : ∀ index name, (labelNames records)[index]? = some name →
      list.labelName? ⟨marker + index⟩ = some name)
    (hdestinations : ∀ record ∈ records, ∀ name, record.destination? = some name →
      name ∈ list.labelNames) :
    (commandsFrom assets list.labelNames marker records).map (list.toRecord assets) =
      records.map (·.normal assets) := by
  induction records generalizing marker with
  | nil => rfl
  | cons record rest ih =>
    rw [labelNames_cons] at hlabels
    have hhead : ∀ name, record.labelName? = some name →
        list.labelName? ⟨marker⟩ = some name := by
      intro name hname
      exact hlabels 0 name (by rw [hname]; rfl)
    have hrest : ∀ index name, (labelNames rest)[index]? = some name →
        list.labelName? ⟨marker + record.labelName?.toList.length + index⟩ = some name := by
      intro index name hname
      rw [Nat.add_assoc]
      refine hlabels _ name ?_
      rw [List.getElem?_append_right (Nat.le_add_right _ _), Nat.add_sub_cancel_left, hname]
    rw [commandsFrom, List.map_cons, List.map_cons,
      toRecord_command assets hhead (hdestinations record List.mem_cons_self),
      ih hrest fun other hother ↦ hdestinations other (List.mem_cons_of_mem _ hother)]

end Import

namespace CommandList

/-- Records read and written again are the records in normal form. -/
theorem toRecords_ofRecords (assets : Assets) (records : List CommandRecord) :
    (ofRecords records assets).toRecords assets = records.map (·.normal assets) := by
  refine Import.map_toRecord_commandsFrom assets ?_ ?_
  · intro index name hname
    rw [Nat.zero_add]
    exact (List.getElem?_append_left (List.getElem?_eq_some_iff.mp hname).1).trans hname
  · intro record hrecord name hname
    exact Import.mem_arena_of_destination? hrecord hname

/-- Where names are distinct, a record in normal form is read as the record was. -/
theorem ofRecords_map_normal {inventory : Inventory}
    (hnames : ∀ kind, (inventory.names kind).toList.Nodup) (records : List CommandRecord) :
    ofRecords (records.map (·.normal inventory.assets)) inventory.assets =
      ofRecords records inventory.assets := by
  have hcommand : ∀ arena marker (record : CommandRecord),
      Import.command inventory.assets arena marker (record.normal inventory.assets) =
        Import.command inventory.assets arena marker record := by
    intro arena marker record
    cases record with
    | setRaster raster =>
      exact congrArg Instruction.setRaster (AssetRef.operand_exportOptional (hnames .raster) _)
    | setPalette palette =>
      exact congrArg Instruction.setPalette (AssetRef.operand_exportOptional (hnames .palette) _)
    | setParent parent =>
      exact congrArg Instruction.setParent
        (AssetRef.parentOperand_ofOperand (hnames .component) _)
    | _ => rfl
  have hcommands : ∀ arena marker, Import.commandsFrom inventory.assets arena marker
      (records.map (·.normal inventory.assets)) =
        Import.commandsFrom inventory.assets arena marker records := by
    intro arena marker
    induction records generalizing marker with
    | nil => rfl
    | cons record rest ih =>
      rw [List.map_cons, Import.commandsFrom, Import.commandsFrom, hcommand,
        CommandRecord.labelName?_normal, ih]
  rw [ofRecords, ofRecords, Import.arena_map_normal]
  exact congrArg (CommandList.mk · _) (hcommands _ 0)

/-- Records as they are written after being read. -/
def normalRecords (inventory : Inventory) (records : List CommandRecord) : List CommandRecord :=
  (ofRecords records inventory.assets).toRecords inventory.assets

end CommandList

/-- Reading records and writing them again keeps their number and every record that selects no
asset, and doing it twice is doing it once. Where no two assets of a kind share a name, a list that
was read from records comes back from the records it is written as, whatever its labels. -/
theorem normalRecords_normal_form (inventory : Inventory) (records : List CommandRecord) :
    (CommandList.normalRecords inventory records).length = records.length ∧
    (∀ (index : Nat) (record : CommandRecord), records[index]? = some record →
      record.selectsAsset = false →
      (CommandList.normalRecords inventory records)[index]? = some record) ∧
    CommandList.normalRecords inventory (CommandList.normalRecords inventory records) =
      CommandList.normalRecords inventory records ∧
    ((∀ kind, (inventory.names kind).toList.Nodup) →
      ∀ list, CommandList.ofRecords records inventory.assets = list →
        CommandList.ofRecords (list.toRecords inventory.assets) inventory.assets = list) := by
  simp only [CommandList.normalRecords, CommandList.toRecords_ofRecords]
  refine ⟨List.length_map _, ?_, ?_, ?_⟩
  · intro index record hrecord hselects
    rw [List.getElem?_map, hrecord, Option.map_some,
      record.normal_of_not_selectsAsset inventory.assets hselects]
  · rw [List.map_map]
    exact List.map_congr_left fun record _ ↦ CommandRecord.normal_normal inventory.resolvesByIndex_assets record
  · rintro hnames _ rfl
    rw [CommandList.toRecords_ofRecords, CommandList.ofRecords_map_normal hnames]

/-- Two labels of one name, a destination that names none, and a parent that no asset can be. -/
def repeatedLabel : CommandList :=
  ⟨[.label ⟨0⟩, .goto ⟨2⟩, .label ⟨1⟩, .setRaster 0, .setParent 0xFF, .loop ⟨0⟩ 2],
    ["A", "A", "Away"]⟩

/-- The list comes back with its three handles. -/
theorem normalRecords_normal_form_repeated_label :
    CommandList.ofRecords (repeatedLabel.toRecords idleBody.assets) idleBody.assets =
      repeatedLabel := by
  have hread : CommandList.ofRecords [.label "A", .goto "Away", .label "A",
      .setRaster (some (.named "Idle")), .setParent (.index 300), .loop "A" 2] idleBody.assets =
        repeatedLabel := by decide +kernel
  exact (normalRecords_normal_form _ _).2.2.2 nodup_names_idleBody _ hread

end SpriteBytecode
