import SpriteBytecode.Proofs.Disassembly.Placement
import SpriteBytecode.Proofs.Record.RoundTrip

/-!
From a stream to records and back. Records know labels by name, and the names that a disassembled
list gives to its targets come from hints and from positions. Two targets of one name are read back
as one label, which is encoded with one word (`not_assemble_ofRecords_of_taken`). Where hints are
well named, this happens only if a hint is the very name that another target without a hint is given
after its position (`eq_or_taken_of_targetName_eq`). Otherwise records tell the labels of the list
apart (`exportable_ofInstructions`), and the stream comes back.
-/

set_option autoImplicit false
set_option relaxedAutoImplicit false

namespace SpriteBytecode

/-- Every hint is a name of its own that pins no position. -/
structure LabelHints.WellNamed (hints : LabelHints) : Prop where
  nonempty : ∀ position name, hints.get? position = some name → name ≠ ""
  free : ∀ position name, hints.get? position = some name → LabelName.unescape? name = none
  distinct : ∀ position other name, hints.get? position = some name →
    hints.get? other = some name → position = other

/-- The name that a target is given after its position is the hint of another one. -/
structure NameTaken (hints : LabelHints) (instructions : List RawInstruction)
    (target other : UInt16) : Prop where
  keeps : KeepsName instructions target
  otherKeeps : KeepsName instructions other
  unhinted : hints.get? target = none
  taken : hints.get? other = some (LabelName.ofPosition.unhinted target)

theorem wellNamed_singleton (position : UInt16) {name : String} (hname : name ≠ "")
    (hfree : LabelName.unescape? name = none) : (LabelHints.mk [(position, name)]).WellNamed := by
  have hget {other : UInt16} {given : String}
      (h : (LabelHints.mk [(position, name)]).get? other = some given) :
      other = position ∧ name = given := by
    rw [LabelHints.get?, LabelHints.lookup_cons_ite] at h
    split at h
    · next hother => exact ⟨hother, Option.some.inj h⟩
    · cases h
  refine ⟨?_, ?_, ?_⟩
  · intro other given h
    exact (hget h).2 ▸ hname
  · intro other given h
    exact (hget h).2 ▸ hfree
  · intro first second given hfirst hsecond
    rw [(hget hfirst).1, (hget hsecond).1]

/-! ### Names of targets -/

section Names

variable {hints : LabelHints} {instructions : List RawInstruction} {target other : UInt16}

theorem targetName_eq_of_taken (h : NameTaken hints instructions target other) :
    targetName hints instructions target = targetName hints instructions other := by
  rw [targetName, if_pos h.keeps, targetName, if_pos h.otherKeeps,
    LabelName.ofPosition_of_get?_eq_none h.unhinted,
    LabelName.ofPosition_of_get? h.taken (LabelName.unhinted_ne_empty target)]

theorem unescape?_ofPosition_of_wellNamed (hhints : hints.WellNamed) (position : UInt16) :
    LabelName.unescape? (LabelName.ofPosition hints position) = none := by
  rw [LabelName.unescape?_ofPosition, Option.bind_eq_none_iff]
  exact fun name hname ↦ hhints.free position name hname

/-- Two targets have one name only if the name that one is given is the hint of the other. -/
theorem eq_or_taken_of_targetName_eq (hhints : hints.WellNamed)
    (h : targetName hints instructions target = targetName hints instructions other) :
    target = other ∨ NameTaken hints instructions target other ∨
      NameTaken hints instructions other target := by
  have hpins := congrArg LabelName.unescape? h
  unfold targetName at h hpins
  by_cases hkeeps : KeepsName instructions target
  · by_cases hother : KeepsName instructions other
    · rw [if_pos hkeeps, if_pos hother] at h
      rcases hhint : hints.get? target with - | name
      · rw [LabelName.ofPosition_of_get?_eq_none hhint] at h
        rcases hotherHint : hints.get? other with - | otherName
        · rw [LabelName.ofPosition_of_get?_eq_none hotherHint, LabelName.unhinted_inj] at h
          exact Or.inl h
        · rw [LabelName.ofPosition_of_get? hotherHint (hhints.nonempty _ _ hotherHint)] at h
          exact Or.inr (Or.inl ⟨hkeeps, hother, hhint, hotherHint.trans (congrArg some h.symm)⟩)
      · rw [LabelName.ofPosition_of_get? hhint (hhints.nonempty _ _ hhint)] at h
        rcases hotherHint : hints.get? other with - | otherName
        · rw [LabelName.ofPosition_of_get?_eq_none hotherHint] at h
          exact Or.inr (Or.inr ⟨hother, hkeeps, hotherHint, hhint.trans (congrArg some h)⟩)
        · rw [LabelName.ofPosition_of_get? hotherHint (hhints.nonempty _ _ hotherHint)] at h
          exact Or.inl (hhints.distinct target other name hhint (hotherHint.trans (h ▸ rfl)))
    · rw [if_pos hkeeps, if_neg hother, unescape?_ofPosition_of_wellNamed hhints,
        LabelName.unescape?_escape] at hpins
      cases hpins
  · by_cases hother : KeepsName instructions other
    · rw [if_neg hkeeps, if_pos hother, unescape?_ofPosition_of_wellNamed hhints,
        LabelName.unescape?_escape] at hpins
      cases hpins
    · rw [if_neg hkeeps, if_neg hother, LabelName.unescape?_escape, LabelName.unescape?_escape,
        Option.some.injEq] at hpins
      exact Or.inl hpins

end Names

/-! ### Records of disassembled lists -/

section Disassembled

variable {instructions : List RawInstruction} {words : List UInt16}
  (hspells : Spells instructions words) (hints : LabelHints)

include hspells

theorem exportName_ofInstructions {target : UInt16} (htarget : target ∈ jumpTargets instructions) :
    (Disassembly.ofInstructions hints instructions).list.exportName (labelOf instructions target) =
      targetName hints instructions target := by
  rw [CommandList.exportName, labelName?_ofInstructions hspells.isLabel_eq_false hints htarget,
    Option.getD_some]

theorem exists_target_of_refers {id : LabelId}
    (h : (Disassembly.ofInstructions hints instructions).list.Refers id) :
    ∃ target ∈ jumpTargets instructions, labelOf instructions target = id := by
  rcases CommandList.mem_labels_or_jump_of_refers h with hlabel | ⟨command, hcommand, hjump⟩
  · exact (mem_labels_ofInstructions_iff hspells hints id).mp hlabel
  · exact exists_target_of_jump hspells hints hcommand hjump

theorem refers_labelOf {target : UInt16} (htarget : target ∈ jumpTargets instructions) :
    (Disassembly.ofInstructions hints instructions).list.Refers (labelOf instructions target) :=
  CommandList.refers_of_mem_labels
    ((mem_labels_ofInstructions_iff hspells hints _).mpr ⟨target, htarget, rfl⟩)

/-- Where targets have names of their own, records tell their labels apart. -/
theorem exportable_ofInstructions
    (hnames : ∀ target ∈ jumpTargets instructions, ∀ other ∈ jumpTargets instructions,
      targetName hints instructions target = targetName hints instructions other →
        target = other) :
    (Disassembly.ofInstructions hints instructions).list.Exportable where
  own id hid := by
    obtain ⟨target, htarget, rfl⟩ := exists_target_of_refers hspells hints hid
    have hname := labelName?_ofInstructions hspells.isLabel_eq_false hints htarget
    exact (List.getElem?_eq_some_iff.mp hname).1
  once := nodup_labels_ofInstructions hspells hints
  distinct id hid other hother hsame := by
    obtain ⟨target, htarget, rfl⟩ := (mem_labels_ofInstructions_iff hspells hints id).mp hid
    obtain ⟨second, hsecond, rfl⟩ := (mem_labels_ofInstructions_iff hspells hints other).mp hother
    rw [labelName?_ofInstructions hspells.isLabel_eq_false hints htarget,
      labelName?_ofInstructions hspells.isLabel_eq_false hints hsecond, Option.some.injEq] at hsame
    rw [hnames target htarget second hsecond hsame]
  dangling command hcommand id hjump hlabel := by
    obtain ⟨target, htarget, hid⟩ := exists_target_of_jump hspells hints hcommand hjump
    have hplaced := (mem_labels_ofInstructions_iff hspells hints id).mpr ⟨target, htarget, hid⟩
    exact absurd hplaced hlabel

variable {inventory : Inventory} (hassets : ∀ kind, (inventory.names kind).toList.Nodup)

include hassets

/-- The words come back through records exactly if the label that stands for a target there is
encoded with the target. -/
theorem assemble_ofRecords_words_eq_iff {list : CommandList}
    (hlist : (Disassembly.ofInstructions hints instructions).list = list) :
    (∃ assembled, assemble (.ofRecords (list.toRecords inventory.assets) inventory.assets) =
        .ok assembled ∧ assembled.words = words) ↔
      ∀ target ∈ jumpTargets instructions,
        (CommandList.ofRecords (list.toRecords inventory.assets) inventory.assets).jumpWord
          (list.importedLabel inventory.assets (labelOf instructions target)) = .ok target := by
  subst hlist
  refine assemble_words_eq_iff_of_withoutLabels hspells ?_
  rw [CommandList.withoutLabels_ofRecords _ hassets,
    withoutLabels_ofInstructions hspells.isLabel_eq_false, List.map_map]
  refine List.map_congr_left fun i _ ↦ ?_
  rw [Function.comp_apply, Instruction.mapTarget_mapTarget]

/-- Where one target has taken the name of another one, both become one label, and the words do not
come back. -/
theorem not_assemble_ofRecords_of_taken {target other : UInt16}
    (htarget : target ∈ jumpTargets instructions) (hother : other ∈ jumpTargets instructions)
    (htaken : NameTaken hints instructions target other) :
    ¬ ∃ assembled, assemble (.ofRecords
        ((Disassembly.ofInstructions hints instructions).list.toRecords inventory.assets)
          inventory.assets) = .ok assembled ∧ assembled.words = words := by
  rw [assemble_ofRecords_words_eq_iff hspells hints hassets rfl]
  intro hwords
  have hname := targetName_eq_of_taken htaken
  rw [← exportName_ofInstructions hspells hints htarget,
    ← exportName_ofInstructions hspells hints hother] at hname
  have hlabel := (CommandList.importedLabel_eq_iff _ inventory.assets
    (refers_labelOf hspells hints htarget)).mpr hname
  have hword := hwords target htarget
  rw [hlabel, hwords other hother, Except.ok.injEq] at hword
  have hhint := htaken.taken
  rw [hword, htaken.unhinted] at hhint
  cases hhint

end Disassembled

/-- With well-named hints, the records of a disassembled list assemble to its own stream unless the
name that a jump target without a hint is given after its position is the hint of another jump
target. -/
theorem assemble_ofRecords_disassemble_iff {words : List UInt16} {hints : LabelHints}
    {list : CommandList} {instructions : List RawInstruction} {inventory : Inventory}
    (hstream : decodeStream 0 words = .ok instructions)
    (hlist : disassemble words hints = .ok list) (hhints : hints.WellNamed)
    (hassets : ∀ kind, (inventory.names kind).toList.Nodup) :
    ((∃ assembled, assemble (.ofRecords (list.toRecords inventory.assets) inventory.assets) =
        .ok assembled ∧ assembled.words = words) ↔
      ¬ ∃ target ∈ jumpTargets instructions, ∃ other ∈ jumpTargets instructions,
        NameTaken hints instructions target other) ∧
    ((∀ position other, hints.get? other = some (LabelName.ofPosition.unhinted position) →
        other = position) →
      ∃ assembled, assemble (.ofRecords (list.toRecords inventory.assets) inventory.assets) =
        .ok assembled ∧ assembled.words = words) := by
  have hspells : Spells instructions words := (decodeStream_eq_ok_iff 0 _ _).mp hstream
  obtain ⟨decoded, hdecoded, rfl⟩ := (disassemble_eq_ok_iff _ _ _).mp hlist
  obtain rfl := hspells.instructions_unique hdecoded
  have hiff : (∃ assembled, assemble (.ofRecords
        ((Disassembly.ofInstructions hints instructions).list.toRecords inventory.assets)
          inventory.assets) = .ok assembled ∧ assembled.words = words) ↔
      ¬ ∃ target ∈ jumpTargets instructions, ∃ other ∈ jumpTargets instructions,
        NameTaken hints instructions target other := by
    constructor
    · rintro h ⟨target, htarget, other, hother, htaken⟩
      exact not_assemble_ofRecords_of_taken hspells hints hassets htarget hother htaken h
    · intro htaken
      have hexport := exportable_ofInstructions hspells hints fun target htarget other hother h ↦ by
        rcases eq_or_taken_of_targetName_eq hhints h with hsame | hfirst | hsecond
        · exact hsame
        · exact absurd ⟨target, htarget, other, hother, hfirst⟩ htaken
        · exact absurd ⟨other, hother, target, htarget, hsecond⟩ htaken
      rw [(hexport.renumbers hassets).assemble_eq, assemble_words_eq_iff hspells rfl]
      intro target htarget
      rw [jumpWord_ofInstructions_iff hspells hints htarget]
      rintro ⟨-, name, position, hhint, hpin, -⟩
      rw [hhints.free target name hhint] at hpin
      cases hpin
  refine ⟨hiff, fun hown ↦ hiff.mpr ?_⟩
  rintro ⟨target, -, other, -, htaken⟩
  have hhint := htaken.taken
  rw [hown target other hhint, htaken.unhinted] at hhint
  cases hhint

theorem nodup_names_empty (kind : AssetKind) : (Inventory.empty.names kind).toList.Nodup := by
  cases kind <;> exact List.nodup_nil

theorem jumpTargets_two_gotos : jumpTargets [.goto 0, .goto 1] = [0, 1] := by decide

/-- Two gotos, each to its own start. -/
theorem disassemble_two_gotos (hints : LabelHints) :
    disassemble [0x2000, 0x2001] hints =
      .ok ⟨[.label ⟨0⟩, .goto ⟨0⟩, .label ⟨1⟩, .goto ⟨1⟩],
        [LabelName.ofPosition hints 0, LabelName.ofPosition hints 1]⟩ := by
  have hstream : decodeStream 0 [0x2000, 0x2001] = .ok [.goto 0, .goto 1] := by decide +kernel
  have hperm : [0, 1].Perm (jumpTargets [.goto 0, .goto 1]) := by rw [jumpTargets_two_gotos]
  have hfirst : targetName hints [.goto 0, .goto 1] 0 = LabelName.ofPosition hints 0 :=
    if_pos (by decide)
  have hsecond : targetName hints [.goto 0, .goto 1] 1 = LabelName.ofPosition hints 1 :=
    if_pos (by decide)
  rw [disassemble_of_ascending hstream hperm (by decide), jumpTargets_two_gotos, ← hfirst, ← hsecond]
  rfl

/-- A second goto that is named for itself leaves the first one its name, and the stream comes
back. -/
theorem assemble_ofRecords_disassemble_two_gotos :
    ∃ assembled, assemble (.ofRecords
        ((CommandList.mk [.label ⟨0⟩, .goto ⟨0⟩, .label ⟨1⟩, .goto ⟨1⟩] ["Start", "End"]).toRecords
          Inventory.empty.assets) Inventory.empty.assets) = .ok assembled ∧
      assembled.words = [0x2000, 0x2001] := by
  have hstream : decodeStream 0 [0x2000, 0x2001] = .ok [.goto 0, .goto 1] := by decide +kernel
  have hlist := disassemble_two_gotos ⟨[(1, "End")]⟩
  rw [show LabelName.ofPosition ⟨[(1, "End")]⟩ 0 = "Start" by decide,
    show LabelName.ofPosition ⟨[(1, "End")]⟩ 1 = "End" by decide] at hlist
  refine (assemble_ofRecords_disassemble_iff hstream hlist
    (wellNamed_singleton 1 (by decide) (by decide)) nodup_names_empty).1.mpr ?_
  rintro ⟨target, htarget, other, hother, htaken⟩
  have hhint := htaken.taken
  rw [jumpTargets_two_gotos, List.mem_pair] at htarget hother
  rcases htarget with rfl | rfl <;> rcases hother with rfl | rfl <;>
    exact absurd hhint (by decide)

/-- A second goto with the name that the first one is given: both are read back as one. -/
theorem not_assemble_ofRecords_disassemble :
    ¬ ∀ (words : List UInt16) (hints : LabelHints) (list : CommandList) (inventory : Inventory),
      disassemble words hints = .ok list → hints.WellNamed →
      (∀ kind, (inventory.names kind).toList.Nodup) →
      ∃ assembled, assemble (.ofRecords (list.toRecords inventory.assets) inventory.assets) =
        .ok assembled ∧ assembled.words = words := by
  intro h
  have hmerged : assemble (.ofRecords
      ((CommandList.mk [.label ⟨0⟩, .goto ⟨0⟩, .label ⟨1⟩, .goto ⟨1⟩] ["Start", "Start"]).toRecords
        Inventory.empty.assets) Inventory.empty.assets) =
      .ok ⟨[0x2000, 0x2000], ⟨[(0, "Start"), (1, "Start")]⟩⟩ := by decide +kernel
  have hlist := disassemble_two_gotos ⟨[(1, "Start")]⟩
  rw [show LabelName.ofPosition ⟨[(1, "Start")]⟩ 0 = "Start" by decide,
    show LabelName.ofPosition ⟨[(1, "Start")]⟩ 1 = "Start" by decide] at hlist
  obtain ⟨assembled, hassembled, hwords⟩ := h _ _ _ .empty hlist
    (wellNamed_singleton 1 (by decide) (by decide)) nodup_names_empty
  cases hmerged.symm.trans hassembled
  exact absurd hwords (by decide)

end SpriteBytecode
