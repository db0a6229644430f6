import SpriteBytecode.Proofs.Assembly.Destination
import SpriteBytecode.Proofs.Assembly.Hints
import SpriteBytecode.Proofs.Playback.DeepCopy

/-!
What assembly notes of the names of a list, and what a copy recalls of them. A position is noted
with the name that its last marker gives it, and the start of the stream with its default name if no
marker names it (`get?_labelHints_iff`). A jump to a free label is encoded with the word of a
marker, so that within the stream an instruction begins at its target (`keepsName_of_hasFreeName`),
and its label in a copy has the name noted for that word (`names_recalled`).
-/

set_option autoImplicit false
set_option relaxedAutoImplicit false

namespace SpriteBytecode

/-! ### The order of hints -/

namespace LabelHints

/-- The positions ascend, each with one name. -/
def Ascending (hints : LabelHints) : Prop :=
  hints.entries.Pairwise fun first second ↦ first.1.toNat < second.1.toNat

theorem ascending_empty : empty.Ascending := List.Pairwise.nil

theorem mem_insertEntry {position : UInt16} {name : String} {entries : List (UInt16 × String)}
    {entry : UInt16 × String} (h : entry ∈ insertEntry position name entries) :
    entry = (position, name) ∨ entry ∈ entries := by
  induction entries with
  | nil => exact Or.inl (List.mem_singleton.mp h)
  | cons other rest ih =>
    unfold insertEntry at h
    split at h
    · exact List.mem_cons.mp h
    · split at h
      · exact (List.mem_cons.mp h).imp_right (List.mem_cons_of_mem _)
      · rcases List.mem_cons.mp h with rfl | hrest
        · exact Or.inr List.mem_cons_self
        · exact (ih hrest).imp_right (List.mem_cons_of_mem _)

theorem Ascending.insert {hints : LabelHints} (h : hints.Ascending) (position : UInt16)
    (name : String) : (hints.insert position name).Ascending := by
  obtain ⟨entries⟩ := hints
  unfold Ascending LabelHints.insert at *
  dsimp only at *
  induction entries with
  | nil => exact List.pairwise_singleton _ _
  | cons other rest ih =>
    obtain ⟨hother, hrest⟩ := List.pairwise_cons.mp h
    unfold insertEntry
    split
    · next hlt =>
      refine List.pairwise_cons.mpr ⟨?_, h⟩
      intro entry hentry
      rcases List.mem_cons.mp hentry with rfl | hmem
      · exact hlt
      · exact Nat.lt_trans hlt (hother entry hmem)
    · next hle =>
      split
      · next hsame => exact List.pairwise_cons.mpr ⟨hsame ▸ hother, hrest⟩
      · next hne =>
        refine List.pairwise_cons.mpr ⟨fun entry hentry ↦ ?_, ih hrest⟩
        rcases mem_insertEntry hentry with rfl | hmem
        · have := mt UInt16.toNat_inj.mp hne
          show other.1.toNat < position.toNat
          omega
        · exact hother entry hmem

theorem Ascending.foldl_insert {hints : LabelHints} (h : hints.Ascending)
    (entries : List (UInt16 × String)) :
    (entries.foldl (fun hints (position, name) ↦ hints.insert position name) hints).Ascending := by
  induction entries generalizing hints with
  | nil => exact h
  | cons entry rest ih => exact ih (h.insert _ _)

end LabelHints

/-! ### The last marker of a position -/

/-- What is found last in a list made by index is found at the last index that makes such. -/
theorem find?_reverse_filterMap_range {α : Type} (f : Nat → Option α) (chosen : α → Bool)
    (bound : Nat) (a : α) :
    ((List.range bound).filterMap f).reverse.find? chosen = some a ↔
      ∃ index < bound, f index = some a ∧ chosen a = true ∧
        ∀ later < bound, index < later → ∀ other, f later = some other → chosen other = false := by
  induction bound with
  | zero => simp
  | succ bound ih =>
    have hlast : ((List.range (bound + 1)).filterMap f).reverse.find? chosen =
        ((f bound).filter chosen).or (((List.range bound).filterMap f).reverse.find? chosen) := by
      rw [List.range_succ, List.filterMap_append, List.reverse_append, List.find?_append]
      rcases hbound : f bound with - | other
      · simp [hbound]
      · rcases hchosen : chosen other with - | - <;> simp [hbound, hchosen, Option.filter]
    rw [hlast, Option.or_eq_some_iff, Option.filter_eq_some_iff, Option.filter_eq_none_iff, ih]
    constructor
    · rintro (⟨hindex, ha⟩ | ⟨hbound, index, hlt, hindex, ha, hlater⟩)
      · exact ⟨bound, Nat.lt_succ_self bound, hindex, ha, fun later hlt hbehind ↦
          absurd hbehind (Nat.not_lt_of_le (Nat.le_of_lt_succ hlt))⟩
      · refine ⟨index, Nat.lt_succ_of_lt hlt, hindex, ha, fun later hle hbehind other hother ↦ ?_⟩
        rcases Nat.lt_succ_iff_lt_or_eq.mp hle with hin | rfl
        · exact hlater later hin hbehind other hother
        · exact Bool.eq_false_iff.mpr (hbound other hother)
    · rintro ⟨index, hle, hindex, ha, hlater⟩
      rcases Nat.lt_succ_iff_lt_or_eq.mp hle with hlt | rfl
      · exact Or.inr ⟨fun other hother ↦ Bool.eq_false_iff.mp
            (hlater bound (Nat.lt_succ_self bound) hlt other hother),
          index, hlt, hindex, ha, fun later hin ↦ hlater later (Nat.lt_succ_of_lt hin)⟩
      · exact Or.inl ⟨hindex, ha⟩

/-- The marker at an index with its word offset, where the list begins at word `offset`. -/
def markerAt? (offset : Nat) (commands : List Command) (index : Nat) : Option (LabelId × Nat) :=
  (commands[index]?.bind CommandList.labelOf?).map (·, offset + wordsBefore commands index)

theorem markerOffsets_eq_filterMap (offset : Nat) (commands : List Command) :
    markerOffsets offset commands =
      (List.range commands.length).filterMap (markerAt? offset commands) := by
  induction commands generalizing offset with
  | nil => rfl
  | cons command rest ih =>
    have hrest : markerAt? offset (command :: rest) ∘ Nat.succ =
        markerAt? (offset + command.wordLen) rest := by
      funext index
      simp only [markerAt?, Function.comp_apply, Nat.succ_eq_add_one, List.getElem?_cons_succ,
        wordsBefore, List.take_succ_cons, streamLen_cons, Nat.add_assoc]
    rw [List.length_cons, List.range_succ_eq_map, List.filterMap_cons, List.filterMap_map, hrest,
      ← ih]
    rcases hlabel : command.isLabel with - | -
    · rw [markerOffsets_cons_of_not_label offset rest hlabel]
      cases command with
      | label id => exact absurd hlabel (by simp [Instruction.isLabel])
      | _ => rfl
    · obtain ⟨id, rfl⟩ := eq_label_of_isLabel hlabel
      rfl

namespace CommandList

/-- The command at the index is a marker that names the position: it stands there, and its label has
this name, which pins no position. -/
def NamesAt (list : CommandList) (index : Nat) (position : UInt16) (name : String) : Prop :=
  ∃ id, list.get? index = some (.label id) ∧ list.wordOffset? index = some position.toNat ∧
    list.labelName? id = some name ∧ LabelName.unescape? name = none

/-- The last marker that names the position gives it this name. -/
def LastNames (list : CommandList) (position : UInt16) (name : String) : Prop :=
  ∃ index, list.NamesAt index position name ∧
    ∀ later, index < later → ∀ other, ¬ list.NamesAt later position other

variable {list : CommandList}

/-- What the marker at an index names. -/
def hintAt? (list : CommandList) (index : Nat) : Option (UInt16 × String) :=
  (markerAt? 0 list.commands index).bind (hintOf? (list.labelNames.toArray.map freeName?))

theorem hintAt?_eq_some_iff (list : CommandList) (index : Nat) (position : UInt16)
    (name : String) :
    list.hintAt? index = some (position, name) ↔ list.NamesAt index position name := by
  rw [hintAt?, Option.bind_eq_some_iff]
  simp only [hintOf?_eq_some_iff, markerAt?, Option.map_eq_some_iff, Option.bind_eq_some_iff,
    labelOf?_eq_some_iff]
  constructor
  · rintro ⟨_, ⟨id, ⟨_, hget, rfl⟩, rfl⟩, hname, hfree, hoffset⟩
    refine ⟨id, hget, ?_, hname, hfree⟩
    rw [wordOffset?_of_get? hget, ← hoffset, Nat.zero_add]
  · rintro ⟨id, hget, hoffset, hname, hfree⟩
    rw [wordOffset?_of_get? hget, Option.some.injEq] at hoffset
    exact ⟨_, ⟨id, ⟨_, hget, rfl⟩, rfl⟩, hname, hfree, (Nat.zero_add _).trans hoffset⟩

theorem hintEntries_eq_filterMap (list : CommandList) :
    list.hintEntries (markerOffsets 0 list.commands) =
      (List.range list.length).filterMap list.hintAt? := by
  rw [hintEntries, markerOffsets_eq_filterMap, List.filterMap_filterMap]
  rfl

theorem NamesAt.lt_length {index : Nat} {position : UInt16} {name : String}
    (h : list.NamesAt index position name) : index < list.length := by
  obtain ⟨id, hget, -⟩ := h
  exact (List.getElem?_eq_some_iff.mp hget).1

theorem find?_hintEntries_eq_some_iff (list : CommandList) (position : UInt16) (name : String) :
    ((list.hintEntries (markerOffsets 0 list.commands)).reverse.find?
        (·.1 == position)).map (·.2) = some name ↔ list.LastNames position name := by
  rw [hintEntries_eq_filterMap, Option.map_eq_some_iff]
  simp only [find?_reverse_filterMap_range]
  constructor
  · rintro ⟨⟨found, _⟩, ⟨index, -, hindex, hfound, hlater⟩, rfl⟩
    obtain rfl : found = position := eq_of_beq hfound
    refine ⟨index, (hintAt?_eq_some_iff _ _ _ _).mp hindex, fun later hbehind other hother ↦ ?_⟩
    have hunlike := hlater later hother.lt_length hbehind (found, other)
      ((hintAt?_eq_some_iff _ _ _ _).mpr hother)
    exact beq_eq_false_iff_ne.mp hunlike rfl
  · rintro ⟨index, hindex, hlater⟩
    refine ⟨(position, name), ⟨index, hindex.lt_length, (hintAt?_eq_some_iff _ _ _ _).mpr hindex,
      beq_self_eq_true position, ?_⟩, rfl⟩
    rintro later - hbehind ⟨found, other⟩ hother
    refine beq_eq_false_iff_ne.mpr ?_
    rintro rfl
    exact hlater later hbehind other ((hintAt?_eq_some_iff _ _ _ _).mp hother)

theorem find?_hintEntries_eq_none_iff (list : CommandList) (position : UInt16) :
    ((list.hintEntries (markerOffsets 0 list.commands)).reverse.find?
        (·.1 == position)).map (·.2) = none ↔
      ∀ index name, ¬ list.NamesAt index position name := by
  rw [hintEntries_eq_filterMap, Option.map_eq_none_iff, List.find?_eq_none]
  simp only [List.mem_reverse, List.mem_filterMap, List.mem_range, beq_iff_eq]
  constructor
  · intro h index name hnames
    exact h (position, name)
      ⟨index, hnames.lt_length, (hintAt?_eq_some_iff _ _ _ _).mpr hnames⟩ rfl
  · rintro h ⟨found, name⟩ ⟨index, -, hindex⟩ rfl
    exact h index name ((hintAt?_eq_some_iff _ _ _ _).mp hindex)

/-- A position has the name that its last marker gives it. The start has its default name if no
marker names it, and no other position has one then. -/
theorem get?_labelHints_iff (list : CommandList) (position : UInt16) (name : String) :
    (list.labelHints (markerOffsets 0 list.commands)).get? position = some name ↔
      list.LastNames position name ∨
        position = 0 ∧ name = LabelName.start ∧ ∀ index other, ¬ list.NamesAt index 0 other := by
  rw [get?_labelHints, Option.or_eq_some_iff, find?_hintEntries_eq_some_iff,
    find?_hintEntries_eq_none_iff]
  refine or_congr_right ?_
  constructor
  · rintro ⟨hnone, hstart⟩
    split at hstart
    · next hzero => exact ⟨hzero, (Option.some.inj hstart).symm, hzero ▸ hnone⟩
    · exact absurd hstart (by simp)
  · rintro ⟨rfl, rfl, hnone⟩
    exact ⟨hnone, if_pos rfl⟩

theorem ascending_labelHints (list : CommandList) (markers : List (LabelId × Nat)) :
    (list.labelHints markers).Ascending :=
  (LabelHints.ascending_empty.insert _ _).foldl_insert _

/-- The label is in the arena, and its name pins no position. -/
def HasFreeName (list : CommandList) (id : LabelId) : Prop :=
  ∃ name, list.labelName? id = some name ∧ LabelName.unescape? name = none

end CommandList

/-! ### Labels of a copy -/

section Copied

variable {list : CommandList} {raws : List RawInstruction} {words : List UInt16}
  {hints : LabelHints} {id : LabelId} {target : UInt16}

/-- Where a jump to a free label leads within the stream an instruction begins. -/
theorem keepsName_of_hasFreeName
    (hraws : List.Forall₂ (fun command raw ↦ command.mapTargetM list.jumpWord = .ok raw)
      (withoutLabels list.commands) raws)
    (hword : list.jumpWord id = .ok target) (hfree : list.HasFreeName id)
    (hlt : target.toNat < list.wordLen) : KeepsName raws target := by
  obtain ⟨own, hown, hpin⟩ := hfree
  have hmarker := mem_markerOffsets_of_jumpWord hword fun name hname ↦ by
    obtain rfl := Option.some.inj (hown.symm.trans hname)
    exact hpin
  have hlanding : landing target.toNat raws = target.toNat := by
    rw [landing_resolved hraws]
    exact landing_of_beginsAt
      ((beginsAt_iff_instruction_or_marker _ _).mpr (Or.inr ⟨id, hmarker⟩))
  have hlength : streamLen raws = list.wordLen := by
    rw [streamLen_of_forall₂_mapTargetM hraws, streamLen_withoutLabels,
      CommandList.wordLen, wordCount_eq_streamLen]
  rcases landing_eq_streamLen_or_beginsAt target.toNat raws with hend | hbegins
  · rw [hlanding, hlength] at hend
    exact absurd hlt (Nat.not_lt_of_le (Nat.le_of_eq hend.symm))
  · exact Or.inl (hlanding ▸ hbegins)

variable (hspells : Spells raws words) (htarget : target ∈ jumpTargets raws)

include hspells htarget

/-- A label of the copy that is free has kept its name. -/
theorem keepsName_of_hasFreeName_copy
    (hfree : (Disassembly.ofInstructions hints raws).list.HasFreeName (labelOf raws target)) :
    KeepsName raws target := by
  obtain ⟨own, hown, hpin⟩ := hfree
  rw [labelName?_ofInstructions hspells.isLabel_eq_false hints htarget] at hown
  obtain rfl := Option.some.inj hown
  by_contra hkeeps
  rw [targetName, if_neg hkeeps, LabelName.unescape?_escape] at hpin
  exact absurd hpin (by simp)

theorem labelName?_of_keepsName (hkeeps : KeepsName raws target) {name : String}
    (hhint : hints.get? target = some name) (hname : name ≠ "") :
    (Disassembly.ofInstructions hints raws).list.labelName? (labelOf raws target) = some name := by
  rw [labelName?_ofInstructions hspells.isLabel_eq_false hints htarget, targetName, if_pos hkeeps,
    LabelName.ofPosition_of_get? hhint hname]

end Copied

/-- Assembly notes at every position the name that its last free marker gives it, and the default
name of the start if no marker names that. A copy has the jumps of the list in its order, encoded
alike, and if the label of one of them is free, in the list or in the copy, and leads into the
stream, then in the copy it has the name that is noted at its target, unless that is empty. -/
theorem names_recalled {list : CommandList} {assembled : Assembled}
    (hassembled : assemble list = .ok assembled) :
    assembled.hints.Ascending ∧
    (∀ position name, assembled.hints.get? position = some name ↔
      list.LastNames position name ∨
        position = 0 ∧ name = LabelName.start ∧ ∀ index other, ¬ list.NamesAt index 0 other) ∧
    ∃ copy handles, list.deepCopy = .ok copy ∧
      withoutLabels copy.commands = (withoutLabels list.commands).map (·.mapTarget handles) ∧
      ∀ command ∈ list.commands, ∀ id, command.jumpTarget? = some id →
        ∃ target, list.jumpWord id = .ok target ∧ copy.jumpWord (handles id) = .ok target ∧
          (list.HasFreeName id ∨ copy.HasFreeName (handles id) → target.toNat < list.wordLen →
            ∀ name, assembled.hints.get? target = some name → name ≠ "" →
              copy.labelName? (handles id) = some name) := by
  obtain ⟨⟨raws, hraws, hspells⟩, hhints⟩ := (assemble_eq_ok_iff _ _).mp hassembled
  refine ⟨hhints ▸ list.ascending_labelHints _, fun position name ↦ ?_,
    (Disassembly.ofInstructions assembled.hints raws).list, copiedLabel list raws, ?_, ?_, ?_⟩
  · rw [hhints, CommandList.get?_labelHints_iff]
  · rw [CommandList.deepCopy, hassembled]
    exact (disassemble_eq_ok_iff _ _ _).mpr ⟨raws, hspells, rfl⟩
  · rw [withoutLabels_ofInstructions hspells.isLabel_eq_false,
      map_labelOf_eq_map_copiedLabel hraws]
  · intro command hcommand id hjump
    obtain ⟨target, htarget, hword⟩ := mem_jumpTargets_of_jump hraws hcommand hjump
    rw [copiedLabel_of_jumpWord raws hword]
    refine ⟨target, hword, ?_, fun hfree hlt name hhint hname ↦ ?_⟩
    · rw [jumpWord_ofInstructions_iff hspells _ htarget]
      rintro ⟨-, name, position, hhint, hpin, -⟩
      rw [CommandList.unescape?_of_hint (hhints ▸ hhint)] at hpin
      exact absurd hpin (by simp)
    · refine labelName?_of_keepsName hspells htarget ?_ hhint hname
      rcases hfree with hlist | hcopy
      · exact keepsName_of_hasFreeName hraws hword hlist hlt
      · exact keepsName_of_hasFreeName_copy hspells htarget hcopy

/-- Two labels at the start, and a goto to the first. -/
def namedTwice : CommandList :=
  ⟨[.label ⟨0⟩, .label ⟨1⟩, .wait 2, .goto ⟨0⟩], ["First", "Second"]⟩

/-- Of two labels at the start the second one is noted, and a copy has its name for the goto that
the list has to the first one. -/
theorem names_recalled_shared_start :
    assemble namedTwice = .ok ⟨[0x0002, 0x2000], ⟨[(0, "Second")]⟩⟩ ∧
    ∃ (copy : CommandList) (handles : LabelId → LabelId), namedTwice.deepCopy = .ok copy ∧
      withoutLabels copy.commands = [.wait 2, .goto (handles ⟨0⟩)] ∧
      copy.labelName? (handles ⟨0⟩) = some "Second" := by
  have hassembled : assemble namedTwice = .ok ⟨[0x0002, 0x2000], ⟨[(0, "Second")]⟩⟩ := by
    decide +kernel
  obtain ⟨-, -, copy, handles, hcopy, hcommands, hnames⟩ := names_recalled hassembled
  obtain ⟨target, hword, -, hname⟩ := hnames (.goto ⟨0⟩) (by decide) ⟨0⟩ rfl
  have hzero : namedTwice.jumpWord ⟨0⟩ = .ok 0 := by decide +kernel
  obtain rfl := Except.ok.inj (hzero.symm.trans hword)
  exact ⟨hassembled, copy, handles, hcopy, hcommands,
    hname (Or.inl ⟨"First", rfl, by decide⟩) (by decide) "Second" rfl (by decide)⟩

end SpriteBytecode
