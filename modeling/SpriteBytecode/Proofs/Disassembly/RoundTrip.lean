import SpriteBytecode.Proofs.Assembly.Encoding
import SpriteBytecode.Proofs.Disassembly.Layout

/-!
Disassembling a stream and assembling the list again. A stream's list can be read off its jump
targets in ascending order (`disassemble_of_ascending`). A list with the commands of a disassembled
one gives the stream back exactly if every label's jump word is the target that the label was made
for (`assemble_words_eq_iff`). The jump word can only go astray where a hint that pins another
position has become a label's name (`jumpWord_ofInstructions_iff`).
-/

set_option autoImplicit false
set_option relaxedAutoImplicit false

namespace SpriteBytecode

theorem disassemble_eq_ok_iff (words : List UInt16) (hints : LabelHints) (list : CommandList) :
    disassemble words hints = .ok list ↔
      ∃ instructions, Spells instructions words ∧
        (Disassembly.ofInstructions hints instructions).list = list := by
  rw [disassemble, Disassembly.ofStream]
  simp only [map_eq_ok_iff, decodeStream_eq_ok_iff]
  constructor
  · rintro ⟨_, ⟨instructions, hspells, rfl⟩, hlist⟩
    exact ⟨instructions, hspells, hlist⟩
  · rintro ⟨instructions, hspells, hlist⟩
    exact ⟨_, ⟨instructions, hspells, rfl⟩, hlist⟩

section Decoded

variable {words : List UInt16} {instructions : List RawInstruction}
  (hstream : decodeStream 0 words = .ok instructions)

include hstream

theorem list_ofInstructions_of_disassemble {hints : LabelHints} {list : CommandList}
    (hlist : disassemble words hints = .ok list) :
    Spells instructions words ∧ (Disassembly.ofInstructions hints instructions).list = list := by
  have hspells : Spells instructions words := (decodeStream_eq_ok_iff 0 _ _).mp hstream
  obtain ⟨decoded, hdecoded, hlist⟩ := (disassemble_eq_ok_iff _ _ _).mp hlist
  obtain rfl := hspells.instructions_unique hdecoded
  exact ⟨hspells, hlist⟩

/-- The list of a stream, from its jump targets in ascending order. -/
theorem disassemble_of_ascending {targets : List UInt16}
    (hperm : targets.Perm (jumpTargets instructions))
    (hsorted : targets.Pairwise fun a b ↦ a.toNat < b.toNat) (hints : LabelHints) :
    disassemble words hints =
      .ok ⟨insertMarkers instructions targets
          (instructions.map (·.mapTarget (labelOf instructions))),
        (jumpTargets instructions).map (targetName hints instructions)⟩ := by
  have hspells := (decodeStream_eq_ok_iff 0 _ _).mp hstream
  rw [disassemble_eq_ok_iff]
  refine ⟨instructions, hspells, ?_⟩
  rw [← ascendingTargets_eq hperm hsorted, ← commands_ofInstructions hints,
    ← labelNames_ofInstructions hspells.isLabel_eq_false]

end Decoded

theorem landing_of_keepsName {instructions : List RawInstruction} {target : UInt16}
    (h : KeepsName instructions target) : landing target.toNat instructions = target.toNat := by
  rcases h with hbegins | ⟨hend, -⟩
  · exact landing_of_beginsAt hbegins
  · rw [hend]
    exact landing_streamLen instructions

/-- A list with the instructions of a stream, and some handle for each target, assembles to the
stream exactly if every such handle is encoded with its target. -/
theorem assemble_words_eq_iff_of_withoutLabels {instructions : List RawInstruction}
    {words : List UInt16} {list : CommandList} {f : UInt16 → LabelId}
    (hspells : Spells instructions words)
    (hinstructions : withoutLabels list.commands = instructions.map (·.mapTarget f)) :
    (∃ assembled, assemble list = .ok assembled ∧ assembled.words = words) ↔
      ∀ target ∈ jumpTargets instructions, list.jumpWord (f target) = .ok target := by
  have hresolved : List.Forall₂ (fun command raw ↦ command.mapTargetM list.jumpWord = .ok raw)
        (withoutLabels list.commands) instructions ↔
      ∀ target ∈ jumpTargets instructions, list.jumpWord (f target) = .ok target := by
    rw [hinstructions, List.forall₂_map_left_iff, List.forall₂_same]
    constructor
    · intro h target htarget
      obtain ⟨i, hi, hjump⟩ := (mem_jumpTargets_iff _ _).mp htarget
      exact (Instruction.mapTargetM_mapTarget_eq_ok_iff _ _ (hspells.isLabel_eq_false i hi)).mp
        (h i hi) target hjump
    · intro h i hi
      refine (Instruction.mapTargetM_mapTarget_eq_ok_iff _ _
        (hspells.isLabel_eq_false i hi)).mpr fun target hjump ↦ ?_
      exact h target ((mem_jumpTargets_iff _ _).mpr ⟨i, hi, hjump⟩)
  rw [← hresolved]
  constructor
  · rintro ⟨assembled, hassembled, rfl⟩
    obtain ⟨⟨raws, hraws, hraw⟩, -⟩ := (assemble_eq_ok_iff _ _).mp hassembled
    rwa [hspells.instructions_unique hraw]
  · intro h
    exact ⟨⟨words, list.labelHints (markerOffsets 0 list.commands)⟩,
      (assemble_eq_ok_iff _ _).mpr ⟨⟨instructions, h, hspells⟩, rfl⟩, rfl⟩

section Marked

variable {instructions : List RawInstruction} {words : List UInt16} {hints : LabelHints}
  {list : CommandList} (hspells : Spells instructions words)
  (hcommands : list.commands = (Disassembly.ofInstructions hints instructions).list.commands)

include hspells hcommands

theorem mem_markerOffsets_of_commands_eq (id : LabelId) (position : Nat) :
    (id, position) ∈ markerOffsets 0 list.commands ↔
      ∃ target ∈ jumpTargets instructions,
        labelOf instructions target = id ∧ landing target.toNat instructions = position := by
  have hperm := markerOffsets_ofInstructions_perm hspells.isLabel_eq_false hints
  rw [hcommands, hperm.mem_iff, List.mem_map]
  simp only [Prod.mk.injEq]

theorem lastOffset?_of_commands_eq {target : UInt16} (htarget : target ∈ jumpTargets instructions) :
    lastOffset? (markerOffsets 0 list.commands) (labelOf instructions target) =
      some (landing target.toNat instructions) := by
  have hmem := mem_markerOffsets_of_commands_eq hspells hcommands
  apply lastOffset?_eq_some
  · exact (hmem _ _).mpr ⟨target, htarget, rfl, rfl⟩
  · intro position hposition
    obtain ⟨other, hother, hid, rfl⟩ := (hmem _ _).mp hposition
    rw [(labelOf_inj hother).mp hid]

/-- What a target's label is encoded with, by what its name pins. -/
theorem jumpWord_of_commands_eq {target : UInt16} (htarget : target ∈ jumpTargets instructions)
    {name : String} (hname : list.labelName? (labelOf instructions target) = some name)
    (position : UInt16) :
    list.jumpWord (labelOf instructions target) = .ok position ↔
      LabelName.unescape? name = some position ∨
        LabelName.unescape? name = none ∧ landing target.toNat instructions = position.toNat := by
  rw [jumpWord_of_labelName? hname, lastOffset?_of_commands_eq hspells hcommands htarget]
  cases hpin : LabelName.unescape? name with
  | none => simp [jumpPosition_eq_ok_iff hpin]
  | some pinned => simp [jumpPosition_of_unescape? hpin]

/-- The words come back exactly if every label is encoded with the target it was made for. -/
theorem assemble_words_eq_iff :
    (∃ assembled, assemble list = .ok assembled ∧ assembled.words = words) ↔
      ∀ target ∈ jumpTargets instructions,
        list.jumpWord (labelOf instructions target) = .ok target := by
  refine assemble_words_eq_iff_of_withoutLabels hspells ?_
  rw [hcommands, withoutLabels_ofInstructions hspells.isLabel_eq_false]

end Marked

/-- A target's label is encoded with the target unless a hint that pins another position has become
its name. -/
theorem jumpWord_ofInstructions_iff {instructions : List RawInstruction} {words : List UInt16}
    (hspells : Spells instructions words) (hints : LabelHints) {target : UInt16}
    (htarget : target ∈ jumpTargets instructions) :
    (Disassembly.ofInstructions hints instructions).list.jumpWord (labelOf instructions target) =
        .ok target ↔
      ¬ (KeepsName instructions target ∧ ∃ name position, hints.get? target = some name ∧
        LabelName.unescape? name = some position ∧ position ≠ target) := by
  have hname := labelName?_ofInstructions hspells.isLabel_eq_false hints htarget
  rw [jumpWord_of_commands_eq hspells rfl htarget hname]
  by_cases hkeeps : KeepsName instructions target
  · have hlanding := landing_of_keepsName hkeeps
    rw [targetName, if_pos hkeeps, LabelName.unescape?_ofPosition]
    rcases hhint : hints.get? target with - | name
    · simp [hlanding]
    · rcases hpin : LabelName.unescape? name with - | position
      · simp [hlanding, hpin]
      · simp [hkeeps, hpin]
  · rw [targetName, if_neg hkeeps, LabelName.unescape?_escape]
    exact iff_of_true (Or.inl rfl) fun h ↦ hkeeps h.1

/-- Without hints, a disassembled list assembles to its own stream. -/
theorem exists_assemble_of_disassemble_empty {words : List UInt16} {list : CommandList}
    (hlist : disassemble words .empty = .ok list) :
    ∃ assembled, assemble list = .ok assembled ∧ assembled.words = words := by
  obtain ⟨instructions, hspells, rfl⟩ := (disassemble_eq_ok_iff _ _ _).mp hlist
  rw [assemble_words_eq_iff hspells rfl]
  intro target htarget
  rw [jumpWord_ofInstructions_iff hspells .empty htarget]
  rintro ⟨-, name, position, hhint, -⟩
  exact absurd hhint (by simp)

/-- A disassembled list assembles to its own stream unless a hint that pins another position has
become the name of a jump target's label. -/
theorem assemble_disassemble_iff {words : List UInt16} {hints : LabelHints} {list : CommandList}
    {instructions : List RawInstruction} (hstream : decodeStream 0 words = .ok instructions)
    (hlist : disassemble words hints = .ok list) :
    ((∃ assembled, assemble list = .ok assembled ∧ assembled.words = words) ↔
      ¬ ∃ target ∈ jumpTargets instructions, KeepsName instructions target ∧
        ∃ name position, hints.get? target = some name ∧
          LabelName.unescape? name = some position ∧ position ≠ target) ∧
    ((∀ position name, hints.get? position = some name → LabelName.unescape? name = none) →
      ∃ assembled, assemble list = .ok assembled ∧ assembled.words = words) := by
  have hspells : Spells instructions words := (decodeStream_eq_ok_iff 0 _ _).mp hstream
  obtain ⟨decoded, hdecoded, rfl⟩ := (disassemble_eq_ok_iff _ _ _).mp hlist
  obtain rfl := hspells.instructions_unique hdecoded
  have hiff : (∃ assembled,
        assemble (Disassembly.ofInstructions hints instructions).list = .ok assembled ∧
          assembled.words = words) ↔
      ¬ ∃ target ∈ jumpTargets instructions, KeepsName instructions target ∧
        ∃ name position, hints.get? target = some name ∧
          LabelName.unescape? name = some position ∧ position ≠ target := by
    rw [assemble_words_eq_iff hspells rfl]
    constructor
    · rintro h ⟨target, htarget, hastray⟩
      exact (jumpWord_ofInstructions_iff hspells hints htarget).mp (h target htarget) hastray
    · intro h target htarget
      rw [jumpWord_ofInstructions_iff hspells hints htarget]
      exact fun hastray ↦ h ⟨target, htarget, hastray⟩
  refine ⟨hiff, fun hunpinned ↦ hiff.mpr ?_⟩
  rintro ⟨target, -, -, name, position, hhint, hpin, -⟩
  rw [hunpinned target name hhint] at hpin
  exact absurd hpin (by simp)

/-- A goto to its own start, by a label of this name. -/
def gotoStart (name : String) : CommandList := ⟨[.label ⟨0⟩, .goto ⟨0⟩], [name]⟩

/-- A goto to its own start comes back under an ordinary name, and not under one that pins the word
behind it. -/
theorem assemble_disassemble_goto_start :
    (¬ ∃ assembled, assemble (gotoStart "#1") = .ok assembled ∧ assembled.words = [0x2000]) ∧
    ∃ assembled, assemble (gotoStart "Again") = .ok assembled ∧ assembled.words = [0x2000] := by
  have hstream : decodeStream 0 [0x2000] = .ok [.goto 0] := by decide +kernel
  have hpinned : disassemble [0x2000] ⟨[(0, "#1")]⟩ = .ok (gotoStart "#1") := by decide +kernel
  have hnamed : disassemble [0x2000] ⟨[(0, "Again")]⟩ = .ok (gotoStart "Again") := by
    decide +kernel
  constructor
  · intro h
    refine (assemble_disassemble_iff hstream hpinned).1.mp h ⟨0, by decide, by decide, ?_⟩
    exact ⟨"#1", 1, rfl, by decide, by decide⟩
  · refine (assemble_disassemble_iff hstream hnamed).2 fun position name hhint ↦ ?_
    rw [LabelHints.get?, LabelHints.lookup_cons_ite] at hhint
    split at hhint
    · obtain rfl := Option.some.inj hhint
      decide
    · exact absurd hhint (by simp)

end SpriteBytecode
