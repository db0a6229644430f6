import Mathlib.Data.List.Nodup
import Mathlib.Order.Bounds.Defs
import SpriteBytecode.Proofs.Disassembly.Acceptance

/-!
Where the labels of a disassembled list stand, and what they are called when no instruction begins
there. The arena has a label for each jump target, in the order in which the targets first occur,
and each is placed once (`count_labels_ofInstructions`), at the least boundary that is not in front
of its target (`isLeast_landing`). A target at which no instruction begins is pinned by its label's
name. The one that is not is the end of the stream when another target lies inside the last
instruction: that one's marker is then placed at the end before, and counts as a command that
begins there.
-/

set_option autoImplicit false
set_option relaxedAutoImplicit false

namespace SpriteBytecode

/-! ### Labels of a disassembled list -/

section Disassembled

variable {instructions : List RawInstruction} {words : List UInt16}
  (hspells : Spells instructions words) (hints : LabelHints)

include hspells

theorem labels_ofInstructions_perm :
    (Disassembly.ofInstructions hints instructions).list.labels.Perm
      ((jumpTargets instructions).map (labelOf instructions)) := by
  have hperm := (markerOffsets_ofInstructions_perm hspells.isLabel_eq_false hints).map Prod.fst
  rw [map_fst_markerOffsets, List.map_map] at hperm
  exact hperm

theorem mem_labels_ofInstructions_iff (id : LabelId) :
    id ∈ (Disassembly.ofInstructions hints instructions).list.labels ↔
      ∃ target ∈ jumpTargets instructions, labelOf instructions target = id := by
  rw [(labels_ofInstructions_perm hspells hints).mem_iff, List.mem_map]

theorem nodup_labels_ofInstructions :
    (Disassembly.ofInstructions hints instructions).list.labels.Nodup := by
  rw [(labels_ofInstructions_perm hspells hints).nodup_iff]
  refine (nodup_jumpTargets instructions).map_on ?_
  exact fun target htarget other _ hsame ↦ (labelOf_inj htarget).mp hsame

/-- Each label of the arena is placed once, and no other is. -/
theorem count_labels_ofInstructions (id : LabelId) :
    (Disassembly.ofInstructions hints instructions).list.labels.count id =
      if id.index < (jumpTargets instructions).length then 1 else 0 := by
  rw [(nodup_labels_ofInstructions hspells hints).count]
  refine if_congr ?_ rfl rfl
  rw [mem_labels_ofInstructions_iff hspells hints]
  constructor
  · rintro ⟨target, htarget, rfl⟩
    exact List.idxOf_lt_length_of_mem htarget
  · intro hlt
    refine ⟨(jumpTargets instructions)[id.index], List.getElem_mem hlt, ?_⟩
    rw [labelOf, (nodup_jumpTargets instructions).idxOf_getElem]

end Disassembled

/-- A position lands at the least boundary that is not in front of it. -/
theorem isLeast_landing {τ : Type} {instructions : List (Instruction τ)} {position : Nat}
    (h : position ≤ streamLen instructions) :
    IsLeast {boundary | position ≤ boundary ∧
        (BeginsAt instructions boundary ∨ boundary = streamLen instructions)}
      (landing position instructions) := by
  constructor
  · exact ⟨le_landing h, (landing_eq_streamLen_or_beginsAt position instructions).symm⟩
  · rintro boundary ⟨hle, hbegins | rfl⟩
    · exact landing_le_of_beginsAt hbegins hle
    · exact landing_le_streamLen position instructions

/-- A disassembled list has one label for each jump target, numbered in the order in which the
targets first occur, and each is placed once. Without its markers the list is the instructions of
the stream. A target's marker stands at the least boundary that is not in front of the target, or at
the end of the stream if the target is behind it. -/
theorem disassemble_places_labels {words : List UInt16} {hints : LabelHints} {list : CommandList}
    {instructions : List RawInstruction} (hstream : decodeStream 0 words = .ok instructions)
    (hlist : disassemble words hints = .ok list) :
    jumpTargets instructions = (instructions.filterMap (·.jumpTarget?)).eraseDups ∧
    list.labelNames.length = (jumpTargets instructions).length ∧
    (∀ id, list.labels.count id =
      if id.index < (jumpTargets instructions).length then 1 else 0) ∧
    withoutLabels list.commands =
      instructions.map (·.mapTarget fun target ↦ ⟨(jumpTargets instructions).idxOf target⟩) ∧
    ∀ target ∈ jumpTargets instructions, ∃ place offset,
      list.findLabel? ⟨(jumpTargets instructions).idxOf target⟩ = some place ∧
      list.wordOffset? place = some offset ∧
      (target.toNat ≤ words.length →
        IsLeast {boundary | target.toNat ≤ boundary ∧
          (BeginsAt instructions boundary ∨ boundary = words.length)} offset) ∧
      (words.length < target.toNat → offset = words.length) := by
  obtain ⟨hspells, rfl⟩ := list_ofInstructions_of_disassemble hstream hlist
  refine ⟨Numbering.firsts_eq _, ?_, count_labels_ofInstructions hspells hints,
    withoutLabels_ofInstructions hspells.isLabel_eq_false hints, ?_⟩
  · rw [labelNames_ofInstructions hspells.isLabel_eq_false, List.length_map]
  · intro target htarget
    obtain ⟨⟨place, hplace, hoffset⟩, -⟩ := standsFor_labelOf hspells hints htarget
    refine ⟨place, _, hplace, hoffset, ?_, ?_⟩
    · rw [← hspells.streamLen_eq]
      exact isLeast_landing
    · rw [← hspells.streamLen_eq]
      exact landing_of_streamLen_lt

/-- A goto behind the end, one into the instruction in front, and one to the next. -/
def sharedBoundary : List RawInstruction := [.setScale .uniform 100, .goto 9, .goto 1, .goto 2]

/-- The second goto and the third have their labels at the same boundary. -/
theorem disassemble_places_labels_shared_boundary :
    ∃ list, disassemble [0x5000, 0x0064, 0x2009, 0x2001, 0x2002] .empty = .ok list ∧
      (∀ id, list.labels.count id = if id.index < 3 then 1 else 0) ∧
      (∃ place, list.findLabel? ⟨0⟩ = some place ∧ list.wordOffset? place = some 5) ∧
      ∃ place offset, list.findLabel? ⟨1⟩ = some place ∧ list.wordOffset? place = some offset ∧
        IsLeast {boundary | 1 ≤ boundary ∧ (BeginsAt sharedBoundary boundary ∨ boundary = 5)}
          offset := by
  have hstream : decodeStream 0 [0x5000, 0x0064, 0x2009, 0x2001, 0x2002] = .ok sharedBoundary := by
    decide +kernel
  have htargets : jumpTargets sharedBoundary = [9, 1, 2] := by decide +kernel
  have hperm : [1, 2, 9].Perm (jumpTargets sharedBoundary) := by decide +kernel
  have hlist := (disassemble_of_ascending hstream hperm (by decide) .empty).trans
    (show _ = .ok ⟨[.setScale .uniform 100, .label ⟨2⟩, .label ⟨1⟩, .goto ⟨0⟩, .goto ⟨1⟩,
      .goto ⟨2⟩, .label ⟨0⟩], ["#9", "#1", "Pos_2"]⟩ by decide +kernel)
  obtain ⟨-, -, honce, -, hplaces⟩ := disassemble_places_labels hstream hlist
  rw [htargets] at honce hplaces
  refine ⟨_, hlist, honce, ?_, ?_⟩
  · obtain ⟨place, offset, hplace, hoffset, -, hbehind⟩ := hplaces 9 (by decide)
    obtain rfl := hbehind (by decide)
    exact ⟨place, hplace, hoffset⟩
  · obtain ⟨place, offset, hplace, hoffset, hleast, -⟩ := hplaces 1 (by decide)
    exact ⟨place, offset, hplace, hoffset, hleast (by decide)⟩

/-! ### Targets at which no instruction begins -/

/-- The label of a target at which no instruction begins is named by the escape of the target,
unless the stream ends there and another target lies inside the last instruction. -/
theorem labelName?_of_not_beginsAt {words : List UInt16} {hints : LabelHints} {list : CommandList}
    {instructions : List RawInstruction} (hstream : decodeStream 0 words = .ok instructions)
    (hlist : disassemble words hints = .ok list) {target : UInt16}
    (htarget : target ∈ jumpTargets instructions)
    (hbegins : ¬ BeginsAt instructions target.toNat) :
    list.labelName? (labelOf instructions target) =
      some
        (if target.toNat = words.length ∧ ∃ other ∈ jumpTargets instructions,
            streamLen instructions.dropLast < other.toNat ∧ other.toNat < words.length then
          LabelName.ofPosition hints target
        else LabelName.escape target) := by
  obtain ⟨hspells, rfl⟩ := list_ofInstructions_of_disassemble hstream hlist
  rw [labelName?_ofInstructions hspells.isLabel_eq_false hints htarget, targetName,
    ← hspells.streamLen_eq]
  exact congrArg some (if_congr (or_iff_right hbegins) rfl rfl)

/-- A goto to the end of the stream, in front of a loop into its own last word. -/
theorem disassemble_loop_into_itself :
    decodeStream 0 [0x2003, 0x7002, 0x0001] = .ok [.goto 3, .loop 2 1] ∧
      disassemble [0x2003, 0x7002, 0x0001] .empty =
        .ok ⟨[.goto ⟨0⟩, .loop ⟨1⟩ 1, .label ⟨0⟩, .label ⟨1⟩], ["Pos_3", "#2"]⟩ := by
  have hstream : decodeStream 0 [0x2003, 0x7002, 0x0001] = .ok [.goto 3, .loop 2 1] := by
    decide +kernel
  have hperm : [2, 3].Perm (jumpTargets [.goto 3, .loop 2 1]) := by decide +kernel
  have hlist := disassemble_of_ascending hstream hperm (by decide) .empty
  exact ⟨hstream, hlist.trans (by decide +kernel)⟩

/-- No instruction begins at either target, and only the one inside the loop is pinned. -/
theorem labelName?_of_not_beginsAt_loop_into_itself :
    ∃ list, disassemble [0x2003, 0x7002, 0x0001] .empty = .ok list ∧
      list.labelName? ⟨0⟩ = some (LabelName.ofPosition .empty 3) ∧
      list.labelName? ⟨1⟩ = some (LabelName.escape 2) := by
  obtain ⟨hstream, hlist⟩ := disassemble_loop_into_itself
  have hmem : 3 ∈ jumpTargets [.goto 3, .loop 2 1] ∧ 2 ∈ jumpTargets [.goto 3, .loop 2 1] := by
    decide +kernel
  have hend := labelName?_of_not_beginsAt hstream hlist hmem.1 (by decide +kernel)
  have hinside := labelName?_of_not_beginsAt hstream hlist hmem.2 (by decide +kernel)
  rw [if_pos (by decide +kernel)] at hend
  rw [if_neg (by decide +kernel)] at hinside
  exact ⟨_, hlist, hend, hinside⟩

/-- Not every target at which no instruction begins is pinned. -/
theorem not_escape_of_not_beginsAt :
    ¬ ∀ (words : List UInt16) (hints : LabelHints) (list : CommandList)
        (instructions : List RawInstruction), decodeStream 0 words = .ok instructions →
      disassemble words hints = .ok list → ∀ target ∈ jumpTargets instructions,
        ¬ BeginsAt instructions target.toNat →
          list.labelName? (labelOf instructions target) = some (LabelName.escape target) := by
  intro h
  obtain ⟨hstream, hlist⟩ := disassemble_loop_into_itself
  have hpinned := h _ .empty _ _ hstream hlist 3 (by decide +kernel) (by decide +kernel)
  exact absurd hpinned (by decide +kernel)

end SpriteBytecode
