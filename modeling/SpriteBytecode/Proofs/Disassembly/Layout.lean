import Mathlib.Data.List.Perm.Basic
import SpriteBytecode.Proofs.CommandList.Marker

/-!
The list that instructions disassemble to. Its instructions are the decoded ones with their targets
read as handles (`withoutLabels_ofInstructions`). Every jump target has exactly one marker, at the
landing of the target (`markerOffsets_ofInstructions_perm`). Its arena has one name for each target
(`labelNames_ofInstructions`): the given one if a command begins at the target when its marker is
placed, which for a target at the stream's end is so when another target lies inside the last
instruction, and the escape of the target otherwise.
-/

set_option autoImplicit false
set_option relaxedAutoImplicit false

namespace SpriteBytecode

/-! ### Jump targets -/

theorem nodup_eraseDups {α : Type} [DecidableEq α] (l : List α) : l.eraseDups.Nodup := by
  induction hlen : l.length using Nat.strongRecOn generalizing l with
  | ind length ih =>
    cases l with
    | nil => simp
    | cons a rest =>
      rw [List.eraseDups_cons, List.nodup_cons, List.mem_eraseDups]
      refine ⟨by simp, ih _ ?_ _ rfl⟩
      rw [← hlen, List.length_cons]
      exact Nat.lt_succ_of_le (List.length_filter_le _ rest)

theorem eraseDups_of_nodup {α : Type} [DecidableEq α] {l : List α} (h : l.Nodup) :
    l.eraseDups = l := by
  induction l with
  | nil => rfl
  | cons a rest ih =>
    obtain ⟨hnew, hrest⟩ := List.nodup_cons.mp h
    have hkept : rest.filter (fun b ↦ !b == a) = rest := by
      apply List.filter_eq_self.mpr
      intro b hb
      have hne : b ≠ a := fun hsame ↦ hnew (hsame ▸ hb)
      simp [hne]
    rw [List.eraseDups_cons, hkept, ih hrest]

theorem nodup_jumpTargets (instructions : List RawInstruction) :
    (jumpTargets instructions).Nodup := by
  rw [jumpTargets, Numbering.firsts_eq]
  exact nodup_eraseDups _

theorem mem_jumpTargets_iff (instructions : List RawInstruction) (target : UInt16) :
    target ∈ jumpTargets instructions ↔ ∃ i ∈ instructions, i.jumpTarget? = some target := by
  rw [jumpTargets, Numbering.firsts_eq, List.mem_eraseDups, List.mem_filterMap]

/-- The handle of the label at a target. -/
def labelOf (instructions : List RawInstruction) (target : UInt16) : LabelId :=
  ⟨(jumpTargets instructions).idxOf target⟩

theorem labelOf_inj {instructions : List RawInstruction} {first second : UInt16}
    (h : first ∈ jumpTargets instructions) :
    labelOf instructions first = labelOf instructions second ↔ first = second := by
  rw [labelOf, labelOf, LabelId.mk.injEq, List.idxOf_inj h]

/-- Jump targets in ascending order, as their markers are placed. -/
def ascendingTargets (instructions : List RawInstruction) : List UInt16 :=
  (jumpTargets instructions).mergeSort fun a b ↦ a.toNat ≤ b.toNat

theorem ascendingTargets_perm (instructions : List RawInstruction) :
    (ascendingTargets instructions).Perm (jumpTargets instructions) :=
  List.mergeSort_perm _ _

theorem pairwise_lt_ascendingTargets (instructions : List RawInstruction) :
    (ascendingTargets instructions).Pairwise fun a b ↦ a.toNat < b.toNat := by
  have hle : (ascendingTargets instructions).Pairwise fun a b ↦ a.toNat ≤ b.toNat := by
    have h : (ascendingTargets instructions).Pairwise fun a b ↦
        decide (a.toNat ≤ b.toNat) = true := by
      apply List.pairwise_mergeSort
      · intro a b c hab hbc
        exact decide_eq_true (Nat.le_trans (of_decide_eq_true hab) (of_decide_eq_true hbc))
      · intro a b
        rw [Bool.or_eq_true, decide_eq_true_eq, decide_eq_true_eq]
        exact Nat.le_total _ _
    exact h.imp of_decide_eq_true
  have hnodup := (ascendingTargets_perm instructions).nodup_iff.mpr
    (nodup_jumpTargets instructions)
  refine (hle.and hnodup).imp ?_
  rintro a b ⟨hab, hne⟩
  have := mt UInt16.toNat_inj.mp hne
  omega

/-- Markers are placed in the one order of the jump targets that ascends. -/
theorem ascendingTargets_eq {instructions : List RawInstruction} {targets : List UInt16}
    (hperm : targets.Perm (jumpTargets instructions))
    (hsorted : targets.Pairwise fun a b ↦ a.toNat < b.toNat) :
    ascendingTargets instructions = targets := by
  refine ((ascendingTargets_perm instructions).trans hperm.symm).eq_of_pairwise ?_
    (pairwise_lt_ascendingTargets instructions) hsorted
  intro a b _ _ hab hba
  exact absurd hab (Nat.lt_asymm hba)

/-! ### Names of targets -/

instance decidableBeginsAt {τ : Type} :
    (instructions : List (Instruction τ)) → (position : Nat) →
      Decidable (BeginsAt instructions position)
  | [], position => isFalse (not_beginsAt_nil position)
  | i :: rest, position =>
    have := decidableBeginsAt rest (position - i.wordLen)
    decidable_of_iff _ (beginsAt_cons_iff i rest position).symm

/-- The label at a target keeps the name that hints or its position give it: an instruction begins
there, or the stream ends there and another target lies inside the last instruction. -/
def KeepsName (instructions : List RawInstruction) (target : UInt16) : Prop :=
  BeginsAt instructions target.toNat ∨
    target.toNat = streamLen instructions ∧
      ∃ other ∈ jumpTargets instructions,
        streamLen instructions.dropLast < other.toNat ∧ other.toNat < streamLen instructions

instance decidableKeepsName (instructions : List RawInstruction) (target : UInt16) :
    Decidable (KeepsName instructions target) :=
  inferInstanceAs (Decidable (_ ∨ _ ∧ ∃ other ∈ _, _ ∧ _))

/-- The name that the label at a target ends up with. -/
def targetName (hints : LabelHints) (instructions : List RawInstruction) (target : UInt16) :
    String :=
  if KeepsName instructions target then LabelName.ofPosition hints target
  else LabelName.escape target

/-- What lies inside the last instruction lands at the end, and nothing in front of it does. -/
theorem landing_eq_streamLen_iff {instructions : List RawInstruction}
    (hlabels : ∀ i ∈ instructions, i.isLabel = false) {position : Nat}
    (hlt : position < streamLen instructions) :
    landing position instructions = streamLen instructions ↔
      streamLen instructions.dropLast < position := by
  rcases List.eq_nil_or_concat' instructions with rfl | ⟨front, last, rfl⟩
  · exact absurd hlt (Nat.not_lt_zero position)
  have hpos : 0 < last.wordLen := by
    have h := mt (Instruction.wordLen_eq_zero_iff last).mp (by simp [hlabels last (by simp)])
    omega
  rw [List.dropLast_concat]
  constructor
  · intro hend
    by_contra hle
    have hbegins : BeginsAt (front ++ [last]) (streamLen front) := ⟨front, last, [], rfl, rfl⟩
    have := landing_le_of_beginsAt hbegins (Nat.le_of_not_lt hle)
    rw [hend, streamLen_append, streamLen_cons] at this
    omega
  · intro hinside
    refine (landing_eq_streamLen_or_beginsAt position (front ++ [last])).resolve_right ?_
    intro hbegins
    have hfront := le_streamLen_of_beginsAt_concat hbegins
    have hposition := le_landing (Nat.le_of_lt hlt)
    omega

/-- A label keeps its name if an instruction or the marker of a lower target stands at its own. -/
theorem keepsName_iff {instructions : List RawInstruction}
    (hlabels : ∀ i ∈ instructions, i.isLabel = false) (target : UInt16) :
    KeepsName instructions target ↔
      BeginsAt instructions target.toNat ∨
        ∃ other ∈ jumpTargets instructions,
          other.toNat < target.toNat ∧ landing other.toNat instructions = target.toNat := by
  constructor
  · rintro (hbegins | ⟨hend, other, hother, hinside, hlt⟩)
    · exact Or.inl hbegins
    · rw [hend]
      exact Or.inr ⟨other, hother, hlt, (landing_eq_streamLen_iff hlabels hlt).mpr hinside⟩
  · rintro (hbegins | ⟨other, hother, hlt, hlanding⟩)
    · exact Or.inl hbegins
    · rcases landing_eq_streamLen_or_beginsAt other.toNat instructions with hend | hbegins
      · have htarget : target.toNat = streamLen instructions := hlanding.symm.trans hend
        refine Or.inr ⟨htarget, other, hother, ?_, htarget ▸ hlt⟩
        exact (landing_eq_streamLen_iff hlabels (htarget ▸ hlt)).mp hend
      · exact Or.inl (hlanding ▸ hbegins)

/-! ### Placing the markers -/

/-- Markers for targets put in one after another. -/
def insertMarkers (instructions : List RawInstruction) (targets : List UInt16)
    (commands : List Command) : List Command :=
  targets.foldl (fun commands target ↦
    insertMarker (.label (labelOf instructions target)) target.toNat commands) commands

theorem insertMarkers_concat (instructions : List RawInstruction) (targets : List UInt16)
    (target : UInt16) (commands : List Command) :
    insertMarkers instructions (targets ++ [target]) commands =
      insertMarker (.label (labelOf instructions target)) target.toNat
        (insertMarkers instructions targets commands) := by
  rw [insertMarkers, List.foldl_append]
  rfl

theorem withoutLabels_insertMarkers (instructions : List RawInstruction) (targets : List UInt16) :
    ∀ commands : List Command,
      withoutLabels (insertMarkers instructions targets commands) = withoutLabels commands := by
  induction targets with
  | nil => intro commands; rfl
  | cons target rest ih =>
    intro commands
    exact (ih _).trans (withoutLabels_insertMarker _ _ _)

/-- Markers that are already there do not move the landings of later ones. -/
theorem markerOffsets_insertMarkers_perm (instructions : List RawInstruction)
    (targets : List UInt16) :
    ∀ commands : List Command,
      (markerOffsets 0 (insertMarkers instructions targets commands)).Perm
        (targets.map (fun target ↦
          (labelOf instructions target, landing target.toNat (withoutLabels commands))) ++
          markerOffsets 0 commands) := by
  induction targets with
  | nil => intro commands; exact List.Perm.refl _
  | cons target rest ih =>
    intro commands
    have hmarker := markerOffsets_insertMarker_perm 0 (labelOf instructions target) target.toNat
      commands
    have hrest := ih (insertMarker (.label (labelOf instructions target)) target.toNat commands)
    rw [withoutLabels_insertMarker] at hrest
    rw [Nat.zero_add, ← landing_withoutLabels] at hmarker
    rw [List.map_cons, List.cons_append]
    exact (hrest.trans (hmarker.append_left _)).trans List.perm_middle

namespace Disassembly

@[simp] theorem commands_placeMarker (id : LabelId) (position : UInt16) (d : Disassembly) :
    (d.placeMarker id position).list.commands =
      insertMarker (.label id) position.toNat d.list.commands := by
  unfold placeMarker
  split <;> rfl

theorem labelNames_placeMarker (id : LabelId) (position : UInt16) (d : Disassembly) :
    (d.placeMarker id position).list.labelNames =
      if BeginsAt d.list.commands position.toNat then d.list.labelNames
      else d.list.labelNames.set id.index (LabelName.escape position) := by
  unfold placeMarker
  by_cases h : BeginsAt d.list.commands position.toNat
  · rw [if_pos h, if_pos ((startsAt_eq_true_iff _ _).mpr h)]
  · rw [if_neg h, if_neg (mt (startsAt_eq_true_iff _ _).mp h)]

theorem ofInstructions_eq_foldl (hints : LabelHints) (instructions : List RawInstruction) :
    ofInstructions hints instructions =
      (ascendingTargets instructions).foldl
        (fun d target ↦ d.placeMarker (labelOf instructions target) target)
        (unmarked hints instructions) := by
  simp only [ofInstructions, Numbering.number_ofList]
  rfl

theorem commands_unmarked (hints : LabelHints) (instructions : List RawInstruction) :
    (unmarked hints instructions).list.commands =
      instructions.map (·.mapTarget (labelOf instructions)) := by
  simp only [unmarked, Numbering.number_ofList]
  rfl

theorem commands_foldl_placeMarker (instructions : List RawInstruction) (targets : List UInt16) :
    ∀ d : Disassembly,
      (targets.foldl (fun d target ↦ d.placeMarker (labelOf instructions target) target)
        d).list.commands = insertMarkers instructions targets d.list.commands := by
  induction targets with
  | nil => intro d; rfl
  | cons target rest ih =>
    intro d
    rw [List.foldl_cons, ih, commands_placeMarker]
    rfl

end Disassembly

/-- The commands of a disassembled list do not depend on the hints. -/
theorem commands_ofInstructions (hints : LabelHints) (instructions : List RawInstruction) :
    (Disassembly.ofInstructions hints instructions).list.commands =
      insertMarkers instructions (ascendingTargets instructions)
        (instructions.map (·.mapTarget (labelOf instructions))) := by
  rw [Disassembly.ofInstructions_eq_foldl, Disassembly.commands_foldl_placeMarker,
    Disassembly.commands_unmarked]

section Layout

variable {instructions : List RawInstruction} (hlabels : ∀ i ∈ instructions, i.isLabel = false)

include hlabels

theorem withoutLabels_map_mapTarget (f : UInt16 → LabelId) :
    withoutLabels (instructions.map (·.mapTarget f)) = instructions.map (·.mapTarget f) := by
  apply List.filter_eq_self.mpr
  intro command hcommand
  obtain ⟨i, hi, rfl⟩ := List.mem_map.mp hcommand
  simp [hlabels i hi]

theorem markerOffsets_map_mapTarget (f : UInt16 → LabelId) (offset : Nat) :
    markerOffsets offset (instructions.map (·.mapTarget f)) = [] := by
  induction instructions generalizing offset with
  | nil => rfl
  | cons i rest ih =>
    have hi : (i.mapTarget f).isLabel = false := by simp [hlabels i (by simp)]
    rw [List.map_cons, markerOffsets_cons_of_not_label offset _ hi]
    exact ih (fun j hj ↦ hlabels j (List.mem_cons_of_mem i hj)) _

/-- Without its markers, a disassembled list is the decoded instructions in stream order. -/
theorem withoutLabels_ofInstructions (hints : LabelHints) :
    withoutLabels (Disassembly.ofInstructions hints instructions).list.commands =
      instructions.map (·.mapTarget (labelOf instructions)) := by
  rw [commands_ofInstructions, withoutLabels_insertMarkers, withoutLabels_map_mapTarget hlabels]

/-- Every jump target has one marker, at its landing, and there are no other markers. -/
theorem markerOffsets_ofInstructions_perm (hints : LabelHints) :
    (markerOffsets 0 (Disassembly.ofInstructions hints instructions).list.commands).Perm
      ((jumpTargets instructions).map fun target ↦
        (labelOf instructions target, landing target.toNat instructions)) := by
  have h := markerOffsets_insertMarkers_perm instructions (ascendingTargets instructions)
    (instructions.map (·.mapTarget (labelOf instructions)))
  rw [withoutLabels_map_mapTarget hlabels, markerOffsets_map_mapTarget hlabels,
    List.append_nil] at h
  simp only [landing_map] at h
  rw [commands_ofInstructions]
  exact h.trans ((ascendingTargets_perm instructions).map _)

/-- When the markers of all lower targets are placed, a command begins at a target exactly if its
label keeps its name. -/
theorem beginsAt_insertMarkers_iff {done todo : List UInt16} {target : UInt16}
    (hsplit : ascendingTargets instructions = done ++ target :: todo) :
    BeginsAt (insertMarkers instructions done
        (instructions.map (·.mapTarget (labelOf instructions)))) target.toNat ↔
      KeepsName instructions target := by
  have hsorted := pairwise_lt_ascendingTargets instructions
  rw [hsplit, List.pairwise_append] at hsorted
  have hdone (other : UInt16) : other ∈ done ↔
      other ∈ jumpTargets instructions ∧ other.toNat < target.toNat := by
    rw [← (ascendingTargets_perm instructions).mem_iff, hsplit, List.mem_append]
    constructor
    · intro h
      exact ⟨Or.inl h, hsorted.2.2 other h target List.mem_cons_self⟩
    · rintro ⟨h | h, hlt⟩
      · exact h
      · rcases List.mem_cons.mp h with rfl | h
        · exact absurd hlt (Nat.lt_irrefl _)
        · have := (List.pairwise_cons.mp hsorted.2.1).1 other h
          omega
  have hmarkers := markerOffsets_insertMarkers_perm instructions done
    (instructions.map (·.mapTarget (labelOf instructions)))
  rw [withoutLabels_map_mapTarget hlabels, markerOffsets_map_mapTarget hlabels,
    List.append_nil] at hmarkers
  rw [beginsAt_iff_instruction_or_marker, withoutLabels_insertMarkers,
    withoutLabels_map_mapTarget hlabels, beginsAt_map_iff, keepsName_iff hlabels]
  refine or_congr_right ⟨?_, ?_⟩
  · rintro ⟨id, hid⟩
    obtain ⟨other, hother, heq⟩ := List.mem_map.mp (hmarkers.mem_iff.mp hid)
    rw [landing_map, Prod.mk.injEq] at heq
    exact ⟨other, ((hdone other).mp hother).1, ((hdone other).mp hother).2, heq.2⟩
  · rintro ⟨other, hother, hlt, hlanding⟩
    refine ⟨labelOf instructions other, hmarkers.mem_iff.mpr (List.mem_map.mpr ⟨other, ?_, ?_⟩)⟩
    · exact (hdone other).mpr ⟨hother, hlt⟩
    · rw [landing_map, hlanding]

end Layout

theorem set_idxOf_map {α : Type} [DecidableEq α] {l : List α} (hnodup : l.Nodup) (f : α → String)
    (a : α) (name : String) :
    (l.map f).set (l.idxOf a) name = l.map fun b ↦ if b = a then name else f b := by
  induction l with
  | nil => rfl
  | cons b rest ih =>
    obtain ⟨hb, hrest⟩ := List.nodup_cons.mp hnodup
    rw [List.map_cons, List.map_cons, List.idxOf_cons]
    by_cases hab : b = a
    · subst hab
      have hkeep : rest.map f = rest.map fun c ↦ if c = b then name else f c := by
        apply List.map_congr_left
        intro c hc
        rw [if_neg]
        rintro rfl
        exact hb hc
      simp [hkeep]
    · rw [beq_eq_false_iff_ne.mpr hab, if_neg hab, cond_false, List.set_cons_succ, ih hrest]

/-- Placing the remaining markers gives the remaining targets their final names. -/
theorem labelNames_foldl_placeMarker {instructions : List RawInstruction}
    (hlabels : ∀ i ∈ instructions, i.isLabel = false) (hints : LabelHints) (todo : List UInt16) :
    ∀ (done : List UInt16) (d : Disassembly), ascendingTargets instructions = done ++ todo →
      d.list.commands = insertMarkers instructions done
        (instructions.map (·.mapTarget (labelOf instructions))) →
      d.list.labelNames = ((jumpTargets instructions).map fun target ↦
        if target ∈ done then targetName hints instructions target
        else LabelName.ofPosition hints target) →
      (todo.foldl (fun d target ↦ d.placeMarker (labelOf instructions target) target)
        d).list.labelNames = (jumpTargets instructions).map (targetName hints instructions) := by
  induction todo with
  | nil =>
    intro done d hsplit _ hnames
    rw [List.foldl_nil, hnames]
    apply List.map_congr_left
    intro target htarget
    rw [List.append_nil] at hsplit
    rw [if_pos (hsplit ▸ (ascendingTargets_perm instructions).mem_iff.mpr htarget)]
  | cons target rest ih =>
    intro done d hsplit hcommands hnames
    refine ih (done ++ [target]) _ (by rw [hsplit, List.append_assoc]; rfl) ?_ ?_
    · rw [Disassembly.commands_placeMarker, hcommands, insertMarkers, insertMarkers,
        List.foldl_append]
      rfl
    · rw [Disassembly.labelNames_placeMarker, hcommands, hnames, labelOf]
      have hbegins := beginsAt_insertMarkers_iff hlabels hsplit
      split
      · next h =>
        have hkeeps := hbegins.mp h
        apply List.map_congr_left
        intro other _
        by_cases hother : other = target
        · subst hother
          simp [targetName, hkeeps]
        · simp [hother]
      · next h =>
        have hkeeps := mt hbegins.mpr h
        rw [set_idxOf_map (nodup_jumpTargets instructions)]
        apply List.map_congr_left
        intro other _
        by_cases hother : other = target
        · subst hother
          simp [targetName, hkeeps]
        · simp [hother]

theorem labelNames_ofInstructions {instructions : List RawInstruction}
    (hlabels : ∀ i ∈ instructions, i.isLabel = false) (hints : LabelHints) :
    (Disassembly.ofInstructions hints instructions).list.labelNames =
      (jumpTargets instructions).map (targetName hints instructions) := by
  rw [Disassembly.ofInstructions_eq_foldl]
  refine labelNames_foldl_placeMarker hlabels hints _ [] _ rfl ?_ ?_
  · exact Disassembly.commands_unmarked hints instructions
  · simp [Disassembly.unmarked]

/-- The name of a target's label in the disassembled list. -/
theorem labelName?_ofInstructions {instructions : List RawInstruction}
    (hlabels : ∀ i ∈ instructions, i.isLabel = false) (hints : LabelHints) {target : UInt16}
    (htarget : target ∈ jumpTargets instructions) :
    (Disassembly.ofInstructions hints instructions).list.labelName? (labelOf instructions target) =
      some (targetName hints instructions target) := by
  rw [CommandList.labelName?, labelNames_ofInstructions hlabels, List.getElem?_map, labelOf,
    List.getElem?_idxOf htarget, Option.map_some]

end SpriteBytecode
