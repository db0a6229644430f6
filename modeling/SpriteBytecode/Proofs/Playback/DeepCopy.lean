import Mathlib.Data.List.Nodup
import SpriteBytecode.Proofs.Disassembly.RoundTrip
import SpriteBytecode.Proofs.Playback.Mirror

/-!
A deep copy plays like its original. Where every label that is jumped to is placed once and free, a
jump is encoded with the word of its label's marker, so that no target of the words lies inside an
instruction and the copy has one marker for each target, at the target itself
(`landing_of_mem_jumpTargets`). The copy then mirrors the list (`mirrors_ofInstructions`).
-/

set_option autoImplicit false
set_option relaxedAutoImplicit false

namespace SpriteBytecode

theorem exists_of_mem_forall₂ {α β : Type} {r : α → β → Prop} {l : List α} {l' : List β}
    (h : List.Forall₂ r l l') :
    (∀ a ∈ l, ∃ b ∈ l', r a b) ∧ ∀ b ∈ l', ∃ a ∈ l, r a b := by
  induction h with
  | nil => simp
  | cons hab _ ih =>
    constructor
    · intro a ha
      rcases List.mem_cons.mp ha with rfl | ha
      · exact ⟨_, List.mem_cons_self, hab⟩
      · obtain ⟨b, hb, hr⟩ := ih.1 a ha
        exact ⟨b, List.mem_cons_of_mem _ hb, hr⟩
    · intro b hb
      rcases List.mem_cons.mp hb with rfl | hb
      · exact ⟨_, List.mem_cons_self, hab⟩
      · obtain ⟨a, ha, hr⟩ := ih.2 b hb
        exact ⟨a, List.mem_cons_of_mem _ ha, hr⟩

theorem map_eq_map_of_forall₂ {α β γ : Type} {r : α → β → Prop} {f : α → γ} {g : β → γ}
    (hr : ∀ a b, r a b → g b = f a) {l : List α} {l' : List β} (h : List.Forall₂ r l l') :
    l'.map g = l.map f := by
  induction h with
  | nil => rfl
  | cons hab _ ih => rw [List.map_cons, List.map_cons, hr _ _ hab, ih]

/-- A label that is placed once, with a name that pins nothing. -/
def CommandList.PlacedFreely (list : CommandList) (id : LabelId) : Prop :=
  list.labels.count id = 1 ∧
    ∀ name, list.labelName? id = some name → LabelName.unescape? name = none

section Resolved

variable {list : CommandList} {raws : List RawInstruction}
  (hraws : List.Forall₂ (fun command raw ↦ command.mapTargetM list.jumpWord = .ok raw)
    (withoutLabels list.commands) raws)

include hraws

/-- A jump of the list gives the words its target. -/
theorem mem_jumpTargets_of_jump {command : Command} (hcommand : command ∈ list.commands)
    {id : LabelId} (hjump : command.jumpTarget? = some id) :
    ∃ target ∈ jumpTargets raws, list.jumpWord id = .ok target := by
  have hlabel := not_isLabel_of_jumpTarget? hjump
  obtain ⟨raw, hraw, hresolved⟩ :=
    (exists_of_mem_forall₂ hraws).1 command (List.mem_filter.mpr ⟨hcommand, by simp [hlabel]⟩)
  obtain ⟨target, htarget⟩ := Instruction.exists_of_mapTargetM hresolved hjump
  refine ⟨target, (mem_jumpTargets_iff _ _).mpr ⟨raw, hraw, ?_⟩, htarget⟩
  exact (Instruction.jumpTarget?_of_mapTargetM hresolved target).mpr ⟨id, hjump, htarget⟩

variable (hplaced : ∀ command ∈ list.commands, ∀ id, command.jumpTarget? = some id →
  list.PlacedFreely id)

include hplaced

/-- Every target of the words is the word of a marker. -/
theorem exists_marker_of_mem_jumpTargets {target : UInt16} (htarget : target ∈ jumpTargets raws) :
    ∃ id, (id, target.toNat) ∈ markerOffsets 0 list.commands := by
  obtain ⟨raw, hraw, hjump⟩ := (mem_jumpTargets_iff _ _).mp htarget
  obtain ⟨command, hcommand, hresolved⟩ := (exists_of_mem_forall₂ hraws).2 raw hraw
  obtain ⟨id, hid, hword⟩ := (Instruction.jumpTarget?_of_mapTargetM hresolved target).mp hjump
  have hmem := List.mem_of_mem_filter hcommand
  exact ⟨id, mem_markerOffsets_of_jumpWord hword (hplaced command hmem id hid).2⟩

end Resolved

/-- The handle in a copy of the label that `id` names in the list. -/
def copiedLabel (list : CommandList) (raws : List RawInstruction) (id : LabelId) : LabelId :=
  match list.jumpWord id with
  | .ok target => labelOf raws target
  | .error _ => id

theorem copiedLabel_of_jumpWord {list : CommandList} {id : LabelId} {target : UInt16}
    (raws : List RawInstruction) (h : list.jumpWord id = .ok target) :
    copiedLabel list raws id = labelOf raws target := by
  rw [copiedLabel, h]

section Copied

variable {list : CommandList} {raws : List RawInstruction} {words : List UInt16}
  (hraws : List.Forall₂ (fun command raw ↦ command.mapTargetM list.jumpWord = .ok raw)
    (withoutLabels list.commands) raws)

include hraws

theorem map_labelOf_eq_map_copiedLabel :
    raws.map (·.mapTarget (labelOf raws)) =
      (withoutLabels list.commands).map (·.mapTarget (copiedLabel list raws)) := by
  refine map_eq_map_of_forall₂ ?_ hraws
  intro command raw hresolved
  exact Instruction.mapTarget_of_mapTargetM (fun _ _ h ↦ copiedLabel_of_jumpWord raws h) hresolved

theorem landing_resolved (position : Nat) :
    landing position raws = landing position list.commands := by
  rw [← landing_map (labelOf raws), map_labelOf_eq_map_copiedLabel hraws, landing_map,
    landing_withoutLabels]

variable (hplaced : ∀ command ∈ list.commands, ∀ id, command.jumpTarget? = some id →
  list.PlacedFreely id)

include hplaced

/-- No target lies inside an instruction. -/
theorem landing_of_mem_jumpTargets {target : UInt16} (htarget : target ∈ jumpTargets raws) :
    landing target.toNat raws = target.toNat := by
  rw [landing_resolved hraws]
  apply landing_of_beginsAt
  rw [beginsAt_iff_instruction_or_marker]
  exact Or.inr (exists_marker_of_mem_jumpTargets hraws hplaced htarget)

/-- The copy has its markers at the targets. -/
theorem mem_markerOffsets_copy_iff (hspells : Spells raws words) (hints : LabelHints)
    (id : LabelId) (position : Nat) :
    (id, position) ∈ markerOffsets 0 (Disassembly.ofInstructions hints raws).list.commands ↔
      ∃ target ∈ jumpTargets raws, labelOf raws target = id ∧ target.toNat = position := by
  rw [mem_markerOffsets_of_commands_eq hspells rfl]
  constructor
  · rintro ⟨target, htarget, hid, hlanding⟩
    exact ⟨target, htarget, hid,
      (landing_of_mem_jumpTargets hraws hplaced htarget).symm.trans hlanding⟩
  · rintro ⟨target, htarget, hid, hposition⟩
    exact ⟨target, htarget, hid,
      (landing_of_mem_jumpTargets hraws hplaced htarget).trans hposition⟩

theorem mirrors_ofInstructions (hspells : Spells raws words) (hints : LabelHints) :
    Mirrors list (Disassembly.ofInstructions hints raws).list (copiedLabel list raws) where
  commands := by
    rw [withoutLabels_ofInstructions hspells.isLabel_eq_false,
      map_labelOf_eq_map_copiedLabel hraws]
  leads := by
    intro command hcommand id hjump
    obtain ⟨target, htarget, hword⟩ := mem_jumpTargets_of_jump hraws hcommand hjump
    obtain ⟨hcount, hfree⟩ := hplaced command hcommand id hjump
    have hmarker := mem_markerOffsets_of_jumpWord hword hfree
    have hcopyMarkers := mem_markerOffsets_copy_iff hraws hplaced hspells hints
    have hcopyMarker := (hcopyMarkers _ _).mpr ⟨target, htarget, rfl, rfl⟩
    obtain ⟨place, hplace⟩ := exists_findLabel?_of_mem hmarker
    obtain ⟨copyPlace, hcopyPlace⟩ := exists_findLabel?_of_mem hcopyMarker
    refine ⟨place, copyPlace, hplace, ?_, ?_⟩
    · rw [copiedLabel_of_jumpWord raws hword, hcopyPlace]
    · obtain ⟨other, hother, hid, hposition⟩ :=
        (hcopyMarkers _ _).mp (mem_markerOffsets_of_findLabel? hcopyPlace)
      rw [(labelOf_inj hother).mp hid] at hposition
      rw [← hposition]
      exact offset_unique_of_count hcount (mem_markerOffsets_of_findLabel? hplace) hmarker
  apart := by
    have hperm := (markerOffsets_ofInstructions_perm hspells.isLabel_eq_false hints).map Prod.snd
    rw [hperm.nodup_iff, List.map_map]
    refine (nodup_jumpTargets raws).map_on ?_
    intro target htarget other hother hsame
    rw [Function.comp_apply, Function.comp_apply,
      landing_of_mem_jumpTargets hraws hplaced htarget,
      landing_of_mem_jumpTargets hraws hplaced hother] at hsame
    exact UInt16.toNat_inj.mp hsame
  marked := by
    intro id position hid
    obtain ⟨target, htarget, -, rfl⟩ :=
      (mem_markerOffsets_copy_iff hraws hplaced hspells hints id position).mp hid
    exact exists_marker_of_mem_jumpTargets hraws hplaced htarget

end Copied

/-- If every label that is jumped to is placed once and free, a deep copy plays like its list, tick
by tick until one stalls, in all but the cursor. It is what the assembled words and hints are
disassembled as. -/
theorem deepCopy_plays_alike {list : CommandList} {assembled : Assembled}
    (hassembled : assemble list = .ok assembled)
    (hplaced : ∀ command ∈ list.commands, ∀ id, command.jumpTarget? = some id →
      list.PlacedFreely id) :
    ∃ copy, list.deepCopy = .ok copy ∧ disassemble assembled.words assembled.hints = .ok copy ∧
      ∀ (assets : Assets) (config : PlaybackConfig) (count : Nat),
        (∀ tick ∈ (Player.mk list.program assets config).ticks count .initial,
          tick.outcome ≠ .stalled) →
        ((Player.mk copy.program assets config).ticks count .initial).map
            (fun tick ↦ (tick.outcome, tick.state.withoutCursor)) =
          ((Player.mk list.program assets config).ticks count .initial).map
            (fun tick ↦ (tick.outcome, tick.state.withoutCursor)) := by
  obtain ⟨⟨raws, hraws, hspells⟩, -⟩ := (assemble_eq_ok_iff _ _).mp hassembled
  have hcopy : disassemble assembled.words assembled.hints =
      .ok (Disassembly.ofInstructions assembled.hints raws).list :=
    (disassemble_eq_ok_iff _ _ _).mpr ⟨raws, hspells, rfl⟩
  refine ⟨_, ?_, hcopy, ?_⟩
  · rw [CommandList.deepCopy, hassembled]
    exact hcopy
  · intro assets config count hstalled
    have hmirrors : Mirrors (Player.mk list.program assets config).list _ (copiedLabel list raws) :=
      mirrors_ofInstructions hraws hplaced hspells assembled.hints
    exact Player.ticks_mirror hmirrors count ⟨rfl, aligned_zero hmirrors⟩ hstalled

/-- A list with two labels at its start and one at its end, of which its goto uses one. -/
def sharedStart : CommandList :=
  ⟨[.label ⟨0⟩, .label ⟨1⟩, .wait 2, .goto ⟨1⟩, .label ⟨2⟩], ["Unused", "Again", "End"]⟩

theorem deepCopy_plays_alike_shared_start :
    ∃ copy, sharedStart.deepCopy = .ok copy ∧
      ((Player.mk copy.program (.anonymous 0 0 0) {}).ticks 3 .initial).map
          (fun tick ↦ (tick.outcome, tick.state.withoutCursor)) =
        ((Player.mk sharedStart.program (.anonymous 0 0 0) {}).ticks 3 .initial).map
          (fun tick ↦ (tick.outcome, tick.state.withoutCursor)) := by
  have hassembled : assemble sharedStart =
      .ok ⟨[0x0002, 0x2000], ⟨[(0, "Again"), (2, "End")]⟩⟩ := by decide +kernel
  have hjumps : ∀ command ∈ sharedStart.commands, ∀ id ∈ command.jumpTarget?, id = ⟨1⟩ := by
    decide
  have hagain : sharedStart.PlacedFreely ⟨1⟩ := by
    refine ⟨by decide, ?_⟩
    rintro _ ⟨⟩
    decide
  obtain ⟨copy, hcopy, -, hplays⟩ := deepCopy_plays_alike hassembled
    fun command hcommand id hid ↦ hjumps command hcommand id hid ▸ hagain
  exact ⟨copy, hcopy, hplays (.anonymous 0 0 0) {} 3 (by decide)⟩

end SpriteBytecode
