import Mathlib.Data.List.Forall2
import SpriteBytecode.Proofs.CommandList.Marker
import SpriteBytecode.Proofs.Label.Name
import SpriteBytecode.Proofs.Stream.Spelling

/-!
What a list assembles to. `jumpWord` is the position that a jump to a label is encoded with. A list
assembles if all its jumps resolve to positions that can be written, and then its words spell its
instructions with those positions for the labels (`assemble_eq_ok_iff`).
-/

set_option autoImplicit false
set_option relaxedAutoImplicit false

namespace SpriteBytecode

/-- The position that a jump to the label is encoded with. -/
def CommandList.jumpWord (list : CommandList) (id : LabelId) : Except BytecodeError UInt16 :=
  resolveTarget (list.jumpPositions (markerOffsets 0 list.commands)) id

theorem jumpWord_of_labelName? {list : CommandList} {id : LabelId} {name : String}
    (h : list.labelName? id = some name) :
    list.jumpWord id = jumpPosition name (lastOffset? (markerOffsets 0 list.commands) id) := by
  rw [CommandList.jumpWord, resolveTarget_jumpPositions, h]

theorem labelName?_of_jumpWord {list : CommandList} {id : LabelId} {position : UInt16}
    (h : list.jumpWord id = .ok position) : ∃ name, list.labelName? id = some name := by
  rw [CommandList.jumpWord, resolveTarget_jumpPositions] at h
  split at h
  · cases h
  · next name hname => exact ⟨name, hname⟩

theorem jumpPosition_of_unescape? {name : String} {position : UInt16}
    (h : LabelName.unescape? name = some position) (offset? : Option Nat) :
    jumpPosition name offset? = .ok position := by
  simp only [jumpPosition, h]

/-- A label whose name pins nothing resolves to the offset of its last marker. -/
theorem jumpPosition_eq_ok_iff {name : String} (hname : LabelName.unescape? name = none)
    (offset? : Option Nat) (position : UInt16) :
    jumpPosition name offset? = .ok position ↔ offset? = some position.toNat := by
  simp only [jumpPosition, hname]
  cases offset? with
  | none => simp
  | some offset =>
    simp only [Option.some.injEq]
    split
    · next hlt =>
      rw [Except.ok.injEq, ← UInt16.toNat_inj, UInt16.toNat_ofNat_of_lt' hlt]
    · next hle =>
      have := position.toNat_lt
      simp only [reduceCtorEq, false_iff]
      omega

/-- A free label resolves to the offset of one of its markers. -/
theorem mem_markerOffsets_of_jumpWord {list : CommandList} {id : LabelId} {position : UInt16}
    (h : list.jumpWord id = .ok position)
    (hfree : ∀ name, list.labelName? id = some name → LabelName.unescape? name = none) :
    (id, position.toNat) ∈ markerOffsets 0 list.commands := by
  obtain ⟨name, hname⟩ := labelName?_of_jumpWord h
  rw [jumpWord_of_labelName? hname, jumpPosition_eq_ok_iff (hfree name hname)] at h
  exact mem_of_lastOffset? h

namespace Instruction

variable {τ υ ε : Type}

/-- Looking the targets up again gives the instruction back that they were taken from. -/
theorem mapTargetM_mapTarget_eq_ok_iff (f : τ → υ) (g : υ → Except ε τ) {i : Instruction τ}
    (hlabel : i.isLabel = false) :
    (i.mapTarget f).mapTargetM g = .ok i ↔
      ∀ target, i.jumpTarget? = some target → g (f target) = .ok target := by
  cases i with
  | goto target => simp [mapTarget, mapTargetM, jumpTarget?, map_eq_ok_iff]
  | loop target count => simp [mapTarget, mapTargetM, jumpTarget?, map_eq_ok_iff]
  | label target => simp [isLabel] at hlabel
  | _ => simp [mapTarget, mapTargetM, jumpTarget?]

theorem jumpTarget?_of_mapTargetM {f : τ → Except ε υ} {i : Instruction τ} {j : Instruction υ}
    (h : i.mapTargetM f = .ok j) (position : υ) :
    j.jumpTarget? = some position ↔
      ∃ target, i.jumpTarget? = some target ∧ f target = .ok position := by
  cases i with
  | goto target | loop target | label target =>
    obtain ⟨found, hfound, rfl⟩ := (map_eq_ok_iff _ _ _).mp h
    simp [jumpTarget?, hfound]
  | _ => cases h; simp [jumpTarget?]

theorem exists_of_mapTargetM {f : τ → Except ε υ} {i : Instruction τ} {j : Instruction υ}
    (h : i.mapTargetM f = .ok j) {target : τ} (htarget : i.jumpTarget? = some target) :
    ∃ position, f target = .ok position := by
  cases i with
  | goto other | loop other =>
    obtain rfl := Option.some.inj htarget
    obtain ⟨position, hposition, -⟩ := (map_eq_ok_iff _ _ _).mp h
    exact ⟨position, hposition⟩
  | _ => exact absurd htarget (by simp [jumpTarget?])

/-- Targets that are looked up and then mapped are mapped by way of what is found. -/
theorem mapTarget_of_mapTargetM {ω : Type} {f : τ → Except ε υ} {g : υ → ω} {k : τ → ω}
    (hfound : ∀ target position, f target = .ok position → k target = g position)
    {i : Instruction τ} {j : Instruction υ} (h : i.mapTargetM f = .ok j) :
    j.mapTarget g = i.mapTarget k := by
  cases i with
  | goto target | loop target | label target =>
    obtain ⟨position, hposition, rfl⟩ := (map_eq_ok_iff _ _ _).mp h
    simp [mapTarget, hfound target position hposition]
  | _ => cases h; rfl

/-- What does not depend on the target of an instruction is the same once that is looked up. -/
theorem congr_of_mapTargetM {α : Type} (observe : {σ : Type} → Instruction σ → α)
    (hobserve : ∀ {σ ω : Type} (g : σ → ω) (k : Instruction σ), observe (k.mapTarget g) = observe k)
    {f : τ → Except ε υ} {i : Instruction τ} {j : Instruction υ} (h : i.mapTargetM f = .ok j) :
    observe j = observe i := by
  have hforget : j.mapTarget (fun _ ↦ ()) = i.mapTarget (fun _ ↦ ()) :=
    mapTarget_of_mapTargetM (fun _ _ _ ↦ rfl) h
  rw [← hobserve (fun _ ↦ ()) j, hforget, hobserve]

theorem isLabel_of_mapTargetM {f : τ → Except ε υ} {i : Instruction τ} {j : Instruction υ}
    (h : i.mapTargetM f = .ok j) : j.isLabel = i.isLabel :=
  congr_of_mapTargetM isLabel isLabel_mapTarget h

end Instruction

theorem encodeCommand_eq_ok_iff {positions : Array (Except BytecodeError UInt16)}
    {command : Command} (hlabel : command.isLabel = false) (words : List UInt16) :
    encodeCommand positions command = .ok words ↔
      ∃ raw, command.mapTargetM (resolveTarget positions) = .ok raw ∧ raw.encode = .ok words := by
  rw [encodeCommand, hlabel, if_neg Bool.false_ne_true]
  cases command.mapTargetM (resolveTarget positions) <;> simp

/-- Commands are encoded one by one, with the positions of their labels looked up. -/
theorem encodeCommands_eq_ok_iff (positions : Array (Except BytecodeError UInt16))
    (commands : List Command) (words : List UInt16) :
    encodeCommands positions commands = .ok words ↔
      ∃ raws, List.Forall₂ (fun command raw ↦
          command.mapTargetM (resolveTarget positions) = .ok raw) (withoutLabels commands) raws ∧
        Spells raws words := by
  induction commands generalizing words with
  | nil =>
    constructor
    · intro h
      cases h
      exact ⟨[], .nil, .nil⟩
    · rintro ⟨raws, hraws, hspells⟩
      cases hraws
      cases hspells
      rfl
  | cons command rest ih =>
    cases hlabel : command.isLabel
    · rw [withoutLabels_cons_of_not_label rest hlabel, encodeCommands]
      constructor
      · intro h
        split at h
        · cases h
        · next front hfront =>
          obtain ⟨back, hback, rfl⟩ := (map_eq_ok_iff _ _ _).mp h
          obtain ⟨raw, hraw, hencode⟩ := (encodeCommand_eq_ok_iff hlabel front).mp hfront
          obtain ⟨raws, hraws, hspells⟩ := (ih back).mp hback
          refine ⟨raw :: raws, .cons hraw hraws, .cons ?_ hencode hspells⟩
          rw [Instruction.isLabel_of_mapTargetM hraw, hlabel]
      · rintro ⟨_, hraws, hspells⟩
        cases hraws with
        | cons hraw hraws =>
          cases hspells with
          | cons _ hencode hspells =>
            rw [(encodeCommand_eq_ok_iff hlabel _).mpr ⟨_, hraw, hencode⟩]
            exact (map_eq_ok_iff _ _ _).mpr ⟨_, (ih _).mpr ⟨_, hraws, hspells⟩, rfl⟩
    · have hskip : withoutLabels (command :: rest) = withoutLabels rest :=
        List.filter_cons_of_neg (by simp [hlabel])
      have hnone : encodeCommand positions command = .ok [] := by
        rw [encodeCommand, hlabel, if_pos rfl]
      rw [hskip, ← ih, encodeCommands, hnone]
      cases encodeCommands positions rest <;> simp [Except.map]

theorem Spells.streamLen_eq {instructions : List RawInstruction} {words : List UInt16}
    (h : Spells instructions words) : streamLen instructions = words.length := by
  induction h with
  | nil => rfl
  | cons _ hencode _ ih =>
    rw [streamLen_cons, List.length_append, ih, Instruction.length_of_encode hencode]

/-- A list assembles to the spelling of its instructions with positions for labels. -/
theorem assemble_eq_ok_iff (list : CommandList) (assembled : Assembled) :
    assemble list = .ok assembled ↔
      (∃ raws, List.Forall₂ (fun command raw ↦ command.mapTargetM list.jumpWord = .ok raw)
          (withoutLabels list.commands) raws ∧ Spells raws assembled.words) ∧
        assembled.hints = list.labelHints (markerOffsets 0 list.commands) := by
  have hencode := encodeCommands_eq_ok_iff (list.jumpPositions (markerOffsets 0 list.commands))
    list.commands
  rw [assemble, map_eq_ok_iff]
  constructor
  · rintro ⟨words, hwords, rfl⟩
    exact ⟨(hencode words).mp hwords, rfl⟩
  · rintro ⟨hraws, hhints⟩
    refine ⟨assembled.words, (hencode assembled.words).mpr hraws, ?_⟩
    rw [← hhints]

end SpriteBytecode
