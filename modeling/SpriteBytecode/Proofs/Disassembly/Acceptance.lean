import Mathlib.Order.Bounds.Defs
import SpriteBytecode.Proofs.CommandList.Place
import SpriteBytecode.Proofs.Disassembly.RoundTrip

/-!
Which streams disassemble, and where the others fail. An instruction is decoded in the same way
whatever stands behind it (`Instruction.decode_append`), so a stream that begins with the spelling
of some instructions spells those first (`Spells.exists_of_append`). Decoding fails behind a spelled
prefix at which no instruction can be decoded (`exists_fault_of_decodeStream`), and no longer prefix
is spelled (`not_spells_of_fault`).
-/

set_option autoImplicit false
set_option relaxedAutoImplicit false

namespace SpriteBytecode

namespace Instruction

variable {τ υ ω : Type}

/-- More words behind an instruction do not change how it is decoded. -/
theorem decode_append {words rest : List UInt16} {i : RawInstruction}
    (h : decode words = .ok (i, rest)) (more : List UInt16) :
    decode (words ++ more) = .ok (i, rest ++ more) := by
  obtain ⟨front, hencode, hlabel, rfl⟩ := exists_encode_of_decode h
  rw [List.append_assoc]
  exact decode_of_encode hencode hlabel (rest ++ more)

theorem mapTarget_mapTarget (f : τ → υ) (g : υ → ω) (i : Instruction τ) :
    (i.mapTarget f).mapTarget g = i.mapTarget fun target ↦ g (f target) := by
  cases i <;> rfl

theorem mapTarget_eq_self {f : τ → τ} {i : Instruction τ} (hlabel : i.isLabel = false)
    (h : ∀ target, i.jumpTarget? = some target → f target = target) : i.mapTarget f = i := by
  cases i with
  | goto target => rw [mapTarget, h target rfl]
  | loop target count => rw [mapTarget, h target rfl]
  | label target => exact absurd hlabel (by simp [isLabel])
  | _ => rfl

end Instruction

/-! ### Spelled prefixes -/

namespace Spells

variable {instructions front : List RawInstruction} {words spelled back : List UInt16}

theorem exists_cons_of_decode (h : Spells instructions words) {i : RawInstruction}
    {rest : List UInt16} (hdecode : Instruction.decode words = .ok (i, rest)) :
    ∃ later, instructions = i :: later ∧ Spells later rest := by
  cases h with
  | nil => exact absurd hdecode (by simp [Instruction.decode])
  | cons hlabel hencode hrest =>
    rw [Instruction.decode_of_encode hencode hlabel, Except.ok.injEq, Prod.mk.injEq] at hdecode
    obtain ⟨rfl, rfl⟩ := hdecode
    exact ⟨_, rfl, hrest⟩

/-- A stream that begins with a spelling goes on with a spelling. -/
theorem exists_of_append (hfront : Spells front spelled)
    (h : Spells instructions (spelled ++ back)) :
    ∃ later, instructions = front ++ later ∧ Spells later back := by
  induction hfront generalizing instructions with
  | nil => exact ⟨instructions, rfl, h⟩
  | @cons i first others words hlabel hencode _ ih =>
    rw [List.append_assoc] at h
    obtain ⟨rest, rfl, hrest⟩ :=
      h.exists_cons_of_decode (Instruction.decode_of_encode hencode hlabel (words ++ back))
    obtain ⟨later, rfl, hlater⟩ := ih hrest
    exact ⟨later, rfl, hlater⟩

theorem exists_decode (h : Spells instructions words) (hwords : words ≠ []) :
    ∃ i rest, Instruction.decode words = .ok (i, rest) := by
  cases h with
  | nil => exact absurd rfl hwords
  | cons hlabel hencode _ => exact ⟨_, _, Instruction.decode_of_encode hencode hlabel _⟩

end Spells

/-- Where decoding fails, no longer prefix is spelled. -/
theorem not_spells_of_fault {front instructions : List RawInstruction}
    {spelled more rest : List UInt16} {reason : MalformedReason} (hfront : Spells front spelled)
    (hfault : Instruction.decode (more ++ rest) = .error reason) (hmore : more ≠ []) :
    ¬ Spells instructions (spelled ++ more) := by
  intro h
  obtain ⟨later, -, hlater⟩ := hfront.exists_of_append h
  obtain ⟨i, behind, hdecode⟩ := hlater.exists_decode hmore
  rw [Instruction.decode_append hdecode] at hfault
  cases hfault

/-- Decoding fails behind a spelled prefix, with the reason why nothing can be decoded there. -/
theorem exists_fault_of_decodeStream {offset : Nat} {words : List UInt16} {error : BytecodeError}
    (h : decodeStream offset words = .error error) :
    ∃ front spelled rest reason, words = spelled ++ rest ∧ Spells front spelled ∧
      Instruction.decode rest = .error reason ∧
      error = .malformedStream (offset + spelled.length) reason := by
  induction offset, words using decodeStream.induct with
  | case1 offset =>
    rw [decodeStream_nil] at h
    cases h
  | case2 offset word tail reason hfault =>
    rw [decodeStream_of_error hfault (List.cons_ne_nil word tail)] at h
    cases h
    exact ⟨[], [], word :: tail, reason, rfl, .nil, hfault, rfl⟩
  | case3 offset word tail i rest hok ih =>
    rw [decodeStream_of_decode hok] at h
    rcases hrest : decodeStream (offset + i.wordLen) rest with found | instructions
    · rw [hrest] at h
      cases h
      obtain ⟨front, spelled, later, reason, rfl, hspelled, hfault, rfl⟩ := ih hrest
      obtain ⟨first, hencode, hlabel, hwords⟩ := Instruction.exists_encode_of_decode hok
      refine ⟨i :: front, first ++ spelled, later, reason, ?_, .cons hlabel hencode hspelled,
        hfault, ?_⟩
      · rw [hwords, List.append_assoc]
      · rw [List.length_append, Instruction.length_of_encode hencode, Nat.add_assoc]
    · rw [hrest] at h
      cases h

/-! ### Accepted streams -/

theorem exists_disassemble_iff (words : List UInt16) (hints : LabelHints) :
    (∃ list, disassemble words hints = .ok list) ↔ ∃ instructions, Spells instructions words := by
  simp only [disassemble_eq_ok_iff]
  constructor
  · rintro ⟨_, instructions, hspells, -⟩
    exact ⟨instructions, hspells⟩
  · rintro ⟨instructions, hspells⟩
    exact ⟨_, instructions, hspells, rfl⟩

/-- A stream that is no spelling fails at the end of its longest prefix that disassembles. -/
theorem exists_fault_of_not_spells {words : List UInt16} (hints : LabelHints)
    (h : ¬ ∃ instructions, Spells instructions words) :
    ∃ offset reason, disassemble words hints = .error (.malformedStream offset reason) ∧
      Instruction.decode (words.drop offset) = .error reason ∧
      IsGreatest {n | n ≤ words.length ∧ ∃ list, disassemble (words.take n) hints = .ok list}
        offset := by
  rcases hstream : decodeStream 0 words with error | instructions
  · obtain ⟨front, spelled, rest, reason, rfl, hspelled, hfault, rfl⟩ :=
      exists_fault_of_decodeStream hstream
    refine ⟨spelled.length, reason, ?_, ?_, ⟨?_, ?_⟩, ?_⟩
    · rw [disassemble, Disassembly.ofStream, hstream, Nat.zero_add]
      rfl
    · rw [List.drop_left, hfault]
    · rw [List.length_append]
      exact Nat.le_add_right _ _
    · rw [List.take_left, exists_disassemble_iff]
      exact ⟨front, hspelled⟩
    · rintro n ⟨hle, haccepted⟩
      by_contra hlonger
      obtain ⟨more, rfl⟩ := Nat.exists_eq_add_of_le (Nat.le_of_not_le hlonger)
      rw [exists_disassemble_iff, List.take_length_add_append] at haccepted
      obtain ⟨instructions, hspells⟩ := haccepted
      rw [← List.take_append_drop more rest] at hfault
      refine not_spells_of_fault hspelled hfault ?_ hspells
      intro hnil
      have hlength := congrArg List.length hnil
      rw [List.length_take, List.length_nil] at hlength
      rw [List.length_append] at hle
      omega
  · exact absurd ⟨instructions, (decodeStream_eq_ok_iff 0 _ _).mp hstream⟩ h

/-! ### Labels read as targets -/

/-- The target that a label was made for. -/
def targetOf (instructions : List RawInstruction) (id : LabelId) : UInt16 :=
  (jumpTargets instructions)[id.index]?.getD 0

theorem targetOf_labelOf {instructions : List RawInstruction} {target : UInt16}
    (h : target ∈ jumpTargets instructions) :
    targetOf instructions (labelOf instructions target) = target := by
  rw [targetOf, labelOf, List.getElem?_idxOf h, Option.getD_some]

/-- The label stands for the target: its marker is where the target lands, and its name is the
target's. -/
def CommandList.StandsFor (list : CommandList) (hints : LabelHints)
    (instructions : List RawInstruction) (id : LabelId) (target : UInt16) : Prop :=
  (∃ place, list.findLabel? id = some place ∧
    list.wordOffset? place = some (landing target.toNat instructions)) ∧
  list.labelName? id = some (targetName hints instructions target)

section Targets

variable {instructions : List RawInstruction} {words : List UInt16}
  (hspells : Spells instructions words) (hints : LabelHints)

include hspells

/-- The instructions come back when labels are read as the targets that they were made for. -/
theorem map_targetOf_ofInstructions :
    (withoutLabels (Disassembly.ofInstructions hints instructions).list.commands).map
      (·.mapTarget (targetOf instructions)) = instructions := by
  rw [withoutLabels_ofInstructions hspells.isLabel_eq_false, List.map_map]
  conv_rhs => rw [← List.map_id instructions]
  apply List.map_congr_left
  intro i hi
  rw [Function.comp_apply, Instruction.mapTarget_mapTarget, id_eq]
  refine Instruction.mapTarget_eq_self (hspells.isLabel_eq_false i hi) fun target htarget ↦ ?_
  exact targetOf_labelOf ((mem_jumpTargets_iff _ _).mpr ⟨i, hi, htarget⟩)

theorem exists_target_of_jump {command : Command} {id : LabelId}
    (hcommand : command ∈ (Disassembly.ofInstructions hints instructions).list.commands)
    (hjump : command.jumpTarget? = some id) :
    ∃ target ∈ jumpTargets instructions, labelOf instructions target = id := by
  have hmem : command ∈ instructions.map (·.mapTarget (labelOf instructions)) := by
    rw [← withoutLabels_ofInstructions hspells.isLabel_eq_false hints]
    exact List.mem_filter.mpr ⟨hcommand, by simp [not_isLabel_of_jumpTarget? hjump]⟩
  obtain ⟨i, hi, rfl⟩ := List.mem_map.mp hmem
  rw [Instruction.jumpTarget?_mapTarget, Option.map_eq_some_iff] at hjump
  obtain ⟨target, htarget, rfl⟩ := hjump
  exact ⟨target, (mem_jumpTargets_iff _ _).mpr ⟨i, hi, htarget⟩, rfl⟩

theorem standsFor_labelOf {target : UInt16} (htarget : target ∈ jumpTargets instructions) :
    (Disassembly.ofInstructions hints instructions).list.StandsFor hints instructions
      (labelOf instructions target) target := by
  refine ⟨?_, labelName?_ofInstructions hspells.isLabel_eq_false hints htarget⟩
  have hmarkers (id : LabelId) (position : Nat) :
      (id, position) ∈
          markerOffsets 0 (Disassembly.ofInstructions hints instructions).list.commands ↔
        ∃ other ∈ jumpTargets instructions,
          labelOf instructions other = id ∧ landing other.toNat instructions = position :=
    mem_markerOffsets_of_commands_eq hspells rfl id position
  obtain ⟨place, hplace⟩ :=
    exists_findLabel?_of_mem ((hmarkers _ _).mpr ⟨target, htarget, rfl, rfl⟩)
  obtain ⟨other, hother, hid, hlanding⟩ :=
    (hmarkers _ _).mp (mem_markerOffsets_of_findLabel? hplace)
  obtain rfl := (labelOf_inj hother).mp hid
  have hoffset := wordOffset?_of_get? (get?_of_findLabel? hplace)
  exact ⟨place, hplace, hoffset.trans (congrArg some hlanding.symm)⟩

end Targets

/-- A stream disassembles exactly if it spells instructions. They are then the only ones that it
spells, and those of the list, with each label read as the target that it stands for. Every other
stream fails at the end of its longest prefix that disassembles, with the reason why no instruction
can be decoded there. -/
theorem disassemble_accepts_iff_spells (words : List UInt16) (hints : LabelHints) :
    ((∃ list, disassemble words hints = .ok list) ↔ ∃ instructions, Spells instructions words) ∧
    (∀ list, disassemble words hints = .ok list →
      ∃ instructions, Spells instructions words ∧
        (∀ other, Spells other words → other = instructions) ∧
        (withoutLabels list.commands).map (·.mapTarget (targetOf instructions)) = instructions ∧
        ∀ command ∈ list.commands, ∀ id, command.jumpTarget? = some id →
          list.StandsFor hints instructions id (targetOf instructions id)) ∧
    ((¬ ∃ instructions, Spells instructions words) →
      ∃ offset reason, disassemble words hints = .error (.malformedStream offset reason) ∧
        Instruction.decode (words.drop offset) = .error reason ∧
        IsGreatest {n | n ≤ words.length ∧ ∃ list, disassemble (words.take n) hints = .ok list}
          offset) := by
  refine ⟨exists_disassemble_iff words hints, ?_, exists_fault_of_not_spells hints⟩
  intro list hlist
  obtain ⟨instructions, hspells, rfl⟩ := (disassemble_eq_ok_iff _ _ _).mp hlist
  refine ⟨instructions, hspells, fun other hother ↦ hother.instructions_unique hspells,
    map_targetOf_ofInstructions hspells hints, ?_⟩
  intro command hcommand id hjump
  obtain ⟨target, htarget, rfl⟩ := exists_target_of_jump hspells hints hcommand hjump
  rw [targetOf_labelOf htarget]
  exact standsFor_labelOf hspells hints htarget

/-- A loop whose count is cut off, behind a goto to its wait. -/
def cutLoop : List UInt16 := [0x0002, 0x2000, 0x7001]

/-- The first two words disassemble, and the whole stream fails behind them. -/
theorem disassemble_accepts_iff_spells_cut_loop :
    (∃ instructions, Spells instructions (cutLoop.take 2)) ∧
    IsGreatest {n | n ≤ cutLoop.length ∧ ∃ list, disassemble (cutLoop.take n) .empty = .ok list}
      2 := by
  have haccepted : disassemble (cutLoop.take 2) .empty =
      .ok ⟨[.label ⟨0⟩, .wait 2, .goto ⟨0⟩], ["Start"]⟩ := by decide +kernel
  have hrefused : disassemble cutLoop .empty = .error (.malformedStream 2 (.truncated 2 1)) := by
    decide +kernel
  obtain ⟨hiff, -, hfault⟩ := disassemble_accepts_iff_spells cutLoop .empty
  constructor
  · obtain ⟨instructions, hspells, -⟩ :=
      (disassemble_accepts_iff_spells (cutLoop.take 2) .empty).2.1 _ haccepted
    exact ⟨instructions, hspells⟩
  · obtain ⟨offset, reason, herror, -, hgreatest⟩ := hfault fun hspells ↦ by
      obtain ⟨list, hlist⟩ := hiff.mpr hspells
      cases hrefused.symm.trans hlist
    cases hrefused.symm.trans herror
    exact hgreatest

end SpriteBytecode
