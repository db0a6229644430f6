import SpriteBytecode.Proofs.Disassembly.Placement
import SpriteBytecode.Proofs.Playback.Completion
import SpriteBytecode.Proofs.Validation.Report

/-!
Forwards and backwards in a disassembled list. Jumps are told apart by indices, and markers share
the words of the instructions behind them. Still the label of a jump stands in front of it exactly
if the target is not behind the word at which the jump begins (`findLabel?_lt_iff`), also for
targets inside the jump itself and behind the end of the stream: an instruction is behind every
marker at its own word (`lt_iff_wordsBefore_le`), and no landing is moved past the beginning of an
instruction (`landing_le_iff`). This decides which jumps are reported (`mem_validate_iff`), and
which gotos complete an animation (`goesBack_ofInstructions_iff`).
-/

set_option autoImplicit false
set_option relaxedAutoImplicit false

namespace SpriteBytecode

/-- The command at an index is this instruction of the stream, from this word on. -/
structure CommandList.Carries (list : CommandList) (instructions : List RawInstruction)
    (i : RawInstruction) (position index : Nat) : Prop where
  standsAt : StandsAt instructions i position
  get? : list.get? index = some (i.mapTarget (labelOf instructions))
  wordOffset? : list.wordOffset? index = some position

section Disassembled

variable {instructions : List RawInstruction} {words : List UInt16}
  (hspells : Spells instructions words) (hints : LabelHints)

include hspells

/-- The instructions of a stream are the commands that are no labels, from the same words on. -/
theorem standsAt_ofInstructions_iff (command : Command) (position : Nat) :
    (∃ i, StandsAt instructions i position ∧ i.mapTarget (labelOf instructions) = command) ↔
      command.isLabel = false ∧
        ∃ index, (Disassembly.ofInstructions hints instructions).list.get? index = some command ∧
          (Disassembly.ofInstructions hints instructions).list.wordOffset? index =
            some position := by
  rw [← standsAt_map_iff, ← withoutLabels_ofInstructions hspells.isLabel_eq_false hints,
    standsAt_withoutLabels_iff, standsAt_iff_index]
  refine and_congr_right fun _ ↦ exists_congr fun index ↦ and_congr_right fun hget ↦ ?_
  rw [wordOffset?_of_get? hget, Option.some.injEq]

theorem exists_carries {i : RawInstruction} {position : Nat}
    (h : StandsAt instructions i position) :
    ∃ index, (Disassembly.ofInstructions hints instructions).list.Carries instructions i position
      index := by
  obtain ⟨-, index, hget, hoffset⟩ :=
    (standsAt_ofInstructions_iff hspells hints _ position).mp ⟨i, h, rfl⟩
  exact ⟨index, h, hget, hoffset⟩

theorem exists_carries_of_get? {command : Command} {index : Nat}
    (hget : (Disassembly.ofInstructions hints instructions).list.get? index = some command)
    (hlabel : command.isLabel = false) :
    ∃ i position, i.mapTarget (labelOf instructions) = command ∧
      (Disassembly.ofInstructions hints instructions).list.Carries instructions i position
        index := by
  have hoffset := wordOffset?_of_get? hget
  obtain ⟨i, hstands, rfl⟩ :=
    (standsAt_ofInstructions_iff hspells hints command _).mpr ⟨hlabel, index, hget, hoffset⟩
  exact ⟨i, _, rfl, hstands, hget, hoffset⟩

variable {hints} {i : RawInstruction} {position index : Nat} {target : UInt16}

/-- The label of a jump stands in front of it if the target is not behind the word at which the jump
begins, and behind it otherwise. -/
theorem CommandList.Carries.findLabel?_lt_iff
    (h : (Disassembly.ofInstructions hints instructions).list.Carries instructions i position index)
    (htarget : i.jumpTarget? = some target) :
    ∃ place, (Disassembly.ofInstructions hints instructions).list.findLabel?
        (labelOf instructions target) = some place ∧
      (place < index ↔ target.toNat ≤ position) ∧ (index < place ↔ position < target.toNat) := by
  have hlabel : i.isLabel = false := hspells.isLabel_eq_false i h.standsAt.mem
  have hcommand : (i.mapTarget (labelOf instructions)).isLabel = false := by
    rw [Instruction.isLabel_mapTarget, hlabel]
  obtain ⟨⟨place, hplace, hlanding⟩, -⟩ := standsFor_labelOf hspells hints
    ((mem_jumpTargets_iff instructions target).mpr ⟨i, h.standsAt.mem, htarget⟩)
  have hmarker := get?_of_findLabel? hplace
  have hindex := h.wordOffset?
  rw [wordOffset?_of_get? hmarker, Option.some.injEq] at hlanding
  rw [wordOffset?_of_get? h.get?, Option.some.injEq] at hindex
  have hfront : place < index ↔ target.toNat ≤ position := by
    rw [lt_iff_wordsBefore_le hmarker h.get? hcommand, hlanding, hindex,
      landing_le_iff h.standsAt hlabel]
  have hne : place ≠ index := by
    rintro rfl
    exact ne_label_of_not_isLabel hcommand _ (Option.some.inj (h.get?.symm.trans hmarker))
  exact ⟨place, hplace, hfront, by omega⟩

theorem CommandList.Carries.mem_validate_iff
    (h : (Disassembly.ofInstructions hints instructions).list.Carries instructions i position index)
    (htarget : i.jumpTarget? = some target) (assets : Assets) (owner : Option Nat) :
    ⟨index, .forwardJump⟩ ∈
        (Disassembly.ofInstructions hints instructions).list.validate assets owner ↔
      position < target.toNat := by
  obtain ⟨place, hplace, -, hbehind⟩ := h.findLabel?_lt_iff hspells htarget
  have hjump : (i.mapTarget (labelOf instructions)).jumpTarget? =
      some (labelOf instructions target) := by
    rw [Instruction.jumpTarget?_mapTarget, htarget, Option.map_some]
  rw [CommandList.mem_validate_iff]
  simp only [h.get?, Option.some.injEq, exists_eq_left', problem?_eq_forwardJump_iff, hjump]
  constructor
  · rintro ⟨id, other, rfl, hother, hlt⟩
    obtain rfl := Option.some.inj (hplace.symm.trans hother)
    exact hbehind.mp hlt
  · intro hlt
    exact ⟨_, place, rfl, hplace, hbehind.mpr hlt⟩

/-- A goto of the stream jumps back if its target is not behind the word at which it begins. -/
theorem goesBack_ofInstructions_iff :
    (Disassembly.ofInstructions hints instructions).list.GoesBack index ↔
      ∃ position target,
        (Disassembly.ofInstructions hints instructions).list.Carries instructions (.goto target)
          position index ∧ target.toNat ≤ position := by
  constructor
  · rintro ⟨id, place, hgoto, hplace, hlt⟩
    obtain ⟨i, position, hi, hcarries⟩ := exists_carries_of_get? hspells hints hgoto rfl
    cases i with
    | goto target =>
      obtain rfl : labelOf instructions target = id := Instruction.goto.inj hi
      obtain ⟨other, hother, hfront, -⟩ := hcarries.findLabel?_lt_iff hspells rfl
      obtain rfl := Option.some.inj (hplace.symm.trans hother)
      exact ⟨position, target, hcarries, hfront.mp hlt⟩
    | _ => exact absurd hi (by simp [Instruction.mapTarget])
  · rintro ⟨position, target, hcarries, hle⟩
    obtain ⟨place, hplace, hfront, -⟩ := hcarries.findLabel?_lt_iff hspells rfl
    exact ⟨_, place, hcarries.get?, hplace, hfront.mpr hle⟩

end Disassembled

/-- In a disassembled list each instruction of the stream is a command at its word offset. A jump is
reported to go forward exactly if its target is behind the word at which it begins, and after any
calls an animation is complete exactly if a goto whose target is not behind its own word has run
since the start and before any wait. -/
theorem disassembled_jump_directions {words : List UInt16} {hints : LabelHints} {list : CommandList}
    {instructions : List RawInstruction} (hstream : decodeStream 0 words = .ok instructions)
    (hlist : disassemble words hints = .ok list) :
    (∀ i position, StandsAt instructions i position →
      ∃ index, list.Carries instructions i position index) ∧
    (∀ i position index target, list.Carries instructions i position index →
      i.jumpTarget? = some target → ∀ assets owner,
        (⟨index, .forwardJump⟩ ∈ list.validate assets owner ↔ position < target.toNat)) ∧
    ∀ (assets : Assets) (config : PlaybackConfig) (calls : List Call),
      ((Player.mk list.program assets config).session calls).state.complete = true ↔
        RanBeforeWait
          (fun execution ↦ ∃ position target,
            list.Carries instructions (.goto target) position execution.index ∧
              target.toNat ≤ position)
          ((Player.mk list.program assets config).session calls).executed := by
  obtain ⟨hspells, rfl⟩ := list_ofInstructions_of_disassemble hstream hlist
  refine ⟨fun i position h ↦ exists_carries hspells hints h, ?_, ?_⟩
  · intro i position index target hcarries htarget assets owner
    exact hcarries.mem_validate_iff hspells htarget assets owner
  · intro assets config calls
    rw [Player.complete_session_iff]
    exact ranBeforeWait_congr fun execution _ ↦ goesBack_ofInstructions_iff hspells

/-- A loop into its own last word, and a goto to itself. -/
def intoThemselves : List RawInstruction := [.loop 1 1, .goto 2]

/-- The loop goes forward, and the goto has completed the animation. -/
theorem disassembled_jump_directions_into_themselves :
    ∃ list, disassemble [0x7001, 0x0001, 0x2002] .empty = .ok list ∧
      (∃ index, list.Carries intoThemselves (.loop 1 1) 0 index ∧
        ∀ assets owner, ⟨index, .forwardJump⟩ ∈ list.validate assets owner) ∧
      RanBeforeWait
        (fun execution ↦ ∃ position target,
          list.Carries intoThemselves (.goto target) position execution.index ∧
            target.toNat ≤ position)
        ((Player.mk list.program (.anonymous 0 0 0) { maxIterations := 4 }).session
          [.step]).executed := by
  have hstream : decodeStream 0 [0x7001, 0x0001, 0x2002] = .ok intoThemselves := by
    decide +kernel
  have hperm : [1, 2].Perm (jumpTargets intoThemselves) := by decide +kernel
  have hlist := (disassemble_of_ascending hstream hperm (by decide) .empty).trans
    (show _ = .ok ⟨[.loop ⟨0⟩ 1, .label ⟨1⟩, .label ⟨0⟩, .goto ⟨1⟩], ["#1", "Pos_2"]⟩ by
      decide +kernel)
  obtain ⟨hcarried, hforward, hcomplete⟩ := disassembled_jump_directions hstream hlist
  obtain ⟨index, hindex⟩ := hcarried (.loop 1 1) 0 ⟨[], [.goto 2], rfl, rfl⟩
  refine ⟨_, hlist, ⟨index, hindex, fun assets owner ↦ ?_⟩, ?_⟩
  · exact (hforward _ _ _ 1 hindex rfl assets owner).mpr (by decide)
  · exact (hcomplete _ _ _).mp (by decide +kernel)

end SpriteBytecode
