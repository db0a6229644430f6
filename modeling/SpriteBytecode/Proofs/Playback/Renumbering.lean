import SpriteBytecode.Proofs.CommandList.Renumbering
import SpriteBytecode.Proofs.Playback.Mirror
import SpriteBytecode.Timing.Report

/-!
Renumbered lists play alike and have the same timing. A command has the same effect under both
numberings (`Renumbers.effect_eq`), so that playback runs the same commands but for their handles,
tick by tick (`Renumbers.ticks_eq`). The timing walk makes the same visits
(`Renumbers.walkFrom_eq`), and annotates the same of them.
-/

set_option autoImplicit false
set_option relaxedAutoImplicit false

namespace SpriteBytecode

def Execution.mapTarget (f : LabelId → LabelId) (execution : Execution) : Execution :=
  { execution with command := execution.command.mapTarget f }

/-- The same tick with `f` for the handles of the commands that ran. -/
def Tick.mapTarget (f : LabelId → LabelId) (tick : Tick) : Tick :=
  { tick with executed := tick.executed.map (·.mapTarget f) }

namespace Renumbers

/-! ### Playback -/

section Playback

variable {player : Player} {other : CommandList} {f : LabelId → LabelId}
  (h : Renumbers player.list other f)

include h

theorem effect_eq {command : Command} (hcommand : command ∈ player.list.commands)
    (state : AnimationState) :
    (player.playing other).effect (command.mapTarget f) state = player.effect command state := by
  have hjump (target : LabelId) (htarget : command.jumpTarget? = some target) :
      (player.playing other).program.findLabel? (f target) = player.program.findLabel? target ∧
        (player.playing other).program.labelName? (f target) =
          player.program.labelName? target := by
    have hid := CommandList.refers_of_jump hcommand htarget
    rw [Program.findLabel?_eq, Program.findLabel?_eq, Program.labelName?_eq, Program.labelName?_eq]
    exact ⟨h.findLabel?_eq hid, h.labelName?_eq hid⟩
  cases command with
  | goto target =>
    obtain ⟨hplace, hname⟩ := hjump target rfl
    simp only [Instruction.mapTarget, Player.effect, hplace, hname]
  | loop target count =>
    obtain ⟨hplace, hname⟩ := hjump target rfl
    simp only [Instruction.mapTarget, Player.effect, hplace, hname]
  | _ => rfl

theorem runCommands_eq (cap : Nat) (state : AnimationState) (done : List Execution) :
    (player.playing other).runCommands cap state (done.map (·.mapTarget f)) =
      (player.runCommands cap state done).mapTarget f := by
  induction cap generalizing state done with
  | zero => rw [Player.runCommands, Player.runCommands, Tick.mapTarget, List.map_reverse]
  | succ cap ih =>
    have hget : (player.playing other).program.get? state.cursor =
        (player.program.get? state.cursor).map (·.mapTarget f) := by
      rw [Program.get?_eq, Program.get?_eq]
      exact h.get?_eq state.cursor
    rw [Player.runCommands, Player.runCommands, hget]
    rcases hcommand : player.program.get? state.cursor with - | command
    · rw [Option.map_none, Tick.mapTarget, List.map_reverse]
    · rw [Program.get?_eq] at hcommand
      have heffect := h.effect_eq (List.mem_of_getElem? hcommand) state
      simp only [Option.map_some, heffect]
      split
      · rw [Tick.mapTarget, List.map_reverse]
        rfl
      · exact ih _ (⟨state, command, _⟩ :: done)

theorem step_eq (state : AnimationState) :
    (player.playing other).step state = (player.step state).mapTarget f := by
  by_cases hwaiting : 0 < state.delay - max 1 player.config.ticksPerStep.toInt
  · rw [player.step_of_waiting hwaiting, (player.playing other).step_of_waiting hwaiting]
    rfl
  · rw [(player.step_of_not_waiting hwaiting).1,
      ((player.playing other).step_of_not_waiting hwaiting).1]
    exact h.runCommands_eq player.config.maxIterations (player.resume state) []

/-- Ticks of renumbered lists differ in the handles of the commands that ran only. -/
theorem ticks_eq (count : Nat) (state : AnimationState) :
    (player.playing other).ticks count state =
      (player.ticks count state).map (·.mapTarget f) := by
  induction count generalizing state with
  | zero => rfl
  | succ count ih =>
    rw [Player.ticks, Player.ticks, List.map_cons, h.step_eq, ← ih]
    rfl

end Playback

/-! ### Timing -/

section Timing

open Timing

variable {list other : CommandList} {f : LabelId → LabelId} (h : Renumbers list other f)

include h

theorem follow_eq {command : Command} (hcommand : command ∈ list.commands) (visit : Visit) :
    follow other.findLabel? (command.mapTarget f) visit =
      follow list.findLabel? command visit := by
  cases command with
  | goto target | loop target count =>
    have hplace := h.findLabel?_eq (CommandList.refers_of_jump hcommand rfl)
    simp only [Instruction.mapTarget, follow, hplace]
  | _ => rfl

theorem walkFrom_eq (cap : Nat) (here : Visit) (visited : List Visit) :
    walkFrom other cap here visited = walkFrom list cap here visited := by
  induction cap generalizing here visited with
  | zero =>
    unfold walkFrom
    rw [h.get?_eq]
    rcases list.get? here.position with - | command <;> rfl
  | succ cap ih =>
    unfold walkFrom
    rw [h.get?_eq]
    rcases hcommand : list.get? here.position with - | command
    · rfl
    · simp only [Option.map_some, h.follow_eq (List.mem_of_getElem? hcommand), ih]

theorem annotates_eq {command : Command} (hcommand : command ∈ list.commands) :
    annotates other.findLabel? (command.mapTarget f) = annotates list.findLabel? command := by
  cases command with
  | goto target =>
    exact congrArg Option.isSome (h.findLabel?_eq (CommandList.refers_of_jump hcommand rfl))
  | _ => rfl

theorem isAnnotated_eq (visit : Visit) : isAnnotated other visit = isAnnotated list visit := by
  rw [isAnnotated, isAnnotated, h.get?_eq]
  rcases hcommand : list.get? visit.position with - | command
  · rfl
  · exact h.annotates_eq (List.mem_of_getElem? hcommand)

/-- Renumbered lists have the same timing. -/
theorem analyzeTiming_eq (config : TimingConfig) :
    analyzeTiming other config = analyzeTiming list config := by
  have hwalk : walk other config.maxIterations = walk list config.maxIterations := by
    rw [walk, walk, h.walkFrom_eq, h.commands, List.isEmpty_map]
  have hannotated : isAnnotated other = isAnnotated list := funext h.isAnnotated_eq
  rw [analyzeTiming_eq_ofWalk, analyzeTiming_eq_ofWalk, hwalk, TimingReport.ofWalk,
    TimingReport.ofWalk, annotations, annotations, hannotated, h.length_eq]

end Timing

end Renumbers

end SpriteBytecode
