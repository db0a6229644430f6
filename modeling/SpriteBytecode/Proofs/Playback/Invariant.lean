import SpriteBytecode.Proofs.Playback.Course

/-!
What every command keeps, playback keeps. A statement about a state and the commands that have led
to it holds after any number of ticks if commands keep it (`Keeps`), and so does the countdown of a
delay (`Keeps.step`, `Keeps.ticks`). In particular what has run is what stands in the list
(`get?_of_mem_executions`).
-/

set_option autoImplicit false
set_option relaxedAutoImplicit false

namespace SpriteBytecode

namespace Player

variable (player : Player)

/-- A command that runs in `state`. -/
def execute (command : Command) (state : AnimationState) : Execution :=
  ⟨state, command, (player.effect command state).missing?⟩

/-- What commands keep, a run of them keeps. -/
theorem runCommands_keeps {Kept : AnimationState → List Execution → Prop}
    (hcommand : ∀ {state : AnimationState} {executed : List Execution} {command : Command},
      state.delay ≤ 0 → player.list.get? state.cursor = some command → Kept state executed →
      Kept (player.effect command state).state (executed ++ [player.execute command state]))
    (cap : Nat) :
    ∀ {state : AnimationState} {executed : List Execution}, state.delay ≤ 0 →
      Kept state executed →
      Kept (player.runCommands cap state []).state
        (executed ++ (player.runCommands cap state []).executed) := by
  induction cap with
  | zero =>
    intro state executed _ hstate
    exact (List.append_nil executed).symm ▸ hstate
  | succ cap ih =>
    intro state executed hdelay hstate
    rcases hget : player.list.get? state.cursor with - | command
    · rw [player.runCommands_of_get?_eq_none cap hget, List.append_nil]
      exact hstate
    have hnext := hcommand hdelay hget hstate
    rcases player.wait_or_not_blocks command state with ⟨count, rfl⟩ | ⟨hblocks, hsame, -⟩
    · rw [player.runCommands_of_blocks cap hget rfl]
      exact hnext
    · rw [player.runCommands_of_not_blocks cap hget hblocks]
      have hlater := ih (le_of_eq_of_le hsame hdelay) hnext
      rw [List.append_assoc] at hlater
      exact hlater

/-- Playback keeps the statement `Kept` about a state and the commands that have led to it. -/
structure Keeps (Kept : AnimationState → List Execution → Prop) : Prop where
  command : ∀ {state : AnimationState} {executed : List Execution} {command : Command},
    state.delay ≤ 0 → player.list.get? state.cursor = some command → Kept state executed →
    Kept (player.effect command state).state (executed ++ [player.execute command state])
  countdown : ∀ {state : AnimationState} {executed : List Execution} {delay : Int},
    0 < delay → delay ≤ state.delay → Kept state executed → Kept { state with delay } executed
  resume : ∀ {state : AnimationState} {executed : List Execution},
    (player.resume state).delay ≤ 0 → Kept state executed → Kept (player.resume state) executed

namespace Keeps

variable {player} {Kept : AnimationState → List Execution → Prop} (h : player.Keeps Kept)

include h

theorem step {state : AnimationState} {executed : List Execution} (hstate : Kept state executed) :
    Kept (player.step state).state (executed ++ (player.step state).executed) := by
  by_cases hwaiting : 0 < state.delay - max 1 player.config.ticksPerStep.toInt
  · rw [player.step_of_waiting hwaiting, List.append_nil]
    exact h.countdown hwaiting (by omega) hstate
  · obtain ⟨hstep, hover, -⟩ := player.step_of_not_waiting hwaiting
    rw [hstep]
    exact player.runCommands_keeps h.command _ hover (h.resume hover hstate)

theorem ticks (count : Nat) :
    ∀ {state : AnimationState} {executed : List Execution}, Kept state executed →
      Kept (player.after count state) (executed ++ player.executions count state) := by
  induction count with
  | zero => exact fun hstate ↦ (List.append_nil _).symm ▸ hstate
  | succ count ih =>
    intro state executed hstate
    rw [executions_succ, ← List.append_assoc]
    exact ih (h.step hstate)

end Keeps

theorem keeps_get? :
    player.Keeps fun _ executed ↦
      ∀ execution ∈ executed, player.list.get? execution.index = some execution.command where
  command _ hget hexecuted execution hmem := by
    rcases List.mem_append.mp hmem with hearlier | hlast
    · exact hexecuted execution hearlier
    · obtain rfl := List.mem_singleton.mp hlast
      exact hget
  countdown _ _ hexecuted := hexecuted
  resume _ hexecuted := hexecuted

/-- What has run is what stands in the list. -/
theorem get?_of_mem_executions {count : Nat} {state : AnimationState} {execution : Execution}
    (h : execution ∈ player.executions count state) :
    player.list.get? execution.index = some execution.command :=
  player.keeps_get?.ticks count (fun _ hmem ↦ absurd hmem List.not_mem_nil) execution h

end Player

end SpriteBytecode
