import SpriteBytecode.Proofs.Playback.Invariant

/-!
What the commands of a tick leave behind. A tick keeps the state before each of its commands, so
that the state behind a command is the one before the next, or the tick's own
(`Tick.stateAfter`). It is the state that the command's effect says (`stateAfter_step`).
-/

set_option autoImplicit false
set_option relaxedAutoImplicit false

namespace SpriteBytecode

/-- The state behind the command at a place among those of the tick. -/
def Tick.stateAfter (tick : Tick) (place : Nat) : AnimationState :=
  (tick.executed[place + 1]?.map (·.before)).getD tick.state

namespace Player

variable (player : Player)

/-- A run of commands goes on from the state that it is started in. -/
theorem head_runCommands (cap : Nat) (state : AnimationState) :
    ((player.runCommands cap state []).executed[0]?.map (·.before)).getD
      (player.runCommands cap state []).state = state := by
  cases cap with
  | zero => rfl
  | succ cap =>
    rcases hget : player.list.get? state.cursor with - | command
    · rw [player.runCommands_of_get?_eq_none cap hget]
      rfl
    · rcases hblocks : (player.effect command state).blocks with - | -
      · rw [player.runCommands_of_not_blocks cap hget hblocks]
        rfl
      · rw [player.runCommands_of_blocks cap hget hblocks]
        rfl

theorem stateAfter_runCommands {cap : Nat} {state : AnimationState} {place : Nat}
    {execution : Execution}
    (h : (player.runCommands cap state []).executed[place]? = some execution) :
    player.list.get? execution.index = some execution.command ∧
      execution = player.execute execution.command execution.before ∧
      (player.runCommands cap state []).stateAfter place =
        (player.effect execution.command execution.before).state := by
  induction cap generalizing state place with
  | zero => exact absurd h (by simp [runCommands])
  | succ cap ih =>
    rcases hget : player.list.get? state.cursor with - | command
    · rw [player.runCommands_of_get?_eq_none cap hget] at h
      exact absurd h (by simp)
    rcases hblocks : (player.effect command state).blocks with - | -
    · rw [player.runCommands_of_not_blocks cap hget hblocks] at h ⊢
      cases place with
      | zero =>
        obtain rfl := Option.some.inj h
        exact ⟨hget, rfl, player.head_runCommands cap _⟩
      | succ place => exact ih h
    · rw [player.runCommands_of_blocks cap hget hblocks] at h ⊢
      cases place with
      | zero =>
        obtain rfl := Option.some.inj h
        exact ⟨hget, rfl, rfl⟩
      | succ place => exact absurd h (by simp)

/-- A command of a tick stands in the list at its index, and leaves behind what its effect says. -/
theorem stateAfter_step {state : AnimationState} {place : Nat} {execution : Execution}
    (h : (player.step state).executed[place]? = some execution) :
    player.list.get? execution.index = some execution.command ∧
      execution = player.execute execution.command execution.before ∧
      (player.step state).stateAfter place =
        (player.effect execution.command execution.before).state := by
  by_cases hwaiting : 0 < state.delay - max 1 player.config.ticksPerStep.toInt
  · rw [player.step_of_waiting hwaiting] at h
    exact absurd h (by simp)
  · rw [(player.step_of_not_waiting hwaiting).1] at h ⊢
    exact player.stateAfter_runCommands h

end Player

end SpriteBytecode
