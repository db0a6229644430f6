import SpriteBytecode.Proofs.CommandList.Mirror
import SpriteBytecode.Proofs.Playback.Course

/-!
Playback of a list and of a copy that mirrors it. States of the two are alike if they agree in all
but the cursor and go on from aligned indices. One instruction takes alike states to alike states
(`effect_mirror`), and markers that only the list has take none of the copy's commands, so that a
tick of the copy runs at most as many commands. Hence alike states stay so tick by tick, up to the
first tick of the list that stalls (`ticks_mirror`).
-/

set_option autoImplicit false
set_option relaxedAutoImplicit false

namespace SpriteBytecode

namespace AnimationState

/-- What of a state does not depend on where the commands stand. -/
def withoutCursor (state : AnimationState) : AnimationState := { state with cursor := 0 }

theorem eq_of_withoutCursor_eq {state other : AnimationState}
    (h : other.withoutCursor = state.withoutCursor) :
    other = { state with cursor := other.cursor } :=
  congrArg (fun common : AnimationState ↦ { common with cursor := other.cursor }) h

theorem delay_eq_of_withoutCursor_eq {state other : AnimationState}
    (h : other.withoutCursor = state.withoutCursor) : other.delay = state.delay := by
  rw [eq_of_withoutCursor_eq h]

end AnimationState

/-- A state of the list's playback and one of the copy's that go on alike. -/
structure Alike (list copy : CommandList) (state copyState : AnimationState) : Prop where
  same : copyState.withoutCursor = state.withoutCursor
  aligned : Aligned list copy state.settled.cursor copyState.settled.cursor

section Alike

variable {list copy : CommandList} {state copyState : AnimationState}

theorem Alike.delay_eq (h : Alike list copy state copyState) : copyState.delay = state.delay :=
  AnimationState.delay_eq_of_withoutCursor_eq h.same

theorem Alike.aligned_cursor (h : Alike list copy state copyState) (hdelay : state.delay ≤ 0) :
    Aligned list copy state.cursor copyState.cursor := by
  rw [← AnimationState.cursor_settled hdelay,
    ← AnimationState.cursor_settled (le_of_eq_of_le h.delay_eq hdelay)]
  exact h.aligned

theorem alike_of_aligned (hdelay : state.delay ≤ 0)
    (hsame : copyState.withoutCursor = state.withoutCursor)
    (h : Aligned list copy state.cursor copyState.cursor) : Alike list copy state copyState where
  same := hsame
  aligned := by
    have hcopy := AnimationState.delay_eq_of_withoutCursor_eq hsame
    rw [AnimationState.cursor_settled hdelay,
      AnimationState.cursor_settled (le_of_eq_of_le hcopy hdelay)]
    exact h

end Alike

namespace Player

/-- The same assets and configuration over another list. -/
def playing (player : Player) (list : CommandList) : Player :=
  { player with program := list.program }

variable {player : Player} {copy : CommandList} {f : LabelId → LabelId}
  (h : Mirrors player.list copy f)

include h

/-- An instruction does the same to alike states. -/
theorem effect_mirror {state copyState : AnimationState} {command : Command}
    (hdelay : state.delay ≤ 0) (halike : Alike player.list copy state copyState)
    (hget : player.list.get? state.cursor = some command) (hlabel : command.isLabel = false) :
    ((player.playing copy).effect (command.mapTarget f) copyState).blocks =
        (player.effect command state).blocks ∧
      Alike player.list copy (player.effect command state).state
        ((player.playing copy).effect (command.mapTarget f) copyState).state := by
  have haligned := halike.aligned_cursor hdelay
  have hnext := h.aligned_behind_instruction haligned hget hlabel
  obtain ⟨copyCursor, rfl⟩ : ∃ copyCursor, copyState = { state with cursor := copyCursor } :=
    ⟨_, AnimationState.eq_of_withoutCursor_eq halike.same⟩
  cases command with
  | wait count =>
    have hpending : (0 : Int) < (waitTime count).toNat := Int.natCast_pos.mpr (waitTime_pos count)
    rw [Instruction.mapTarget, effect_wait, effect_wait]
    refine ⟨rfl, rfl, ?_⟩
    simp only [AnimationState.settled, AnimationState.resetPulse, if_pos hpending]
    exact hnext
  | goto target =>
    obtain ⟨place, copyPlace, hplace, hcopyPlace, hjump, hlt⟩ :=
      h.aligned_jump haligned hget rfl
    rw [Instruction.mapTarget, player.effect_goto_of_eq_some _ hplace,
      (player.playing copy).effect_goto_of_eq_some _ hcopyPlace]
    simp only [hlt]
    exact ⟨trivial, alike_of_aligned hdelay rfl hjump⟩
  | loop target count =>
    obtain ⟨place, copyPlace, hplace, hcopyPlace, hjump, -⟩ :=
      h.aligned_jump haligned hget rfl
    rw [Instruction.mapTarget, player.effect_loop_of_eq_some _ count hplace,
      (player.playing copy).effect_loop_of_eq_some _ count hcopyPlace]
    dsimp only
    rcases nextRepeats state.repeats count with - | remaining
    · exact ⟨rfl, alike_of_aligned hdelay rfl hnext⟩
    · exact ⟨rfl, alike_of_aligned hdelay rfl hjump⟩
  | setParent index =>
    rw [Instruction.mapTarget, effect_setParent, effect_setParent]
    exact ⟨rfl, alike_of_aligned hdelay rfl hnext⟩
  | label target => exact absurd hlabel (by simp [Instruction.isLabel])
  | _ => exact ⟨rfl, alike_of_aligned hdelay rfl hnext⟩

/-- Run with at least the list's cap, the copy gets to where the list gets without stalling. -/
theorem runCommands_mirror (cap : Nat) :
    ∀ {copyCap : Nat} {state copyState : AnimationState}, cap ≤ copyCap → state.delay ≤ 0 →
      Alike player.list copy state copyState →
      (player.runCommands cap state []).outcome ≠ .stalled →
      ((player.playing copy).runCommands copyCap copyState []).outcome =
          (player.runCommands cap state []).outcome ∧
        Alike player.list copy (player.runCommands cap state []).state
          ((player.playing copy).runCommands copyCap copyState []).state := by
  induction cap with
  | zero =>
    intro copyCap state copyState _ _ _ hstalled
    exact absurd rfl hstalled
  | succ cap ih =>
    intro copyCap state copyState hcap hdelay halike hstalled
    obtain ⟨copyCap, rfl⟩ := Nat.exists_eq_add_of_le' (Nat.le_trans (Nat.le_add_left 1 cap) hcap)
    have hle : cap ≤ copyCap := Nat.le_of_succ_le_succ hcap
    have haligned := halike.aligned_cursor hdelay
    rcases hget : player.list.get? state.cursor with - | command
    · have hcopy : copy.get? copyState.cursor = none := by
        rw [h.get?_of_aligned haligned (by simp [hget]), hget, Option.map_none]
      rw [player.runCommands_of_get?_eq_none cap hget,
        (player.playing copy).runCommands_of_get?_eq_none copyCap hcopy]
      exact ⟨rfl, halike⟩
    rcases hlabel : command.isLabel with - | -
    · have hcopy := h.get?_of_instruction haligned hget hlabel
      obtain ⟨hblocks, heffect⟩ := effect_mirror h hdelay halike hget hlabel
      rcases hends : (player.effect command state).blocks with - | -
      · rw [player.runCommands_of_not_blocks cap hget hends] at hstalled ⊢
        rw [(player.playing copy).runCommands_of_not_blocks copyCap hcopy (hblocks.trans hends)]
        refine ih hle ?_ heffect hstalled
        rcases player.wait_or_not_blocks command state with ⟨count, rfl⟩ | ⟨-, hsame, -⟩
        · exact absurd hends (by simp [effect_wait])
        · exact le_of_eq_of_le hsame hdelay
      · rw [player.runCommands_of_blocks cap hget hends,
          (player.playing copy).runCommands_of_blocks copyCap hcopy (hblocks.trans hends)]
        exact ⟨rfl, heffect⟩
    · obtain ⟨id, rfl⟩ := eq_label_of_isLabel hlabel
      rw [player.runCommands_of_not_blocks cap hget rfl] at hstalled ⊢
      by_cases hmarker : ∃ other, copy.get? copyState.cursor = some (.label other)
      · obtain ⟨other, hcopy⟩ := hmarker
        rw [(player.playing copy).runCommands_of_not_blocks copyCap hcopy rfl]
        exact ih hle hdelay
          (alike_of_aligned hdelay halike.same (h.aligned_behind_labels haligned hget hcopy))
          hstalled
      · -- The copy has dropped this marker: the list passes it alone, and has less of its cap left.
        have hnone : ∀ other, copy.get? copyState.cursor ≠ some (.label other) :=
          fun other hother ↦ hmarker ⟨other, hother⟩
        exact ih (Nat.le_succ_of_le hle) hdelay
          (alike_of_aligned hdelay halike.same (haligned.behind_label hget hnone)) hstalled

theorem step_mirror {state copyState : AnimationState}
    (halike : Alike player.list copy state copyState)
    (hstalled : (player.step state).outcome ≠ .stalled) :
    ((player.playing copy).step copyState).outcome = (player.step state).outcome ∧
      Alike player.list copy (player.step state).state
        ((player.playing copy).step copyState).state := by
  have haligned := halike.aligned
  by_cases hwaiting : 0 < state.delay - max 1 player.config.ticksPerStep.toInt
  · have hcopyWaiting :
        0 < copyState.delay - max 1 (player.playing copy).config.ticksPerStep.toInt := by
      rw [halike.delay_eq]
      exact hwaiting
    rw [player.step_of_waiting hwaiting, (player.playing copy).step_of_waiting hcopyWaiting]
    refine ⟨rfl, ?_, ?_⟩
    · rw [AnimationState.eq_of_withoutCursor_eq halike.same]
      rfl
    · dsimp only
      rw [settled_of_waiting (by omega) hwaiting, settled_of_waiting (by omega) hcopyWaiting]
      exact haligned
  · have hcopyWaiting :
        ¬ 0 < copyState.delay - max 1 (player.playing copy).config.ticksPerStep.toInt := by
      rw [halike.delay_eq]
      exact hwaiting
    obtain ⟨hstep, hdelay, hsettled⟩ := player.step_of_not_waiting hwaiting
    obtain ⟨hcopyStep, -, hcopySettled⟩ :=
      (player.playing copy).step_of_not_waiting hcopyWaiting
    rw [hstep] at hstalled ⊢
    rw [hcopyStep]
    refine runCommands_mirror h _ (Nat.le_refl _) hdelay ⟨?_, ?_⟩ hstalled
    · rw [AnimationState.eq_of_withoutCursor_eq halike.same]
      rfl
    · rw [hsettled, hcopySettled]
      exact haligned

/-- Ticks on the list that do not stall are matched by ticks on the copy. -/
theorem ticks_mirror (count : Nat) :
    ∀ {state copyState : AnimationState}, Alike player.list copy state copyState →
      (∀ tick ∈ player.ticks count state, tick.outcome ≠ .stalled) →
      ((player.playing copy).ticks count copyState).map
          (fun tick ↦ (tick.outcome, tick.state.withoutCursor)) =
        (player.ticks count state).map (fun tick ↦ (tick.outcome, tick.state.withoutCursor)) := by
  induction count with
  | zero => intro state copyState _ _; rfl
  | succ count ih =>
    intro state copyState halike hstalled
    obtain ⟨houtcome, hnext⟩ := step_mirror h halike (hstalled _ List.mem_cons_self)
    rw [ticks, ticks, List.map_cons, List.map_cons, houtcome, hnext.same,
      ih hnext fun tick htick ↦ hstalled tick (List.mem_cons_of_mem _ htick)]

end Player

end SpriteBytecode
