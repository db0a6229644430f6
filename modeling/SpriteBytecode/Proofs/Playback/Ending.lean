import SpriteBytecode.Proofs.Playback.Session

/-!
What the outcome of a tick says about the end of the list. A tick looks for the end only while it
may still run a command (`length_executed_lt`). So it ends if and only if the cursor is past the
last command and its cap is not used up (`ended_iff_past_end`); a tick whose cap is used up by the
last command stalls, and it is the next one that ends.
-/

set_option autoImplicit false
set_option relaxedAutoImplicit false

namespace SpriteBytecode

namespace Player

variable (player : Player)

/-- A run of commands that comes to the end of the list has not used up its cap. -/
theorem length_executed_lt (cap : Nat) {state : AnimationState}
    (h : (player.runCommands cap state []).outcome = .ended) :
    (player.runCommands cap state []).executed.length < cap := by
  induction cap generalizing state with
  | zero => exact absurd h (by simp [runCommands])
  | succ cap ih =>
    rcases hget : player.list.get? state.cursor with - | command
    · rw [player.runCommands_of_get?_eq_none cap hget]
      exact Nat.succ_pos cap
    rcases hblocks : (player.effect command state).blocks with - | -
    · rw [player.runCommands_of_not_blocks cap hget hblocks] at h ⊢
      exact Nat.succ_lt_succ (ih h)
    · rw [player.runCommands_of_blocks cap hget hblocks] at h
      exact absurd h (by simp)

variable {player} {state : AnimationState}

theorem length_executed_lt_of_ended (h : (player.step state).outcome = .ended) :
    (player.step state).executed.length < player.config.maxIterations := by
  obtain ⟨hstep, -, -⟩ := player.step_of_outcome_ne (ne_of_eq_of_ne h (by decide))
  rw [hstep] at h ⊢
  exact player.length_executed_lt _ h

theorem length_executed_of_stalled (h : (player.step state).outcome = .stalled) :
    (player.step state).executed.length = player.config.maxIterations := by
  obtain ⟨-, -, hends⟩ := player.step_of_outcome_ne (ne_of_eq_of_ne h (by decide))
  rw [EndsAs, h] at hends
  exact hends.2

theorem sound_step (calls : List Call) :
    player.Sound (player.step (player.session calls).state).state := by
  have hcalls := (@keeps_sound player).session
    ⟨sound_initial, fun _ hmem ↦ absurd hmem List.not_mem_nil⟩ (calls ++ [.step])
  rw [session_concat] at hcalls
  exact hcalls.1

/-- Where no command stands a tick has ended or stalled: a pending delay belongs to a wait. -/
theorem ended_or_stalled_of_get?_eq_none (hsound : player.Sound (player.step state).state)
    (hend : player.list.get? (player.step state).state.cursor = none) :
    (player.step state).outcome = .ended ∨ (player.step state).outcome = .stalled := by
  have hidle (hpending : (player.step state).outcome = .waiting ∨
      (player.step state).outcome = .blocked) : False := by
    obtain ⟨count, hget, -⟩ := hsound.pending (delay_pos_of_pending hpending)
    exact absurd (hend.symm.trans hget) (by simp)
  rcases houtcome : (player.step state).outcome with - | - | - | -
  · exact (hidle (Or.inl houtcome)).elim
  · exact (hidle (Or.inr houtcome)).elim
  · exact Or.inl rfl
  · exact Or.inr rfl

end Player

/-- A tick ends if and only if it leaves the cursor past the last command and has run fewer commands
than it may. If it leaves the cursor there otherwise, it stalls with its cap used up, and the next
tick ends. -/
theorem ended_iff_past_end (player : Player) (hcap : 0 < player.config.maxIterations)
    (calls : List Call) :
    ((player.step (player.session calls).state).outcome = .ended ↔
      (player.step (player.session calls).state).state.cursor = player.list.length ∧
        (player.step (player.session calls).state).executed.length <
          player.config.maxIterations) ∧
    ((player.step (player.session calls).state).state.cursor = player.list.length →
      (player.step (player.session calls).state).outcome ≠ .ended →
      (player.step (player.session calls).state).outcome = .stalled ∧
        (player.step (player.session calls).state).executed.length =
          player.config.maxIterations ∧
        player.step (player.step (player.session calls).state).state =
          ⟨.ended, (player.step (player.session calls).state).state.resetPulse, []⟩) := by
  have hsound := player.sound_step calls
  have hend (hcursor : (player.step (player.session calls).state).state.cursor =
      player.list.length) :
      player.list.get? (player.step (player.session calls).state).state.cursor = none :=
    List.getElem?_eq_none (Nat.le_of_eq hcursor.symm)
  refine ⟨⟨fun hended ↦ ⟨?_, Player.length_executed_lt_of_ended hended⟩, ?_⟩, ?_⟩
  · have hpast := player.get?_of_ended hended
    rw [AnimationState.cursor_settled (Player.delay_le_of_over (Or.inl hended))] at hpast
    exact Nat.le_antisymm hsound.cursor_le (List.getElem?_eq_none_iff.mp hpast)
  · rintro ⟨hcursor, hlt⟩
    refine (Player.ended_or_stalled_of_get?_eq_none hsound (hend hcursor)).resolve_right ?_
    exact fun hstalled ↦ Nat.ne_of_lt hlt (Player.length_executed_of_stalled hstalled)
  · intro hcursor hended
    have hstalled :=
      (Player.ended_or_stalled_of_get?_eq_none hsound (hend hcursor)).resolve_left hended
    exact ⟨hstalled, Player.length_executed_of_stalled hstalled,
      Player.step_of_past_end (Player.delay_le_of_over (Or.inr hstalled)) (hend hcursor) hcap⟩

/-- With a cap of one the only command of a list uses it up: the tick that runs it stalls behind it,
and the next one ends. -/
theorem ended_iff_past_end_of_cap_one :
    0 < 1 ∧
    (((Player.mk (CommandList.mk [.setUnknown 0] []).program (.anonymous 0 0 0)
        { maxIterations := 1 }).step .initial).outcome = .stalled ∧
      (Player.mk (CommandList.mk [.setUnknown 0] []).program (.anonymous 0 0 0)
        { maxIterations := 1 }).step { cursor := 1 } = ⟨.ended, { cursor := 1 }, []⟩) := by
  have hcap : 0 < 1 := by decide
  obtain ⟨hstalled, -, hnext⟩ := (ended_iff_past_end (Player.mk
    (CommandList.mk [.setUnknown 0] []).program (.anonymous 0 0 0) { maxIterations := 1 })
    hcap []).2 (by decide) (by decide)
  exact ⟨hcap, hstalled, hnext⟩

/-- That the cursor is past the last command is not enough for a tick to end. -/
theorem not_ended_iff_past_end :
    ¬ ∀ (player : Player) (calls : List Call), 0 < player.config.maxIterations →
      ((player.step (player.session calls).state).outcome = .ended ↔
        (player.step (player.session calls).state).state.cursor = player.list.length) := by
  intro hclaim
  have hiff := hclaim (Player.mk (CommandList.mk [.setUnknown 0] []).program (.anonymous 0 0 0)
    { maxIterations := 1 }) [] (by decide)
  exact absurd (hiff.mpr (by decide)) (by decide)

end SpriteBytecode
