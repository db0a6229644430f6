import SpriteBytecode.Proofs.Playback.Session

/-!
When an animation counts as complete. Only a goto completes it, if its label stands in front of it
and no time has elapsed (`complete_effect_iff`). As time elapses with the first wait, an animation
is complete after any calls exactly if such a goto has run before any wait
(`complete_session_iff`).
-/

set_option autoImplicit false
set_option relaxedAutoImplicit false

namespace SpriteBytecode

/-- A command of this kind is among those that have run before any wait. -/
def RanBeforeWait (chosen : Execution → Prop) (executed : List Execution) : Prop :=
  ∃ front execution back, executed = front ++ execution :: back ∧
    (∀ earlier ∈ front, ∀ count, earlier.command ≠ .wait count) ∧ chosen execution

theorem not_ranBeforeWait_nil (chosen : Execution → Prop) : ¬ RanBeforeWait chosen [] := by
  rintro ⟨front, execution, back, h, -⟩
  exact List.cons_ne_nil execution back (List.append_eq_nil_iff.mp h.symm).2

theorem ranBeforeWait_concat (chosen : Execution → Prop) (executed : List Execution)
    (last : Execution) :
    RanBeforeWait chosen (executed ++ [last]) ↔
      RanBeforeWait chosen executed ∨
        (∀ earlier ∈ executed, ∀ count, earlier.command ≠ .wait count) ∧ chosen last := by
  constructor
  · rintro ⟨front, execution, back, hsplit, hfront, hchosen⟩
    rcases List.eq_nil_or_concat' back with rfl | ⟨between, other, rfl⟩
    · obtain ⟨rfl, hlast⟩ := List.append_inj' hsplit rfl
      obtain rfl := List.singleton_inj.mp hlast
      exact Or.inr ⟨hfront, hchosen⟩
    · rw [← List.cons_append, ← List.append_assoc] at hsplit
      obtain ⟨rfl, -⟩ := List.append_inj' hsplit rfl
      exact Or.inl ⟨front, execution, between, rfl, hfront, hchosen⟩
  · rintro (⟨front, execution, back, rfl, hfront, hchosen⟩ | ⟨hexecuted, hchosen⟩)
    · exact ⟨front, execution, back ++ [last], by simp, hfront, hchosen⟩
    · exact ⟨executed, last, [], rfl, hexecuted, hchosen⟩

theorem ranBeforeWait_of_mem {chosen : Execution → Prop} {executed : List Execution}
    (hwait : ∀ execution ∈ executed, ∀ count, execution.command ≠ .wait count)
    (h : ∃ execution ∈ executed, chosen execution) : RanBeforeWait chosen executed := by
  obtain ⟨execution, hmem, hchosen⟩ := h
  obtain ⟨front, back, rfl⟩ := List.append_of_mem hmem
  exact ⟨front, execution, back, rfl,
    fun earlier hearlier ↦ hwait earlier (List.mem_append_left _ hearlier), hchosen⟩

/-- What counts is only which of the commands that have run are of the kind. -/
theorem ranBeforeWait_congr {chosen other : Execution → Prop} {executed : List Execution}
    (h : ∀ execution ∈ executed, chosen execution ↔ other execution) :
    RanBeforeWait chosen executed ↔ RanBeforeWait other executed := by
  constructor
  · rintro ⟨front, execution, back, rfl, hfront, hchosen⟩
    exact ⟨front, execution, back, rfl, hfront, (h execution (by simp)).mp hchosen⟩
  · rintro ⟨front, execution, back, rfl, hfront, hother⟩
    exact ⟨front, execution, back, rfl, hfront, (h execution (by simp)).mpr hother⟩

/-- Here stands a goto whose label stands in front of it. -/
def CommandList.GoesBack (list : CommandList) (index : Nat) : Prop :=
  ∃ target place, list.get? index = some (.goto target) ∧ list.findLabel? target = some place ∧
    place < index

namespace Player

variable (player : Player)

theorem complete_effect_iff {command : Command} {state : AnimationState}
    (hget : player.list.get? state.cursor = some command) :
    (player.effect command state).state.complete = true ↔
      state.complete = true ∨ state.waited = 0 ∧ player.list.GoesBack state.cursor := by
  have hother (h : ∀ target, command ≠ .goto target) : ¬ player.list.GoesBack state.cursor := by
    rintro ⟨target, -, hgoto, -⟩
    exact h target (Option.some.inj (hget.symm.trans hgoto))
  cases command with
  | goto target =>
    rcases hlabel : player.list.findLabel? target with - | destination
    · rw [player.effect_goto_of_eq_none state hlabel]
      simp [CommandList.GoesBack, hget, hlabel, AnimationState.next]
    · rw [player.effect_goto_of_eq_some state hlabel]
      simp [CommandList.GoesBack, hget, hlabel, and_comm]
  | setParent index =>
    rw [effect_setParent]
    simp [hother, AnimationState.next]
  | loop target count =>
    rcases hlabel : player.list.findLabel? target with - | destination
    · rw [player.effect_loop_of_eq_none state count hlabel]
      simp [hother, AnimationState.next]
    · rw [player.effect_loop_of_eq_some state count hlabel]
      simp [hother]
  | _ => simp [hother, effect, AnimationState.next]

variable {player}

/-- An animation is complete as soon as a jump backwards has run before any wait. -/
theorem keeps_complete :
    player.Keeps fun state executed ↦
      (state.waited = 0 ↔ ∀ execution ∈ executed, ∀ count, execution.command ≠ .wait count) ∧
        (state.complete = true ↔
          RanBeforeWait (fun execution ↦ player.list.GoesBack execution.index) executed) where
  command {state executed command} hdelay hcommand hkept := by
    refine ⟨keeps_waited.command hdelay hcommand hkept.1, ?_⟩
    rw [player.complete_effect_iff hcommand, ranBeforeWait_concat, hkept.1, hkept.2]
    rfl
  countdown _ _ hkept := hkept
  resume _ hkept := hkept

theorem complete_session_iff (calls : List Call) :
    (player.session calls).state.complete = true ↔
      RanBeforeWait (fun execution ↦ player.list.GoesBack execution.index)
        (player.session calls).executed := by
  refine (keeps_complete.session ⟨?_, ?_⟩ calls).2
  · exact iff_of_true rfl fun _ hmem ↦ absurd hmem List.not_mem_nil
  · exact iff_of_false Bool.false_ne_true (not_ranBeforeWait_nil _)

end Player

end SpriteBytecode
