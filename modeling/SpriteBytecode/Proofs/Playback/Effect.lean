import Mathlib.Tactic.Common
import SpriteBytecode.Playback.Execution

/-!
The effect of one command, command by command. Only a wait blocks (`wait_or_not_blocks`). A state is
settled by passing over its pending wait and dropping what lasts for one tick only; how a command
goes on depends on nothing that settling drops (`settled_effect`).
-/

set_option autoImplicit false
set_option relaxedAutoImplicit false

namespace SpriteBytecode

/-- The state without a pending wait and without what lasts for one tick only. -/
def AnimationState.settled (state : AnimationState) : AnimationState :=
  { state with
    cursor := if 0 < state.delay then state.cursor + 1 else state.cursor
    delay := 0 }.resetPulse

namespace AnimationState

@[simp] theorem waited_settled (state : AnimationState) : state.settled.waited = state.waited := rfl

@[simp] theorem repeats_settled (state : AnimationState) :
    state.settled.repeats = state.repeats := rfl

@[simp] theorem delay_settled (state : AnimationState) : state.settled.delay = 0 := rfl

theorem cursor_settled {state : AnimationState} (h : state.delay ≤ 0) :
    state.settled.cursor = state.cursor :=
  if_neg (Int.not_lt.mpr h)

theorem settled_initial : initial.settled = initial := rfl

end AnimationState

/-- How long a wait of this count lasts. -/
def waitTime (count : UInt16) : UInt16 := if count = 0 then maxWait else count

theorem waitTime_pos (count : UInt16) : 0 < (waitTime count).toNat := by
  unfold waitTime
  split
  · decide
  · next h =>
    have : count.toNat ≠ (0 : UInt16).toNat := mt UInt16.toNat_inj.mp h
    exact Nat.pos_of_ne_zero this

namespace Player

variable (player : Player)

theorem get?_program (index : Nat) : player.program.get? index = player.list.get? index :=
  player.program.get?_eq index

theorem findLabel?_program (id : LabelId) :
    player.program.findLabel? id = player.list.findLabel? id :=
  player.program.findLabel?_eq id

/-! ### One command -/

section Effect

variable (state : AnimationState)

theorem effect_wait (count : UInt16) :
    player.effect (.wait count) state =
      { state :=
          { state with
            delay := (waitTime count).toNat
            waited := elapse state.waited (waitTime count) }
        blocks := true } := rfl

theorem effect_goto_of_eq_none {target : LabelId} (h : player.list.findLabel? target = none) :
    player.effect (.goto target) state =
      { state := state.next
        missing? := some (.label (player.program.labelName? target)) } := by
  rw [← findLabel?_program] at h
  simp only [effect, h]

theorem effect_goto_of_eq_some {target : LabelId} {destination : Nat}
    (h : player.list.findLabel? target = some destination) :
    player.effect (.goto target) state =
      { state :=
          { state with
            cursor := destination
            complete :=
              state.complete || (destination < state.cursor && state.waited == 0) } } := by
  rw [← findLabel?_program] at h
  simp only [effect, h]

theorem effect_loop_of_eq_none {target : LabelId} (count : Int16)
    (h : player.list.findLabel? target = none) :
    player.effect (.loop target count) state =
      { state := state.next
        missing? := some (.label (player.program.labelName? target)) } := by
  rw [← findLabel?_program] at h
  simp only [effect, h]

theorem effect_loop_of_eq_some {target : LabelId} {destination : Nat} (count : Int16)
    (h : player.list.findLabel? target = some destination) :
    player.effect (.loop target count) state =
      { state :=
          { state with
            cursor :=
              if (nextRepeats state.repeats count).isSome then destination else state.cursor + 1
            repeats := nextRepeats state.repeats count } } := by
  rw [← findLabel?_program] at h
  simp only [effect, h]
  rcases nextRepeats state.repeats count with - | remaining <;> rfl

theorem effect_setParent (index : UInt8) :
    player.effect (.setParent index) state =
      { state :=
          { state.next with
            parent := (player.assets.resolve? .component index.toNat).or state.parent }
        missing? :=
          if player.assets.resolve? .component index.toNat = none then some (.parent index)
          else none } := by
  simp only [effect]
  rcases player.assets.resolve? .component index.toNat with - | parent <;> rfl

/-- A jump changes where playback is and goes on there: it does not block, and delay, elapsed time
and what is seen are as before. -/
theorem exists_effect_of_jump (command : Command) {target : LabelId}
    (h : command.jumpTarget? = some target) :
    ∃ cursor repeats complete missing?, player.effect command state =
      { state := { state with cursor, repeats, complete }, missing? } := by
  cases command with
  | goto other =>
    rcases hlabel : player.list.findLabel? other with - | destination
    · exact ⟨_, _, _, _, player.effect_goto_of_eq_none state hlabel⟩
    · exact ⟨_, _, _, _, player.effect_goto_of_eq_some state hlabel⟩
  | loop other count =>
    rcases hlabel : player.list.findLabel? other with - | destination
    · exact ⟨_, _, _, _, player.effect_loop_of_eq_none state count hlabel⟩
    · exact ⟨_, _, _, _, player.effect_loop_of_eq_some state count hlabel⟩
  | _ => exact absurd h (by simp [Instruction.jumpTarget?])

end Effect

/-- Only a wait blocks; any other command leaves delay and elapsed time alone. -/
theorem wait_or_not_blocks (command : Command) (state : AnimationState) :
    (∃ count, command = .wait count) ∨
      (player.effect command state).blocks = false ∧
        (player.effect command state).state.delay = state.delay ∧
        (player.effect command state).state.waited = state.waited := by
  cases command with
  | wait count => exact Or.inl ⟨count, rfl⟩
  | setParent index =>
    rw [effect_setParent]
    exact Or.inr ⟨rfl, rfl, rfl⟩
  | goto target =>
    obtain ⟨_, _, _, _, heffect⟩ := player.exists_effect_of_jump state (.goto target) rfl
    rw [heffect]
    exact Or.inr ⟨rfl, rfl, rfl⟩
  | loop target count =>
    obtain ⟨_, _, _, _, heffect⟩ := player.exists_effect_of_jump state (.loop target count) rfl
    rw [heffect]
    exact Or.inr ⟨rfl, rfl, rfl⟩
  | _ => exact Or.inr ⟨rfl, rfl, rfl⟩

theorem blocks_eq_false_iff (command : Command) (state : AnimationState) :
    (player.effect command state).blocks = false ↔ ∀ count, command ≠ .wait count := by
  rcases player.wait_or_not_blocks command state with ⟨count, rfl⟩ | ⟨hblocks, -⟩
  · exact iff_of_false Bool.noConfusion fun h ↦ h count rfl
  · refine iff_of_true hblocks ?_
    rintro count rfl
    exact Bool.noConfusion hblocks

/-- How a command goes on does not depend on what settling drops. -/
theorem settled_effect {state : AnimationState} (h : state.delay ≤ 0) (command : Command) :
    (player.effect command state.settled).state.settled =
      (player.effect command state).state.settled := by
  have hdelay : ¬ 0 < state.delay := Int.not_lt.mpr h
  cases command with
  | wait count =>
    have hwait : 0 < (waitTime count).toNat := waitTime_pos count
    simp [effect_wait, AnimationState.settled, AnimationState.resetPulse, hdelay, hwait]
  | setParent index =>
    simp [effect_setParent, AnimationState.settled, AnimationState.resetPulse,
      AnimationState.next, hdelay]
  | goto target =>
    rcases h : player.list.findLabel? target with - | destination
    · simp [player.effect_goto_of_eq_none _ h, AnimationState.settled,
        AnimationState.resetPulse, AnimationState.next, hdelay]
    · simp [player.effect_goto_of_eq_some _ h, AnimationState.settled,
        AnimationState.resetPulse, hdelay]
  | loop target count =>
    rcases h : player.list.findLabel? target with - | destination
    · simp [player.effect_loop_of_eq_none _ count h, AnimationState.settled,
        AnimationState.resetPulse, AnimationState.next, hdelay]
    · simp [player.effect_loop_of_eq_some _ count h, AnimationState.settled,
        AnimationState.resetPulse, hdelay]
  | _ =>
    simp [effect, AnimationState.settled, AnimationState.resetPulse, AnimationState.next, hdelay]

/-- Elapsed time never goes back, and stays within its bound. -/
theorem waited_effect {state : AnimationState} (h : state.waited ≤ maxElapsed)
    (command : Command) :
    state.waited ≤ (player.effect command state).state.waited ∧
      (player.effect command state).state.waited ≤ maxElapsed := by
  rcases player.wait_or_not_blocks command state with ⟨count, rfl⟩ | ⟨-, -, hwaited⟩
  · rw [effect_wait]
    show state.waited ≤ elapse state.waited (waitTime count) ∧ _ ≤ maxElapsed
    unfold elapse
    exact ⟨Nat.le_min.mpr ⟨Nat.le_add_right _ _, h⟩, Nat.min_le_right _ _⟩
  · rw [hwaited]
    exact ⟨Nat.le_refl _, h⟩

end Player

end SpriteBytecode
