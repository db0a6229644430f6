import Mathlib.Algebra.Ring.Int.Defs
import Mathlib.Data.List.Induction
import SpriteBytecode.Proofs.CommandList.Place
import SpriteBytecode.Proofs.Playback.Invariant

/-!
What holds of a player whatever is called on it. Every state between calls is sound: its cursor is
within the list, a pending delay belongs to a wait and is not longer than it, and the loop counter
fits its width (`keeps_sound`). What is selected exists, in a container that selects by index
(`keeps_selectsExisting`). Time has elapsed if and only if a wait has run since the player was last
at its start (`keeps_waited`). What a tick leaves behind depends on its outcome (`leaves_step`), and
past the end of the list no tick does anything (`ticks_of_past_end`).
-/

set_option autoImplicit false
set_option relaxedAutoImplicit false

namespace SpriteBytecode

/-- What can be asked of a player. -/
inductive Call where
  | step
  | reset
  deriving DecidableEq

/-- A player between calls: its state, and the commands that have run since it was last at its
start. -/
structure Session where
  state : AnimationState := .initial
  executed : List Execution := []

/-- The value fits a signed number of this many bits. -/
def FitsSigned (bits : Nat) (value : Int) : Prop :=
  -2 ^ (bits - 1) ≤ value ∧ value < 2 ^ (bits - 1)

/-- The asset of a kind that is selected: what is drawn, or the parent. -/
def AnimationState.selected? (state : AnimationState) : AssetKind → Option Nat
  | .raster => state.raster
  | .palette => state.palette
  | .component => state.parent

theorem fitsSigned_nextRepeats {active : Option Int} {count : Int16} {remaining : Int}
    (hactive : ∀ value, active = some value → FitsSigned 16 value)
    (h : nextRepeats active count = some remaining) : FitsSigned 16 remaining := by
  rcases active with - | value
  · obtain rfl := Option.some.inj h
    exact ⟨count.le_toInt, count.toInt_lt⟩
  · have hvalue := hactive value rfl
    unfold nextRepeats at h
    dsimp only at h
    split at h
    · obtain rfl := Option.some.inj h
      unfold FitsSigned at hvalue ⊢
      omega
    · exact absurd h (by simp)

theorem Assets.ResolvesByIndex.lt_count {assets : Assets} (hassets : assets.ResolvesByIndex)
    {kind : AssetKind} {operand : Int} {index : Nat}
    (h : assets.resolve? kind operand = some index) : index < assets.count kind :=
  ((hassets.resolve?_eq_some_iff kind operand index).mp h).2

namespace Player

variable (player : Player)

def call (session : Session) : Call → Session
  | .step =>
    ⟨(player.step session.state).state, session.executed ++ (player.step session.state).executed⟩
  | .reset => {}

/-- A new player after these calls. -/
def session (calls : List Call) : Session := calls.foldl player.call {}

theorem session_concat (calls : List Call) (call : Call) :
    player.session (calls ++ [call]) = player.call (player.session calls) call := by
  rw [session, List.foldl_append]
  rfl

/-- What playback keeps and what holds at the start holds after any calls. -/
theorem Keeps.session {player : Player} {Kept : AnimationState → List Execution → Prop}
    (h : player.Keeps Kept) (hstart : Kept .initial []) (calls : List Call) :
    Kept (player.session calls).state (player.session calls).executed := by
  induction calls using List.reverseRecOn with
  | nil => exact hstart
  | append_singleton calls call ih =>
    rw [session_concat]
    cases call with
    | step => exact h.step ih
    | reset => exact hstart

/-! ### What a command changes -/

section Effect

variable {player} {state : AnimationState} {command : Command}

theorem cursor_effect_le (hcommand : player.list.get? state.cursor = some command) :
    (player.effect command state).state.cursor ≤ player.list.length := by
  have hlt : state.cursor < player.list.length := (List.getElem?_eq_some_iff.mp hcommand).1
  cases command with
  | wait => exact Nat.le_of_lt hlt
  | setParent index =>
    rw [effect_setParent]
    exact hlt
  | goto target =>
    rcases hlabel : player.list.findLabel? target with - | destination
    · rw [player.effect_goto_of_eq_none state hlabel]
      exact hlt
    · rw [player.effect_goto_of_eq_some state hlabel]
      exact Nat.le_of_lt (List.getElem?_eq_some_iff.mp (get?_of_findLabel? hlabel)).1
  | loop target count =>
    rcases hlabel : player.list.findLabel? target with - | destination
    · rw [player.effect_loop_of_eq_none state count hlabel]
      exact hlt
    · rw [player.effect_loop_of_eq_some state count hlabel]
      dsimp only
      split
      · exact Nat.le_of_lt (List.getElem?_eq_some_iff.mp (get?_of_findLabel? hlabel)).1
      · exact hlt
  | _ => exact hlt

/-- A command keeps the loop counter, or counts. -/
theorem repeats_effect (command : Command) (state : AnimationState) :
    (player.effect command state).state.repeats = state.repeats ∨
      ∃ count, (player.effect command state).state.repeats = nextRepeats state.repeats count := by
  cases command with
  | setParent index =>
    rw [effect_setParent]
    exact Or.inl rfl
  | goto target =>
    rcases hlabel : player.list.findLabel? target with - | destination
    · rw [player.effect_goto_of_eq_none state hlabel]
      exact Or.inl rfl
    · rw [player.effect_goto_of_eq_some state hlabel]
      exact Or.inl rfl
  | loop target count =>
    rcases hlabel : player.list.findLabel? target with - | destination
    · rw [player.effect_loop_of_eq_none state count hlabel]
      exact Or.inl rfl
    · rw [player.effect_loop_of_eq_some state count hlabel]
      exact Or.inr ⟨count, rfl⟩
  | _ => exact Or.inl rfl

/-- What is selected after a command was selected before, or exists. -/
theorem selected?_effect (hassets : player.assets.ResolvesByIndex) {kind : AssetKind} {index : Nat}
    (h : (player.effect command state).state.selected? kind = some index) :
    state.selected? kind = some index ∨ index < player.assets.count kind := by
  cases command with
  | setRaster operand =>
    cases kind with
    | raster => exact Or.inr (hassets.lt_count h)
    | palette => exact absurd h (by simp [effect, AnimationState.selected?])
    | component => exact Or.inl h
  | setPalette operand =>
    cases kind with
    | palette => exact Or.inr (hassets.lt_count h)
    | raster | component => exact Or.inl h
  | setParent operand =>
    rw [effect_setParent] at h
    cases kind with
    | component =>
      rcases Option.or_eq_some_iff.mp h with hnew | ⟨-, hold⟩
      · exact Or.inr (hassets.lt_count hnew)
      · exact Or.inl hold
    | raster | palette => exact Or.inl h
  | goto target =>
    obtain ⟨_, _, _, _, heffect⟩ := player.exists_effect_of_jump state (.goto target) rfl
    rw [heffect] at h
    exact Or.inl h
  | loop target count =>
    obtain ⟨_, _, _, _, heffect⟩ := player.exists_effect_of_jump state (.loop target count) rfl
    rw [heffect] at h
    exact Or.inl h
  | _ => exact Or.inl h

/-- No time has elapsed after a command if none had before, and it is no wait. -/
theorem waited_effect_eq_zero_iff (command : Command) (state : AnimationState) :
    (player.effect command state).state.waited = 0 ↔
      state.waited = 0 ∧ ∀ count, command ≠ .wait count := by
  rcases player.wait_or_not_blocks command state with ⟨count, rfl⟩ | ⟨hblocks, -, hsame⟩
  · have hpos := waitTime_pos count
    rw [effect_wait]
    show elapse state.waited (waitTime count) = 0 ↔ _
    refine ⟨fun h ↦ ?_, fun h ↦ absurd rfl (h.2 count)⟩
    unfold elapse maxElapsed at h
    omega
  · rw [hsame]
    refine ⟨fun h ↦ ⟨h, ?_⟩, And.left⟩
    rintro count rfl
    exact Bool.noConfusion hblocks

end Effect

/-! ### Between calls -/

/-- What holds of every state of a player between calls. -/
structure Sound (state : AnimationState) : Prop where
  cursor_le : state.cursor ≤ player.list.length
  /-- A pending delay is what is left of the wait at the cursor. -/
  pending : 0 < state.delay → ∃ count, player.list.get? state.cursor = some (.wait count) ∧
    state.delay ≤ (waitTime count).toNat
  repeats : ∀ remaining, state.repeats = some remaining → FitsSigned 16 remaining

variable {player}

theorem sound_initial : player.Sound .initial where
  cursor_le := Nat.zero_le _
  pending h := absurd h (by decide)
  repeats _ h := absurd h (by simp [AnimationState.initial])

theorem Sound.effect {state : AnimationState} (h : player.Sound state) (hdelay : state.delay ≤ 0)
    {command : Command} (hcommand : player.list.get? state.cursor = some command) :
    player.Sound (player.effect command state).state where
  cursor_le := cursor_effect_le hcommand
  pending hpending := by
    rcases player.wait_or_not_blocks command state with ⟨count, rfl⟩ | ⟨-, hsame, -⟩
    · exact ⟨count, hcommand, Int.le_refl _⟩
    · rw [hsame] at hpending
      exact absurd hpending (Int.not_lt.mpr hdelay)
  repeats remaining hrepeats := by
    rcases player.repeats_effect command state with hsame | ⟨count, hcounts⟩
    · exact h.repeats remaining (hsame.symm.trans hrepeats)
    · exact fitsSigned_nextRepeats h.repeats (hcounts.symm.trans hrepeats)

/-- Every state between calls is sound, and so is every state in which a command has run. -/
theorem keeps_sound :
    player.Keeps fun state executed ↦
      player.Sound state ∧ ∀ execution ∈ executed, player.Sound execution.before where
  command hdelay hcommand hkept := by
    refine ⟨hkept.1.effect hdelay hcommand, fun execution hmem ↦ ?_⟩
    rcases List.mem_append.mp hmem with hearlier | hlast
    · exact hkept.2 execution hearlier
    · obtain rfl := List.mem_singleton.mp hlast
      exact hkept.1
  countdown {state _ delay} hpos hle hkept := by
    refine ⟨⟨hkept.1.cursor_le, fun _ ↦ ?_, hkept.1.repeats⟩, hkept.2⟩
    obtain ⟨count, hget, hbound⟩ := hkept.1.pending (Int.lt_of_lt_of_le hpos hle)
    exact ⟨count, hget, Int.le_trans hle hbound⟩
  resume {state _} hover hkept := by
    refine ⟨⟨?_, fun hpending ↦ absurd hpending (Int.not_lt.mpr hover), hkept.1.repeats⟩, hkept.2⟩
    show (if 0 < state.delay then state.cursor + 1 else state.cursor) ≤ player.list.length
    split
    · next hpending =>
      obtain ⟨count, hget, -⟩ := hkept.1.pending hpending
      exact (List.getElem?_eq_some_iff.mp hget).1
    · exact hkept.1.cursor_le

/-- What is selected exists. -/
def SelectsExisting (player : Player) (state : AnimationState) : Prop :=
  ∀ kind index, state.selected? kind = some index → index < player.assets.count kind

theorem selectsExisting_initial : player.SelectsExisting .initial := by
  intro kind index h
  cases kind <;> exact absurd h (by simp [AnimationState.selected?, AnimationState.initial])

theorem keeps_selectsExisting (hassets : player.assets.ResolvesByIndex) :
    player.Keeps fun state _ ↦ player.SelectsExisting state where
  command _ _ hkept kind index hselected := by
    rcases selected?_effect hassets hselected with hbefore | hexists
    · exact hkept kind index hbefore
    · exact hexists
  countdown _ _ hkept := hkept
  resume _ hkept := hkept

/-- No time has elapsed as long as no wait has run. -/
theorem keeps_waited :
    player.Keeps fun state executed ↦
      (state.waited = 0 ↔ ∀ execution ∈ executed, ∀ count, execution.command ≠ .wait count) where
  command {state executed command} _ _ hkept := by
    rw [waited_effect_eq_zero_iff, hkept, List.forall_mem_append, List.forall_mem_singleton]
    rfl
  countdown _ _ hkept := hkept
  resume _ hkept := hkept

/-- Counting a sound loop down stays within thirty-two bits. -/
theorem Sound.fitsSigned_repeats {state : AnimationState} (h : player.Sound state)
    {remaining : Int} (hremaining : state.repeats = some remaining) :
    FitsSigned 32 (remaining - 1) := by
  have hfits := h.repeats remaining hremaining
  unfold FitsSigned at hfits ⊢
  omega

/-- Counting a pending delay down stays within thirty-two bits. -/
theorem Sound.fitsSigned_delay {state : AnimationState} (h : player.Sound state)
    (hpending : 0 < state.delay) :
    FitsSigned 32 (state.delay - max 1 player.config.ticksPerStep.toInt) := by
  obtain ⟨count, -, hbound⟩ := h.pending hpending
  have hwait := (waitTime count).toNat_lt
  have hticks := player.config.ticksPerStep.toInt_lt
  unfold FitsSigned
  omega

/-! ### Ticks by their outcome -/

/-- A delay that is pending is the whole of the wait at the cursor. -/
def PendsWhole (player : Player) (state : AnimationState) : Prop :=
  0 < state.delay → ∃ count, player.list.get? state.cursor = some (.wait count) ∧
    state.delay = (waitTime count).toNat

theorem pendsWhole_of_delay_le {state : AnimationState} (h : state.delay ≤ 0) :
    player.PendsWhole state :=
  fun hpending ↦ absurd hpending (Int.not_lt.mpr h)

theorem pendsWhole_effect {state : AnimationState} {command : Command} (hdelay : state.delay ≤ 0)
    (hcommand : player.list.get? state.cursor = some command) :
    player.PendsWhole (player.effect command state).state := by
  rcases player.wait_or_not_blocks command state with ⟨count, rfl⟩ | ⟨-, hsame, -⟩
  · exact fun _ ↦ ⟨count, hcommand, rfl⟩
  · exact pendsWhole_of_delay_le (le_of_eq_of_le hsame hdelay)

/-- A tick that blocks has come to a wait, and all of it is pending. -/
theorem wait_of_blocked {state : AnimationState} (h : (player.step state).outcome = .blocked) :
    ∃ count, player.list.get? (player.step state).state.cursor = some (.wait count) ∧
      (player.step state).state.delay = (waitTime count).toNat := by
  obtain ⟨hstep, hover, hends⟩ := player.step_of_outcome_ne (ne_of_eq_of_ne h (by decide))
  have hwhole := @runCommands_keeps player (fun state _ ↦ player.PendsWhole state)
    (fun hdelay hcommand _ ↦ pendsWhole_effect hdelay hcommand) player.config.maxIterations _ []
    hover (pendsWhole_of_delay_le hover)
  rw [EndsAs, h] at hends
  rw [← hstep] at hwhole
  exact hwhole hends.1

theorem delay_le_of_over {state : AnimationState}
    (h : (player.step state).outcome = .ended ∨ (player.step state).outcome = .stalled) :
    (player.step state).state.delay ≤ 0 := by
  rcases h with h | h
  · obtain ⟨-, -, hends⟩ := player.step_of_outcome_ne (ne_of_eq_of_ne h (by decide))
    rw [EndsAs, h] at hends
    exact hends.1
  · obtain ⟨-, -, hends⟩ := player.step_of_outcome_ne (ne_of_eq_of_ne h (by decide))
    rw [EndsAs, h] at hends
    exact hends.1

/-- A delay is pending after a tick that waits or blocks. -/
theorem delay_pos_of_pending {state : AnimationState}
    (h : (player.step state).outcome = .waiting ∨ (player.step state).outcome = .blocked) :
    0 < (player.step state).state.delay := by
  rcases h with h | h
  · obtain ⟨hstep, hdelay⟩ := player.step_of_outcome_eq h
    rw [hstep]
    exact hdelay
  · obtain ⟨count, -, hdelay⟩ := wait_of_blocked h
    rw [hdelay]
    exact Int.natCast_pos.mpr (waitTime_pos count)

/-- A tick that may run no command waits or stalls. -/
theorem maxIterations_pos {state : AnimationState}
    (hwaiting : (player.step state).outcome ≠ .waiting)
    (hstalled : (player.step state).outcome ≠ .stalled) : 0 < player.config.maxIterations := by
  by_contra hcap
  obtain ⟨hstep, -, -⟩ := player.step_of_outcome_ne hwaiting
  rw [hstep, Nat.eq_zero_of_not_pos hcap] at hstalled
  exact hstalled rfl

/-- Past the end of the list a tick does nothing. -/
theorem step_of_past_end {state : AnimationState} (hdelay : state.delay ≤ 0)
    (hend : player.list.get? state.cursor = none) (hcap : 0 < player.config.maxIterations) :
    player.step state = ⟨.ended, state.resetPulse, []⟩ := by
  obtain ⟨cap, hcap⟩ := Nat.exists_eq_add_of_le' hcap
  rw [step, if_neg (Int.not_lt.mpr hdelay), hcap]
  exact player.runCommands_of_get?_eq_none cap hend

theorem ticks_of_past_end {state : AnimationState} (hdelay : state.delay ≤ 0)
    (hend : player.list.get? state.cursor = none) (hcap : 0 < player.config.maxIterations)
    (count : Nat) :
    player.ticks count state = List.replicate count ⟨.ended, state.resetPulse, []⟩ := by
  induction count generalizing state with
  | zero => rfl
  | succ count ih =>
    rw [ticks, step_of_past_end hdelay hend hcap, List.replicate_succ]
    exact congrArg (_ :: ·) (ih hdelay hend)

/-- What a tick leaves behind, by its outcome. -/
structure Leaves (player : Player) (state : AnimationState) (tick : Tick) : Prop where
  waiting : tick.outcome = .waiting → tick.state = { state with delay := tick.state.delay }
  blocked : tick.outcome = .blocked → ∃ count,
    player.list.get? tick.state.cursor = some (.wait count) ∧
      tick.state.delay = (waitTime count).toNat
  idle : tick.outcome = .ended ∨ tick.outcome = .stalled → tick.state.delay ≤ 0
  /-- Once playback has ended, every later tick ends as well, and does nothing. -/
  ended : tick.outcome = .ended → ∀ count, ∀ later ∈ player.ticks count tick.state,
    later = ⟨.ended, tick.state.resetPulse, []⟩

theorem leaves_step (state : AnimationState) : player.Leaves state (player.step state) where
  waiting h := by rw [(player.step_of_outcome_eq h).1]
  blocked := wait_of_blocked
  idle := delay_le_of_over
  ended h count later hlater := by
    have hdelay := delay_le_of_over (Or.inl h)
    have hend := player.get?_of_ended h
    rw [AnimationState.cursor_settled hdelay] at hend
    have hcap : 0 < player.config.maxIterations :=
      maxIterations_pos (ne_of_eq_of_ne h (by decide)) (ne_of_eq_of_ne h (by decide))
    rw [ticks_of_past_end hdelay hend hcap] at hlater
    exact List.eq_of_mem_replicate hlater

/-- What holds of a player between calls. -/
structure Invariants (player : Player) (session : Session) : Prop where
  sound : player.Sound session.state
  /-- What is selected exists, where operands select by index. -/
  selected : player.assets.ResolvesByIndex → player.SelectsExisting session.state
  /-- Time has elapsed if and only if a wait has run. -/
  waited : session.state.waited = 0 ↔
    ∀ execution ∈ session.executed, ∀ count, execution.command ≠ .wait count
  /-- No loop that was counted down left thirty-two bits. -/
  repeats : ∀ execution ∈ session.executed, ∀ remaining,
    execution.before.repeats = some remaining → FitsSigned 32 (remaining - 1)
  /-- Nor does the pending delay, when it is counted down next. -/
  delay : 0 < session.state.delay →
    FitsSigned 32 (session.state.delay - max 1 player.config.ticksPerStep.toInt)
  leaves : player.Leaves session.state (player.step session.state)

end Player

/-- After any calls on a player: its state is sound, and what is selected exists; time has elapsed if
and only if a wait has run since it was last at its start; neither counting a loop down nor counting
the pending delay down leaves thirty-two bits; and the next tick leaves behind what its outcome
says. -/
theorem session_invariants (player : Player) (calls : List Call) :
    player.Invariants (player.session calls) := by
  obtain ⟨hsound, hexecuted⟩ := Player.keeps_sound.session
    ⟨Player.sound_initial, fun _ hmem ↦ absurd hmem List.not_mem_nil⟩ calls
  exact
    { sound := hsound
      selected hassets :=
        (Player.keeps_selectsExisting hassets).session Player.selectsExisting_initial calls
      waited := (@Player.keeps_waited player).session
        (iff_of_true rfl fun _ hmem ↦ absurd hmem List.not_mem_nil) calls
      repeats execution hexecution _ hremaining :=
        (hexecuted execution hexecution).fitsSigned_repeats hremaining
      delay hpending := hsound.fitsSigned_delay hpending
      leaves := Player.leaves_step _ }

end SpriteBytecode
