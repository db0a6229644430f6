import SpriteBytecode.Proofs.Playback.Course

/-!
The configuration only groups what runs into ticks. With another configuration a player runs along
the same course (`Course.withConfig`), so that of what has run under two configurations one is the
beginning of the other. A tick that stalls is the beginning of a tick with a larger cap
(`runCommands_add`), and the next tick is the rest of it (`step_twice_of_stalled`).
-/

set_option autoImplicit false
set_option relaxedAutoImplicit false

namespace SpriteBytecode

namespace Player

/-- The same animation, played by another configuration. -/
def withConfig (player : Player) (config : PlaybackConfig) : Player := { player with config }

variable (player : Player) (config : PlaybackConfig)

/-! ### Two configurations -/

/-- How a command goes on does not depend on the configuration. -/
theorem settled_effect_withConfig (command : Command) (state : AnimationState) :
    ((player.withConfig config).effect command state).state.settled =
      (player.effect command state).state.settled := by
  cases command <;> rfl

theorem Course.withConfig {player : Player} {start finish : AnimationState}
    {before : List AnimationState} (h : player.Course start before finish) :
    (player.withConfig config).Course start before finish := by
  induction h with
  | done start => exact .done start
  | run hcommand _ ih =>
    rw [← settled_effect_withConfig player config] at ih
    exact .run hcommand ih

/-- Where fewer commands have run, they are the beginning of what has run otherwise, and where as
many have run the animation goes on alike. -/
theorem indices_withConfig {count other : Nat} {state : AnimationState}
    (hle : (player.indices count state).length ≤
      ((player.withConfig config).indices other state).length) :
    player.indices count state <+: (player.withConfig config).indices other state ∧
    ((player.indices count state).length =
        ((player.withConfig config).indices other state).length →
      (player.after count state).settled =
        ((player.withConfig config).after other state).settled) := by
  obtain ⟨hcourse, -⟩ := (player.withConfig config).course_ticks other state
  simp only [indices, List.length_map] at hle
  obtain ⟨rest, hrest, hlater⟩ := ((player.course_ticks count state).1.withConfig config).split
    hcourse (by simpa only [List.length_map] using hle)
  constructor
  · rw [indices_eq, indices_eq, hrest, List.map_append]
    exact List.prefix_append _ _
  · intro hlength
    have hboth := congrArg List.length hrest
    simp only [indices, List.length_append, List.length_map] at hlength hboth
    have hnone : rest = [] := List.length_eq_zero_iff.mp (by omega)
    rw [hnone] at hlater
    generalize ((player.withConfig config).after other state).settled = finish at hlater ⊢
    cases hlater
    rfl

/-! ### Ticks that stall -/

/-- Where the cap is reached, a run with a larger cap goes on. -/
theorem runCommands_add (cap more : Nat) :
    ∀ {state : AnimationState}, (player.runCommands cap state []).outcome = .stalled →
      player.runCommands (cap + more) state [] =
        { player.runCommands more (player.runCommands cap state []).state [] with
          executed := (player.runCommands cap state []).executed ++
            (player.runCommands more (player.runCommands cap state []).state []).executed } := by
  induction cap with
  | zero =>
    intro state _
    rw [Nat.zero_add]
    rfl
  | succ cap ih =>
    intro state h
    rw [Nat.succ_add_eq_add_succ, Nat.add_succ]
    rcases hget : player.list.get? state.cursor with - | command
    · rw [player.runCommands_of_get?_eq_none cap hget] at h
      exact absurd h (by simp)
    rcases hblocks : (player.effect command state).blocks with - | -
    · rw [player.runCommands_of_not_blocks cap hget hblocks] at h ⊢
      rw [player.runCommands_of_not_blocks (cap + more) hget hblocks, ih h]
      rfl
    · rw [player.runCommands_of_blocks cap hget hblocks] at h
      exact absurd h (by simp)

/-- Commands run alike from states that differ in what settling drops. -/
theorem runCommands_withConfig (cap : Nat) :
    ∀ {state other : AnimationState}, state.delay ≤ 0 → other.delay ≤ 0 →
      state.settled = other.settled →
      ((player.withConfig config).runCommands cap state []).outcome =
          (player.runCommands cap other []).outcome ∧
        ((player.withConfig config).runCommands cap state []).executed.map Execution.index =
          (player.runCommands cap other []).executed.map Execution.index := by
  induction cap with
  | zero => exact fun _ _ _ ↦ ⟨rfl, rfl⟩
  | succ cap ih =>
    intro state other hstate hother hsettled
    have hcursor : state.cursor = other.cursor := by
      rw [← AnimationState.cursor_settled hstate, hsettled, AnimationState.cursor_settled hother]
    have hlist (index : Nat) :
        (player.withConfig config).list.get? index = player.list.get? index := rfl
    rcases hget : player.list.get? other.cursor with - | command
    · rw [player.runCommands_of_get?_eq_none cap hget,
        runCommands_of_get?_eq_none _ cap (by rw [hlist, hcursor, hget])]
      exact ⟨rfl, rfl⟩
    have hget' : (player.withConfig config).list.get? state.cursor = some command := by
      rw [hlist, hcursor, hget]
    rcases (player.withConfig config).wait_or_not_blocks command state with
      ⟨count, rfl⟩ | ⟨hblocks, hdelay, -⟩
    · rw [player.runCommands_of_blocks cap hget rfl, runCommands_of_blocks _ cap hget' rfl]
      exact ⟨rfl, congrArg ([·]) hcursor⟩
    · rcases player.wait_or_not_blocks command other with ⟨count, rfl⟩ | ⟨hblocks', hdelay', -⟩
      · exact Bool.noConfusion hblocks
      rw [player.runCommands_of_not_blocks cap hget hblocks',
        runCommands_of_not_blocks _ cap hget' hblocks]
      have hnext : ((player.withConfig config).effect command state).state.settled =
          (player.effect command other).state.settled := by
        rw [settled_effect_withConfig, ← player.settled_effect hstate, hsettled,
          player.settled_effect hother]
      obtain ⟨houtcome, hexecuted⟩ :=
        ih (le_of_eq_of_le hdelay hstate) (le_of_eq_of_le hdelay' hother) hnext
      exact ⟨houtcome, congrArg₂ (· :: ·) hcursor hexecuted⟩

/-- A player that may run twice as many commands in one tick. -/
def twice : Player :=
  player.withConfig { player.config with maxIterations := 2 * player.config.maxIterations }

variable {player}

/-- A tick that stalls and the next one are one tick of a player that may run twice as many
commands. -/
theorem step_twice_of_stalled {state : AnimationState}
    (h : (player.step state).outcome = .stalled) :
    (player.twice.step state).outcome = (player.step (player.step state).state).outcome ∧
      (player.twice.step state).executed.map Execution.index =
        (player.step state).executed.map Execution.index ++
          (player.step (player.step state).state).executed.map Execution.index := by
  by_cases hwaiting : 0 < state.delay - max 1 player.config.ticksPerStep.toInt
  · rw [player.step_of_waiting hwaiting] at h
    exact absurd h (by simp)
  obtain ⟨hstep, hover, -⟩ := player.step_of_not_waiting hwaiting
  have hends := (player.course_runCommands player.config.maxIterations hover).2.2
  rw [← hstep, EndsAs, h] at hends
  have hstill :
      ¬ 0 < (player.step state).state.delay - max 1 player.config.ticksPerStep.toInt := by
    have := hends.1
    omega
  obtain ⟨hnext, hover', hsettled⟩ := player.step_of_not_waiting hstill
  -- The next tick drops what lasts for one tick only, and runs the same commands.
  obtain ⟨houtcome, hexecuted⟩ := player.runCommands_withConfig player.config
    player.config.maxIterations hends.1 hover' hsettled.symm
  rw [← hnext] at houtcome hexecuted
  have htwice : player.twice.step state =
      player.twice.runCommands (player.config.maxIterations + player.config.maxIterations)
        (player.resume state) [] := by
    rw [← Nat.two_mul]
    exact (player.twice.step_of_not_waiting hwaiting).1
  obtain ⟨houtcome', hexecuted'⟩ := player.runCommands_withConfig player.twice.config
    (player.config.maxIterations + player.config.maxIterations) hover hover rfl
  rw [player.runCommands_add _ _ (hstep ▸ h), ← hstep] at houtcome' hexecuted'
  rw [htwice]
  refine ⟨houtcome'.trans houtcome, hexecuted'.trans ?_⟩
  rw [List.map_append]
  exact congrArg (_ ++ ·) hexecuted

end Player

/-- The configuration only groups what runs into ticks: of the commands that run in any numbers of
ticks under two configurations, one sequence is the beginning of the other; where they are the same,
so are the loop counter, what is selected, whether the animation counts as complete, and the elapsed
time. A tick that stalls and the next one are one tick of a player that may run twice as many
commands. -/
theorem configuration_only_regroups (player : Player) (config : PlaybackConfig) :
    (∀ count other,
      (player.indices count .initial <+: (player.withConfig config).indices other .initial ∨
        (player.withConfig config).indices other .initial <+: player.indices count .initial) ∧
      (player.indices count .initial = (player.withConfig config).indices other .initial →
        (player.after count .initial).repeats =
            ((player.withConfig config).after other .initial).repeats ∧
          (player.after count .initial).parent =
            ((player.withConfig config).after other .initial).parent ∧
          (player.after count .initial).raster =
            ((player.withConfig config).after other .initial).raster ∧
          (player.after count .initial).palette =
            ((player.withConfig config).after other .initial).palette ∧
          (player.after count .initial).complete =
            ((player.withConfig config).after other .initial).complete ∧
          (player.after count .initial).waited =
            ((player.withConfig config).after other .initial).waited)) ∧
    ∀ state, (player.step state).outcome = .stalled →
      (player.twice.step state).outcome = (player.step (player.step state).state).outcome ∧
        (player.twice.step state).executed.map Execution.index =
          (player.step state).executed.map Execution.index ++
            (player.step (player.step state).state).executed.map Execution.index := by
  refine ⟨fun count other ↦ ⟨?_, fun hsame ↦ ?_⟩, fun state ↦ Player.step_twice_of_stalled⟩
  · rcases Nat.le_total (player.indices count .initial).length
      ((player.withConfig config).indices other .initial).length with hle | hle
    · exact Or.inl (player.indices_withConfig config hle).1
    · exact Or.inr ((player.withConfig config).indices_withConfig player.config hle).1
  · have hsettled := (player.indices_withConfig config (Nat.le_of_eq (congrArg _ hsame))).2
      (congrArg _ hsame)
    have hfield {α : Type} (field : AnimationState → α)
        (hkept : ∀ state : AnimationState, field state.settled = field state) :
        field (player.after count .initial) =
          field ((player.withConfig config).after other .initial) := by
      rw [← hkept, hsettled, hkept]
    exact ⟨hfield (·.repeats) fun _ ↦ rfl, hfield (·.parent) fun _ ↦ rfl,
      hfield (·.raster) fun _ ↦ rfl, hfield (·.palette) fun _ ↦ rfl,
      hfield (·.complete) fun _ ↦ rfl, hfield (·.waited) fun _ ↦ rfl⟩

end SpriteBytecode
