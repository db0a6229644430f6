import SpriteBytecode.Log
import SpriteBytecode.Playback.Execution

/-!
Playback by ticks. A tick first counts a pending delay down; when none is left, commands run until
one blocks, the list ends, or the cap on commands for one tick is reached. A tick reports which
commands ran, so that what playback does can be read off its ticks. Ticks can also be played
without keeping the commands that ran: what is seen of them on the way is what a look at the kept
ones would show (`stepWith_eq`, `fst_foldTicks`).
-/

set_option autoImplicit false
set_option relaxedAutoImplicit false

namespace SpriteBytecode

inductive StepOutcome where
  /-- The pending delay is not over; no command ran. -/
  | waiting
  /-- A wait has begun. -/
  | blocked
  /-- The cursor is past the last command. -/
  | ended
  /-- The cap on commands was reached. -/
  | stalled
  deriving DecidableEq

def StepOutcome.name : StepOutcome → String
  | waiting => "Waiting"
  | blocked => "Blocked"
  | ended => "Ended"
  | stalled => "Stalled"

/-- A command that ran, the state before it, and what it missed. -/
structure Execution where
  before : AnimationState
  command : Command
  missing? : Option MissingReference
  deriving DecidableEq

/-- The index of the command that ran. -/
def Execution.index (execution : Execution) : Nat := execution.before.cursor

structure Tick where
  outcome : StepOutcome
  state : AnimationState
  executed : List Execution
  deriving DecidableEq

namespace Player

/-- Runs at most `cap` commands; `done` holds those that ran before, the last one first. -/
def runCommands (player : Player) (cap : Nat) (state : AnimationState) (done : List Execution) :
    Tick :=
  match cap with
  | 0 => ⟨.stalled, state, done.reverse⟩
  | cap + 1 =>
    match player.program.get? state.cursor with
    | none => ⟨.ended, state, done.reverse⟩
    | some command =>
      let effect := player.effect command state
      let done := ⟨state, command, effect.missing?⟩ :: done
      if effect.blocks then ⟨.blocked, effect.state, done.reverse⟩
      else player.runCommands cap effect.state done

/-- Advances the animation by one tick. A decrement below one counts as one. -/
def step (player : Player) (state : AnimationState) : Tick :=
  if 0 < state.delay then
    let delay := state.delay - max 1 player.config.ticksPerStep.toInt
    if 0 < delay then ⟨.waiting, { state with delay }, []⟩
    else
      player.runCommands player.config.maxIterations
        { state with delay, cursor := state.cursor + 1 }.resetPulse []
  else player.runCommands player.config.maxIterations state.resetPulse []

/-- The first `count` ticks from `state` on. -/
def ticks (player : Player) : Nat → AnimationState → List Tick
  | 0, _ => []
  | count + 1, state => player.step state :: player.ticks count (player.step state).state

variable {α : Type}

/-- Runs commands until `cap` have run, `count` of them before, and shows each to `see`. Counting
up keeps the count small when the cap is not. -/
@[specialize] def runWith (player : Player) (see : α → Execution → α) (cap count : Nat)
    (state : AnimationState) (seen : α) : α × StepOutcome × AnimationState :=
  if count < cap then
    match player.program.get? state.cursor with
    | none => (seen, .ended, state)
    | some command =>
      let effect := player.effect command state
      let seen := see seen ⟨state, command, effect.missing?⟩
      if effect.blocks then (seen, .blocked, effect.state)
      else player.runWith see cap (count + 1) effect.state seen
  else (seen, .stalled, state)
  termination_by cap - count

/-- One tick, of which the commands are shown to `see` and not kept. -/
@[inline] def stepWith (player : Player) (see : α → Execution → α) (state : AnimationState)
    (seen : α) : α × StepOutcome × AnimationState :=
  if 0 < state.delay then
    let delay := state.delay - max 1 player.config.ticksPerStep.toInt
    if 0 < delay then (seen, .waiting, { state with delay })
    else
      player.runWith see player.config.maxIterations 0
        { state with delay, cursor := state.cursor + 1 }.resetPulse seen
  else player.runWith see player.config.maxIterations 0 state.resetPulse seen

/-- Plays `count` ticks. Each command that runs is shown to `see`, and each tick to `mark`. -/
@[specialize] def foldTicks (player : Player) (see : α → Execution → α)
    (mark : α → StepOutcome → AnimationState → α) :
    Nat → α → AnimationState → α × AnimationState
  | 0, seen, state => (seen, state)
  | count + 1, seen, state =>
    let (seen, outcome, state) := player.stepWith see state seen
    player.foldTicks see mark count (mark seen outcome state) state

/-- One tick of which nothing is kept but how it ended. -/
def advance (player : Player) (state : AnimationState) : StepOutcome × AnimationState :=
  (player.stepWith (fun (seen : Unit) _ ↦ seen) state ()).2

theorem runWith_eq (player : Player) (see : α → Execution → α) {cap count left : Nat}
    (h : cap = count + left) (state : AnimationState) (done : List Execution) (seen : α) :
    player.runWith see cap count state (done.reverse.foldl see seen) =
      let tick := player.runCommands left state done
      (tick.executed.foldl see seen, tick.outcome, tick.state) := by
  induction left generalizing count state done with
  | zero =>
    have hcap : ¬ count < cap := by omega
    rw [runWith, if_neg hcap]
    rfl
  | succ left ih =>
    have hcap : count < cap := by omega
    have hnext : cap = count + 1 + left := by omega
    rw [runWith, if_pos hcap, runCommands]
    cases player.program.get? state.cursor with
    | none => rfl
    | some command =>
      simp only
      split
      · simp
      · rw [← ih hnext]
        simp

theorem stepWith_eq (player : Player) (see : α → Execution → α) (state : AnimationState)
    (seen : α) :
    player.stepWith see state seen =
      ((player.step state).executed.foldl see seen, (player.step state).outcome,
        (player.step state).state) := by
  unfold stepWith step
  split
  · simp only
    split
    · rfl
    · exact player.runWith_eq see (Nat.zero_add _).symm _ [] seen
  · exact player.runWith_eq see (Nat.zero_add _).symm _ [] seen

theorem advance_eq (player : Player) (state : AnimationState) :
    player.advance state = ((player.step state).outcome, (player.step state).state) := by
  rw [advance, stepWith_eq]

theorem fst_foldTicks (player : Player) (see : α → Execution → α)
    (mark : α → StepOutcome → AnimationState → α) (count : Nat) (seen : α)
    (state : AnimationState) :
    (player.foldTicks see mark count seen state).1 =
      (player.ticks count state).foldl
        (fun seen tick ↦ mark (tick.executed.foldl see seen) tick.outcome tick.state) seen := by
  induction count generalizing seen state with
  | zero => rfl
  | succ count ih => simp [foldTicks, ticks, stepWith_eq, ih]

theorem snd_foldTicks (player : Player) (see : α → Execution → α)
    (mark : α → StepOutcome → AnimationState → α) (count : Nat) (seen : α)
    (state : AnimationState) :
    (player.foldTicks see mark count seen state).2 =
      (((player.ticks count state).map Tick.state).getLast?).getD state := by
  induction count generalizing seen state with
  | zero => rfl
  | succ count ih => simp [foldTicks, ticks, stepWith_eq, ih, List.getLast?_cons]

end Player

def MissingReference.message : MissingReference → String
  | .raster index => "raster " ++ toString index.toInt ++ " does not exist, drawing nothing"
  | .palette index => "palette " ++ toString index.toInt ++ " does not exist, using default"
  | .parent index => "parent component " ++ toString index.toNat ++ " does not exist"
  | .label name => "label " ++ name.getD "?" ++ " is not in the list, continuing"

def Execution.log (execution : Execution) : List Log.Entry :=
  ⟨.trace, "[" ++ toString execution.index ++ "] " ++ execution.command.name⟩ ::
    (execution.missing?.map fun missing ↦
      ⟨.warn, "Command " ++ toString execution.index ++ ": " ++ missing.message⟩).toList

/-- What is logged at a threshold; the trace is not worded if nobody sees it. -/
def Execution.logAt (threshold : Log.Level) (execution : Execution) : List Log.Entry :=
  match threshold, execution.missing? with
  | .warn, none | .debug, none => []
  | _, _ => Log.visible threshold execution.log

theorem Execution.logAt_eq (threshold : Log.Level) (execution : Execution) :
    execution.logAt threshold = Log.visible threshold execution.log := by
  unfold logAt
  split
  · next h => simp [Log.visible, log, h, Log.Level.rank]
  · next h => simp [Log.visible, log, h, Log.Level.rank]
  · rfl

/-- A tick that reaches its cap is warned of. -/
def stallLog (config : PlaybackConfig) (outcome : StepOutcome) (state : AnimationState) :
    List Log.Entry :=
  if outcome = .stalled then
    [⟨.warn, "Animation stalled: " ++ toString config.maxIterations
      ++ " commands ran without a wait (cursor at " ++ toString state.cursor ++ ")"⟩]
  else []

def Tick.log (config : PlaybackConfig) (tick : Tick) : List Log.Entry :=
  tick.executed.flatMap Execution.log ++ stallLog config tick.outcome tick.state

end SpriteBytecode
