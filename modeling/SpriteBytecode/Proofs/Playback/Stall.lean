import Mathlib.Data.Finset.Card
import Mathlib.Data.Finset.Range
import Mathlib.Data.List.Iterate
import Mathlib.Dynamics.PeriodicPts.Defs
import SpriteBytecode.Proofs.Playback.Completion
import SpriteBytecode.Proofs.Timing.Recurrence

/-!
Ticks that stall. In a list without loops the command at an index alone decides where playback goes
on (`cursor_effect`), so the commands of a tick that stalls stand at the iterates of a function on
indices (`indices_of_stalled`). If there are more of them than the list is long, an index is among
them twice, and playback goes round in a circle for ever (`circlesFrom_of_isInstant`). It cannot do
so without a jump backwards (`exists_goesBack`). Hence a stall is final, and completes an animation
in which no time has elapsed (`stalled_forever`).
-/

set_option autoImplicit false
set_option relaxedAutoImplicit false

namespace SpriteBytecode

namespace CommandList

/-- The index at which playback goes on behind a command that is neither a wait nor a loop. -/
def successor (list : CommandList) (index : Nat) : Nat :=
  match list.get? index with
  | some (.goto target) => (list.findLabel? target).getD (index + 1)
  | _ => index + 1

/-- A command stands here that takes no time. -/
def IsInstant (list : CommandList) (index : Nat) : Prop :=
  ∃ command, list.get? index = some command ∧ ∀ count, command ≠ .wait count

/-- From this index on playback takes no time, and never comes to the end. -/
def CirclesFrom (list : CommandList) (start : Nat) : Prop :=
  ∀ passed, list.IsInstant (list.successor^[passed] start)

variable {list : CommandList} {index start : Nat}

theorem IsInstant.lt_length (h : list.IsInstant index) : index < list.length := by
  obtain ⟨command, hget, -⟩ := h
  exact Timing.lt_length_of_get? hget

/-- Only a goto does not lead forward, and it leads back: no label stands where the goto does. -/
theorem goesBack_of_successor_le (h : list.successor index ≤ index) : list.GoesBack index := by
  unfold successor at h
  split at h
  · next target hget =>
    rcases hlabel : list.findLabel? target with - | place
    · rw [hlabel] at h
      exact absurd h (Nat.not_succ_le_self index)
    · rw [hlabel, Option.getD_some] at h
      refine ⟨target, place, hget, hlabel, Nat.lt_of_le_of_ne h ?_⟩
      rintro rfl
      exact absurd (hget.symm.trans (get?_of_findLabel? hlabel)) (by simp)
  · exact absurd h (Nat.not_succ_le_self index)

section Circle

variable (h : ∀ passed ≤ list.length, list.IsInstant (list.successor^[passed] start))

include h

/-- Among more indices than the list has one leads back. -/
theorem exists_goesBack :
    ∃ passed < list.length, list.GoesBack (list.successor^[passed] start) := by
  by_contra hforward
  have hle : ∀ passed ≤ list.length, passed ≤ list.successor^[passed] start := by
    intro passed
    induction passed with
    | zero => exact fun _ ↦ Nat.zero_le _
    | succ passed ih =>
      intro hpassed
      have hback := mt goesBack_of_successor_le fun hback ↦ hforward ⟨passed, hpassed, hback⟩
      rw [Function.iterate_succ_apply']
      exact Nat.lt_of_le_of_lt (ih (Nat.le_of_succ_le hpassed)) (Nat.lt_of_not_le hback)
  exact Nat.not_lt_of_le (hle _ (Nat.le_refl _)) (h _ (Nat.le_refl _)).lt_length

/-- More indices than the list has go round in a circle. -/
theorem exists_isPeriodicPt :
    ∃ first period, 0 < period ∧ first + period ≤ list.length ∧
      Function.IsPeriodicPt list.successor period (list.successor^[first] start) := by
  have hcard : (Finset.range list.length).card < (Finset.range (list.length + 1)).card := by
    simp
  obtain ⟨first, hfirst, second, hsecond, hne, hsame⟩ :=
    Finset.exists_ne_map_eq_of_card_lt_of_maps_to hcard fun passed hpassed ↦
      Finset.mem_coe.mpr (Finset.mem_range.mpr
        (h passed (Nat.le_of_lt_succ (Finset.mem_range.mp hpassed))).lt_length)
  rw [Finset.mem_range] at hfirst hsecond
  wlog hlt : first < second generalizing first second
  · exact this second hsecond first hfirst hne.symm hsame.symm
      (Nat.lt_of_le_of_ne (Nat.le_of_not_lt hlt) hne.symm)
  refine ⟨first, second - first, by omega, by omega, ?_⟩
  rw [Function.IsPeriodicPt, Function.IsFixedPt, ← Function.iterate_add_apply,
    Nat.sub_add_cancel (Nat.le_of_lt hlt)]
  exact hsame.symm

theorem circlesFrom_of_isInstant : list.CirclesFrom start := by
  intro passed
  obtain ⟨first, period, hpos, hle, hperiodic⟩ := exists_isPeriodicPt h
  by_cases hearly : passed ≤ list.length
  · exact h passed hearly
  obtain ⟨more, rfl⟩ := Nat.exists_eq_add_of_le (by omega : first ≤ passed)
  -- What comes behind the first round is the same as in it.
  have hmod := Nat.mod_lt more hpos
  rw [Nat.add_comm, Function.iterate_add_apply, ← hperiodic.iterate_mod_apply,
    ← Function.iterate_add_apply]
  exact h _ (by omega)

end Circle

end CommandList

namespace Player

variable {player : Player}

/-- A tick that stalls runs no wait. -/
theorem ne_wait_of_stalled {state : AnimationState} (h : (player.step state).outcome = .stalled) :
    ∀ execution ∈ (player.step state).executed, ∀ count, execution.command ≠ .wait count := by
  obtain ⟨hstep, hdelay, -⟩ := player.step_of_outcome_ne (ne_of_eq_of_ne h (by decide))
  have hkept := @runCommands_keeps player
    (fun state executed ↦ state.delay ≤ 0 →
      ∀ execution ∈ executed, ∀ count, execution.command ≠ .wait count)
    ?_ player.config.maxIterations _ [] hdelay fun _ _ hmem ↦ absurd hmem List.not_mem_nil
  · rw [← hstep] at hkept
    exact hkept (delay_le_of_over (Or.inr h))
  · intro state executed command hdelay _ hexecuted hidle
    refine List.forall_mem_append.mpr ⟨hexecuted hdelay, List.forall_mem_singleton.mpr ?_⟩
    refine (player.blocks_eq_false_iff command state).mp ?_
    rcases player.wait_or_not_blocks command state with ⟨count, rfl⟩ | ⟨hblocks, -⟩
    · exact absurd hidle (Int.not_le.mpr (Int.natCast_pos.mpr (waitTime_pos count)))
    · exact hblocks

section Straight

variable (hloops : player.list.loopCount = 0)

include hloops

theorem cursor_effect {state : AnimationState} {command : Command}
    (hget : player.list.get? state.cursor = some command)
    (hwait : ∀ count, command ≠ .wait count) :
    (player.effect command state).state.cursor = player.list.successor state.cursor := by
  have hloop := CommandList.isLoop_eq_false_of_loopCount hloops hget
  unfold CommandList.successor
  rw [hget]
  cases command with
  | wait count => exact absurd rfl (hwait count)
  | loop => exact absurd hloop (by simp [Instruction.isLoop])
  | goto target =>
    rcases hlabel : player.list.findLabel? target with - | place
    · rw [player.effect_goto_of_eq_none state hlabel]
      simp only [hlabel, Option.getD_none]
      rfl
    · rw [player.effect_goto_of_eq_some state hlabel]
      simp only [hlabel, Option.getD_some]
  | setParent index =>
    rw [effect_setParent]
    rfl
  | _ => rfl

/-- Commands stall if none of them takes time. -/
theorem stalled_runCommands_iff (cap : Nat) (state : AnimationState) :
    (player.runCommands cap state []).outcome = .stalled ↔
      ∀ passed < cap, player.list.IsInstant (player.list.successor^[passed] state.cursor) := by
  induction cap generalizing state with
  | zero => exact iff_of_true rfl fun passed hpassed ↦ absurd hpassed (Nat.not_lt_zero passed)
  | succ cap ih =>
    rw [Nat.forall_lt_succ_left]
    rcases hget : player.list.get? state.cursor with - | command
    · rw [player.runCommands_of_get?_eq_none cap hget]
      refine iff_of_false (by simp) fun hinstant ↦ ?_
      obtain ⟨command, hcommand, -⟩ := hinstant.1
      exact absurd (hget.symm.trans hcommand) (by simp)
    rcases player.wait_or_not_blocks command state with ⟨count, rfl⟩ | ⟨hblocks, -⟩
    · rw [player.runCommands_of_blocks cap hget rfl]
      refine iff_of_false (by simp) fun hinstant ↦ ?_
      obtain ⟨command, hcommand, hwait⟩ := hinstant.1
      exact hwait count (Option.some.inj (hcommand.symm.trans hget))
    · have hwait := (player.blocks_eq_false_iff command state).mp hblocks
      rw [player.runCommands_of_not_blocks cap hget hblocks]
      show (player.runCommands cap (player.effect command state).state []).outcome = _ ↔ _
      rw [ih, cursor_effect hloops hget hwait]
      exact (and_iff_right ⟨command, hget, hwait⟩).symm

/-- The commands that stall stand at the iterates of the successor. -/
theorem indices_of_stalled (cap : Nat) {state : AnimationState}
    (h : (player.runCommands cap state []).outcome = .stalled) :
    (player.runCommands cap state []).executed.map Execution.index =
        List.iterate player.list.successor state.cursor cap ∧
      (player.runCommands cap state []).state.cursor =
        player.list.successor^[cap] state.cursor := by
  induction cap generalizing state with
  | zero => exact ⟨rfl, rfl⟩
  | succ cap ih =>
    obtain ⟨command, hget, hwait⟩ :=
      (stalled_runCommands_iff hloops (cap + 1) state).mp h 0 (Nat.succ_pos cap)
    have hblocks := (player.blocks_eq_false_iff command state).mpr hwait
    rw [player.runCommands_of_not_blocks cap hget hblocks] at h ⊢
    obtain ⟨hindices, hcursor⟩ := ih h
    rw [cursor_effect hloops hget hwait] at hindices hcursor
    exact ⟨congrArg (state.cursor :: ·) hindices, hcursor⟩

/-- Commands that go round in a circle stall, and go on in it. -/
theorem runCommands_of_circlesFrom (cap : Nat) {state : AnimationState} (hdelay : state.delay ≤ 0)
    (h : player.list.CirclesFrom state.cursor) :
    (player.runCommands cap state []).outcome = .stalled ∧
      (player.runCommands cap state []).state.delay ≤ 0 ∧
      player.list.CirclesFrom (player.runCommands cap state []).state.cursor := by
  have hstalled := (stalled_runCommands_iff hloops cap state).mpr fun passed _ ↦ h passed
  have hends := (player.course_runCommands cap hdelay).2.2
  rw [EndsAs, hstalled] at hends
  refine ⟨hstalled, hends.1, fun passed ↦ ?_⟩
  rw [(indices_of_stalled hloops cap hstalled).2, ← Function.iterate_add_apply]
  exact h (passed + cap)

/-- Ticks that begin in a circle stall. -/
theorem ticks_of_circlesFrom (count : Nat) {state : AnimationState} (hdelay : state.delay ≤ 0)
    (h : player.list.CirclesFrom state.cursor) :
    ∀ tick ∈ player.ticks count state, tick.outcome = .stalled := by
  induction count generalizing state with
  | zero => exact fun _ hmem ↦ absurd hmem List.not_mem_nil
  | succ count ih =>
    have hstep : player.step state =
        player.runCommands player.config.maxIterations state.resetPulse [] :=
      if_neg (Int.not_lt.mpr hdelay)
    obtain ⟨hstalled, hidle, hcircles⟩ :=
      runCommands_of_circlesFrom hloops player.config.maxIterations
        (show state.resetPulse.delay ≤ 0 from hdelay) h
    rw [← hstep] at hstalled hidle hcircles
    exact List.forall_mem_cons.mpr ⟨hstalled, ih hidle hcircles⟩

variable (hcap : player.list.length < player.config.maxIterations) {state : AnimationState}

include hcap

theorem circlesFrom_of_stalled (h : (player.step state).outcome = .stalled) :
    player.list.CirclesFrom (player.resume state).cursor := by
  obtain ⟨hstep, -, -⟩ := player.step_of_outcome_ne (ne_of_eq_of_ne h (by decide))
  rw [hstep, stalled_runCommands_iff hloops] at h
  exact CommandList.circlesFrom_of_isInstant fun passed hpassed ↦
    h passed (Nat.lt_of_le_of_lt hpassed hcap)

/-- A tick that stalls has jumped back. -/
theorem exists_goesBack_of_stalled (h : (player.step state).outcome = .stalled) :
    ∃ execution ∈ (player.step state).executed, player.list.GoesBack execution.index := by
  obtain ⟨passed, hpassed, hback⟩ :=
    CommandList.exists_goesBack fun passed _ ↦ circlesFrom_of_stalled hloops hcap h passed
  obtain ⟨hstep, -, -⟩ := player.step_of_outcome_ne (ne_of_eq_of_ne h (by decide))
  have hindices := (indices_of_stalled hloops player.config.maxIterations (hstep ▸ h)).1
  rw [← hstep] at hindices
  obtain ⟨execution, hmem, hindex⟩ := List.mem_map.mp
    (hindices ▸ List.mem_iterate.mpr ⟨passed, Nat.lt_trans hpassed hcap, rfl⟩)
  exact ⟨execution, hmem, hindex ▸ hback⟩

end Straight

end Player

/-- In a list without loops, a tick that may run more commands than there are and stalls goes round
in a circle: all later ticks stall, and no wait runs in them. If none has run before, the animation
is complete. -/
theorem stalled_forever (player : Player) (hloops : player.list.loopCount = 0)
    (hcap : player.list.length < player.config.maxIterations) (calls : List Call)
    (hstalled : (player.step (player.session calls).state).outcome = .stalled) :
    (∀ count, ∀ tick ∈ player.ticks count (player.step (player.session calls).state).state,
      tick.outcome = .stalled ∧
        ∀ execution ∈ tick.executed, ∀ wait, execution.command ≠ .wait wait) ∧
    ((∀ execution ∈ (player.session calls).executed, ∀ wait, execution.command ≠ .wait wait) →
      (player.step (player.session calls).state).state.complete = true) := by
  obtain ⟨hstep, hdelay, -⟩ := player.step_of_outcome_ne (ne_of_eq_of_ne hstalled (by decide))
  obtain ⟨-, hidle, hcircles⟩ := Player.runCommands_of_circlesFrom hloops
    player.config.maxIterations hdelay (Player.circlesFrom_of_stalled hloops hcap hstalled)
  rw [← hstep] at hidle hcircles
  constructor
  · intro count tick htick
    have hlater := Player.ticks_of_circlesFrom hloops count hidle hcircles tick htick
    obtain ⟨earlier, -, rfl, -⟩ := player.mem_ticks htick
    exact ⟨hlater, Player.ne_wait_of_stalled hlater⟩
  · intro hexecuted
    have hcomplete := @Player.complete_session_iff player (calls ++ [.step])
    rw [Player.session_concat] at hcomplete
    refine hcomplete.mpr (ranBeforeWait_of_mem ?_ ?_)
    · exact List.forall_mem_append.mpr ⟨hexecuted, Player.ne_wait_of_stalled hstalled⟩
    · obtain ⟨execution, hmem, hback⟩ :=
        Player.exists_goesBack_of_stalled hloops hcap hstalled
      exact ⟨execution, List.mem_append_right _ hmem, hback⟩

/-- Two gotos about a wait, in ticks of up to six commands. -/
def circlingPlayer : Player :=
  ⟨(CommandList.mk [.label ⟨0⟩, .goto ⟨1⟩, .wait 4, .label ⟨1⟩, .goto ⟨0⟩] ["A", "B"]).program,
    .anonymous 0 0 0, { maxIterations := 6 }⟩

/-- The gotos go round in a circle about the wait. -/
theorem stalled_forever_around_wait :
    (circlingPlayer.list.loopCount = 0 ∧ (circlingPlayer.step .initial).outcome = .stalled) ∧
    (∀ count, ∀ tick ∈ circlingPlayer.ticks count (circlingPlayer.step .initial).state,
      tick.outcome = .stalled) ∧
    (circlingPlayer.step .initial).state.complete = true := by
  have hloops : circlingPlayer.list.loopCount = 0 := by decide
  have hstalled : (circlingPlayer.step .initial).outcome = .stalled := by decide
  obtain ⟨hlater, hcomplete⟩ := stalled_forever circlingPlayer hloops (by decide) [] hstalled
  exact ⟨⟨hloops, hstalled⟩, fun count tick htick ↦ (hlater count tick htick).1,
    hcomplete fun _ hmem ↦ absurd hmem List.not_mem_nil⟩

end SpriteBytecode
