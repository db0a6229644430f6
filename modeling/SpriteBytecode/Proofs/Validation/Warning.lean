import SpriteBytecode.Proofs.Playback.Transition
import SpriteBytecode.Proofs.Validation.Report

/-!
Warnings of playback, foretold by the report on the list. The checker and the player look at each
command for themselves and find the same thing missing (`message_missing?_effect`). Where something
is missing, the command is skipped (`isSkipped_effect`), and everywhere else it has its full effect
(`hasFullEffect_effect`).
-/

set_option autoImplicit false
set_option relaxedAutoImplicit false

namespace SpriteBytecode

/-- What the command refers to in vain, if that is its problem. -/
def Problem.missing? : Problem → Option MissingReference
  | missingLabel name => some (.label (some name))
  | danglingRaster index => some (.raster index)
  | danglingPalette index => some (.palette index)
  | danglingParent index => some (.parent index)
  | selfParent | zeroWait | oddWait _ | forwardJump => none

/-- The report says of the command at this index what it refers to in vain. -/
def ReportsMissing (report : List Diagnostic) (index : Nat) (missing : MissingReference) : Prop :=
  ∃ diagnostic ∈ report, diagnostic.index = index ∧ diagnostic.problem.missing? = some missing

theorem reportsMissing_validate_iff {list : CommandList} {index : Nat} {command : Command}
    (hget : list.get? index = some command) (assets : Assets) (owner : Option Nat)
    (missing : MissingReference) :
    ReportsMissing (list.validate assets owner) index missing ↔
      (list.labelTable.problem? assets owner index command).bind Problem.missing? =
        some missing := by
  rw [Option.bind_eq_some_iff]
  constructor
  · rintro ⟨diagnostic, hmem, rfl, hmissing⟩
    obtain ⟨other, hother, hproblem⟩ := (list.mem_validate_iff assets owner _).mp hmem
    obtain rfl := Option.some.inj (hget.symm.trans hother)
    exact ⟨diagnostic.problem, hproblem, hmissing⟩
  · rintro ⟨problem, hproblem, hmissing⟩
    exact ⟨⟨index, problem⟩, (list.mem_validate_iff assets owner _).mpr ⟨command, hget, hproblem⟩,
      rfl, hmissing⟩

theorem Execution.warn_mem_log_iff (execution : Execution) (text : String) :
    ⟨.warn, text⟩ ∈ execution.log ↔ ∃ missing, execution.missing? = some missing ∧
      text = "Command " ++ toString execution.index ++ ": " ++ missing.message := by
  rcases hmissing : execution.missing? with - | missing <;> simp [log, hmissing, eq_comm]

/-! ### What a command does -/

/-- The index that an operand is, unless it is negative. -/
def operandIndex? (operand : Int) : Option Nat :=
  if 0 ≤ operand then some operand.toNat else none

/-- What the command refers to is selected, its jump is taken, or its loop is counted. Commands of
other kinds refer to nothing. Which asset an operand refers to is left open. -/
def HasFullEffect (list : CommandList) (selection? : AssetKind → Int → Option Nat)
    (command : Command) (before after : AnimationState) : Prop :=
  match command with
  | .setRaster index =>
    after = { before.next with raster := selection? .raster index.toInt, palette := none }
  | .setPalette index => after = { before.next with palette := selection? .palette index.toInt }
  | .setParent index =>
    ∃ parent, selection? .component index.toNat = some parent ∧
      after = { before.next with parent := some parent }
  | .goto target =>
    ∃ destination, list.findLabel? target = some destination ∧
      after =
        { before with
          cursor := destination
          complete := before.complete || (destination < before.cursor && before.waited == 0) }
  | .loop target count =>
    ∃ destination, list.findLabel? target = some destination ∧
      after =
        { before with
          cursor :=
            if (nextRepeats before.repeats count).isSome then destination else before.cursor + 1
          repeats := nextRepeats before.repeats count }
  | _ => True

/-- Nothing is drawn, the default palette is used, the parent is kept, or playback goes on behind
the jump. -/
def IsSkipped (command : Command) (before after : AnimationState) : Prop :=
  match command with
  | .setRaster _ => after = { before.next with raster := none, palette := none }
  | .setPalette _ => after = { before.next with palette := none }
  | .setParent _ | .goto _ | .loop .. => after = before.next
  | _ => False

/-- These selections agree with the container, apart from operands that are reported. -/
def Assets.Selects (assets : Assets) (selection? : AssetKind → Int → Option Nat) : Prop :=
  ∀ kind operand, ¬ (0 ≤ operand ∧ assets.resolve? kind operand = none) →
    assets.resolve? kind operand = selection? kind operand

theorem Assets.ResolvesByIndex.selects {assets : Assets} (hassets : assets.ResolvesByIndex) :
    assets.Selects fun _ ↦ operandIndex? := by
  intro kind operand hfound
  rcases hresolve : assets.resolve? kind operand with - | index
  · have hnegative : ¬ 0 ≤ operand := fun hnonneg ↦ hfound ⟨hnonneg, hresolve⟩
    exact (if_neg hnegative).symm
  · obtain ⟨rfl, -⟩ := (hassets.resolve?_eq_some_iff kind operand index).mp hresolve
    exact (if_pos (Int.natCast_nonneg index)).symm

namespace Player

variable (player : Player) (owner : Option Nat) (command : Command) (state : AnimationState)

/-- The player misses what the checker says is missing. -/
theorem message_missing?_effect :
    (player.effect command state).missing?.map MissingReference.message =
      ((player.list.labelTable.problem? player.assets owner state.cursor command).bind
        Problem.missing?).map MissingReference.message := by
  have hmissing : ∀ target, player.list.findLabel? target = none →
      ((player.list.labelTable.jumpProblem? state.cursor target).bind Problem.missing?).map
          MissingReference.message =
        some (MissingReference.label (player.program.labelName? target)).message := by
    intro target hlabel
    rw [player.list.jumpProblem?_labelTable, hlabel, player.program.labelName?_eq]
    rfl
  have hfound : ∀ target destination, player.list.findLabel? target = some destination →
      ((player.list.labelTable.jumpProblem? state.cursor target).bind Problem.missing?).map
        MissingReference.message = none := by
    intro target destination hlabel
    rw [player.list.jumpProblem?_labelTable, hlabel]
    by_cases hforward : state.cursor < destination <;> simp [hforward, Problem.missing?]
  cases command with
  | wait count =>
    simp only [effect, LabelTable.problem?]
    split_ifs <;> rfl
  | setRaster index =>
    simp only [effect, LabelTable.problem?]
    split_ifs <;> rfl
  | setPalette index =>
    simp only [effect, LabelTable.problem?]
    split_ifs <;> rfl
  | setParent index =>
    rw [effect_setParent]
    simp only [LabelTable.problem?]
    split_ifs <;> rfl
  | goto target =>
    rcases hlabel : player.list.findLabel? target with - | destination
    · rw [player.effect_goto_of_eq_none state hlabel]
      exact (hmissing target hlabel).symm
    · rw [player.effect_goto_of_eq_some state hlabel]
      exact (hfound target destination hlabel).symm
  | loop target count =>
    rcases hlabel : player.list.findLabel? target with - | destination
    · rw [player.effect_loop_of_eq_none state count hlabel]
      exact (hmissing target hlabel).symm
    · rw [player.effect_loop_of_eq_some state count hlabel]
      exact (hfound target destination hlabel).symm
  | _ => rfl

/-- A command that misses something is skipped. -/
theorem isSkipped_effect {missing : MissingReference}
    (h : (player.effect command state).missing? = some missing) :
    IsSkipped command state (player.effect command state).state := by
  cases command with
  | setRaster index =>
    obtain ⟨⟨-, hresolve⟩, -⟩ := Option.ite_none_right_eq_some.mp h
    exact congrArg (fun raster ↦ { state.next with raster, palette := none }) hresolve
  | setPalette index =>
    obtain ⟨⟨-, hresolve⟩, -⟩ := Option.ite_none_right_eq_some.mp h
    exact congrArg (fun palette ↦ { state.next with palette }) hresolve
  | setParent index =>
    rw [effect_setParent] at h ⊢
    obtain ⟨hresolve, -⟩ := Option.ite_none_right_eq_some.mp h
    simp only [hresolve, Option.none_or]
    rfl
  | goto target =>
    rcases hlabel : player.list.findLabel? target with - | destination
    · rw [player.effect_goto_of_eq_none state hlabel]
      rfl
    · rw [player.effect_goto_of_eq_some state hlabel] at h
      exact absurd h (by simp)
  | loop target count =>
    rcases hlabel : player.list.findLabel? target with - | destination
    · rw [player.effect_loop_of_eq_none state count hlabel]
      rfl
    · rw [player.effect_loop_of_eq_some state count hlabel] at h
      exact absurd h (by simp)
  | _ => exact absurd h (by simp [effect])

/-- A command that misses nothing has its full effect. -/
theorem hasFullEffect_effect {selection? : AssetKind → Int → Option Nat}
    (hassets : player.assets.Selects selection?)
    (h : (player.effect command state).missing? = none) :
    HasFullEffect player.list selection? command state (player.effect command state).state := by
  cases command with
  | setRaster index =>
    have hfound : ¬ (0 ≤ index.toInt ∧
        player.assets.resolve? .raster index.toInt = none) := by simpa [effect] using h
    exact congrArg (fun raster ↦ { state.next with raster, palette := none })
      (hassets .raster index.toInt hfound)
  | setPalette index =>
    have hfound : ¬ (0 ≤ index.toInt ∧
        player.assets.resolve? .palette index.toInt = none) := by simpa [effect] using h
    exact congrArg (fun palette ↦ { state.next with palette })
      (hassets .palette index.toInt hfound)
  | setParent index =>
    rw [effect_setParent] at h ⊢
    have hfound : player.assets.resolve? .component index.toNat ≠ none := by simpa using h
    obtain ⟨parent, hparent⟩ := Option.ne_none_iff_exists'.mp hfound
    have hselected := hassets .component index.toNat fun hnone ↦ hfound hnone.2
    refine ⟨parent, hselected.symm.trans hparent, ?_⟩
    rw [hparent, Option.some_or]
  | goto target =>
    rcases hlabel : player.list.findLabel? target with - | destination
    · rw [player.effect_goto_of_eq_none state hlabel] at h
      exact absurd h (by simp)
    · rw [player.effect_goto_of_eq_some state hlabel]
      exact ⟨destination, hlabel, rfl⟩
  | loop target count =>
    rcases hlabel : player.list.findLabel? target with - | destination
    · rw [player.effect_loop_of_eq_none state count hlabel] at h
      exact absurd h (by simp)
    · rw [player.effect_loop_of_eq_some state count hlabel]
      exact ⟨destination, hlabel, rfl⟩
  | _ => exact trivial

end Player

/-- What a report on a list foretells of a command that runs: its warnings are those of the
references reported missing at its index, and it is skipped if there is one. Otherwise it has its
full effect. -/
structure Foretells (list : CommandList) (assets : Assets) (report : List Diagnostic)
    (execution : Execution) (after : AnimationState) : Prop where
  warned : ∀ text, ⟨.warn, text⟩ ∈ execution.log ↔
    ∃ missing, ReportsMissing report execution.index missing ∧
      text = "Command " ++ toString execution.index ++ ": " ++ missing.message
  skipped : (∃ missing, ReportsMissing report execution.index missing) →
    IsSkipped execution.command execution.before after
  completed : (¬ ∃ missing, ReportsMissing report execution.index missing) →
    HasFullEffect list assets.resolve? execution.command execution.before after
  /-- Where operands select by index, the asset is that of the index in the command. -/
  selected : assets.ResolvesByIndex →
    (¬ ∃ missing, ReportsMissing report execution.index missing) →
      HasFullEffect list (fun _ ↦ operandIndex?) execution.command execution.before after

namespace Player

variable (player : Player)

/-- The report says in the same words what the player misses. -/
theorem exists_reportsMissing_iff (owner : Option Nat) {command : Command} {state : AnimationState}
    (hget : player.list.get? state.cursor = some command) (wording : String → Prop) :
    (∃ missing, ReportsMissing (player.list.validate player.assets owner) state.cursor missing ∧
        wording missing.message) ↔
      ∃ missing, (player.effect command state).missing? = some missing ∧ wording missing.message := by
  have hmessage := player.message_missing?_effect owner command state
  simp only [reportsMissing_validate_iff hget]
  constructor
  · rintro ⟨missing, hreported, hwording⟩
    rw [hreported] at hmessage
    obtain ⟨other, hother, hsame⟩ := Option.map_eq_some_iff.mp hmessage
    exact ⟨other, hother, hsame.symm ▸ hwording⟩
  · rintro ⟨missing, hmissing, hwording⟩
    rw [hmissing] at hmessage
    obtain ⟨other, hother, hsame⟩ := Option.map_eq_some_iff.mp hmessage.symm
    exact ⟨other, hother, hsame.symm ▸ hwording⟩

theorem foretells_effect (owner : Option Nat) {command : Command} {state : AnimationState}
    (hget : player.list.get? state.cursor = some command) :
    Foretells player.list player.assets (player.list.validate player.assets owner)
      (player.execute command state) (player.effect command state).state := by
  have hmissing : (∃ missing, ReportsMissing (player.list.validate player.assets owner)
        state.cursor missing) ↔
      ∃ missing, (player.effect command state).missing? = some missing := by
    simpa using player.exists_reportsMissing_iff owner hget fun _ ↦ True
  have hcompleted {selection?} (hassets : player.assets.Selects selection?)
      (hreported : ¬ ∃ missing, ReportsMissing (player.list.validate player.assets owner)
        state.cursor missing) :
      HasFullEffect player.list selection? command state (player.effect command state).state := by
    refine player.hasFullEffect_effect command state hassets
      (Option.eq_none_iff_forall_ne_some.mpr ?_)
    exact fun missing hsome ↦ hreported (hmissing.mpr ⟨missing, hsome⟩)
  refine ⟨fun text ↦ ?_, fun hreported ↦ ?_, hcompleted fun _ _ _ ↦ rfl,
    fun hassets ↦ hcompleted hassets.selects⟩
  · rw [Execution.warn_mem_log_iff]
    exact (player.exists_reportsMissing_iff owner hget fun message ↦
      text = "Command " ++ toString state.cursor ++ ": " ++ message).symm
  · obtain ⟨missing, hmissing⟩ := hmissing.mp hreported
    exact player.isSkipped_effect command state hmissing

end Player

/-- Diagnostics stand in list order, one for a command at most, and they foretell what playback
does: from any state on and in any number of ticks, a command that runs warns of the missing
references reported at its index, and of no others. -/
theorem report_foretells_warnings (player : Player) (owner : Option Nat) :
    (player.list.validate player.assets owner).Pairwise
        (fun first second ↦ first.index < second.index) ∧
      ∀ (start : AnimationState) (count : Nat), ∀ tick ∈ player.ticks count start,
        ∀ (place : Nat) (execution : Execution), tick.executed[place]? = some execution →
          player.list.get? execution.index = some execution.command ∧
            Foretells player.list player.assets (player.list.validate player.assets owner) execution
              (tick.stateAfter place) := by
  refine ⟨player.list.pairwise_validate player.assets owner, ?_⟩
  intro start count tick htick place execution hexecution
  obtain ⟨earlier, -, rfl, -⟩ := player.mem_ticks htick
  obtain ⟨hget, hexecute, hafter⟩ := player.stateAfter_step hexecution
  refine ⟨hget, ?_⟩
  rw [hafter, hexecute]
  exact player.foretells_effect owner hget

/-- A raster that does not exist, and a jump by a handle of another list. -/
def strayPlayer : Player :=
  ⟨(CommandList.mk [.setRaster 5, .goto ⟨3⟩, .wait 2] []).program, .anonymous 1 0 0, {}⟩

/-- The jump is reported, and warned of under the name that stands for no name. -/
theorem report_foretells_warnings_foreign_goto :
    ∃ execution, (strayPlayer.step .initial).executed[1]? = some execution ∧
      ⟨.warn, "Command 1: label ? is not in the list, continuing"⟩ ∈ execution.log ∧
      IsSkipped execution.command execution.before
        ((strayPlayer.step .initial).stateAfter 1) := by
  have hexecution : (strayPlayer.step .initial).executed[1]? =
      some ⟨{ cursor := 1 }, .goto ⟨3⟩, some (.label none)⟩ := by decide +kernel
  have hreported : ReportsMissing (strayPlayer.list.validate strayPlayer.assets none) 1
      (.label (some "?")) :=
    ⟨⟨1, .missingLabel "?"⟩, by decide +kernel, rfl, rfl⟩
  obtain ⟨-, hforetells⟩ := (report_foretells_warnings strayPlayer none).2 .initial 1 _
    List.mem_cons_self 1 _ hexecution
  exact ⟨_, hexecution, (hforetells.warned _).mpr ⟨_, hreported, rfl⟩,
    hforetells.skipped ⟨_, hreported⟩⟩

end SpriteBytecode
