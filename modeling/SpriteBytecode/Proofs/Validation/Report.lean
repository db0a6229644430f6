import SpriteBytecode.Validation

/-!
What the report on a list holds. Every diagnostic is the problem of the command at its index
(`mem_validate_iff`), and diagnostics stand in the order of their indices, one for a command at most
(`pairwise_validate`). A label is reported missing exactly if a jump asks for it and it has no
marker (`problem?_eq_missingLabel_iff`), and a jump is reported to go forward exactly if its label
stands behind it (`problem?_eq_forwardJump_iff`).
-/

set_option autoImplicit false
set_option relaxedAutoImplicit false

namespace SpriteBytecode

section Report

variable (labels : LabelTable) (assets : Assets) (owner : Option Nat)

theorem mem_diagnosticsFrom_iff (start : Nat) (commands : List Command)
    (diagnostic : Diagnostic) :
    diagnostic ∈ labels.diagnosticsFrom assets owner start commands ↔
      ∃ offset command, commands[offset]? = some command ∧ diagnostic.index = start + offset ∧
        labels.problem? assets owner diagnostic.index command = some diagnostic.problem := by
  induction commands generalizing start with
  | nil => simp [LabelTable.diagnosticsFrom]
  | cons command rest ih =>
    have hcons : (∃ offset other, (command :: rest)[offset]? = some other ∧
          diagnostic.index = start + offset ∧
          labels.problem? assets owner diagnostic.index other = some diagnostic.problem) ↔
        (diagnostic.index = start ∧
          labels.problem? assets owner start command = some diagnostic.problem) ∨
        diagnostic ∈ labels.diagnosticsFrom assets owner (start + 1) rest := by
      rw [ih]
      constructor
      · rintro ⟨offset, other, hget, hindex, hproblem⟩
        cases offset with
        | zero =>
          obtain rfl := Option.some.inj hget
          rw [Nat.add_zero] at hindex
          exact Or.inl ⟨hindex, hindex ▸ hproblem⟩
        | succ offset => exact Or.inr ⟨offset, other, hget, by omega, hproblem⟩
      · rintro (⟨hindex, hproblem⟩ | ⟨offset, other, hget, hindex, hproblem⟩)
        · exact ⟨0, command, rfl, hindex, hindex.symm ▸ hproblem⟩
        · exact ⟨offset + 1, other, hget, by omega, hproblem⟩
    rw [hcons, LabelTable.diagnosticsFrom]
    rcases labels.problem? assets owner start command with - | problem
    · simp
    · rw [List.mem_cons]
      refine or_congr_left ?_
      cases diagnostic
      simp [eq_comm]

theorem pairwise_diagnosticsFrom (start : Nat) (commands : List Command) :
    (labels.diagnosticsFrom assets owner start commands).Pairwise
      fun first second ↦ first.index < second.index := by
  induction commands generalizing start with
  | nil => exact List.Pairwise.nil
  | cons command rest ih =>
    rw [LabelTable.diagnosticsFrom]
    split
    · refine List.pairwise_cons.mpr ⟨?_, ih (start + 1)⟩
      intro later hlater
      obtain ⟨offset, -, -, hindex, -⟩ := (mem_diagnosticsFrom_iff _ _ _ _ _ _).mp hlater
      show start < later.index
      omega
    · exact ih (start + 1)

end Report

namespace CommandList

variable (list : CommandList) (assets : Assets) (owner : Option Nat)

theorem mem_validate_iff (diagnostic : Diagnostic) :
    diagnostic ∈ list.validate assets owner ↔
      ∃ command, list.get? diagnostic.index = some command ∧
        list.labelTable.problem? assets owner diagnostic.index command =
          some diagnostic.problem := by
  rw [validate, mem_diagnosticsFrom_iff]
  constructor
  · rintro ⟨_, command, hget, hindex, hproblem⟩
    rw [Nat.zero_add] at hindex
    exact ⟨command, hindex.symm ▸ hget, hproblem⟩
  · rintro ⟨command, hget, hproblem⟩
    exact ⟨diagnostic.index, command, hget, (Nat.zero_add _).symm, hproblem⟩

/-- Diagnostics stand in the order of their commands, and no command has two. -/
theorem pairwise_validate :
    (list.validate assets owner).Pairwise fun first second ↦ first.index < second.index :=
  pairwise_diagnosticsFrom _ _ _ 0 list.commands

theorem jumpProblem?_labelTable (index : Nat) (target : LabelId) :
    list.labelTable.jumpProblem? index target =
      match list.findLabel? target with
      | none => some (.missingLabel ((list.labelName? target).getD "?"))
      | some destination => if index < destination then some .forwardJump else none := by
  rcases hfind : list.findLabel? target with - | destination
  · simp only [LabelTable.jumpProblem?, place?_labelTable, name?_labelTable, hfind]
  · simp only [LabelTable.jumpProblem?, place?_labelTable, hfind]

theorem jumpProblem?_eq_missingLabel_iff (index : Nat) (target : LabelId) (name : String) :
    list.labelTable.jumpProblem? index target = some (.missingLabel name) ↔
      list.findLabel? target = none ∧ (list.labelName? target).getD "?" = name := by
  rw [jumpProblem?_labelTable]
  rcases list.findLabel? target with - | destination
  · simp
  · by_cases h : index < destination <;> simp [h]

/-- A missing label is the problem of a jump to a label without a marker. -/
theorem problem?_eq_missingLabel_iff (index : Nat) (command : Command) (name : String) :
    list.labelTable.problem? assets owner index command = some (.missingLabel name) ↔
      ∃ id, command.jumpTarget? = some id ∧ list.findLabel? id = none ∧
        (list.labelName? id).getD "?" = name := by
  cases command with
  | goto target | loop target count =>
    rw [LabelTable.problem?, jumpProblem?_eq_missingLabel_iff]
    simp [Instruction.jumpTarget?]
  | _ =>
    simp only [LabelTable.problem?, Instruction.jumpTarget?]
    repeat' split
    all_goals simp

theorem jumpProblem?_eq_forwardJump_iff (index : Nat) (target : LabelId) :
    list.labelTable.jumpProblem? index target = some .forwardJump ↔
      ∃ place, list.findLabel? target = some place ∧ index < place := by
  rw [jumpProblem?_labelTable]
  rcases list.findLabel? target with - | destination
  · simp
  · by_cases h : index < destination <;> simp [h]

/-- A jump goes forward if its label stands behind it. -/
theorem problem?_eq_forwardJump_iff (index : Nat) (command : Command) :
    list.labelTable.problem? assets owner index command = some .forwardJump ↔
      ∃ id place, command.jumpTarget? = some id ∧ list.findLabel? id = some place ∧
        index < place := by
  cases command with
  | goto target | loop target count =>
    rw [LabelTable.problem?, jumpProblem?_eq_forwardJump_iff]
    simp [Instruction.jumpTarget?]
  | _ =>
    simp only [LabelTable.problem?, Instruction.jumpTarget?]
    repeat' split
    all_goals simp

end CommandList

end SpriteBytecode
