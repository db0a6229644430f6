import SpriteBytecode.Proofs.Assembly.Encodability

/-!
Why a list is refused. The first command that is not encodable gives its reason to the whole list
(`refused_at_first_unencodable`): a label without a position by its name, an operand or a position
of more than twelve bits by the instruction and the number (`CommandList.Refuses`). A position that
no word can hold is refused before the instruction is looked at. It is reported as that of a goto,
and this is all that is ever known of a loop there (`not_refused_by_own_name`).
-/

set_option autoImplicit false
set_option relaxedAutoImplicit false

namespace SpriteBytecode

namespace Instruction

variable {τ υ ε : Type}

/-- The operand in the first word, of an instruction that has one of twelve bits there. Jump targets
are not among them. -/
def operand? : Instruction τ → Option Int
  | wait count => some count.toNat
  | setRaster index | setPalette index => some index.toInt
  | setRotation x _ _ => some x.toInt
  | _ => none

theorem unsignedOperand_eq_error_iff (name : String) (value : UInt16) (error : BytecodeError) :
    unsignedOperand name value = .error error ↔
      ¬ value.toNat < 0x1000 ∧ error = .operandOutOfRange name value.toNat := by
  unfold unsignedOperand
  split
  · next hlt => simp [hlt]
  · next hle => simp [hle, eq_comm]

theorem signedOperand_eq_error_iff (name : String) (value : Int16) (error : BytecodeError) :
    signedOperand name value = .error error ↔
      ¬ (-0x800 ≤ value.toInt ∧ value.toInt < 0x800) ∧
        error = .operandOutOfRange name value.toInt := by
  unfold signedOperand
  split
  · next hrange => simp [hrange]
  · next hrange => simp only [hrange, not_false_eq_true, true_and, Except.error.injEq, eq_comm]

/-- An instruction is refused by its name, with the operand or the target that does not fit. -/
theorem encode_eq_error_iff (i : RawInstruction) (error : BytecodeError) :
    i.encode = .error error ↔
      (∃ operand, i.operand? = some operand ∧ ¬ i.OperandsFit ∧
        error = .operandOutOfRange i.name operand) ∨
      ∃ target, i.jumpTarget? = some target ∧ ¬ target.toNat < 0x1000 ∧
        error = .operandOutOfRange i.name target.toNat := by
  cases i with
  | wait count =>
    simp [encode, map_eq_error_iff, unsignedOperand_eq_error_iff, operand?, OperandsFit,
      jumpTarget?]
  | goto target | loop target count =>
    simp [encode, map_eq_error_iff, unsignedOperand_eq_error_iff, operand?, jumpTarget?]
  | setRaster index | setPalette index | setRotation index y z =>
    simp [encode, map_eq_error_iff, signedOperand_eq_error_iff, operand?, OperandsFit,
      jumpTarget?]
  | _ => simp [encode, operand?, jumpTarget?]

theorem name_mapTarget (f : τ → υ) (i : Instruction τ) : (i.mapTarget f).name = i.name := by
  cases i <;> rfl

theorem name_of_mapTargetM {f : τ → Except ε υ} {i : Instruction τ} {j : Instruction υ}
    (h : i.mapTargetM f = .ok j) : j.name = i.name :=
  congr_of_mapTargetM name name_mapTarget h

theorem operand?_mapTarget (f : τ → υ) (i : Instruction τ) :
    (i.mapTarget f).operand? = i.operand? := by
  cases i <;> rfl

theorem operand?_of_mapTargetM {f : τ → Except ε υ} {i : Instruction τ} {j : Instruction υ}
    (h : i.mapTargetM f = .ok j) : j.operand? = i.operand? :=
  congr_of_mapTargetM operand? operand?_mapTarget h

theorem jumpTarget?_of_operand? {i : Instruction τ} {operand : Int}
    (h : i.operand? = some operand) : i.jumpTarget? = none := by
  cases i with
  | goto | loop | label => exact absurd h (by simp [operand?])
  | _ => rfl

end Instruction

namespace CommandList

/-- How a message names a label; a handle from another list has only its number. -/
def shownName (list : CommandList) (id : LabelId) : String :=
  (list.labelName? id).getD ("<label " ++ toString id.index ++ ">")

/-- The command is refused for this reason. A position that no word can hold is reported as a
goto's, and never as more than a signed number of 32 bits. -/
inductive Refuses (list : CommandList) : Command → BytecodeError → Prop where
  | operand {command : Command} {operand : Int} (hoperand : command.operand? = some operand)
      (hfit : ¬ command.OperandsFit) :
      Refuses list command (.operandOutOfRange command.name operand)
  | unresolved {command : Command} {id : LabelId} (hjump : command.jumpTarget? = some id)
      (hposition : list.position? id = none) :
      Refuses list command (.unresolvedLabel (list.shownName id))
  | target {command : Command} {id : LabelId} {position : Nat}
      (hjump : command.jumpTarget? = some id) (hposition : list.position? id = some position)
      (hlarge : 0x1000 ≤ position) (hword : position < 0x10000) :
      Refuses list command (.operandOutOfRange command.name position)
  | beyond {command : Command} {id : LabelId} {position : Nat}
      (hjump : command.jumpTarget? = some id) (hposition : list.position? id = some position)
      (hlarge : 0x10000 ≤ position) :
      Refuses list command (.operandOutOfRange "Goto" (min position 0x7FFFFFFF : Nat))

variable (list : CommandList)

theorem jumpWord_eq_error_iff (id : LabelId) (error : BytecodeError) :
    list.jumpWord id = .error error ↔
      list.position? id = none ∧ error = .unresolvedLabel (list.shownName id) ∨
      ∃ position, list.position? id = some position ∧ 0x10000 ≤ position ∧
        error = .operandOutOfRange "Goto" (min position 0x7FFFFFFF : Nat) := by
  rcases hname : list.labelName? id with - | name
  · simp [jumpWord, resolveTarget_jumpPositions, position?, shownName, hname, eq_comm]
  · rw [jumpWord_of_labelName? hname, position?_of_labelName? hname, shownName, hname,
      Option.getD_some]
    rcases hpin : LabelName.unescape? name with - | pinned
    · rcases lastOffset? (markerOffsets 0 list.commands) id with - | offset
      · simp [jumpPosition, hpin, eq_comm]
      · rcases Nat.lt_or_ge offset 0x10000 with hlt | hge
        · simp [jumpPosition, hpin, hlt, Nat.not_le.mpr hlt]
        · simp [jumpPosition, hpin, Nat.not_lt.mpr hge, hge, eq_comm]
    · simp [jumpPosition_of_unescape? hpin, Nat.not_le.mpr pinned.toNat_lt]

variable {list} {command : Command} {error : BytecodeError}

theorem refuses_iff_of_jump {id : LabelId} (hjump : command.jumpTarget? = some id) :
    list.Refuses command error ↔
      list.jumpWord id = .error error ∨
      ∃ target, list.jumpWord id = .ok target ∧ ¬ target.toNat < 0x1000 ∧
        error = .operandOutOfRange command.name target.toNat := by
  rw [jumpWord_eq_error_iff]
  simp only [jumpWord_eq_ok_iff]
  constructor
  · intro h
    cases h with
    | operand hoperand _ =>
      exact absurd ((Instruction.jumpTarget?_of_operand? hoperand).symm.trans hjump) (by simp)
    | unresolved hother hposition =>
      obtain rfl := Option.some.inj (hjump.symm.trans hother)
      exact Or.inl (Or.inl ⟨hposition, rfl⟩)
    | @target _ position hother hposition hlarge hword =>
      obtain rfl := Option.some.inj (hjump.symm.trans hother)
      have htarget := UInt16.toNat_ofNat_of_lt' hword
      exact Or.inr ⟨UInt16.ofNat position, by rw [htarget, hposition],
        by rwa [htarget, Nat.not_lt], by rw [htarget]⟩
    | beyond hother hposition hlarge =>
      obtain rfl := Option.some.inj (hjump.symm.trans hother)
      exact Or.inl (Or.inr ⟨_, hposition, hlarge, rfl⟩)
  · rintro ((⟨hposition, rfl⟩ | ⟨position, hposition, hlarge, rfl⟩) |
      ⟨target, hposition, hlarge, rfl⟩)
    · exact .unresolved hjump hposition
    · exact .beyond hjump hposition hlarge
    · exact .target hjump hposition (Nat.not_lt.mp hlarge) target.toNat_lt

theorem refuses_iff_of_not_jump (hjump : command.jumpTarget? = none) :
    list.Refuses command error ↔
      ∃ operand, command.operand? = some operand ∧ ¬ command.OperandsFit ∧
        error = .operandOutOfRange command.name operand := by
  constructor
  · intro h
    cases h with
    | operand hoperand hfit => exact ⟨_, hoperand, hfit, rfl⟩
    | unresolved hother | target hother | beyond hother =>
      exact absurd (hjump.symm.trans hother) (by simp)
  · rintro ⟨operand, hoperand, hfit, rfl⟩
    exact .operand hoperand hfit

/-- A command cannot be encoded for the reason that it is refused for. -/
theorem encoding_eq_error_iff : list.encoding command = .error error ↔
    list.Refuses command error := by
  rcases hlabel : command.isLabel with - | -
  · rw [list.encoding_of_not_label hlabel]
    rcases hraw : command.mapTargetM list.jumpWord with failure | raw
    · obtain ⟨id, hjump, hword⟩ := (Instruction.mapTargetM_eq_error_iff hlabel failure).mp hraw
      simp [refuses_iff_of_jump hjump, hword]
    · refine (raw.encode_eq_error_iff error).trans ?_
      rw [Instruction.operand?_of_mapTargetM hraw, Instruction.operandsFit_of_mapTargetM hraw,
        Instruction.name_of_mapTargetM hraw]
      simp only [Instruction.jumpTarget?_of_mapTargetM hraw]
      rcases hjump : command.jumpTarget? with - | id
      · simp [refuses_iff_of_not_jump hjump]
      · obtain ⟨target, hword⟩ := Instruction.exists_of_mapTargetM hraw hjump
        have hoperand (operand : Int) : command.operand? ≠ some operand := fun h ↦
          absurd (hjump.symm.trans (Instruction.jumpTarget?_of_operand? h)) (by simp)
        simp [refuses_iff_of_jump hjump, hword, hoperand]
  · obtain ⟨id, rfl⟩ := eq_label_of_isLabel hlabel
    rw [list.encoding_of_isLabel hlabel, refuses_iff_of_not_jump rfl]
    simp [Instruction.operand?]

end CommandList

/-- A list is refused for the reason that its first command has that is not encodable. -/
theorem refused_at_first_unencodable (list : CommandList) (error : BytecodeError) :
    assemble list = .error error ↔
      ∃ index command, list.get? index = some command ∧ ¬ list.Encodable command ∧
        list.Refuses command error ∧
        ∀ earlier ∈ list.commands.take index, list.Encodable earlier := by
  have hearlier (index : Nat) : (∀ earlier ∈ list.commands.take index,
      ∃ words, list.encoding earlier = .ok words) ↔
        ∀ earlier ∈ list.commands.take index, list.Encodable earlier :=
    forall₂_congr fun earlier _ ↦ list.exists_encoding_iff earlier
  rw [assemble_eq_error_iff]
  constructor
  · rintro ⟨index, ⟨command, hget, hrefused⟩, hencoded⟩
    refine ⟨index, command, hget, ?_, CommandList.encoding_eq_error_iff.mp hrefused,
      (hearlier index).mp hencoded⟩
    rw [← list.exists_encoding_iff, hrefused]
    simp
  · rintro ⟨index, command, hget, -, hrefused, hencodable⟩
    exact ⟨index, ⟨command, hget, CommandList.encoding_eq_error_iff.mpr hrefused⟩,
      (hearlier index).mpr hencodable⟩

/-! ### A loop beyond the words -/

/-- A loop to a label with `count` times four words in front of it. -/
def farLoop (count : Nat) : CommandList :=
  ⟨List.replicate count (.setPosition false 0 0 0) ++ [.label ⟨0⟩, .loop ⟨0⟩ 2], ["Far"]⟩

theorem position?_farLoop (count : Nat) : (farLoop count).position? ⟨0⟩ = some (count * 4) := by
  have hname : (farLoop count).labelName? ⟨0⟩ = some "Far" := rfl
  have hpin : LabelName.unescape? "Far" = none := by decide
  have hoffset : lastOffset? (markerOffsets 0 (farLoop count).commands) ⟨0⟩ =
      some (count * 4) := by
    rw [farLoop, markerOffsets_append, lastOffset?_append, streamLen_replicate, Nat.zero_add]
    rfl
  rw [CommandList.position?_of_labelName? hname, hpin, hoffset]
  rfl

theorem get?_farLoop (count : Nat) : (farLoop count).get? (count + 1) = some (.loop ⟨0⟩ 2) := by
  simp [farLoop, CommandList.get?]

theorem encodable_of_mem_take_farLoop {count : Nat} {earlier : Command}
    (h : earlier ∈ (farLoop count).commands.take (count + 1)) :
    (farLoop count).Encodable earlier := by
  have htake : (farLoop count).commands.take (count + 1) =
      List.replicate count (.setPosition false 0 0 0) ++ [.label ⟨0⟩] := by
    simp [farLoop, List.take_append]
  rw [htake, List.mem_append, List.mem_singleton] at h
  rcases h with hmem | rfl
  · rw [List.eq_of_mem_replicate hmem]
    exact ⟨trivial, fun _ hjump ↦ absurd hjump (by simp [Instruction.jumpTarget?])⟩
  · exact CommandList.encodable_label _ _

/-- Once the label is beyond all words, the loop is refused as a goto. -/
theorem refuses_farLoop {count : Nat} (h : 0x10000 ≤ count * 4) :
    (farLoop count).Refuses (.loop ⟨0⟩ 2)
      (.operandOutOfRange "Goto" (min (count * 4) 0x7FFFFFFF : Nat)) :=
  .beyond rfl (position?_farLoop count) h

/-- The label of a loop is the first place that no word can hold. The loop is the first command that
is not encodable, and it is refused by another name than its own. -/
theorem not_refused_by_own_name :
    ∃ list command, assemble list = .error (.operandOutOfRange "Goto" 0x10000) ∧
      list.get? 0x4001 = some command ∧ command.name = "Loop" ∧ ¬ list.Encodable command ∧
      ∀ earlier ∈ list.commands.take 0x4001, list.Encodable earlier := by
  have hrefused : (farLoop 0x4000).Refuses (.loop ⟨0⟩ 2) (.operandOutOfRange "Goto" 0x10000) :=
    refuses_farLoop (Nat.le_refl _)
  have hencoding := CommandList.encoding_eq_error_iff.mpr hrefused
  have hencodable : ∀ earlier ∈ (farLoop 0x4000).commands.take 0x4001,
      (farLoop 0x4000).Encodable earlier := fun _ ↦ encodable_of_mem_take_farLoop
  refine ⟨farLoop 0x4000, .loop ⟨0⟩ 2, ?_, get?_farLoop 0x4000, rfl, ?_, hencodable⟩
  · exact (assemble_eq_error_iff _ _).mpr ⟨0x4001, ⟨_, get?_farLoop 0x4000, hencoding⟩,
      fun earlier hmem ↦ (CommandList.exists_encoding_iff _ earlier).mpr (hencodable earlier hmem)⟩
  · rw [← CommandList.exists_encoding_iff, hencoding]
    simp

end SpriteBytecode
