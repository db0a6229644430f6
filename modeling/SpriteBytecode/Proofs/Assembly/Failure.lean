import SpriteBytecode.Proofs.Assembly.Encoding

/-!
Why a list does not assemble. Commands are encoded in order, and the first one that cannot be
encoded gives its error to the whole list (`assemble_eq_error_iff`); a list without such a command
assembles (`exists_assemble_iff`). An instruction with its positions filled in is encoded exactly if
every field holds its operand (`Instruction.exists_encode_iff`). A jump is encoded with the position
of its label, if a word can hold it (`CommandList.jumpWord_eq_ok_iff`), and a label of the arena
without a position is reported by its name (`CommandList.jumpWord_of_position?_eq_none`).
-/

set_option autoImplicit false
set_option relaxedAutoImplicit false

namespace SpriteBytecode

theorem map_eq_error_iff {ε α β : Type} (f : α → β) (result : Except ε α) (error : ε) :
    result.map f = .error error ↔ result = .error error := by
  cases result <;> simp [Except.map]

theorem exists_map_eq_ok_iff {ε α β : Type} (f : α → β) (result : Except ε α) :
    (∃ b, result.map f = .ok b) ↔ ∃ a, result = .ok a := by
  cases result <;> simp [Except.map]

theorem not_exists_eq_ok_iff {ε α : Type} (result : Except ε α) :
    (¬ ∃ a, result = .ok a) ↔ ∃ error, result = .error error := by
  cases result <;> simp

/-! ### Fields -/

namespace Instruction

variable {τ υ ε : Type}

/-- The fields of twelve bits hold their operands. Of jump targets it says nothing. -/
def OperandsFit : Instruction τ → Prop
  | wait count => count.toNat < 0x1000
  | setRaster index | setPalette index => -0x800 ≤ index.toInt ∧ index.toInt < 0x800
  | setRotation x _ _ => -0x800 ≤ x.toInt ∧ x.toInt < 0x800
  | _ => True

instance decidableOperandsFit : (i : Instruction τ) → Decidable i.OperandsFit
  | wait _ => inferInstanceAs (Decidable (_ < _))
  | setRaster _ | setPalette _ | setRotation .. => inferInstanceAs (Decidable (_ ∧ _))
  | goto _ | setPosition .. | setScale .. | loop .. | setUnknown _ | setParent _ | setNotify _
  | label _ => isTrue trivial

/-- An instruction is encoded exactly if all its fields hold what they are given. -/
theorem exists_encode_iff (i : RawInstruction) :
    (∃ words, i.encode = .ok words) ↔
      i.OperandsFit ∧ ∀ target, i.jumpTarget? = some target → target.toNat < 0x1000 := by
  cases i with
  | wait count =>
    simp [encode, exists_map_eq_ok_iff, unsignedOperand_eq_ok_iff, OperandsFit, jumpTarget?]
  | goto target | loop target count =>
    simp [encode, exists_map_eq_ok_iff, unsignedOperand_eq_ok_iff, OperandsFit, jumpTarget?]
  | setRaster index | setPalette index | setRotation index y z =>
    simp [encode, exists_map_eq_ok_iff, signedOperand_eq_ok_iff, OperandsFit, jumpTarget?]
  | _ => simp [encode, OperandsFit, jumpTarget?]

theorem operandsFit_mapTarget (f : τ → υ) (i : Instruction τ) :
    (i.mapTarget f).OperandsFit = i.OperandsFit := by
  cases i <;> rfl

theorem operandsFit_of_mapTargetM {f : τ → Except ε υ} {i : Instruction τ} {j : Instruction υ}
    (h : i.mapTargetM f = .ok j) : j.OperandsFit ↔ i.OperandsFit :=
  iff_of_eq (congr_of_mapTargetM OperandsFit operandsFit_mapTarget h)

/-- Only a jump can fail to have its target looked up. -/
theorem mapTargetM_eq_error_iff {f : τ → Except ε υ} {i : Instruction τ}
    (hlabel : i.isLabel = false) (error : ε) :
    i.mapTargetM f = .error error ↔
      ∃ target, i.jumpTarget? = some target ∧ f target = .error error := by
  cases i with
  | goto target | loop target count => simp [mapTargetM, map_eq_error_iff, jumpTarget?]
  | label target => exact absurd hlabel (by simp [isLabel])
  | _ => simp [mapTargetM, jumpTarget?]

end Instruction

/-! ### The first command that cannot be encoded -/

theorem encodeCommands_eq_error_iff (positions : Array (Except BytecodeError UInt16))
    (commands : List Command) (error : BytecodeError) :
    encodeCommands positions commands = .error error ↔
      ∃ index command, commands[index]? = some command ∧
        encodeCommand positions command = .error error ∧
        ∀ earlier ∈ commands.take index, ∃ words, encodeCommand positions earlier = .ok words := by
  induction commands with
  | nil => simp [encodeCommands]
  | cons command rest ih =>
    rw [encodeCommands]
    rcases hhead : encodeCommand positions command with failure | words
    · constructor
      · rintro ⟨⟩
        exact ⟨0, command, rfl, hhead, by simp⟩
      · rintro ⟨index, other, hget, herror, hearlier⟩
        cases index with
        | zero =>
          obtain rfl := Option.some.inj hget
          exact hhead.symm.trans herror
        | succ index =>
          obtain ⟨words, hwords⟩ := hearlier command (by simp)
          exact absurd (hhead.symm.trans hwords) (by simp)
    · show (encodeCommands positions rest).map (words ++ ·) = .error error ↔ _
      rw [map_eq_error_iff, ih]
      constructor
      · rintro ⟨index, other, hget, herror, hearlier⟩
        refine ⟨index + 1, other, hget, herror, ?_⟩
        rw [List.take_succ_cons, List.forall_mem_cons]
        exact ⟨⟨words, hhead⟩, hearlier⟩
      · rintro ⟨index, other, hget, herror, hearlier⟩
        cases index with
        | zero =>
          obtain rfl := Option.some.inj hget
          exact absurd (hhead.symm.trans herror) (by simp)
        | succ index =>
          rw [List.take_succ_cons, List.forall_mem_cons] at hearlier
          exact ⟨index, other, hget, herror, hearlier.2⟩

theorem exists_encodeCommands_iff (positions : Array (Except BytecodeError UInt16))
    (commands : List Command) :
    (∃ words, encodeCommands positions commands = .ok words) ↔
      ∀ command ∈ commands, ∃ words, encodeCommand positions command = .ok words := by
  induction commands with
  | nil => simp [encodeCommands]
  | cons command rest ih =>
    rw [List.forall_mem_cons, ← ih, encodeCommands]
    rcases encodeCommand positions command with failure | words
    · simp
    · simp [exists_map_eq_ok_iff]

/-- What is encoded depends on the positions only as far as its commands do. -/
theorem encodeCommands_congr {positions others : Array (Except BytecodeError UInt16)}
    {commands : List Command}
    (h : ∀ command ∈ commands, encodeCommand others command = encodeCommand positions command) :
    encodeCommands others commands = encodeCommands positions commands := by
  induction commands with
  | nil => rfl
  | cons command rest ih =>
    obtain ⟨hhead, hrest⟩ := List.forall_mem_cons.mp h
    rw [encodeCommands, encodeCommands, hhead, ih hrest]

namespace CommandList

/-- The words of one of the list's commands. -/
def encoding (list : CommandList) (command : Command) : Except BytecodeError (List UInt16) :=
  encodeCommand (list.jumpPositions (markerOffsets 0 list.commands)) command

/-- The command at this index is the first that cannot be encoded, for this reason. -/
structure FailsAt (list : CommandList) (index : Nat) (error : BytecodeError) : Prop where
  refused : ∃ command, list.get? index = some command ∧ list.encoding command = .error error
  earlier : ∀ command ∈ list.commands.take index, ∃ words, list.encoding command = .ok words

end CommandList

/-- A list fails with the error of its first command that cannot be encoded. -/
theorem assemble_eq_error_iff (list : CommandList) (error : BytecodeError) :
    assemble list = .error error ↔ ∃ index, list.FailsAt index error := by
  rw [assemble, map_eq_error_iff, encodeCommands_eq_error_iff]
  constructor
  · rintro ⟨index, command, hget, herror, hearlier⟩
    exact ⟨index, ⟨command, hget, herror⟩, hearlier⟩
  · rintro ⟨index, ⟨command, hget, herror⟩, hearlier⟩
    exact ⟨index, command, hget, herror, hearlier⟩

theorem exists_assemble_iff (list : CommandList) :
    (∃ assembled, assemble list = .ok assembled) ↔
      ∀ command ∈ list.commands, ∃ words, list.encoding command = .ok words := by
  rw [assemble, exists_map_eq_ok_iff, exists_encodeCommands_iff]
  rfl

/-- Lists of the same commands with the same encodings have the same words. -/
theorem map_words_assemble_congr {list other : CommandList}
    (hcommands : other.commands = list.commands)
    (h : ∀ command ∈ list.commands, other.encoding command = list.encoding command) :
    (assemble other).map (·.words) = (assemble list).map (·.words) := by
  have hwords (list : CommandList) : (assemble list).map (·.words) =
      encodeCommands (list.jumpPositions (markerOffsets 0 list.commands)) list.commands := by
    rw [assemble]
    cases encodeCommands _ list.commands <;> rfl
  obtain ⟨commands, names⟩ := list
  obtain ⟨_, otherNames⟩ := other
  subst hcommands
  rw [hwords, hwords]
  exact encodeCommands_congr h

namespace CommandList

variable (list : CommandList)

theorem encoding_of_isLabel {command : Command} (h : command.isLabel = true) :
    list.encoding command = .ok [] := by
  rw [encoding, encodeCommand, if_pos h]

theorem encoding_of_not_label {command : Command} (h : command.isLabel = false) :
    list.encoding command =
      match command.mapTargetM list.jumpWord with
      | .error error => .error error
      | .ok raw => raw.encode := by
  rw [encoding, encodeCommand, h, if_neg Bool.false_ne_true]
  rfl

/-! ### Jumps -/

/-- The word at which the stream has the label: the position that its name pins, or else the offset
of its last marker. -/
def position? (id : LabelId) : Option Nat :=
  (list.labelName? id).bind fun name ↦
    ((LabelName.unescape? name).map UInt16.toNat).or
      (lastOffset? (markerOffsets 0 list.commands) id)

variable {list}

theorem position?_of_labelName? {id : LabelId} {name : String}
    (hname : list.labelName? id = some name) :
    list.position? id =
      ((LabelName.unescape? name).map UInt16.toNat).or
        (lastOffset? (markerOffsets 0 list.commands) id) := by
  rw [position?, hname, Option.bind_some]

/-- A jump is encoded with its label's position, if a word can hold it. -/
theorem jumpWord_eq_ok_iff (id : LabelId) (position : UInt16) :
    list.jumpWord id = .ok position ↔ list.position? id = some position.toNat := by
  rcases hname : list.labelName? id with - | name
  · simp [jumpWord, resolveTarget_jumpPositions, position?, hname]
  · rw [jumpWord_of_labelName? hname, position?_of_labelName? hname]
    rcases hpin : LabelName.unescape? name with - | pinned
    · rw [jumpPosition_eq_ok_iff hpin, Option.map_none, Option.none_or]
    · rw [jumpPosition_of_unescape? hpin, Except.ok.injEq, Option.map_some, Option.some_or,
        Option.some.injEq, UInt16.toNat_inj]

theorem jumpWord_of_position?_lt {id : LabelId} {position : Nat}
    (h : list.position? id = some position) (hlt : position < 0x10000) :
    list.jumpWord id = .ok (UInt16.ofNat position) := by
  rw [jumpWord_eq_ok_iff, h, UInt16.toNat_ofNat_of_lt' hlt]

/-- A label of the arena without a position is reported by its name. -/
theorem jumpWord_of_position?_eq_none {id : LabelId} {name : String}
    (hname : list.labelName? id = some name) (h : list.position? id = none) :
    list.jumpWord id = .error (.unresolvedLabel name) := by
  rw [position?_of_labelName? hname, Option.or_eq_none_iff, Option.map_eq_none_iff] at h
  rw [jumpWord_of_labelName? hname]
  simp only [jumpPosition, h.1, h.2]

end CommandList

end SpriteBytecode
