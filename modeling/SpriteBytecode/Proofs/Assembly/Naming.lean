import SpriteBytecode.Proofs.Assembly.Failure
import SpriteBytecode.Proofs.Disassembly.RoundTrip

/-!
What names of labels decide. A list's words depend on a label's name only by the position that it
pins, if it pins one. Two lists with the same commands whose names pin alike (`PinsAlike`) resolve a
jump alike, unless neither has a place for its label, and then each reports it by its own name
(`PinsAlike.jumpWord_eq_or_missing`). What one of them can encode, both encode as the same words
(`PinsAlike.encoding_of_ok`), and where one fails the other does, too (`PinsAlike.failAlike`). In
the other direction, hints name labels and decide nothing else of the disassembled list.
-/

set_option autoImplicit false
set_option relaxedAutoImplicit false

namespace SpriteBytecode

/-- The same commands, with names that pin the same positions or none. -/
structure PinsAlike (list other : CommandList) : Prop where
  commands : other.commands = list.commands
  pins : other.labelNames.map LabelName.unescape? = list.labelNames.map LabelName.unescape?

/-- Each list reports the label as missing, by the name it has for it. -/
structure BothMiss (list other : CommandList) (id : LabelId) (error otherError : BytecodeError) :
    Prop where
  here : ∃ name, list.labelName? id = some name ∧ error = .unresolvedLabel name
  there : ∃ name, other.labelName? id = some name ∧ otherError = .unresolvedLabel name

/-- Both lists stop at this command, for the same reason or for want of the label that it jumps
to. -/
structure FailAlike (list other : CommandList) (index : Nat) (error otherError : BytecodeError) :
    Prop where
  here : list.FailsAt index error
  there : other.FailsAt index otherError
  reason : otherError = error ∨ ∃ command id, list.get? index = some command ∧
    command.jumpTarget? = some id ∧ BothMiss list other id error otherError

namespace PinsAlike

variable {list other : CommandList} (h : PinsAlike list other)

include h

theorem unescape?_labelName? (id : LabelId) :
    (other.labelName? id).map LabelName.unescape? =
      (list.labelName? id).map LabelName.unescape? := by
  have hpins := congrArg (·[id.index]?) h.pins
  rwa [List.getElem?_map, List.getElem?_map] at hpins

/-- A jump resolves alike, unless both lists have no place for its label. -/
theorem jumpWord_eq_or_missing (id : LabelId) :
    other.jumpWord id = list.jumpWord id ∨
      ∃ error otherError, list.jumpWord id = .error error ∧
        other.jumpWord id = .error otherError ∧ BothMiss list other id error otherError := by
  have hpins := h.unescape?_labelName? id
  rcases hname : list.labelName? id with - | name
  · -- The message for a stray handle shows its number, which both lists share.
    have hother : other.labelName? id = none := by simpa [hname] using hpins
    refine Or.inl ?_
    simp only [CommandList.jumpWord, resolveTarget_jumpPositions, hname, hother]
  · rw [hname, Option.map_some, Option.map_eq_some_iff] at hpins
    obtain ⟨otherName, hother, hpin⟩ := hpins
    rw [jumpWord_of_labelName? hname, jumpWord_of_labelName? hother, h.commands]
    rcases hposition : LabelName.unescape? name with - | position
    · rcases lastOffset? (markerOffsets 0 list.commands) id with - | offset
      · refine Or.inr ⟨.unresolvedLabel name, .unresolvedLabel otherName, ?_, ?_,
          ⟨name, hname, rfl⟩, otherName, hother, rfl⟩
        · simp only [jumpPosition, hposition]
        · simp only [jumpPosition, hpin, hposition]
      · exact Or.inl (by simp only [jumpPosition, hpin, hposition])
    · exact Or.inl ((jumpPosition_of_unescape? (hpin.trans hposition) _).trans
        (jumpPosition_of_unescape? hposition _).symm)

theorem encoding_eq_or_missing (command : Command) :
    other.encoding command = list.encoding command ∨
      ∃ id error otherError, command.jumpTarget? = some id ∧
        list.encoding command = .error error ∧ other.encoding command = .error otherError ∧
        BothMiss list other id error otherError := by
  rcases hlabel : command.isLabel with - | -
  · have hencoding (list : CommandList) := list.encoding_of_not_label hlabel
    cases command with
    | goto id | loop id count =>
      rw [hencoding, hencoding, Instruction.mapTargetM, Instruction.mapTargetM]
      rcases h.jumpWord_eq_or_missing id with heq | ⟨error, otherError, herror, hother, hmiss⟩
      · exact Or.inl (by rw [heq])
      · rw [herror, hother]
        exact Or.inr ⟨id, error, otherError, rfl, rfl, rfl, hmiss⟩
    | label id => exact absurd hlabel (by simp [Instruction.isLabel])
    | _ => exact Or.inl (by rw [hencoding, hencoding]; rfl)
  · rw [list.encoding_of_isLabel hlabel, other.encoding_of_isLabel hlabel]
    exact Or.inl rfl

/-- What one list can encode, both encode as the same words. -/
theorem encoding_of_ok {command : Command} {words : List UInt16}
    (hok : list.encoding command = .ok words) : other.encoding command = .ok words := by
  rcases h.encoding_eq_or_missing command with heq | ⟨_, error, _, -, herror, -, -⟩
  · rw [heq, hok]
  · exact absurd (hok.symm.trans herror) (by simp)

theorem failAlike {index : Nat} {error : BytecodeError} (hfails : list.FailsAt index error) :
    ∃ otherError, FailAlike list other index error otherError := by
  obtain ⟨command, hget, herror⟩ := hfails.refused
  have hother : other.get? index = some command := by
    rw [CommandList.get?, h.commands]
    exact hget
  have hearlier : ∀ command ∈ other.commands.take index,
      ∃ words, other.encoding command = .ok words := by
    rw [h.commands]
    intro earlier hmem
    obtain ⟨words, hwords⟩ := hfails.earlier earlier hmem
    exact ⟨words, h.encoding_of_ok hwords⟩
  rcases h.encoding_eq_or_missing command with
    heq | ⟨id, failure, otherError, hjump, hfailure, hotherError, hmiss⟩
  · exact ⟨error, hfails, ⟨⟨command, hother, heq.trans herror⟩, hearlier⟩, Or.inl rfl⟩
  · obtain rfl := Except.error.inj (hfailure.symm.trans herror)
    exact ⟨otherError, hfails, ⟨⟨command, hother, hotherError⟩, hearlier⟩,
      Or.inr ⟨command, id, hget, hjump, hmiss⟩⟩

/-- Lists whose names pin alike assemble to the same words or fail alike. -/
theorem assemble_alike :
    (∃ assembled otherAssembled, assemble list = .ok assembled ∧
        assemble other = .ok otherAssembled ∧ otherAssembled.words = assembled.words) ∨
      ∃ index error otherError, assemble list = .error error ∧
        assemble other = .error otherError ∧ FailAlike list other index error otherError := by
  rcases hassemble : assemble list with error | assembled
  · obtain ⟨index, hfails⟩ := (assemble_eq_error_iff list error).mp hassemble
    obtain ⟨otherError, halike⟩ := h.failAlike hfails
    exact Or.inr ⟨index, error, otherError, rfl,
      (assemble_eq_error_iff other otherError).mpr ⟨index, halike.there⟩, halike⟩
  · have hencodable := (exists_assemble_iff list).mp ⟨assembled, hassemble⟩
    have hwords := map_words_assemble_congr h.commands fun command hcommand ↦ by
      obtain ⟨words, hok⟩ := hencodable command hcommand
      rw [h.encoding_of_ok hok, hok]
    rw [hassemble] at hwords
    obtain ⟨otherAssembled, hother, hsame⟩ := (map_eq_ok_iff _ _ _).mp hwords
    exact Or.inl ⟨assembled, otherAssembled, rfl, hother, hsame⟩

end PinsAlike

/-- Under all hints a stream disassembles to the same commands, or fails alike. -/
theorem disassemble_alike (words : List UInt16) (hints others : LabelHints) :
    (∃ error, disassemble words hints = .error error ∧ disassemble words others = .error error) ∨
      ∃ list other, disassemble words hints = .ok list ∧ disassemble words others = .ok other ∧
        other.commands = list.commands ∧ other.labelNames.length = list.labelNames.length := by
  rcases hdecode : decodeStream 0 words with error | instructions
  · have hfails (hints : LabelHints) : disassemble words hints = .error error := by
      rw [disassemble, Disassembly.ofStream, hdecode]
      rfl
    exact Or.inl ⟨error, hfails hints, hfails others⟩
  · have hspells := (decodeStream_eq_ok_iff 0 words instructions).mp hdecode
    have hlabels := hspells.isLabel_eq_false
    refine Or.inr ⟨_, _, (disassemble_eq_ok_iff words hints _).mpr ⟨instructions, hspells, rfl⟩,
      (disassemble_eq_ok_iff words others _).mpr ⟨instructions, hspells, rfl⟩, ?_, ?_⟩
    · rw [commands_ofInstructions, commands_ofInstructions]
    · rw [labelNames_ofInstructions hlabels, labelNames_ofInstructions hlabels, List.length_map,
        List.length_map]

/-- Names of labels matter only as the positions they pin. Disassembly, which takes names from its
hints, gives the same commands under all of them. Assembly gives the same words or stops at the same
command, for the same reason up to the name of a missing label. -/
theorem names_matter_only_as_pins :
    (∀ (words : List UInt16) (hints others : LabelHints),
      (∃ error, disassemble words hints = .error error ∧ disassemble words others = .error error) ∨
        ∃ list other, disassemble words hints = .ok list ∧ disassemble words others = .ok other ∧
          other.commands = list.commands ∧ other.labelNames.length = list.labelNames.length) ∧
    ∀ list other : CommandList, PinsAlike list other →
      (∃ assembled otherAssembled, assemble list = .ok assembled ∧
          assemble other = .ok otherAssembled ∧ otherAssembled.words = assembled.words) ∨
        ∃ index error otherError, assemble list = .error error ∧
          assemble other = .error otherError ∧ FailAlike list other index error otherError :=
  ⟨disassemble_alike, fun _ _ hpins ↦ hpins.assemble_alike⟩

/-- A wait, and jumps to a label with a marker and to one without, under these names. -/
def jumpingAway (names : List String) : CommandList :=
  ⟨[.label ⟨0⟩, .wait 2, .goto ⟨0⟩, .loop ⟨1⟩ 3], names⟩

/-- Labels renamed: both lists stop at the jump to the label without a marker. -/
theorem names_matter_only_as_pins_renamed :
    ∃ index, FailAlike (jumpingAway ["Idle", "Gone"]) (jumpingAway ["Walk", "Lost"]) index
      (.unresolvedLabel "Gone") (.unresolvedLabel "Lost") := by
  have hlist : assemble (jumpingAway ["Idle", "Gone"]) = .error (.unresolvedLabel "Gone") := by
    decide +kernel
  have hother : assemble (jumpingAway ["Walk", "Lost"]) = .error (.unresolvedLabel "Lost") := by
    decide +kernel
  rcases names_matter_only_as_pins.2 (jumpingAway ["Idle", "Gone"]) (jumpingAway ["Walk", "Lost"])
      ⟨rfl, by decide⟩ with
    ⟨_, _, hassembled, -, -⟩ | ⟨index, error, otherError, herror, hotherError, halike⟩
  · exact absurd (hlist.symm.trans hassembled) (by simp)
  · obtain rfl := Except.error.inj (hlist.symm.trans herror)
    obtain rfl := Except.error.inj (hother.symm.trans hotherError)
    exact ⟨index, halike⟩

end SpriteBytecode
