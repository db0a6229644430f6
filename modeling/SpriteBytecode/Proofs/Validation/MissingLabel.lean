import SpriteBytecode.Proofs.Assembly.Failure
import SpriteBytecode.Proofs.CommandList.Place
import SpriteBytecode.Proofs.CommandList.Renumbering
import SpriteBytecode.Proofs.Validation.Report

/-!
Missing labels, as assembly and the report on a list see them. The report goes by markers alone
(`findLabel?_eq_none_iff`), assembly first by the position that a name pins
(`CommandList.position?_eq_none_iff`). A list that only a label can keep from being assembled
(`CommandList.Fits`) therefore fails for want of a label exactly if the report has a missing label
whose name pins nothing (`unresolved_iff_reported_unpinned`). The condition on the name cannot be
dropped (`not_unresolved_iff_reported`).
-/

set_option autoImplicit false
set_option relaxedAutoImplicit false

namespace SpriteBytecode

theorem findLabel?_eq_none_iff {list : CommandList} {id : LabelId} :
    list.findLabel? id = none ↔ lastOffset? (markerOffsets 0 list.commands) id = none := by
  rw [← not_iff_not, ← ne_eq, ← ne_eq, Option.ne_none_iff_exists', Option.ne_none_iff_exists']
  constructor
  · rintro ⟨place, hplace⟩
    exact exists_lastOffset?_of_mem (mem_markerOffsets_of_findLabel? hplace)
  · rintro ⟨offset, hoffset⟩
    exact exists_findLabel?_of_mem (mem_of_lastOffset? hoffset)

namespace CommandList

/-- Every field holds its operand, those of jumps the positions of their labels. Only a label
without a position can keep such a list from being assembled. -/
structure Fits (list : CommandList) : Prop where
  operands : ∀ command ∈ list.commands, command.OperandsFit
  targets : ∀ command ∈ list.commands, ∀ id, command.jumpTarget? = some id →
    ∀ position, list.position? id = some position → position < 0x1000

variable {list : CommandList}

theorem exists_labelName?_of_lt {id : LabelId} (h : id.index < list.labelNames.length) :
    ∃ name, list.labelName? id = some name :=
  ⟨list.labelNames[id.index], List.getElem?_eq_getElem h⟩

/-- A label has no position if its name pins none and it has no marker. -/
theorem position?_eq_none_iff {id : LabelId} {name : String}
    (hname : list.labelName? id = some name) :
    list.position? id = none ↔ LabelName.unescape? name = none ∧ list.findLabel? id = none := by
  rw [position?_of_labelName? hname, Option.or_eq_none_iff, Option.map_eq_none_iff,
    findLabel?_eq_none_iff]

/-- The command jumps to a label of this name, and the label has no position. -/
def Misses (list : CommandList) (command : Command) (name : String) : Prop :=
  ∃ id, command.jumpTarget? = some id ∧ list.labelName? id = some name ∧ list.position? id = none

theorem Misses.encoding_eq {command : Command} {name : String} (h : list.Misses command name) :
    list.encoding command = .error (.unresolvedLabel name) := by
  obtain ⟨id, hjump, hname, hnone⟩ := h
  have hlabel := not_isLabel_of_jumpTarget? hjump
  have herror : command.mapTargetM list.jumpWord = .error (.unresolvedLabel name) :=
    (Instruction.mapTargetM_eq_error_iff hlabel _).mpr
      ⟨id, hjump, jumpWord_of_position?_eq_none hname hnone⟩
  rw [list.encoding_of_not_label hlabel, herror]

section Own

variable (hown : ∀ id, list.Refers id → id.index < list.labelNames.length)

include hown

/-- In a list that fits, a command that cannot be encoded misses a label. -/
theorem Fits.misses_of_encoding_eq_error (hfits : list.Fits) {command : Command}
    (hmem : command ∈ list.commands) {error : BytecodeError}
    (h : list.encoding command = .error error) :
    ∃ name, list.Misses command name ∧ error = .unresolvedLabel name := by
  have hlabel : command.isLabel = false := by
    by_contra hlabel
    rw [list.encoding_of_isLabel (by simpa using hlabel)] at h
    cases h
  rw [list.encoding_of_not_label hlabel] at h
  split at h
  · next failure hfailure =>
    cases h
    obtain ⟨id, hjump, hword⟩ := (Instruction.mapTargetM_eq_error_iff hlabel _).mp hfailure
    obtain ⟨name, hname⟩ := exists_labelName?_of_lt (hown id (refers_of_jump hmem hjump))
    rcases hposition : list.position? id with - | position
    · rw [jumpWord_of_position?_eq_none hname hposition] at hword
      exact ⟨name, ⟨id, hjump, hname, hposition⟩, (Except.error.inj hword).symm⟩
    · have hlt : position < 0x10000 :=
        Nat.lt_trans (hfits.targets command hmem id hjump position hposition) (by decide)
      exact absurd (hword.symm.trans (jumpWord_of_position?_lt hposition hlt)) (by simp)
  · next raw hraw =>
    have hencodable : ∃ words, raw.encode = .ok words := by
      refine (Instruction.exists_encode_iff raw).mpr ⟨?_, ?_⟩
      · exact (Instruction.operandsFit_of_mapTargetM hraw).mpr (hfits.operands command hmem)
      · intro target htarget
        obtain ⟨id, hjump, hword⟩ := (Instruction.jumpTarget?_of_mapTargetM hraw target).mp htarget
        exact hfits.targets command hmem id hjump _ ((jumpWord_eq_ok_iff id target).mp hword)
    exact absurd hencodable ((not_exists_eq_ok_iff _).mpr ⟨error, h⟩)

theorem Fits.unresolved_iff_misses (hfits : list.Fits) :
    (∃ name, assemble list = .error (.unresolvedLabel name)) ↔
      ∃ command ∈ list.commands, ∃ name, list.Misses command name := by
  constructor
  · rintro ⟨_, herror⟩
    obtain ⟨index, ⟨command, hget, hrefused⟩, -⟩ := (assemble_eq_error_iff list _).mp herror
    have hmem : command ∈ list.commands := List.mem_of_getElem? hget
    obtain ⟨name, hmisses, -⟩ := hfits.misses_of_encoding_eq_error hown hmem hrefused
    exact ⟨command, hmem, name, hmisses⟩
  · rintro ⟨command, hmem, name, hmisses⟩
    have hfailed : ¬ ∃ assembled, assemble list = .ok assembled := by
      rw [exists_assemble_iff]
      intro hall
      obtain ⟨words, hwords⟩ := hall command hmem
      exact absurd (hmisses.encoding_eq.symm.trans hwords) (by simp)
    obtain ⟨error, herror⟩ := (not_exists_eq_ok_iff _).mp hfailed
    -- The error is that of the first command without an encoding, which need not be this one.
    obtain ⟨_, ⟨first, hget, hrefused⟩, -⟩ := (assemble_eq_error_iff list error).mp herror
    obtain ⟨missing, -, rfl⟩ :=
      hfits.misses_of_encoding_eq_error hown (List.mem_of_getElem? hget) hrefused
    exact ⟨missing, herror⟩

theorem reported_unpinned_iff_misses (assets : Assets) (owner : Option Nat) :
    (∃ diagnostic ∈ list.validate assets owner, ∃ name,
        diagnostic.problem = .missingLabel name ∧ LabelName.unescape? name = none) ↔
      ∃ command ∈ list.commands, ∃ name, list.Misses command name := by
  constructor
  · rintro ⟨diagnostic, hdiagnostic, name, hproblem, hpin⟩
    obtain ⟨command, hget, hcommand⟩ := (list.mem_validate_iff assets owner _).mp hdiagnostic
    have hmem : command ∈ list.commands := List.mem_of_getElem? hget
    rw [hproblem] at hcommand
    obtain ⟨id, hjump, hfind, hnamed⟩ :=
      (list.problem?_eq_missingLabel_iff assets owner _ command name).mp hcommand
    obtain ⟨own, hname⟩ := exists_labelName?_of_lt (hown id (refers_of_jump hmem hjump))
    obtain rfl : own = name := by rwa [hname, Option.getD_some] at hnamed
    exact ⟨command, hmem, own, id, hjump, hname, (position?_eq_none_iff hname).mpr ⟨hpin, hfind⟩⟩
  · rintro ⟨command, hmem, name, id, hjump, hname, hposition⟩
    obtain ⟨index, hget⟩ := List.getElem?_of_mem hmem
    obtain ⟨hpin, hfind⟩ := (position?_eq_none_iff hname).mp hposition
    refine ⟨⟨index, .missingLabel name⟩, ?_, name, rfl, hpin⟩
    refine (list.mem_validate_iff assets owner _).mpr ⟨command, hget, ?_⟩
    exact (list.problem?_eq_missingLabel_iff assets owner index command name).mpr
      ⟨id, hjump, hfind, by rw [hname, Option.getD_some]⟩

end Own

end CommandList

/-- A list that only a label can keep from being assembled fails to resolve one exactly if the
report has a missing label whose name pins no position. -/
theorem unresolved_iff_reported_unpinned {list : CommandList}
    (hown : ∀ id, list.Refers id → id.index < list.labelNames.length) (hfits : list.Fits)
    (assets : Assets) (owner : Option Nat) :
    (∃ name, assemble list = .error (.unresolvedLabel name)) ↔
      ∃ diagnostic ∈ list.validate assets owner, ∃ name,
        diagnostic.problem = .missingLabel name ∧ LabelName.unescape? name = none := by
  rw [hfits.unresolved_iff_misses hown, CommandList.reported_unpinned_iff_misses hown]

/-- Two labels without markers, one of them named as an escape. -/
def goneLabels : CommandList := ⟨[.goto ⟨0⟩, .loop ⟨1⟩ 3], ["#1", "Gone"]⟩

/-- The other one stops the assembly, and is reported. -/
theorem unresolved_iff_reported_unpinned_gone :
    ∃ diagnostic ∈ goneLabels.validate (Assets.anonymous 0 0 0) none,
      ∃ name, diagnostic.problem = .missingLabel name ∧ LabelName.unescape? name = none := by
  have hown : ∀ id, goneLabels.Refers id → id.index < 2 := by
    rintro id ⟨command, hmem, hid⟩
    rcases List.mem_pair.mp hmem with rfl | rfl <;> cases hid <;> decide
  have hfits : goneLabels.Fits := by
    refine ⟨by decide, ?_⟩
    rintro command hmem id hjump position hposition
    rcases List.mem_pair.mp hmem with rfl | rfl <;> cases hjump
    · obtain rfl : 1 = position := Option.some.inj hposition
      decide
    · cases (hposition : none = some position)
  exact (unresolved_iff_reported_unpinned hown hfits _ _).mp ⟨"Gone", by decide +kernel⟩

/-- A goto to a label without a marker whose name is an escape. -/
def pinnedGoto : CommandList := ⟨[.goto ⟨0⟩], ["#0"]⟩

/-- The label is reported missing, and the goto is encoded with the position of the name. -/
theorem not_unresolved_iff_reported :
    ¬ ∀ (list : CommandList) (assets : Assets) (owner : Option Nat),
      (∀ id, list.Refers id → id.index < list.labelNames.length) → list.Fits →
      ((∃ name, assemble list = .error (.unresolvedLabel name)) ↔
        ∃ diagnostic ∈ list.validate assets owner, ∃ name,
          diagnostic.problem = .missingLabel name) := by
  intro h
  have hown : ∀ id, pinnedGoto.Refers id → id.index < 1 := by
    rintro id ⟨command, hmem, hid⟩
    obtain rfl := List.mem_singleton.mp hmem
    cases hid
    decide
  have hfits : pinnedGoto.Fits := by
    refine ⟨by decide, ?_⟩
    rintro command hmem id hjump position hposition
    obtain rfl := List.mem_singleton.mp hmem
    cases hjump
    obtain rfl : 0 = position := Option.some.inj hposition
    decide
  have hreported : ⟨0, .missingLabel "#0"⟩ ∈
      pinnedGoto.validate (Assets.anonymous 0 0 0) none := by decide +kernel
  have hassembled : assemble pinnedGoto = .ok ⟨[0x2000], ⟨[(0, "Start")]⟩⟩ := by decide +kernel
  obtain ⟨name, herror⟩ := (h _ (Assets.anonymous 0 0 0) none hown hfits).mpr
    ⟨_, hreported, "#0", rfl⟩
  exact absurd (hassembled.symm.trans herror) (by simp)

end SpriteBytecode
