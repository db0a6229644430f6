import SpriteBytecode.Proofs.Assembly.Destination
import SpriteBytecode.Proofs.Assembly.Failure

/-!
When a list can be assembled. An instruction is encodable if its twelve-bit fields hold its operands
and a jump's label has a position of twelve bits: the one that its name pins, or else the offset of
its last marker (`CommandList.Encodable`). That decides each command on its own
(`CommandList.exists_encoding_iff`), so that a list assembles exactly if all its instructions are
encodable, whatever its markers are (`assembles_iff_encodable`).
-/

set_option autoImplicit false
set_option relaxedAutoImplicit false

namespace SpriteBytecode

namespace CommandList

/-- A jump to the label can be written. The label is in the arena, and its name pins a position of
twelve bits, or pins none and the label's last marker stands at an offset of twelve bits. -/
def Reaches (list : CommandList) (id : LabelId) : Prop :=
  ∃ name, list.labelName? id = some name ∧
    ((∃ position, LabelName.unescape? name = some position ∧ position.toNat ≤ 0xFFF) ∨
      LabelName.unescape? name = none ∧ ∃ last offset, IsLastMarker list.commands id last ∧
        list.wordOffset? last = some offset ∧ offset ≤ 0xFFF)

/-- The command fits into words: its own operands do, and so does the position it jumps to. -/
structure Encodable (list : CommandList) (command : Command) : Prop where
  operands : command.OperandsFit
  target : ∀ id, command.jumpTarget? = some id → list.Reaches id

variable (list : CommandList)

theorem wordOffset?_of_isLastMarker {list : CommandList} {id : LabelId} {last : Nat}
    (h : IsLastMarker list.commands id last) :
    list.wordOffset? last = some (wordsBefore list.commands last) :=
  wordOffset?_of_get? h.1

theorem reaches_iff (id : LabelId) :
    list.Reaches id ↔ ∃ position, list.position? id = some position ∧ position < 0x1000 := by
  rcases hname : list.labelName? id with - | name
  · simp [Reaches, position?, hname]
  · rcases hpin : LabelName.unescape? name with - | pinned
    · simp only [Reaches, position?, hname, hpin, Option.some.injEq, Option.bind_some,
        Option.map_none, Option.none_or, lastOffset?_eq_some_iff]
      constructor
      · rintro ⟨_, rfl, ⟨_, hpinned, -⟩ | ⟨-, last, offset, hlast, hoffset, hle⟩⟩
        · simp [hpin] at hpinned
        · rw [wordOffset?_of_isLastMarker hlast] at hoffset
          exact ⟨offset, ⟨last, hlast, Option.some.inj hoffset⟩, Nat.lt_succ_of_le hle⟩
      · rintro ⟨_, ⟨last, hlast, rfl⟩, hlt⟩
        exact ⟨name, rfl, Or.inr ⟨hpin, last, _, hlast, wordOffset?_of_isLastMarker hlast,
          Nat.le_of_lt_succ hlt⟩⟩
    · simp [Reaches, position?, hname, hpin, Nat.lt_succ_iff]

theorem reaches_iff_jumpWord (id : LabelId) :
    list.Reaches id ↔ ∃ target, list.jumpWord id = .ok target ∧ target.toNat < 0x1000 := by
  rw [reaches_iff]
  constructor
  · rintro ⟨position, hposition, hlt⟩
    have hword : position < 0x10000 := Nat.lt_trans hlt (by decide)
    refine ⟨UInt16.ofNat position, jumpWord_of_position?_lt hposition hword, ?_⟩
    rwa [UInt16.toNat_ofNat_of_lt' hword]
  · rintro ⟨target, hword, hlt⟩
    exact ⟨target.toNat, (jumpWord_eq_ok_iff id target).mp hword, hlt⟩

/-- A marker is always encodable, whatever its handle. -/
theorem encodable_label (id : LabelId) : list.Encodable (.label id) :=
  ⟨trivial, fun _ h ↦ absurd h (by simp [Instruction.jumpTarget?])⟩

/-- A command is encoded exactly if it is encodable. -/
theorem exists_encoding_iff (command : Command) :
    (∃ words, list.encoding command = .ok words) ↔ list.Encodable command := by
  rcases hlabel : command.isLabel with - | -
  · rw [list.encoding_of_not_label hlabel]
    rcases hraw : command.mapTargetM list.jumpWord with error | raw
    · obtain ⟨id, hjump, hword⟩ := (Instruction.mapTargetM_eq_error_iff hlabel error).mp hraw
      refine iff_of_false (by simp) fun hencodable ↦ ?_
      obtain ⟨target, htarget, -⟩ := (list.reaches_iff_jumpWord id).mp (hencodable.target id hjump)
      exact absurd (hword.symm.trans htarget) (by simp)
    · refine (Instruction.exists_encode_iff raw).trans ?_
      rw [Instruction.operandsFit_of_mapTargetM hraw]
      have hjumps := Instruction.jumpTarget?_of_mapTargetM hraw
      constructor
      · rintro ⟨hoperands, htargets⟩
        refine ⟨hoperands, fun id hjump ↦ (list.reaches_iff_jumpWord id).mpr ?_⟩
        obtain ⟨target, hword⟩ := Instruction.exists_of_mapTargetM hraw hjump
        exact ⟨target, hword, htargets target ((hjumps target).mpr ⟨id, hjump, hword⟩)⟩
      · rintro ⟨hoperands, hreaches⟩
        refine ⟨hoperands, fun target htarget ↦ ?_⟩
        obtain ⟨id, hjump, hword⟩ := (hjumps target).mp htarget
        obtain ⟨found, hfound, hlt⟩ := (list.reaches_iff_jumpWord id).mp (hreaches id hjump)
        rwa [Except.ok.inj (hword.symm.trans hfound)]
  · obtain ⟨id, rfl⟩ := eq_label_of_isLabel hlabel
    exact iff_of_true ⟨[], list.encoding_of_isLabel rfl⟩ (list.encodable_label id)

end CommandList

/-- A list assembles exactly if all its instructions are encodable. A marker is never what it fails
at, whatever its handle. -/
theorem assembles_iff_encodable (list : CommandList) :
    ((∃ assembled, assemble list = .ok assembled) ↔
      ∀ command ∈ list.commands, command.isLabel = false → list.Encodable command) ∧
    ∀ index id error, list.get? index = some (.label id) → ¬ list.FailsAt index error := by
  constructor
  · rw [exists_assemble_iff]
    refine forall₂_congr fun command hmem ↦ ?_
    rw [list.exists_encoding_iff]
    refine ⟨fun hencodable _ ↦ hencodable, fun hinstruction ↦ ?_⟩
    rcases hlabel : command.isLabel with - | -
    · exact hinstruction hlabel
    · obtain ⟨id, rfl⟩ := eq_label_of_isLabel hlabel
      exact list.encodable_label id
  · rintro index id error hget ⟨⟨command, hcommand, hrefused⟩, -⟩
    obtain rfl := Option.some.inj (hget.symm.trans hcommand)
    exact absurd ((list.encoding_of_isLabel rfl).symm.trans hrefused) (by simp)

/-- A marker of no label in the arena, a label that pins its position, and one that is placed
twice. -/
def foreignMarker : CommandList :=
  ⟨[.label ⟨7⟩, .wait 0xFFF, .goto ⟨0⟩, .label ⟨1⟩, .setRaster (-2048), .loop ⟨1⟩ 2, .label ⟨1⟩],
    ["#fff", "Here"]⟩

theorem assembles_iff_encodable_foreign_marker :
    foreignMarker.Encodable (.loop ⟨1⟩ 2) ∧ ∀ error, ¬ foreignMarker.FailsAt 0 error := by
  have hassembled : assemble foreignMarker =
      .ok ⟨[0x0FFF, 0x2FFF, 0x1800, 0x7005, 0x0002], ⟨[(0, "Start"), (2, "Here"), (5, "Here")]⟩⟩ := by
    decide +kernel
  obtain ⟨hiff, hmarkers⟩ := assembles_iff_encodable foreignMarker
  have hloop : .loop ⟨1⟩ 2 ∈ foreignMarker.commands := by decide
  exact ⟨hiff.mp ⟨_, hassembled⟩ (.loop ⟨1⟩ 2) hloop rfl, fun error ↦ hmarkers 0 ⟨7⟩ error rfl⟩

end SpriteBytecode
