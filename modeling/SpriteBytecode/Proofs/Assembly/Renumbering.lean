import SpriteBytecode.Proofs.Assembly.Encoding
import SpriteBytecode.Proofs.Assembly.Hints
import SpriteBytecode.Proofs.CommandList.Renumbering

/-!
Renumbered lists assemble alike. A jump resolves to the same position or the same error
(`Renumbers.jumpWord_eq`), and a marker leaves the same hint (`Renumbers.hintEntries_eq`), so that
words and hints are the same, or the error (`Renumbers.assemble_eq`).
-/

set_option autoImplicit false
set_option relaxedAutoImplicit false

namespace SpriteBytecode

theorem Instruction.mapTargetM_mapTarget_congr {τ υ ω ε : Type} {f : τ → υ} {g : υ → Except ε ω}
    {k : τ → Except ε ω} {i : Instruction τ} (hlabel : i.isLabel = false)
    (h : ∀ target, i.jumpTarget? = some target → g (f target) = k target) :
    (i.mapTarget f).mapTargetM g = i.mapTargetM k := by
  cases i with
  | goto target => rw [mapTarget, mapTargetM, mapTargetM, h target rfl]
  | loop target count => rw [mapTarget, mapTargetM, mapTargetM, h target rfl]
  | label target => exact absurd hlabel (by simp [isLabel])
  | _ => rfl

namespace Renumbers

variable {list other : CommandList} {f : LabelId → LabelId} (h : Renumbers list other f)

include h

theorem jumpWord_eq {id : LabelId} (hid : list.Refers id) :
    other.jumpWord (f id) = list.jumpWord id := by
  obtain ⟨name, hname, hother⟩ := h.names id hid
  rw [jumpWord_of_labelName? hname, jumpWord_of_labelName? hother, h.lastOffset?_eq hid]

theorem encodeCommand_eq {command : Command} (hcommand : command ∈ list.commands) :
    encodeCommand (other.jumpPositions (markerOffsets 0 other.commands)) (command.mapTarget f) =
      encodeCommand (list.jumpPositions (markerOffsets 0 list.commands)) command := by
  rw [encodeCommand, encodeCommand, Instruction.isLabel_mapTarget]
  rcases hlabel : command.isLabel with - | -
  · have hraw : (command.mapTarget f).mapTargetM other.jumpWord =
        command.mapTargetM list.jumpWord :=
      Instruction.mapTargetM_mapTarget_congr hlabel fun target htarget ↦
        h.jumpWord_eq (CommandList.refers_of_jump hcommand htarget)
    unfold CommandList.jumpWord at hraw
    rw [hraw]
  · rfl

theorem encodeCommands_eq {commands : List Command}
    (hcommands : ∀ command ∈ commands, command ∈ list.commands) :
    encodeCommands (other.jumpPositions (markerOffsets 0 other.commands))
        (commands.map (·.mapTarget f)) =
      encodeCommands (list.jumpPositions (markerOffsets 0 list.commands)) commands := by
  induction commands with
  | nil => rfl
  | cons command rest ih =>
    rw [List.map_cons, encodeCommands, encodeCommands,
      h.encodeCommand_eq (hcommands _ List.mem_cons_self),
      ih fun later hlater ↦ hcommands later (List.mem_cons_of_mem _ hlater)]

theorem hintEntries_eq :
    other.hintEntries (markerOffsets 0 other.commands) =
      list.hintEntries (markerOffsets 0 list.commands) := by
  rw [h.commands, markerOffsets_map, CommandList.hintEntries, List.filterMap_map,
    CommandList.hintEntries]
  refine List.filterMap_congr fun marker hmarker ↦ ?_
  have hid := CommandList.refers_of_mem_labels (CommandList.mem_labels_of_mem_markerOffsets hmarker)
  ext ⟨position, name⟩
  rw [Function.comp_apply, CommandList.hintOf?_eq_some_iff, CommandList.hintOf?_eq_some_iff,
    CommandList.Names, CommandList.Names, Prod.map_fst, Prod.map_snd, h.labelName?_eq hid, id_eq]

/-- Renumbered lists assemble to the same words and hints, or fail with the same error. -/
theorem assemble_eq : assemble other = assemble list := by
  have hwords := h.encodeCommands_eq fun _ hcommand ↦ hcommand
  rw [← h.commands] at hwords
  have hhints : other.labelHints (markerOffsets 0 other.commands) =
      list.labelHints (markerOffsets 0 list.commands) :=
    congrArg (List.foldl _ (LabelHints.empty.insert 0 LabelName.start)) h.hintEntries_eq
  rw [assemble, hwords, hhints, assemble]

end Renumbers

end SpriteBytecode
