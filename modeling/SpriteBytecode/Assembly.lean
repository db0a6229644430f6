import SpriteBytecode.Disassembly

/-!
From a command list to a word stream. A jump is encoded with the word offset of its label's last
marker, or with the position that the label's name pins. Beside the words stand label hints, from
which a later disassembly restores the names.
-/

set_option autoImplicit false
set_option relaxedAutoImplicit false

namespace SpriteBytecode

structure Assembled where
  words : List UInt16
  hints : LabelHints
  deriving DecidableEq

/-- Every marker with its word offset, in list order. -/
def markerOffsets (offset : Nat) : List Command → List (LabelId × Nat)
  | [] => []
  | .label id :: rest => (id, offset) :: markerOffsets offset rest
  | command :: rest => markerOffsets (offset + command.wordLen) rest

/-- The offset of the last marker of a label among `markers`. -/
def lastOffset? (markers : List (LabelId × Nat)) (id : LabelId) : Option Nat :=
  (markers.reverse.find? (·.1 == id)).map (·.2)

def noteOffset (offsets : Array (Option Nat)) (marker : LabelId × Nat) : Array (Option Nat) :=
  offsets.setIfInBounds marker.1.index (some marker.2)

/-- Offsets of the last markers by label, for `size` labels. -/
def lastOffsets (size : Nat) (markers : List (LabelId × Nat)) : Array (Option Nat) :=
  markers.foldl noteOffset (Array.replicate size none)

/-- The word position that a jump to a label of this name is encoded with, before its field is
checked; `offset?` is that of the label's last marker. A position beyond any word is reported as
that of a goto. -/
def jumpPosition (name : String) (offset? : Option Nat) : Except BytecodeError UInt16 :=
  match LabelName.unescape? name with
  | some position => .ok position
  | none =>
    match offset? with
    | none => .error (.unresolvedLabel name)
    | some offset =>
      if offset < 0x10000 then .ok (UInt16.ofNat offset)
      else .error (.operandOutOfRange "Goto" (min offset 0x7FFFFFFF : Nat))

/-- The jump position of a label, from those of the arena's labels. -/
def resolveTarget (positions : Array (Except BytecodeError UInt16)) (id : LabelId) :
    Except BytecodeError UInt16 :=
  match positions[id.index]? with
  | none => .error (.unresolvedLabel ("<label " ++ toString id.index ++ ">"))
  | some position => position

/-- The words of one command; a marker has none, whatever its handle. -/
def encodeCommand (positions : Array (Except BytecodeError UInt16)) (command : Command) :
    Except BytecodeError (List UInt16) :=
  if command.isLabel then .ok []
  else
    match command.mapTargetM (resolveTarget positions) with
    | .error error => .error error
    | .ok raw => raw.encode

/-- The words of commands in order, up to the first that cannot be encoded. -/
def encodeCommands (positions : Array (Except BytecodeError UInt16)) :
    List Command → Except BytecodeError (List UInt16)
  | [] => .ok []
  | command :: rest =>
    match encodeCommand positions command with
    | .error error => .error error
    | .ok words => (encodeCommands positions rest).map (words ++ ·)

/-- A name that pins no position. -/
def freeName? (name : String) : Option String :=
  if (LabelName.unescape? name).isNone then some name else none

/-- A marker names its offset if its label is in the arena and its name pins no position. -/
def hintOf? (names : Array (Option String)) (marker : LabelId × Nat) : Option (UInt16 × String) :=
  match names[marker.1.index]? with
  | some (some name) =>
    if marker.2 < 0x10000 then some (UInt16.ofNat marker.2, name) else none
  | _ => none

namespace CommandList

/-- The position that jumps to each label of the arena are encoded with. -/
def jumpPositions (list : CommandList) (markers : List (LabelId × Nat)) :
    Array (Except BytecodeError UInt16) :=
  list.labelNames.toArray.zipWith jumpPosition (lastOffsets list.labelNames.length markers)

/-- Names by offset; a later marker at the same offset wins. The stream's start has a name even
when no marker stands there. -/
def labelHints (list : CommandList) (markers : List (LabelId × Nat)) : LabelHints :=
  let names := list.labelNames.toArray.map freeName?
  (markers.filterMap (hintOf? names)).foldl (fun hints (position, name) ↦
    hints.insert position name) (LabelHints.empty.insert 0 LabelName.start)

end CommandList

def assemble (list : CommandList) : Except BytecodeError Assembled :=
  let markers := markerOffsets 0 list.commands
  (encodeCommands (list.jumpPositions markers) list.commands).map fun words ↦
    { words, hints := list.labelHints markers }

theorem getElem?_foldl_noteOffset (markers : List (LabelId × Nat)) (offsets : Array (Option Nat))
    (id : LabelId) :
    (markers.foldl noteOffset offsets)[id.index]? =
      offsets[id.index]?.map ((lastOffset? markers id).or ·) := by
  induction markers generalizing offsets with
  | nil => simp [lastOffset?]
  | cons marker rest ih =>
    rw [List.foldl_cons, ih, noteOffset, Array.getElem?_setIfInBounds]
    by_cases hid : marker.1 = id
    · subst hid
      by_cases h : marker.1.index < offsets.size <;> simp [lastOffset?, List.find?_append, h]
    · have hne : ¬ marker.1.index = id.index :=
        fun heq ↦ hid (by cases hm : marker.1; cases id; simp_all)
      simp [lastOffset?, List.find?_append, hne, beq_eq_false_iff_ne.mpr hid]

theorem getElem?_lastOffsets (size : Nat) (markers : List (LabelId × Nat)) {id : LabelId}
    (h : id.index < size) :
    (lastOffsets size markers)[id.index]? = some (lastOffset? markers id) := by
  simp [lastOffsets, getElem?_foldl_noteOffset, h]

/-- A jump is encoded with what its label's name pins, or else with the offset of its label's last
marker. -/
theorem resolveTarget_jumpPositions (list : CommandList) (markers : List (LabelId × Nat))
    (id : LabelId) :
    resolveTarget (list.jumpPositions markers) id =
      match list.labelName? id with
      | none => .error (.unresolvedLabel ("<label " ++ toString id.index ++ ">"))
      | some name => jumpPosition name (lastOffset? markers id) := by
  rw [resolveTarget, CommandList.jumpPositions, CommandList.labelName?, Array.getElem?_zipWith,
    List.getElem?_toArray]
  cases h : list.labelNames[id.index]? with
  | none => rfl
  | some name =>
    rw [getElem?_lastOffsets _ _ (List.getElem?_eq_some_iff.mp h).1]

def Assembled.log (list : CommandList) (assembled : Assembled) : List Log.Entry :=
  [⟨.debug, "Assembled " ++ toString list.length ++ " commands into "
    ++ toString assembled.words.length ++ " words (" ++ toString assembled.hints.size
    ++ " named offsets)"⟩]

namespace CommandList

/-- A copy by way of the word stream, so that every label handle is given out afresh. -/
def deepCopy (list : CommandList) : Except BytecodeError CommandList :=
  match assemble list with
  | .error error => .error error
  | .ok assembled => disassemble assembled.words assembled.hints

def deepCopyLog (list : CommandList) : List Log.Entry :=
  match assemble list with
  | .error _ => []
  | .ok assembled =>
    assembled.log list ++
      match Disassembly.ofStream assembled.words assembled.hints with
      | .error _ => []
      | .ok disassembly => disassembly.log assembled.words.length

end CommandList

end SpriteBytecode
