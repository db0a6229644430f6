import SpriteBytecode.CommandList.Basic
import SpriteBytecode.Playback.State

/-!
Static timing of a command list. A walk visits the commands in the order in which playback would
run them, with the same loop counter, until it ends or starts to repeat itself. Its annotations
give every wait and goto that was visited the elapsed time of its last visit.
-/

set_option autoImplicit false
set_option relaxedAutoImplicit false

namespace SpriteBytecode

/-- Why a walk stopped. -/
inductive Termination where
  | empty
  | endOfList
  /-- A command was reached again with no loop active. -/
  | steadyState
  /-- A jump's label has no marker. -/
  | missingLabel
  | iterationCap
  deriving DecidableEq

def Termination.name : Termination → String
  | empty => "Empty"
  | endOfList => "EndOfList"
  | steadyState => "SteadyState"
  | missingLabel => "MissingLabel"
  | iterationCap => "IterationCap"

/-- A visited command, with the elapsed time and the loop counter before it. -/
structure Visit where
  position : Nat
  time : Nat
  repeats : Option Int
  deriving DecidableEq

structure Walk where
  visits : List Visit
  total : Nat
  termination : Termination
  deriving DecidableEq

namespace Timing

/-- Where the walk goes after a visit, and the elapsed time and loop counter there; `place?` tells
where labels stand. -/
@[inline] def follow (place? : LabelId → Option Nat) (command : Command) (visit : Visit) :
    Option Visit :=
  match command with
  | .loop target count =>
    match place? target with
    | none => none
    | some destination =>
      match nextRepeats visit.repeats count with
      | some remaining => some ⟨destination, visit.time, some remaining⟩
      | none => some ⟨visit.position + 1, visit.time, none⟩
  | .goto target =>
    match place? target with
    | none => none
    | some destination => some ⟨destination, visit.time, visit.repeats⟩
  | .wait count =>
    some ⟨visit.position + 1, elapse visit.time (if count = 0 then maxWait else count),
      visit.repeats⟩
  | _ => some ⟨visit.position + 1, visit.time, visit.repeats⟩

/-- Walks on from `here`; `visited` holds the visits so far, the last one first. The cap counts
visits, and the end of the list is no visit. -/
def walkFrom (list : CommandList) (cap : Nat) (here : Visit) (visited : List Visit) : Walk :=
  match list.get? here.position with
  | none => ⟨visited.reverse, here.time, .endOfList⟩
  | some command =>
    match cap with
    | 0 => ⟨visited.reverse, here.time, .iterationCap⟩
    | cap + 1 =>
      if here.repeats.isNone && visited.any (·.position == here.position) then
        ⟨visited.reverse, here.time, .steadyState⟩
      else
        match follow list.findLabel? command here with
        | none => ⟨(here :: visited).reverse, here.time, .missingLabel⟩
        | some there => walkFrom list cap there (here :: visited)

/-- Where every walk begins. -/
def start : Visit := ⟨0, 0, none⟩

def walk (list : CommandList) (cap : Nat) : Walk :=
  if list.commands.isEmpty then ⟨[], 0, .empty⟩ else walkFrom list cap start []

/-- Waits are annotated, and gotos whose label has a marker. -/
@[inline] def annotates (place? : LabelId → Option Nat) : Command → Bool
  | .wait _ => true
  | .goto target => (place? target).isSome
  | _ => false

def isAnnotated (list : CommandList) (visit : Visit) : Bool :=
  (list.get? visit.position).any (annotates list.findLabel?)

/-- The elapsed time of the last visit of every annotated command, by list index. -/
def annotations (list : CommandList) (visits : List Visit) : List (Option Nat) :=
  (visits.filter (isAnnotated list)).foldl
    (fun times visit ↦ times.set visit.position (some visit.time))
    (List.replicate list.length none)

theorem annotations_concat (list : CommandList) (visits : List Visit) (visit : Visit) :
    annotations list (visits ++ [visit]) =
      if isAnnotated list visit then
        (annotations list visits).set visit.position (some visit.time)
      else annotations list visits := by
  unfold annotations
  rw [List.filter_append, List.foldl_append]
  cases h : isAnnotated list visit <;> simp [h]

theorem length_foldl_set (visits : List Visit) (times : List (Option Nat)) :
    (visits.foldl (fun times visit ↦ times.set visit.position (some visit.time)) times).length =
      times.length := by
  induction visits generalizing times with
  | nil => rfl
  | cons visit rest ih => simp [ih]

theorem length_annotations (list : CommandList) (visits : List Visit) :
    (annotations list visits).length = list.length := by
  rw [annotations, length_foldl_set, List.length_replicate]

end Timing

end SpriteBytecode
