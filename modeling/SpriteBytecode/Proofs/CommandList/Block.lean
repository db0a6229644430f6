import Mathlib.Algebra.Ring.Nat
import Mathlib.Data.List.Nodup
import SpriteBytecode.Proofs.CommandList.Place

/-!
Lists made of blocks: stretches without jumps, and loops around such a stretch. A block says how
often its commands run and how long they take together; the tour of the blocks is the order in which
their commands run, by list index, and it passes every command as often as its block says
(`count_tour`).
-/

set_option autoImplicit false
set_option relaxedAutoImplicit false

namespace SpriteBytecode

/-- How long a command takes. -/
def Instruction.duration {τ : Type} (command : Instruction τ) : Nat :=
  (command.effectiveWait?.map UInt16.toNat).getD 0

inductive Block where
  | plain (body : List Command)
  /-- A label, commands, and a loop back to the label. -/
  | repeated (label : LabelId) (body : List Command) (count : Int16)

namespace Block

def commands : Block → List Command
  | plain body => body
  | repeated label body count => .label label :: (body ++ [.loop label count])

def body : Block → List Command
  | plain body | repeated _ body _ => body

def label? : Block → Option LabelId
  | plain _ => none
  | repeated label _ _ => some label

/-- How often the commands of the block run: a loop jumps back at least once. -/
def passes : Block → Nat
  | plain _ => 1
  | repeated _ _ count => 1 + (max 1 count.toInt).toNat

/-- How long one pass takes. -/
def duration (block : Block) : Nat := (block.commands.map Instruction.duration).sum

end Block

/-- The list consists of these blocks. Their bodies do not jump, and the labels of their loops stand
once in the list. -/
structure CommandList.MadeOf (list : CommandList) (blocks : List Block) : Prop where
  commands : list.commands = blocks.flatMap Block.commands
  straight : ∀ block ∈ blocks, ∀ command ∈ block.body, command.jumpTarget? = none
  once : ∀ block ∈ blocks, ∀ label ∈ block.label?, list.commands.count (.label label) = 1

/-- How many commands the blocks have. -/
def Block.size (blocks : List Block) : Nat := (blocks.flatMap Block.commands).length

/-- How long the blocks take, each as often as it runs. -/
def Block.playTime (blocks : List Block) : Nat :=
  (blocks.map fun block ↦ block.passes * block.duration).sum

/-- The list indices of the commands of the blocks, the first of them at `start`, in the order in
which they run. -/
def Block.tour (start : Nat) : List Block → List Nat
  | [] => []
  | block :: rest =>
    (List.replicate block.passes (List.range' start block.commands.length)).flatten ++
      tour (start + block.commands.length) rest

namespace Block

theorem size_cons (block : Block) (rest : List Block) :
    size (block :: rest) = block.commands.length + size rest := by
  rw [size, List.flatMap_cons, List.length_append]
  rfl

theorem size_append (front back : List Block) : size (front ++ back) = size front + size back := by
  rw [size, List.flatMap_append, List.length_append]
  rfl

theorem tour_append (start : Nat) (front back : List Block) :
    tour start (front ++ back) = tour start front ++ tour (start + size front) back := by
  induction front generalizing start with
  | nil => rfl
  | cons block rest ih =>
    rw [List.cons_append, tour, ih, tour, List.append_assoc, size_cons, Nat.add_assoc]

theorem mem_flatten_replicate_range' {passes start length index : Nat}
    (h : index ∈ (List.replicate passes (List.range' start length)).flatten) :
    start ≤ index ∧ index < start + length := by
  obtain ⟨indices, hindices, hmem⟩ := List.mem_flatten.mp h
  rw [List.eq_of_mem_replicate hindices] at hmem
  exact List.mem_range'_1.mp hmem

/-- A tour stays within its blocks. -/
theorem mem_tour {start index : Nat} {blocks : List Block} (h : index ∈ tour start blocks) :
    start ≤ index ∧ index < start + size blocks := by
  induction blocks generalizing start with
  | nil => exact absurd h List.not_mem_nil
  | cons block rest ih =>
    rw [size_cons]
    rcases List.mem_append.mp h with hfirst | hlater
    · have := mem_flatten_replicate_range' hfirst
      omega
    · have := ih hlater
      omega

theorem count_flatten_replicate_range' {passes start length place : Nat} (h : place < length) :
    (List.replicate passes (List.range' start length)).flatten.count (start + place) = passes := by
  have hone : (List.range' start length).count (start + place) = 1 :=
    List.count_eq_one_of_mem List.nodup_range' (List.mem_range'_1.mpr (by omega))
  rw [List.count_flatten, List.map_replicate, hone, List.sum_replicate_nat, Nat.mul_one]

/-- A tour passes every command as often as its block says. -/
theorem count_tour (front : List Block) (block : Block) (back : List Block) {place : Nat}
    (h : place < block.commands.length) :
    (tour 0 (front ++ block :: back)).count (size front + place) = block.passes := by
  have hfront : (tour 0 front).count (size front + place) = 0 :=
    List.count_eq_zero_of_not_mem fun hmem ↦ by
      have := mem_tour hmem
      omega
  have hback : (tour (size front + block.commands.length) back).count (size front + place) = 0 :=
    List.count_eq_zero_of_not_mem fun hmem ↦ by
      have := mem_tour hmem
      omega
  rw [tour_append, tour, Nat.zero_add, List.count_append, List.count_append, hfront, hback,
    count_flatten_replicate_range' h, Nat.zero_add, Nat.add_zero]

end Block

end SpriteBytecode
