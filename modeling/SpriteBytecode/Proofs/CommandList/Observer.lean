import Mathlib.Data.List.InsertIdx
import SpriteBytecode.CommandList.Edit

/-!
What an observer of a list can know. An observer that keeps a copy of the commands brings the copy
up to date by the changes that it is told of, with a look at the list behind each
(`ListChange.follow?`). Every edit is told as it happened (`told_push` and its siblings), one that
does what it asks for is told once, and one that does not is told of by nothing and leaves the list
alone (`announced_of_on?`). So the copy holds the commands of the list after any edits
(`observer_mirrors_commands`).
-/

set_option autoImplicit false
set_option relaxedAutoImplicit false

namespace SpriteBytecode

/-! ### Following changes -/

/-- The copy of an observer after a change, by a look at the list behind it. There is none if the
change does not fit the copy. -/
def ListChange.follow? (list : CommandList) (copy : List Command) :
    ListChange → Option (List Command)
  | .inserted index =>
    if index ≤ copy.length then (list.get? index).map (copy.insertIdx index ·) else none
  | .removed index => if index < copy.length then some (copy.eraseIdx index) else none
  | .replaced index =>
    if index < copy.length then (list.get? index).map (copy.set index ·) else none
  | .moved source destination =>
    if destination < copy.length then
      copy[source]?.map ((copy.eraseIdx source).insertIdx destination ·)
    else none
  | .renamed _ => some copy
  | .reloaded => some list.commands

/-- Following what an edit tells leads from the commands before it to those behind it. -/
def Edited.Told {α : Type} (before : CommandList) (edited : Edited α) : Prop :=
  edited.change?.toList.foldlM (ListChange.follow? edited.list) before.commands =
    some edited.list.commands

theorem Edited.told_of_change {α : Type} {before : CommandList} {edited : Edited α}
    {change : ListChange} (hchange : edited.change? = some change)
    (hfollow : change.follow? edited.list before.commands = some edited.list.commands) :
    edited.Told before := by
  rw [Told, hchange, Option.toList_some, List.foldlM_cons, hfollow]
  rfl

namespace CommandList

variable (list : CommandList)

theorem told_push (command : Command) : (list.push command).Told list := by
  refine Edited.told_of_change rfl ?_
  rw [ListChange.follow?, get?_push, if_pos rfl]
  exact (if_pos (Nat.le_refl _)).trans (congrArg some List.insertIdx_length_self)

theorem told_insert {index : Nat} {command : Command} {edited : Edited Unit}
    (h : list.insert? index command = some edited) : edited.Told list := by
  have hget := get?_self_of_insert? h
  obtain ⟨hle, rfl⟩ := insert?_eq_some_iff.mp h
  refine Edited.told_of_change rfl ?_
  rw [ListChange.follow?, hget]
  exact if_pos hle

theorem told_remove (index : Nat) : (list.remove index).Told list := by
  unfold remove
  rcases hget : list.get? index with - | command
  · rfl
  · have hlt := (List.getElem?_eq_some_iff.mp hget).1
    exact Edited.told_of_change rfl (if_pos hlt)

theorem told_replace (index : Nat) (command : Command) :
    (list.replace index command).Told list := by
  have hnew := list.get?_replace index index command
  rw [if_pos rfl] at hnew
  unfold replace at hnew ⊢
  rcases hget : list.get? index with - | previous
  · rfl
  · have hlt := (List.getElem?_eq_some_iff.mp hget).1
    rw [hget] at hnew
    refine Edited.told_of_change rfl ?_
    rw [ListChange.follow?, hnew]
    exact if_pos hlt

theorem told_move (source destination : Nat) : (list.move source destination).Told list := by
  rcases hsource : list.get? source with - | command
  · rw [move, hsource]
    rfl
  · by_cases hlt : destination < list.length
    · rw [list.move_eq hsource hlt]
      refine Edited.told_of_change rfl ?_
      have hcopy : list.commands[source]? = some command := hsource
      rw [ListChange.follow?, hcopy]
      exact if_pos hlt
    · rw [move, hsource]
      simp only [if_neg hlt]
      rfl

theorem told_renameLabel (id : LabelId) (name : String) : (list.renameLabel id name).Told list := by
  unfold renameLabel
  split <;> rfl

theorem told_addLabel (name : String) : (list.addLabel name).Told list := rfl

theorem told_reload (other : CommandList) : (list.reload other).Told list := rfl

end CommandList

/-! ### Edits -/

/-- An edit that can be asked of a list. -/
inductive Edit where
  | push (command : Command)
  | insert (index : Nat) (command : Command)
  | remove (index : Nat)
  | replace (index : Nat) (command : Command)
  | move (source destination : Nat)
  | renameLabel (id : LabelId) (name : String)
  | addLabel (name : String)
  | reload (other : CommandList)

def Edited.map {α β : Type} (f : α → β) (edited : Edited α) : Edited β :=
  ⟨edited.list, f edited.outcome, edited.change?⟩

namespace Edit

/-- What the edit makes of a list, and whether it could do what it asks for. Nothing can be made of
an insertion beyond the end. -/
def on? (list : CommandList) : Edit → Option (Edited Bool)
  | push command => some ((list.push command).map fun _ ↦ true)
  | insert index command => (list.insert? index command).map (·.map fun _ ↦ true)
  | remove index => some ((list.remove index).map (·.isSome))
  | replace index command => some ((list.replace index command).map (·.isSome))
  | move source destination => some (list.move source destination)
  | renameLabel id name => some (list.renameLabel id name)
  | addLabel name => some ((list.addLabel name).map fun _ ↦ true)
  | reload other => some ((list.reload other).map fun _ ↦ true)

variable {list : CommandList} {edit : Edit} {edited : Edited Bool}

theorem on?_eq_none_iff :
    edit.on? list = none ↔ ∃ index command, edit = .insert index command ∧ list.length < index := by
  cases edit with
  | insert index command => simp [on?, CommandList.insert?]
  | _ => simp [on?]

/-- Every edit is told as it happened. -/
theorem told_of_on? (h : edit.on? list = some edited) : edited.Told list := by
  cases edit with
  | push command => exact Option.some.inj h ▸ list.told_push command
  | insert index command =>
    obtain ⟨inserted, hinserted, rfl⟩ := Option.map_eq_some_iff.mp h
    exact list.told_insert hinserted
  | remove index => exact Option.some.inj h ▸ list.told_remove index
  | replace index command => exact Option.some.inj h ▸ list.told_replace index command
  | move source destination => exact Option.some.inj h ▸ list.told_move source destination
  | renameLabel id name => exact Option.some.inj h ▸ list.told_renameLabel id name
  | addLabel name => exact Option.some.inj h ▸ list.told_addLabel name
  | reload other => exact Option.some.inj h ▸ list.told_reload other

/-- An edit that can do what it asks for is told, unless it only registers a name, and one that
cannot leaves the list alone and is not told. -/
theorem announced_of_on? (h : edit.on? list = some edited) :
    (edited.outcome = true → (∀ name, edit ≠ .addLabel name) → ∃ change,
      edited.change? = some change) ∧
    (edited.outcome = false → edited.change? = none ∧ edited.list = list) := by
  cases edit with
  | push command | reload other =>
    obtain rfl := Option.some.inj h
    exact ⟨fun _ _ ↦ ⟨_, rfl⟩, fun hfailed ↦ Bool.noConfusion hfailed⟩
  | insert index command =>
    obtain ⟨inserted, hinserted, rfl⟩ := Option.map_eq_some_iff.mp h
    obtain ⟨-, rfl⟩ := CommandList.insert?_eq_some_iff.mp hinserted
    exact ⟨fun _ _ ↦ ⟨_, rfl⟩, fun hfailed ↦ Bool.noConfusion hfailed⟩
  | remove index =>
    obtain rfl := Option.some.inj h
    rcases hget : list.get? index with - | command <;>
      simp [Edited.map, CommandList.remove, hget]
  | replace index command =>
    obtain rfl := Option.some.inj h
    rcases hget : list.get? index with - | previous <;>
      simp [Edited.map, CommandList.replace, hget]
  | move source destination =>
    obtain rfl := Option.some.inj h
    rcases hget : list.get? source with - | command
    · simp [CommandList.move, hget]
    · by_cases hlt : destination < list.length <;> simp [CommandList.move, hget, hlt]
  | renameLabel id name =>
    obtain rfl := Option.some.inj h
    by_cases hlt : id.index < list.labelNames.length <;> simp [CommandList.renameLabel, hlt]
  | addLabel name =>
    obtain rfl := Option.some.inj h
    exact ⟨fun _ hnew ↦ absurd rfl (hnew name), fun hfailed ↦ Bool.noConfusion hfailed⟩

end Edit

/-! ### Watched lists -/

/-- What comes of an edit of a watched list. -/
structure Reply where
  /-- The list behind the edit. -/
  watched : WatchedList
  /-- The edit could do what it asks for. -/
  succeeded : Bool
  /-- The changes that the observer is told of. -/
  seen : List ListChange

/-- The copy of an observer behind an edit. -/
def Reply.follow? (copy : List Command) (reply : Reply) : Option (List Command) :=
  reply.seen.foldlM (ListChange.follow? reply.watched.list) copy

namespace WatchedList

def edit? (watched : WatchedList) (edit : Edit) : Option Reply :=
  (edit.on? watched.list).map fun edited ↦
    ⟨(watched.commit edited).1, edited.outcome, (watched.commit edited).2⟩

/-- What comes of edits one after another. -/
def replies? (watched : WatchedList) : List Edit → Option (List Reply)
  | [] => some []
  | edit :: rest =>
    (watched.edit? edit).bind fun reply ↦ (reply.watched.replies? rest).map (reply :: ·)

variable {watched : WatchedList} {edit : Edit} {reply : Reply}

theorem edit?_eq_none_iff :
    watched.edit? edit = none ↔
      ∃ index command, edit = .insert index command ∧ watched.list.length < index := by
  rw [edit?, Option.map_eq_none_iff, Edit.on?_eq_none_iff]

section Observed

variable (hobserved : watched.observed = true) (h : watched.edit? edit = some reply)

include hobserved h

theorem observed_of_edit? : reply.watched.observed = true := by
  obtain ⟨edited, -, rfl⟩ := Option.map_eq_some_iff.mp h
  exact hobserved

theorem follow?_of_edit? :
    reply.follow? watched.list.commands = some reply.watched.list.commands := by
  obtain ⟨edited, hedited, rfl⟩ := Option.map_eq_some_iff.mp h
  rw [Reply.follow?, commit, if_pos hobserved]
  exact Edit.told_of_on? hedited

theorem seen_of_edit? :
    (reply.succeeded = true → (∀ name, edit ≠ .addLabel name) → ∃ change, reply.seen = [change]) ∧
      (reply.succeeded = false → reply.seen = [] ∧ reply.watched = watched) := by
  obtain ⟨edited, hedited, rfl⟩ := Option.map_eq_some_iff.mp h
  obtain ⟨hdone, hfailed⟩ := Edit.announced_of_on? hedited
  rw [commit, if_pos hobserved]
  constructor
  · intro hsucceeded hnew
    obtain ⟨change, hchange⟩ := hdone hsucceeded hnew
    exact ⟨change, congrArg Option.toList hchange⟩
  · intro hsucceeded
    obtain ⟨hchange, hlist⟩ := hfailed hsucceeded
    exact ⟨congrArg Option.toList hchange, congrArg (WatchedList.mk · watched.observed) hlist⟩

end Observed

/-- The copy of an observer holds the commands behind every edit, and the observer stays. -/
theorem follow?_of_replies? (edits : List Edit) :
    ∀ {watched : WatchedList} {replies : List Reply}, watched.observed = true →
      watched.replies? edits = some replies → ∀ (place : Nat) (reply : Reply),
        replies[place]? = some reply →
          (replies.take (place + 1)).foldlM Reply.follow? watched.list.commands =
              some reply.watched.list.commands ∧
            reply.watched.observed = true := by
  induction edits with
  | nil =>
    intro watched replies _ h place reply hreply
    obtain rfl := Option.some.inj h
    exact absurd hreply (by simp)
  | cons edit rest ih =>
    intro watched replies hobserved h place reply hreply
    obtain ⟨first, hfirst, hrest⟩ := Option.bind_eq_some_iff.mp h
    obtain ⟨later, hlater, rfl⟩ := Option.map_eq_some_iff.mp hrest
    have hstill := observed_of_edit? hobserved hfirst
    rw [List.take_succ_cons, List.foldlM_cons, follow?_of_edit? hobserved hfirst]
    cases place with
    | zero =>
      obtain rfl := Option.some.inj hreply
      exact ⟨rfl, hstill⟩
    | succ place => exact ih hstill hlater place reply hreply

end WatchedList

/-- An observer mirrors its list. Only an insertion beyond the end is impossible. An edit that can
do what it asks for is seen once, unless it only registers a name, and one that cannot is not seen
and leaves commands, names and observer as they were. Behind every one of any edits, a copy that
follows what is seen holds the commands of the list. -/
theorem observer_mirrors_commands {watched : WatchedList} (hobserved : watched.observed = true) :
    (∀ edit, watched.edit? edit = none ↔
      ∃ index command, edit = .insert index command ∧ watched.list.length < index) ∧
    (∀ edit reply, watched.edit? edit = some reply →
      (reply.succeeded = true → (∀ name, edit ≠ .addLabel name) →
        ∃ change, reply.seen = [change]) ∧
      (reply.succeeded = false → reply.seen = [] ∧ reply.watched = watched)) ∧
    ∀ edits replies, watched.replies? edits = some replies → ∀ (place : Nat) (reply : Reply),
      replies[place]? = some reply →
        (replies.take (place + 1)).foldlM Reply.follow? watched.list.commands =
            some reply.watched.list.commands ∧
          reply.watched.observed = true := by
  refine ⟨fun edit ↦ WatchedList.edit?_eq_none_iff, fun edit reply hreply ↦ ?_,
    fun edits replies hreplies ↦ ?_⟩
  · exact WatchedList.seen_of_edit? hobserved hreply
  · exact WatchedList.follow?_of_replies? edits hobserved hreplies

/-- A wait, and an observer. -/
def watchedWait : WatchedList := ⟨⟨[.wait 2], ["Start"]⟩, true⟩

/-- A marker is put in front of the wait, a command that is not there is removed in vain, and the
marker moves behind the wait. -/
theorem observer_mirrors_commands_moved_marker :
    (∃ reply, watchedWait.edit? (.remove 5) = some reply ∧ reply.seen = [] ∧
      reply.watched = watchedWait) ∧
    ∃ replies, watchedWait.replies? [.insert 0 (.label ⟨0⟩), .remove 5, .move 0 1] = some replies ∧
      replies.map (·.seen) = [[.inserted 0], [], [.moved 0 1]] ∧
      (replies.take 3).foldlM Reply.follow? [.wait 2] = some [.wait 2, .label ⟨0⟩] := by
  have hremoved : watchedWait.edit? (.remove 5) = some ⟨watchedWait, false, []⟩ := rfl
  have hreplies : watchedWait.replies? [.insert 0 (.label ⟨0⟩), .remove 5, .move 0 1] =
      some
        [⟨⟨⟨[.label ⟨0⟩, .wait 2], ["Start"]⟩, true⟩, true, [.inserted 0]⟩,
          ⟨⟨⟨[.label ⟨0⟩, .wait 2], ["Start"]⟩, true⟩, false, []⟩,
          ⟨⟨⟨[.wait 2, .label ⟨0⟩], ["Start"]⟩, true⟩, true, [.moved 0 1]⟩] := rfl
  have hobserved : watchedWait.observed = true := rfl
  obtain ⟨-, hseen, hcopy⟩ := observer_mirrors_commands hobserved
  exact ⟨⟨_, hremoved, (hseen _ _ hremoved).2 rfl⟩, _, hreplies, rfl,
    (hcopy _ _ hreplies 2 _ rfl).1⟩

end SpriteBytecode
