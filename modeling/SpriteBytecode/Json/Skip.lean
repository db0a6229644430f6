import SpriteBytecode.Json.Reader

/-!
Skipping a JSON value that nobody reads. It has to be well formed, but may be nested to any depth,
and its texts and numbers need no meaning. A value that can be read is skipped up to where reading
it ends (`skip_of_readValue`).
-/

set_option autoImplicit false
set_option relaxedAutoImplicit false

namespace SpriteBytecode.Json

inductive Bracket where
  | array
  | object
  deriving DecidableEq

/-- What may come next in an array or object. -/
inductive Place where
  | value
  /-- An array has just been opened. -/
  | valueOrEnd
  | name
  /-- An object has just been opened. -/
  | nameOrEnd
  | colon
  /-- A value is complete. -/
  | mark
  deriving DecidableEq

/-- The place behind the start of a value, and the brackets that are open there. -/
def enter (opened : List Bracket) : JsonToken → Option (List Bracket × Place)
  | .arrayStart => some (.array :: opened, .valueOrEnd)
  | .objectStart => some (.object :: opened, .nameOrEnd)
  | .null | .bool _ | .number _ | .text _ => some (opened, .mark)
  | _ => none

/-- The place behind a token, and the brackets that are open there, the innermost first. -/
def follow (opened : List Bracket) (place : Place) (token : JsonToken) :
    Option (List Bracket × Place) :=
  match place, token, opened with
  | .valueOrEnd, .arrayEnd, _ :: outer => some (outer, .mark)
  | .nameOrEnd, .objectEnd, _ :: outer => some (outer, .mark)
  | .value, token, _ | .valueOrEnd, token, _ => enter opened token
  | .name, .text _, _ | .nameOrEnd, .text _, _ => some (opened, .colon)
  | .colon, .colon, _ => some (opened, .value)
  | .mark, .comma, .array :: _ => some (opened, .value)
  | .mark, .comma, .object :: _ => some (opened, .name)
  | .mark, .arrayEnd, .array :: outer => some (outer, .mark)
  | .mark, .objectEnd, .object :: outer => some (outer, .mark)
  | _, _, _ => none

/-- Skips up to the end of a value, where no bracket is open that was opened on the way. -/
def skip (opened : List Bracket) (place : Place) : List JsonToken → Option (List JsonToken)
  | [] => if opened.isEmpty && place == .mark then some [] else none
  | token :: rest =>
    if opened.isEmpty && place == .mark then some (token :: rest)
    else
      match follow opened place token with
      | some (opened, place) => skip opened place rest
      | none => none

theorem skip_cons {opened : List Bracket} {place : Place} (token : JsonToken)
    (rest : List JsonToken) (h : place ≠ .mark) :
    skip opened place (token :: rest) =
      (follow opened place token).bind fun (opened, place) ↦ skip opened place rest := by
  have : (opened.isEmpty && place == Place.mark) = false := by simp [h]
  rw [skip, this]
  cases follow opened place token <;> rfl

theorem skip_mark_cons {bracket : Bracket} {opened : List Bracket} (token : JsonToken)
    (rest : List JsonToken) :
    skip (bracket :: opened) .mark (token :: rest) =
      (follow (bracket :: opened) .mark token).bind fun (opened, place) ↦
        skip opened place rest := by
  rw [skip]
  cases follow (bracket :: opened) .mark token <;> rfl

theorem skip_valueOrEnd {opened : List Bracket} {tokens : List JsonToken}
    (h : ∀ rest, tokens ≠ .arrayEnd :: rest) :
    skip opened .valueOrEnd tokens = skip opened .value tokens := by
  cases tokens with
  | nil => cases opened <;> rfl
  | cons token rest =>
    rw [skip_cons _ _ (by decide), skip_cons _ _ (by decide)]
    cases token with
    | arrayEnd => exact absurd rfl (h rest)
    | _ => rfl

theorem skip_nameOrEnd {opened : List Bracket} {tokens : List JsonToken}
    (h : ∀ rest, tokens ≠ .objectEnd :: rest) :
    skip opened .nameOrEnd tokens = skip opened .name tokens := by
  cases tokens with
  | nil => cases opened <;> rfl
  | cons token rest =>
    rw [skip_cons _ _ (by decide), skip_cons _ _ (by decide)]
    cases token with
    | objectEnd => exact absurd rfl (h rest)
    | _ => rfl

theorem skip_name_text_colon (opened : List Bracket) (written : List Char)
    (rest : List JsonToken) :
    skip opened .name (.text written :: .colon :: rest) = skip opened .value rest := by
  rw [skip_cons _ _ (by decide)]
  change skip opened .colon (.colon :: rest) = _
  rw [skip_cons _ _ (by decide)]
  rfl

/-! ### What is read is skipped -/

/-- Inside any open brackets, a value that is read with this fuel is skipped. -/
def SkipsValue (fuel : Nat) : Prop :=
  ∀ ⦃depth tokens json rest⦄, readValue fuel depth tokens = some (json, rest) →
    ∀ opened, skip opened .value tokens = skip opened .mark rest

/-- The items of an array that are read with this fuel are skipped with the bracket behind them. -/
def SkipsItems (fuel : Nat) : Prop :=
  ∀ ⦃depth tokens items rest⦄, readItems fuel depth tokens = some (items, rest) →
    ∀ opened, skip (.array :: opened) .value tokens = skip opened .mark rest

/-- The members of an object that are read with this fuel are skipped with the brace behind them. -/
def SkipsMembers (fuel : Nat) : Prop :=
  ∀ ⦃depth tokens members rest⦄, readMembers fuel depth tokens = some (members, rest) →
    ∀ opened, skip (.object :: opened) .name tokens = skip opened .mark rest

section Readers

variable {fuel depth : Nat} {tokens rest : List JsonToken} (opened : List Bracket)

theorem skip_of_arrayStart (hitems : SkipsItems fuel) {json : Json}
    (h : readValue (fuel + 1) depth (.arrayStart :: tokens) = some (json, rest)) :
    skip (.array :: opened) .valueOrEnd tokens = skip opened .mark rest := by
  cases depth with
  | zero => simp [readValue] at h
  | succ depth =>
    simp only [readValue] at h
    split at h
    · simp only [Option.some.injEq, Prod.mk.injEq] at h
      obtain ⟨-, rfl⟩ := h
      rw [skip_cons _ _ (by decide)]
      rfl
    · next hne =>
      simp only [Option.map_eq_some_iff, Prod.mk.injEq] at h
      obtain ⟨⟨items, last⟩, hread, -, rfl⟩ := h
      rw [skip_valueOrEnd hne, hitems hread]

theorem skip_of_objectStart (hmembers : SkipsMembers fuel) {json : Json}
    (h : readValue (fuel + 1) depth (.objectStart :: tokens) = some (json, rest)) :
    skip (.object :: opened) .nameOrEnd tokens = skip opened .mark rest := by
  cases depth with
  | zero => simp [readValue] at h
  | succ depth =>
    simp only [readValue] at h
    split at h
    · simp only [Option.some.injEq, Prod.mk.injEq] at h
      obtain ⟨-, rfl⟩ := h
      rw [skip_cons _ _ (by decide)]
      rfl
    · next hne =>
      simp only [Option.map_eq_some_iff, Prod.mk.injEq] at h
      obtain ⟨⟨members, last⟩, hread, -, rfl⟩ := h
      rw [skip_nameOrEnd hne, hmembers hread]

/-- A value is one token, or it opens a bracket. -/
theorem skipsValue_succ (hitems : SkipsItems fuel) (hmembers : SkipsMembers fuel) :
    SkipsValue (fuel + 1) := by
  intro depth tokens json rest h opened
  cases tokens with
  | nil => simp [readValue] at h
  | cons token later =>
    rw [skip_cons _ _ (by decide)]
    cases token with
    | arrayEnd | objectEnd | comma | colon => simp [readValue] at h
    | null | bool =>
      simp only [readValue, Option.some.injEq, Prod.mk.injEq] at h
      obtain ⟨-, rfl⟩ := h
      rfl
    | number | text =>
      simp only [readValue, Option.map_eq_some_iff, Prod.mk.injEq] at h
      obtain ⟨-, -, -, rfl⟩ := h
      rfl
    | arrayStart => exact skip_of_arrayStart opened hitems h
    | objectStart => exact skip_of_objectStart opened hmembers h

/-- Items are a value, and the end of the array or a comma and more items. -/
theorem skipsItems_succ (hvalue : SkipsValue fuel) (hitems : SkipsItems fuel) :
    SkipsItems (fuel + 1) := by
  intro depth tokens items rest h opened
  unfold readItems at h
  split at h
  · next hread =>
    simp only [Option.some.injEq, Prod.mk.injEq] at h
    obtain ⟨-, rfl⟩ := h
    rw [hvalue hread, skip_mark_cons]
    rfl
  · next hread =>
    simp only [Option.map_eq_some_iff, Prod.mk.injEq] at h
    obtain ⟨⟨others, last⟩, hothers, -, rfl⟩ := h
    rw [hvalue hread, skip_mark_cons]
    exact hitems hothers opened
  · cases h

/-- Members are a name and a value, and the end of the object or a comma and more members. -/
theorem skipsMembers_succ (hvalue : SkipsValue fuel) (hmembers : SkipsMembers fuel) :
    SkipsMembers (fuel + 1) := by
  intro depth tokens members rest h opened
  unfold readMembers at h
  split at h
  · rw [skip_name_text_colon]
    split at h
    · next hread =>
      simp only [Option.some.injEq, Prod.mk.injEq] at h
      obtain ⟨-, rfl⟩ := h
      rw [hvalue hread, skip_mark_cons]
      rfl
    · next hread =>
      simp only [Option.map_eq_some_iff, Prod.mk.injEq] at h
      obtain ⟨⟨others, last⟩, hothers, -, rfl⟩ := h
      rw [hvalue hread, skip_mark_cons]
      exact hmembers hothers opened
    · cases h
  · cases h

end Readers

/-- The readers call each other with less fuel, so one induction covers the three of them. -/
theorem skip_of_read (fuel : Nat) : SkipsValue fuel ∧ SkipsItems fuel ∧ SkipsMembers fuel := by
  induction fuel with
  | zero => simp [SkipsValue, SkipsItems, SkipsMembers, readValue, readItems, readMembers]
  | succ fuel ih =>
    obtain ⟨hvalue, hitems, hmembers⟩ := ih
    exact ⟨skipsValue_succ hitems hmembers, skipsItems_succ hvalue hitems,
      skipsMembers_succ hvalue hmembers⟩

/-- A value that can be read is skipped as far as it is read. -/
theorem skip_of_readValue {fuel depth : Nat} {tokens rest : List JsonToken} {json : Json}
    (h : readValue fuel depth tokens = some (json, rest)) :
    skip [] .value tokens = some rest := by
  rw [(skip_of_read fuel).1 h]
  cases rest <;> rfl

end SpriteBytecode.Json
