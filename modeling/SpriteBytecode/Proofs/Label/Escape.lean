import SpriteBytecode.Proofs.Assembly.Encoding
import SpriteBytecode.Proofs.Text.Hexadecimal

/-!
Which names are escapes. A name pins a position exactly if it is a number sign with digits behind it
that make up the position (`unescape?_eq_some_iff`), which are those of its escape, in either case
and behind any number of zeros (`pins_iff_toUpper`). Reading the digits one by one into a word, and
giving up once they do not fit, finds the same positions (`unescapeDigitwise?_eq`), since a row of
digits that is too large stays so whatever follows it (`foldlM_pushDigit?`). The names that pin a
position are also those that fix a jump to it, whatever the commands are (`jumpWord_iff_pins`).
-/

set_option autoImplicit false
set_option relaxedAutoImplicit false

namespace SpriteBytecode

namespace Hexadecimal

/-! ### Words digit by digit -/

/-- The number as a word, if it fits into one. -/
def word? (n : Nat) : Option UInt16 := if n < 0x10000 then some (UInt16.ofNat n) else none

/-- One more digit behind a word, as long as the shifted word and the sum fit. -/
def pushDigit? (word : UInt16) (c : Char) : Option UInt16 :=
  (digitValue? c).bind fun value ↦
    (word? (16 * word.toNat)).bind fun shifted ↦ word? (shifted.toNat + value)

/-- Reads a word digit by digit. A plus sign may stand in front of the digits. -/
def readWord? : List Char → Option UInt16
  | [] => none
  | '+' :: text => if text.isEmpty then none else text.foldlM pushDigit? 0
  | text => text.foldlM pushDigit? 0

theorem word?_of_lt {n : Nat} (h : n < 0x10000) : word? n = some (UInt16.ofNat n) := if_pos h

theorem word?_of_le {n : Nat} (h : 0x10000 ≤ n) : word? n = none := if_neg (Nat.not_lt.mpr h)

theorem word?_eq_some_iff (n : Nat) (word : UInt16) : word? n = some word ↔ n = word.toNat := by
  by_cases hlt : n < 0x10000
  · rw [word?_of_lt hlt, Option.some.injEq, ← UInt16.toNat_inj, UInt16.toNat_ofNat_of_lt' hlt]
  · rw [word?_of_le (Nat.le_of_not_lt hlt)]
    have hword := word.toNat_lt
    simp only [reduceCtorEq, false_iff]
    omega

/-- A digit behind a number gives a larger one, so what does not fit will not fit again. -/
theorem bind_pushDigit? {c : Char} {value : Nat} (h : digitValue? c = some value) (n : Nat) :
    (word? n).bind (pushDigit? · c) = word? (16 * n + value) := by
  by_cases hlt : n < 0x10000
  · have hword : (UInt16.ofNat n).toNat = n := UInt16.toNat_ofNat_of_lt' hlt
    rw [word?_of_lt hlt, Option.bind_some, pushDigit?, h, Option.bind_some, hword]
    by_cases hshifted : 16 * n < 0x10000
    · rw [word?_of_lt hshifted, Option.bind_some, UInt16.toNat_ofNat_of_lt' hshifted]
    · rw [word?_of_le (Nat.le_of_not_lt hshifted), word?_of_le (by omega), Option.bind_none]
  · rw [word?_of_le (Nat.le_of_not_lt hlt), word?_of_le (by omega), Option.bind_none]

/-- The word that is read digit by digit is the number of the row, if that is a word. -/
theorem foldlM_pushDigit? (text : List Char) :
    text.foldlM pushDigit? 0 = (value? text).bind word? := by
  induction text using List.reverseRecOn with
  | nil => rfl
  | append_singleton text c ih =>
    have hlast : (text ++ [c]).foldlM pushDigit? 0 =
        (text.foldlM pushDigit? 0).bind (pushDigit? · c) := by
      simp [List.foldlM_append]
    rw [hlast, ih, value?_concat]
    rcases value? text with - | n
    · rfl
    · rcases hvalue : digitValue? c with - | value
      · simp [pushDigit?, hvalue]
      · exact bind_pushDigit? hvalue n

/-- Digits have no sign in front. -/
theorem readWord?_of_isDigit {text : List Char} (hempty : text ≠ [])
    (hdigits : ∀ c ∈ text, IsDigit c) : readWord? text = (value? text).bind word? := by
  unfold readWord?
  split
  · exact absurd rfl hempty
  · exact absurd (hdigits '+' List.mem_cons_self) (by decide)
  · exact foldlM_pushDigit? text

end Hexadecimal

namespace LabelName

open Hexadecimal

/-! ### Names that pin a position -/

/-- The name is a number sign and behind it digits, at least one, that make up the position. -/
def Pins (name : String) (position : UInt16) : Prop :=
  ∃ text, name.toList = '#' :: text ∧ text ≠ [] ∧ Denotes text position.toNat

theorem unescapeChars?_cons {text : List Char} (hempty : text ≠ []) :
    unescapeChars? ('#' :: text) = (value? text).bind word? := by
  rw [unescapeChars?, if_neg (mt List.isEmpty_iff.mp hempty)]
  rcases value? text with - | n <;> rfl

theorem exists_of_unescapeChars? {chars : List Char} {position : UInt16}
    (h : unescapeChars? chars = some position) : ∃ text, chars = '#' :: text ∧ text ≠ [] := by
  rcases chars with - | ⟨c, text⟩
  · cases h
  · by_cases hsign : c = '#'
    · subst hsign
      refine ⟨text, rfl, ?_⟩
      rintro rfl
      cases h
    · rw [unescapeChars?_cons_of_ne hsign] at h
      cases h

theorem unescape?_eq_some_iff (name : String) (position : UInt16) :
    unescape? name = some position ↔ Pins name position := by
  have hdenotes {text : List Char} (hempty : text ≠ []) :
      unescapeChars? ('#' :: text) = some position ↔ Denotes text position.toNat := by
    simp [unescapeChars?_cons hempty, Option.bind_eq_some_iff, word?_eq_some_iff,
      value?_eq_some_iff]
  constructor
  · intro h
    obtain ⟨text, hname, hempty⟩ := exists_of_unescapeChars? h
    rw [unescape?, hname, hdenotes hempty] at h
    exact ⟨text, hname, hempty, h⟩
  · rintro ⟨text, hname, hempty, h⟩
    rw [unescape?, hname, hdenotes hempty]
    exact h

theorem eq_of_toUpper_eq_sign {c : Char} (h : c.toUpper = '#') : c = '#' := by
  have hcode : c.toUpper.toNat = 35 := congrArg Char.toNat h
  rw [toNat_toUpper] at hcode
  have hc : c.toNat = 35 := by
    split at hcode <;> omega
  rw [← Char.ofNat_toNat c, hc]

/-- The names that pin a position are its escape in either case, with any number of zeros put in. -/
theorem pins_iff_toUpper (name : String) (position : UInt16) :
    Pins name position ↔
      ∃ zeros, name.toUpper =
        "#" ++ String.ofList (List.replicate zeros '0') ++ ofNat position.toNat := by
  have hspelled (zeros : Nat) :
      name.toUpper = "#" ++ String.ofList (List.replicate zeros '0') ++ ofNat position.toNat ↔
        name.toList.map Char.toUpper =
          '#' :: (List.replicate zeros '0' ++ digits position.toNat) := by
    rw [← String.toList_inj, String.toUpper, String.toList_map]
    simp [ofNat]
  simp only [hspelled]
  constructor
  · rintro ⟨text, hname, hempty, hdenotes⟩
    rw [← value?_eq_some_iff, value?_eq_some_iff_toUpper hempty] at hdenotes
    obtain ⟨zeros, htext⟩ := hdenotes
    refine ⟨zeros, ?_⟩
    rw [hname, List.map_cons, htext]
    rfl
  · rintro ⟨zeros, hupper⟩
    obtain ⟨c, text, hname, hsign, htext⟩ := List.map_eq_cons_iff.mp hupper
    obtain rfl := eq_of_toUpper_eq_sign hsign
    have hempty : text ≠ [] := by
      rintro rfl
      simp [digits_ne_nil] at htext
    refine ⟨text, hname, hempty, ?_⟩
    rw [← value?_eq_some_iff, value?_eq_some_iff_toUpper hempty]
    exact ⟨zeros, htext⟩

/-! ### Reading a name digit by digit -/

/-- The position of a name, its digits tested first and then read one by one. -/
def unescapeDigitwise? (name : String) : Option UInt16 :=
  match name.toList with
  | '#' :: text => if text.isEmpty || !text.all (IsDigit ·) then none else readWord? text
  | _ => none

/-- Both readings find the same positions, since no sign gets past the test for digits. -/
theorem unescapeDigitwise?_eq (name : String) : unescapeDigitwise? name = unescape? name := by
  unfold unescapeDigitwise? unescape?
  split
  · next text hname =>
    rw [hname]
    by_cases hempty : text = []
    · rw [hempty]
      rfl
    · rw [unescapeChars?_cons hempty]
      by_cases hdigits : ∀ c ∈ text, IsDigit c
      · rw [if_neg (by simpa [hempty] using hdigits), readWord?_of_isDigit hempty hdigits]
      · have hvalue : value? text = none := by
          rw [← Option.not_isSome_iff_eq_none, isSome_value?_iff]
          exact hdigits
        rw [if_pos (by simpa [hempty] using hdigits), hvalue, Option.bind_none]
  · next hsign =>
    rcases hchars : unescapeChars? name.toList with - | position
    · rfl
    · obtain ⟨text, hname, -⟩ := exists_of_unescapeChars? hchars
      exact absurd hname (hsign text)

example : readWord? "+1".toList = some 1 ∧ unescapeDigitwise? "#+1" = none := by decide +kernel

/-! ### Names and jumps -/

/-- Jumps to a label go to one position in all programs exactly if the label's name pins it. -/
theorem jumpWord_iff_pins (labelNames : List String) (id : LabelId) (position : UInt16) :
    (∀ commands, CommandList.jumpWord ⟨commands, labelNames⟩ id = .ok position) ↔
      ∃ name, labelNames[id.index]? = some name ∧ Pins name position := by
  simp only [← unescape?_eq_some_iff]
  constructor
  · intro h
    obtain ⟨name, hname⟩ := labelName?_of_jumpWord (h [])
    refine ⟨name, hname, ?_⟩
    -- Without a marker there is nothing but the name that could give a position.
    have hunmarked := h []
    rw [jumpWord_of_labelName? hname] at hunmarked
    rcases hpin : unescape? name with - | pinned
    · rw [jumpPosition_eq_ok_iff hpin] at hunmarked
      cases hunmarked
    · rw [jumpPosition_of_unescape? hpin] at hunmarked
      exact congrArg some (Except.ok.inj hunmarked)
  · rintro ⟨name, hname, hpin⟩ commands
    have hlabel : CommandList.labelName? ⟨commands, labelNames⟩ id = some name := hname
    rw [jumpWord_of_labelName? hlabel]
    exact jumpPosition_of_unescape? hpin _

/-- Without a hint, or with an empty one, a position is given a name that pins none. -/
theorem unescape?_ofPosition_of_unhinted {hints : LabelHints} {position : UInt16}
    (h : ∀ name, hints.get? position = some name → name = "") :
    unescape? (ofPosition hints position) = none := by
  rw [unescape?_ofPosition, Option.bind_eq_none_iff]
  intro name hname
  rw [h name hname, unescape?_empty]

/-! ### All names -/

/-- A name pins a position exactly if it is a number sign and at least one digit of base sixteen, in
either case and with any number of zeros in front, whose number is the position. Reading the digits
one by one, up to where they no longer fit into a word, comes to the same. An escape pins what it
was made for, and the name that a position gets without a hint pins nothing. Whatever the commands
are, the jumps to a label go to the position that its name pins, and only such names fix them so. -/
theorem unescape_accepts_iff :
    (∀ name position, unescape? name = some position ↔ Pins name position) ∧
    (∀ name position, Pins name position ↔
      ∃ zeros, name.toUpper =
        "#" ++ String.ofList (List.replicate zeros '0') ++ ofNat position.toNat) ∧
    (∀ name, unescapeDigitwise? name = unescape? name) ∧
    (∀ position, unescape? (escape position) = some position) ∧
    (∀ hints position, (∀ name, hints.get? position = some name → name = "") →
      unescape? (ofPosition hints position) = none) ∧
    ∀ labelNames id position,
      (∀ commands, CommandList.jumpWord ⟨commands, labelNames⟩ id = .ok position) ↔
        ∃ name, labelNames[id.index]? = some name ∧ Pins name position := by
  refine ⟨unescape?_eq_some_iff, pins_iff_toUpper, unescapeDigitwise?_eq, unescape?_escape, ?_,
    jumpWord_iff_pins⟩
  intro hints position hunhinted
  exact unescape?_ofPosition_of_unhinted hunhinted

/-- Zeros in front and letters of both cases, and a position with an empty hint. -/
theorem unescape_accepts_iff_leading_zeros :
    unescape? "#000fF" = some 255 ∧
      (∀ name, (LabelHints.mk [(255, "")]).get? 255 = some name → name = "") ∧
      unescape? (ofPosition ⟨[(255, "")]⟩ 255) = none := by
  obtain ⟨hpins, hupper, -, -, hfree, -⟩ := unescape_accepts_iff
  have hspelled : "#000fF".toUpper =
      "#" ++ String.ofList (List.replicate 3 '0') ++ ofNat (255 : UInt16).toNat := by
    decide +kernel
  have hunhinted (name : String) (h : (LabelHints.mk [(255, "")]).get? 255 = some name) :
      name = "" :=
    (Option.some.inj h).symm
  refine ⟨?_, hunhinted, hfree _ _ hunhinted⟩
  exact (hpins _ _).mpr ((hupper _ _).mpr ⟨3, hspelled⟩)

end LabelName

end SpriteBytecode
