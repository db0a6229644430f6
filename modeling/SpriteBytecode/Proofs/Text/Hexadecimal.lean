import Mathlib.Data.List.Forall2
import Mathlib.Data.List.Induction
import Mathlib.Data.Nat.Digits.Defs
import Mathlib.Tactic.Ring
import SpriteBytecode.Text.Hexadecimal

/-!
Digits of base sixteen and rows of them. A digit is the character that is written for its value, or
the small letter of that (`eq_digit_of_digitValue?`), so that its case has no say in its value
(`digitValue?_toUpper`). A row stands for a number exactly if all of it are digits
(`isSome_value?_iff`), which is the sum of their values by place (`value?_eq_some_iff`), and what is
written for that number, at the length of the row, is the row in capital letters
(`leftpad_of_value?`). So the rows for a number are its digits, written in either case behind any
number of zeros (`value?_eq_some_iff_toUpper`).
-/

set_option autoImplicit false
set_option relaxedAutoImplicit false

namespace SpriteBytecode.Hexadecimal

/-! ### Digits -/

/-- A digit of base sixteen, its letter of either case. -/
def IsDigit (c : Char) : Prop := '0' ≤ c ∧ c ≤ '9' ∨ 'A' ≤ c ∧ c ≤ 'F' ∨ 'a' ≤ c ∧ c ≤ 'f'

instance decidableIsDigit (c : Char) : Decidable (IsDigit c) :=
  inferInstanceAs (Decidable (_ ∨ _ ∨ _))

/-- Values by code point. -/
theorem digitValue?_eq (c : Char) :
    digitValue? c =
      if 48 ≤ c.toNat ∧ c.toNat ≤ 57 then some (c.toNat - 48)
      else if 65 ≤ c.toNat ∧ c.toNat ≤ 70 then some (c.toNat - 55)
      else if 97 ≤ c.toNat ∧ c.toNat ≤ 102 then some (c.toNat - 87)
      else none := rfl

theorem isDigit_iff_toNat (c : Char) :
    IsDigit c ↔ 48 ≤ c.toNat ∧ c.toNat ≤ 57 ∨ 65 ≤ c.toNat ∧ c.toNat ≤ 70 ∨
      97 ≤ c.toNat ∧ c.toNat ≤ 102 := Iff.rfl

theorem toNat_lt_of_isDigit {c : Char} (h : IsDigit c) : c.toNat < 128 := by
  rw [isDigit_iff_toNat] at h
  omega

theorem isSome_digitValue?_iff (c : Char) : (digitValue? c).isSome = true ↔ IsDigit c := by
  rw [digitValue?_eq, isDigit_iff_toNat]
  grind

theorem toNat_toUpper (c : Char) :
    c.toUpper.toNat = if 97 ≤ c.toNat ∧ c.toNat ≤ 122 then c.toNat - 32 else c.toNat := by
  have hsmall : ('a'.val ≤ c.val ∧ c.val ≤ 'z'.val) ↔ 97 ≤ c.toNat ∧ c.toNat ≤ 122 := Iff.rfl
  unfold Char.toUpper
  by_cases h : 97 ≤ c.toNat ∧ c.toNat ≤ 122
  · rw [dif_pos (hsmall.mpr h), if_pos h]
    show (c.val + ('A'.val - 'a'.val)).toNat = _
    rw [UInt32.toNat_add]
    show (c.toNat + 4294967264) % 4294967296 = _
    omega
  · rw [dif_neg (mt hsmall.mp h), if_neg h]

theorem digitValue?_toUpper (c : Char) : digitValue? c.toUpper = digitValue? c := by
  rw [digitValue?_eq, digitValue?_eq, toNat_toUpper]
  grind

/-- A digit is what is written for its value, or the small letter of that. -/
theorem eq_digit_of_digitValue? {c : Char} {value : Nat} (h : digitValue? c = some value) :
    value < 16 ∧ (c = digit value ∨ c = (digit value).toLower) := by
  have hsmall : ∀ n : Fin 16, 10 ≤ n.val → (digit n.val).toLower = Char.ofNat (87 + n.val) := by
    decide
  have hchar := Char.ofNat_toNat c
  rw [digitValue?_eq] at h
  split at h
  · have hvalue : c.toNat = 48 + value := by grind
    refine ⟨by omega, Or.inl ?_⟩
    rw [digit, if_pos (by omega), ← hvalue, hchar]
  · split at h
    · have hvalue : c.toNat = 55 + value := by grind
      refine ⟨by omega, Or.inl ?_⟩
      rw [digit, if_neg (by omega), ← hvalue, hchar]
    · split at h
      · have hvalue : c.toNat = 87 + value := by grind
        have hlt : value < 16 := by omega
        refine ⟨hlt, Or.inr ?_⟩
        rw [hsmall ⟨value, hlt⟩ (show 10 ≤ value by omega), ← hvalue, hchar]
      · exact absurd h (by simp)

theorem toUpper_of_digitValue? {c : Char} {value : Nat} (h : digitValue? c = some value) :
    c.toUpper = digit value := by
  have hupper : ∀ n : Fin 16,
      (digit n.val).toUpper = digit n.val ∧ (digit n.val).toLower.toUpper = digit n.val := by
    decide
  obtain ⟨hlt, rfl | rfl⟩ := eq_digit_of_digitValue? h
  · exact (hupper ⟨value, hlt⟩).1
  · exact (hupper ⟨value, hlt⟩).2

/-- The character is the digit of this value, a letter in either case. -/
def IsDigitOf (c : Char) (value : Nat) : Prop :=
  "0123456789ABCDEF".toList[value]? = some c ∨ "0123456789abcdef".toList[value]? = some c

theorem isDigitOf_iff (c : Char) (value : Nat) :
    IsDigitOf c value ↔ value < 16 ∧ (c = digit value ∨ c = (digit value).toLower) := by
  have htable : ∀ n : Fin 16, "0123456789ABCDEF".toList[n.val]? = some (digit n.val) ∧
      "0123456789abcdef".toList[n.val]? = some (digit n.val).toLower := by decide
  have hlength : "0123456789ABCDEF".toList.length = 16 ∧ "0123456789abcdef".toList.length = 16 := by
    decide
  unfold IsDigitOf
  by_cases hlt : value < 16
  · obtain ⟨hcapital, hsmall⟩ := htable ⟨value, hlt⟩
    rw [hcapital, hsmall, Option.some.injEq, Option.some.injEq, eq_comm, eq_comm (b := c)]
    simp [hlt]
  · have hbeyond : 16 ≤ value := Nat.le_of_not_lt hlt
    rw [List.getElem?_eq_none (hlength.1 ▸ hbeyond), List.getElem?_eq_none (hlength.2 ▸ hbeyond)]
    simp [hlt]

theorem digitValue?_eq_some_iff (c : Char) (value : Nat) :
    digitValue? c = some value ↔ IsDigitOf c value := by
  have hlower : ∀ n : Fin 16, digitValue? (digit n.val).toLower = some n.val := by decide
  rw [isDigitOf_iff]
  constructor
  · exact eq_digit_of_digitValue?
  · rintro ⟨hlt, rfl | rfl⟩
    · exact digitValue?_digit hlt
    · exact hlower ⟨value, hlt⟩

/-! ### Rows of digits -/

theorem value?_nil : value? [] = some 0 := rfl

theorem value?_singleton (c : Char) : value? [c] = digitValue? c := by
  simp [value?]

theorem value?_concat_eq_some_iff (text : List Char) (c : Char) (n : Nat) :
    value? (text ++ [c]) = some n ↔
      ∃ front last, value? text = some front ∧ digitValue? c = some last ∧
        16 * front + last = n := by
  simp [value?_concat, Option.bind_eq_some_iff]

theorem isSome_value?_iff (text : List Char) :
    (value? text).isSome = true ↔ ∀ c ∈ text, IsDigit c := by
  induction text using List.reverseRecOn with
  | nil => simp [value?_nil]
  | append_singleton text c ih =>
    rw [List.forall_mem_append, List.forall_mem_singleton, ← ih, ← isSome_digitValue?_iff,
      value?_concat]
    rcases value? text with - | front
    · simp
    · simp

theorem value?_lt {text : List Char} {n : Nat} (h : value? text = some n) :
    n < 16 ^ text.length := by
  induction text using List.reverseRecOn generalizing n with
  | nil =>
    obtain rfl := Option.some.inj h
    exact Nat.one_pos
  | append_singleton text c ih =>
    obtain ⟨front, last, hfront, hlast, rfl⟩ := (value?_concat_eq_some_iff _ _ _).mp h
    have hlt := (eq_digit_of_digitValue? hlast).1
    have hle := ih hfront
    rw [List.length_append, List.length_singleton, Nat.pow_succ]
    omega

theorem value?_map_toUpper (text : List Char) : value? (text.map Char.toUpper) = value? text := by
  simp only [value?, List.foldlM_map, digitValue?_toUpper]

/-- Digits in front count for more. -/
theorem value?_append (front back : List Char) :
    value? (front ++ back) =
      (value? front).bind fun high ↦ (value? back).map (16 ^ back.length * high + ·) := by
  induction back using List.reverseRecOn with
  | nil => simp [value?_nil]
  | append_singleton back c ih =>
    rw [← List.append_assoc, value?_concat, value?_concat, ih]
    rcases value? front with - | high
    · rfl
    · rcases value? back with - | low
      · rfl
      · rcases digitValue? c with - | last
        · rfl
        · simp only [Option.bind_some, Option.map_some, Option.some.injEq, List.length_append,
            List.length_singleton, Nat.pow_succ]
          ring

/-- The row consists of the digits of these values, whose sum by place is the number. -/
def Denotes (text : List Char) (n : Nat) : Prop :=
  ∃ values, List.Forall₂ IsDigitOf text values ∧ Nat.ofDigits 16 values.reverse = n

/-- A row stands for the sum of its digits by place. -/
theorem value?_eq_some_iff (text : List Char) (n : Nat) : value? text = some n ↔ Denotes text n := by
  induction text generalizing n with
  | nil =>
    rw [value?_nil, Option.some.injEq]
    constructor
    · rintro rfl
      exact ⟨[], List.Forall₂.nil, rfl⟩
    · rintro ⟨values, hvalues, hn⟩
      rw [List.forall₂_nil_left_iff.mp hvalues] at hn
      exact hn
  | cons c rest ih =>
    have hcons : value? (c :: rest) =
        (digitValue? c).bind fun high ↦ (value? rest).map (16 ^ rest.length * high + ·) := by
      rw [← value?_singleton, ← value?_append]
      rfl
    rw [hcons, Option.bind_eq_some_iff]
    constructor
    · rintro ⟨high, hhigh, hmap⟩
      obtain ⟨low, hlow, rfl⟩ := Option.map_eq_some_iff.mp hmap
      obtain ⟨values, hvalues, rfl⟩ := (ih low).mp hlow
      refine ⟨high :: values, .cons ((digitValue?_eq_some_iff c high).mp hhigh) hvalues, ?_⟩
      rw [List.reverse_cons, Nat.ofDigits_append, Nat.ofDigits_singleton, List.length_reverse,
        hvalues.length_eq, Nat.add_comm]
    · rintro ⟨values, hvalues, rfl⟩
      obtain ⟨high, lows, hhigh, hlows, rfl⟩ := List.forall₂_cons_left_iff.mp hvalues
      refine ⟨high, (digitValue?_eq_some_iff c high).mpr hhigh, ?_⟩
      rw [(ih _).mpr ⟨lows, hlows, rfl⟩, Option.map_some, List.reverse_cons, Nat.ofDigits_append,
        Nat.ofDigits_singleton, List.length_reverse, hlows.length_eq, Nat.add_comm]

/-- Zeros in front do not count. -/
theorem value?_zeros_append (zeros : Nat) (text : List Char) :
    value? (List.replicate zeros '0' ++ text) = value? text := by
  induction zeros with
  | zero => rfl
  | succ count ih =>
    rw [List.replicate_succ, List.cons_append, ← ih]
    rfl

theorem value?_leftpad (width : Nat) (text : List Char) :
    value? (text.leftpad width '0') = value? text :=
  value?_zeros_append (width - text.length) text

/-- The last digit is written behind the others. -/
theorem leftpad_digits {width : Nat} (hwidth : 0 < width) (n : Nat) :
    (digits n).leftpad (width + 1) '0' =
      (digits (n / 16)).leftpad width '0' ++ [digit (n % 16)] := by
  unfold List.leftpad
  by_cases hlt : n < 16
  · obtain ⟨more, rfl⟩ := Nat.exists_eq_add_of_lt hwidth
    rw [Nat.div_eq_of_lt hlt, Nat.mod_eq_of_lt hlt, Nat.zero_add, digits_of_lt hlt,
      digits_of_lt (show 0 < 16 by decide), List.length_singleton, List.length_singleton,
      Nat.add_sub_cancel, Nat.add_sub_cancel, List.replicate_succ']
    rfl
  · rw [digits_of_le (Nat.le_of_not_lt hlt), List.length_append, List.length_singleton,
      Nat.add_sub_add_right, List.append_assoc]

/-- What is written for the number of a row, at the length of the row, is the row in capitals. -/
theorem leftpad_of_value? {text : List Char} {n : Nat} (hempty : text ≠ [])
    (h : value? text = some n) :
    (digits n).leftpad text.length '0' = text.map Char.toUpper := by
  induction text using List.reverseRecOn generalizing n with
  | nil => exact absurd rfl hempty
  | append_singleton text c ih =>
    obtain ⟨front, last, hfront, hlast, rfl⟩ := (value?_concat_eq_some_iff _ _ _).mp h
    have hlt := (eq_digit_of_digitValue? hlast).1
    have hquotient : (16 * front + last) / 16 = front := by omega
    have hremainder : (16 * front + last) % 16 = last := by omega
    rw [List.map_append, List.map_singleton, toUpper_of_digitValue? hlast]
    by_cases hfirst : text = []
    · obtain rfl := hfirst
      obtain rfl := Option.some.inj hfront
      rw [Nat.mul_zero, Nat.zero_add, digits_of_lt hlt]
      rfl
    · rw [List.length_append, List.length_singleton,
        leftpad_digits (List.length_pos_iff.mpr hfirst), hquotient, hremainder,
        ih hfirst hfront]

/-- The rows for a number are its digits, written in either case behind any number of zeros. -/
theorem value?_eq_some_iff_toUpper {text : List Char} (hempty : text ≠ []) (n : Nat) :
    value? text = some n ↔
      ∃ zeros, text.map Char.toUpper = List.replicate zeros '0' ++ digits n := by
  constructor
  · intro hvalue
    exact ⟨text.length - (digits n).length, (leftpad_of_value? hempty hvalue).symm⟩
  · rintro ⟨zeros, htext⟩
    rw [← value?_map_toUpper, htext, value?_zeros_append, value?_digits]

end SpriteBytecode.Hexadecimal
