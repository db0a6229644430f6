/-!
Numbers written in base sixteen. Writing uses capital letters and no leading zero; reading takes
digits of either case and any number of leading zeros, so that reading undoes writing.
-/

set_option autoImplicit false
set_option relaxedAutoImplicit false

namespace SpriteBytecode.Hexadecimal

def digit (n : Nat) : Char :=
  if n < 10 then Char.ofNat (48 + n) else Char.ofNat (55 + n)

def digitValue? (c : Char) : Option Nat :=
  if '0' ≤ c ∧ c ≤ '9' then some (c.toNat - 48)
  else if 'A' ≤ c ∧ c ≤ 'F' then some (c.toNat - 55)
  else if 'a' ≤ c ∧ c ≤ 'f' then some (c.toNat - 87)
  else none

/-- Most significant digit first. -/
def digits (n : Nat) : List Char :=
  if n < 16 then [digit n] else digits (n / 16) ++ [digit (n % 16)]

/-- The number that a row of digits stands for, or nothing if another character occurs in it. -/
def value? (text : List Char) : Option Nat :=
  text.foldlM (fun n c ↦ (digitValue? c).map (16 * n + ·)) 0

def ofNat (n : Nat) : String := String.ofList (digits n)

/-- Zeros are put in front until at least `width` digits stand. -/
def padded (width n : Nat) : String := String.ofList ((digits n).leftpad width '0')

theorem digitValue?_digit {n : Nat} (h : n < 16) : digitValue? (digit n) = some n := by
  have : ∀ m : Fin 16, digitValue? (digit m) = some m.val := by decide
  exact this ⟨n, h⟩

theorem digits_of_lt {n : Nat} (h : n < 16) : digits n = [digit n] := by
  rw [digits, if_pos h]

theorem digits_of_le {n : Nat} (h : 16 ≤ n) :
    digits n = digits (n / 16) ++ [digit (n % 16)] := by
  rw [digits, if_neg (by omega)]

theorem value?_concat (text : List Char) (c : Char) :
    value? (text ++ [c]) =
      (value? text).bind fun n ↦ (digitValue? c).map (16 * n + ·) := by
  simp [value?, List.foldlM_append]

theorem value?_digits (n : Nat) : value? (digits n) = some n := by
  induction n using Nat.strongRecOn with
  | _ n ih =>
    by_cases h : n < 16
    · simp [digits_of_lt h, value?, digitValue?_digit h]
    · have h : 16 ≤ n := by omega
      rw [digits_of_le h, value?_concat, ih (n / 16) (by omega)]
      simp only [Option.bind_some, digitValue?_digit (Nat.mod_lt n (by decide : 0 < 16)),
        Option.map_some, Option.some.injEq]
      omega

end SpriteBytecode.Hexadecimal
