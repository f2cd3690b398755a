/-
# Numbers read from text

A reader takes what it reads from the front of some characters and leaves the rest.
`readNumber` reads as many digits as there are and refuses more than a number of them,
and a number from a bound on. What `Nat.toDigits` writes is read back, whatever follows
that is not a digit, `readNumber_toDigits`.
-/

import Mathlib.Data.List.Basic

namespace Soulbase.Foundation

/-- What was read and what is left. -/
abbrev Reader (α : Type) : Type := List Char → Option (α × List Char)

/-- The value of a digit, as `char::to_digit` has it. -/
def digitValue (radix : Nat) (c : Char) : Option Nat :=
  let value :=
    if c.isDigit then some (c.toNat - '0'.toNat)
    else if c.isLower then some (c.toNat - 'a'.toNat + 10)
    else if c.isUpper then some (c.toNat - 'A'.toNat + 10)
    else none
  value.filter (· < radix)

/-- The digits at the front: their value and their number with those before them. -/
def readDigits (radix most value count : Nat) : List Char → Option ((Nat × Nat) × List Char)
  | [] => some ((value, count), [])
  | c :: rest =>
      match digitValue radix c with
      | none => some ((value, count), c :: rest)
      | some digit =>
          if most < count + 1 then none
          else readDigits radix most (value * radix + digit) (count + 1) rest

/-- A number below the bound, with at most this many digits. -/
def readNumber (radix most : Nat) (allowZeroPrefix : Bool) (bound : Nat) : Reader Nat :=
  fun chars =>
    match readDigits radix most 0 0 chars with
    | none => none
    | some ((value, count), rest) =>
        if count = 0 then none
        else if !allowZeroPrefix && chars.head? = some '0' && 1 < count then none
        else if value < bound then some (value, rest)
        else none

/-- The character, and nothing else. -/
def readGivenChar (target : Char) : List Char → Option (List Char)
  | [] => none
  | c :: rest => if c = target then some rest else none

/-- What a reader reads, after a separator unless it is the first. -/
def readSeparator {α : Type} (separator : Char) (index : Nat) (inner : Reader α) : Reader α :=
  fun chars => if 0 < index then (readGivenChar separator chars).bind inner else inner chars

variable {radix most value count bound n : Nat} {c : Char} {digits rest : List Char}

theorem isDigit_iff_toNat : c.isDigit = true ↔ 48 ≤ c.toNat ∧ c.toNat ≤ 57 := by
  simp [Char.isDigit, UInt32.le_iff_toNat_le]

theorem digitValue_of_isDigit (h : c.isDigit = true) :
    digitValue 10 c = some (c.toNat - '0'.toNat) := by
  have hbounds := isDigit_iff_toNat.mp h
  have hzero : '0'.toNat = 48 := rfl
  simp [digitValue, h, Option.filter]
  omega

/-- No digit is at the front. -/
def NoDigit (radix : Nat) (chars : List Char) : Prop :=
  ∀ c ∈ chars.head?, digitValue radix c = none

theorem readDigits_of_noDigit (h : NoDigit radix rest) :
    readDigits radix most value count rest = some ((value, count), rest) := by
  cases rest with
  | nil => rfl
  | cons c rest =>
      have hc : digitValue radix c = none := h c rfl
      simp [readDigits, hc]

theorem readDigits_append (hdigits : ∀ c ∈ digits, c.isDigit = true)
    (hmost : count + digits.length ≤ most) :
    readDigits 10 most value count (digits ++ rest) =
      readDigits 10 most (Nat.ofDigitChars 10 digits value) (count + digits.length) rest := by
  induction digits generalizing value count with
  | nil => simp
  | cons c digits ih =>
      rw [List.length_cons] at hmost
      have hc := digitValue_of_isDigit (hdigits c List.mem_cons_self)
      have hmore : ¬most < count + 1 := by omega
      rw [List.cons_append, readDigits, hc]
      dsimp only
      rw [if_neg hmore, ih (fun d hd => hdigits d (List.mem_cons_of_mem _ hd)) (by omega),
        Nat.ofDigitChars_cons, List.length_cons, Nat.mul_comm value]
      congr 1
      omega

/-- A number has no zero at its front, unless it is zero. -/
theorem head?_toDigits (h : 0 < n) : (Nat.toDigits 10 n).head? ≠ some '0' := by
  induction n using Nat.strongRecOn with
  | ind n ih =>
      by_cases hsmall : n < 10
      · rw [Nat.toDigits_of_lt_base hsmall]
        have hdigits : ∀ d < 10, 0 < d → d.digitChar ≠ '0' := by decide
        simpa using hdigits n hsmall h
      · have hle : 10 ≤ n := Nat.le_of_not_lt hsmall
        rw [Nat.toDigits_of_base_le (by decide) hle,
          List.head?_append_of_ne_nil _ Nat.toDigits_ne_nil]
        exact ih (n / 10) (Nat.div_lt_self h (by decide)) (Nat.div_pos hle (by decide))

theorem readDigits_toDigits (hrest : NoDigit 10 rest)
    (hmost : (Nat.toDigits 10 n).length ≤ most) :
    readDigits 10 most 0 0 (Nat.toDigits 10 n ++ rest) =
      some ((n, (Nat.toDigits 10 n).length), rest) := by
  rw [readDigits_append (fun c hc => Nat.isDigit_of_mem_toDigits (by decide) (by decide) hc)
    (by omega), Nat.ofDigitChars_toDigits (by decide) (by decide), Nat.zero_add]
  exact readDigits_of_noDigit hrest

/-- A number that was written in decimal digits is read back. -/
theorem readNumber_toDigits (allowZeroPrefix : Bool) (hbound : n < bound)
    (hmost : (Nat.toDigits 10 n).length ≤ most) (hrest : NoDigit 10 rest) :
    readNumber 10 most allowZeroPrefix bound (Nat.toDigits 10 n ++ rest) = some (n, rest) := by
  have hcount : (Nat.toDigits 10 n).length ≠ 0 := Nat.ne_of_gt Nat.length_toDigits_pos
  have hzero : ¬((Nat.toDigits 10 n ++ rest).head? = some '0' ∧
      1 < (Nat.toDigits 10 n).length) := by
    rintro ⟨hhead, hlong⟩
    rw [List.head?_append_of_ne_nil _ Nat.toDigits_ne_nil] at hhead
    have hn : 0 < n := by
      rcases Nat.eq_zero_or_pos n with rfl | hpos
      · exact absurd hlong (by decide)
      · exact hpos
    exact head?_toDigits hn hhead
  have hprefix : (!allowZeroPrefix && decide ((Nat.toDigits 10 n ++ rest).head? = some '0') &&
      decide (1 < (Nat.toDigits 10 n).length)) = false := by
    cases allowZeroPrefix
    · simpa using fun hhead => Nat.le_of_not_lt fun hlong => hzero ⟨hhead, hlong⟩
    · rfl
  rw [readNumber, readDigits_toDigits hrest hmost]
  dsimp only
  rw [if_neg hcount, hprefix, if_neg Bool.false_ne_true, if_pos hbound]

/-- Where no digit is, no number is. -/
theorem readNumber_of_noDigit (allowZeroPrefix : Bool) (h : NoDigit radix rest) :
    readNumber radix most allowZeroPrefix bound rest = none := by
  rw [readNumber, readDigits_of_noDigit h]
  rfl

theorem readSeparator_zero {α : Type} {separator : Char} {inner : Reader α} :
    readSeparator separator 0 inner rest = inner rest := rfl

theorem readSeparator_cons {α : Type} {separator : Char} {index : Nat} {inner : Reader α}
    (h : 0 < index) : readSeparator separator index inner (separator :: rest) = inner rest := by
  rw [readSeparator, if_pos h, readGivenChar, if_pos rfl]
  rfl

/-- The number of a digit is written as the digit. -/
theorem toDigits_toNat (h : c.isDigit = true) : Nat.toDigits 10 (c.toNat - '0'.toNat) = [c] := by
  have hbounds := isDigit_iff_toNat.mp h
  have hzero : '0'.toNat = 48 := rfl
  have hsmall : c.toNat - '0'.toNat < 10 := by omega
  have hchar : (c.toNat - '0'.toNat).digitChar = c := by
    apply Char.toNat_inj.mp
    rw [Nat.toNat_digitChar_of_lt_ten hsmall]
    omega
  rw [Nat.toDigits_of_lt_base hsmall, hchar]

/-- More digits after those of a positive number. -/
theorem toDigits_append (hdigits : ∀ c ∈ digits, c.isDigit = true) (hvalue : 0 < value) :
    Nat.toDigits 10 value ++ digits = Nat.toDigits 10 (Nat.ofDigitChars 10 digits value) := by
  induction digits generalizing value with
  | nil => simp
  | cons c digits ih =>
      have hc := hdigits c List.mem_cons_self
      have hbounds := isDigit_iff_toNat.mp hc
      have hzero : '0'.toNat = 48 := rfl
      have hone : Nat.toDigits 10 value ++ [c] =
          Nat.toDigits 10 (10 * value + (c.toNat - '0'.toNat)) := by
        rw [← Nat.toDigits_append_toDigits (by decide) hvalue (by omega), toDigits_toNat hc]
      rw [Nat.ofDigitChars_cons, ← List.singleton_append, ← List.append_assoc, hone]
      exact ih (fun d hd => hdigits d (List.mem_cons_of_mem _ hd)) (by omega)

/-- Digits without a zero in front are what is written for the number that they make. -/
theorem toDigits_ofDigitChars (hdigits : ∀ c ∈ digits, c.isDigit = true) (hne : digits ≠ [])
    (hfront : digits.head? = some '0' → digits.length = 1) :
    Nat.toDigits 10 (Nat.ofDigitChars 10 digits 0) = digits := by
  cases digits with
  | nil => exact absurd rfl hne
  | cons c digits =>
      have hc := hdigits c List.mem_cons_self
      have hbounds := isDigit_iff_toNat.mp hc
      rw [Nat.ofDigitChars_cons, Nat.mul_zero, Nat.zero_add]
      by_cases hfirst : c = '0'
      · subst hfirst
        obtain rfl : digits = [] := by simpa using hfront rfl
        exact toDigits_toNat hc
      · have hnat : c.toNat ≠ '0'.toNat := fun h => hfirst (Char.toNat_inj.mp h)
        have hzero : '0'.toNat = 48 := rfl
        rw [← toDigits_append (fun d hd => hdigits d (List.mem_cons_of_mem _ hd)) (by omega),
          toDigits_toNat hc]
        rfl

end Soulbase.Foundation
