import Mathlib.Algebra.Ring.Nat
import Mathlib.Data.List.Induction
import Microcomputer.Text.Characters
import Microcomputer.Text.Numeral

/-!
# Letters, digits and numerals

**Classes.**  The characters that make up names and numbers, as ranges of code points.

**Numerals.**  A number written in some radix up to sixteen, with any number of zeros before it,
stands for itself (`numeralValue_toDigits`, `numeralValue_hexDigits`).  In decimal, a numeral
without a zero in front is the one that is written for its number (`toDigits_numeralValue`).
-/

namespace Microcomputer
namespace Text

section Classes

variable {c : Char}

theorem isUpper_iff : c.isUpper = true ↔ 65 ≤ c.toNat ∧ c.toNat ≤ 90 :=
  decide_eq_true_iff

theorem isLower_iff : c.isLower = true ↔ 97 ≤ c.toNat ∧ c.toNat ≤ 122 := by
  constructor
  · intro h
    have hrange := Bool.and_eq_true_iff.1 h
    exact ⟨of_decide_eq_true hrange.1, of_decide_eq_true hrange.2⟩
  · rintro ⟨hlow, hhigh⟩
    exact Bool.and_eq_true_iff.2 ⟨decide_eq_true hlow, decide_eq_true hhigh⟩

theorem isDigit_iff : c.isDigit = true ↔ 48 ≤ c.toNat ∧ c.toNat ≤ 57 :=
  Char.isDigit_iff_toNat

theorem isHexDigit_iff :
    isHexDigit c = true ↔
      (48 ≤ c.toNat ∧ c.toNat ≤ 57) ∨ (97 ≤ c.toNat ∧ c.toNat ≤ 102) ∨
        (65 ≤ c.toNat ∧ c.toNat ≤ 70) := by
  simp [isHexDigit, isDigit_iff, or_assoc]

theorem startsName_iff :
    startsName c = true ↔
      (65 ≤ c.toNat ∧ c.toNat ≤ 90) ∨ (97 ≤ c.toNat ∧ c.toNat ≤ 122) ∨ c.toNat = 95 := by
  have halpha : c.isAlpha = true ↔ c.isUpper = true ∨ c.isLower = true := Bool.or_eq_true_iff
  have hunderscore : c = '_' ↔ c.toNat = 95 := Char.toNat_inj.symm
  simp [startsName, halpha, isUpper_iff, isLower_iff, hunderscore, or_assoc]

theorem continuesName_iff :
    continuesName c = true ↔ startsName c = true ∨ (48 ≤ c.toNat ∧ c.toNat ≤ 57) := by
  have halphanum : c.isAlphanum = true ↔ c.isAlpha = true ∨ c.isDigit = true :=
    Bool.or_eq_true_iff
  simp [continuesName, startsName, halphanum, isDigit_iff, or_right_comm]

theorem continuesName_of_isDigit
    (h : c.isDigit = true) :
    continuesName c = true :=
  continuesName_iff.2 (Or.inr (isDigit_iff.1 h))

theorem continuesName_of_isHexDigit
    (h : isHexDigit c = true) :
    continuesName c = true := by
  rw [continuesName_iff, startsName_iff]
  rw [isHexDigit_iff] at h
  omega

theorem continuesName_of_toLower
    (h : continuesName c.toLower = true) :
    continuesName c = true := by
  by_cases hupper : c.isUpper = true
  · rw [continuesName_iff, startsName_iff]
    exact Or.inl (Or.inl (isUpper_iff.1 hupper))
  · have hsame : c.toLower = c := dif_neg fun hrange => hupper (isUpper_iff.2 hrange)
    rwa [hsame] at h

end Classes

section Numerals

section Digits

theorem digitValue_digitChar
    {d : Nat}
    (h : d < 16) :
    digitValue d.digitChar = d := by
  have hall : ∀ k : Fin 16, digitValue (Nat.digitChar k) = k := by decide
  exact hall ⟨d, h⟩

theorem isHexDigit_digitChar
    {d : Nat}
    (h : d < 16) :
    isHexDigit d.digitChar = true := by
  have hall : ∀ k : Fin 16, isHexDigit (Nat.digitChar k) = true := by decide
  exact hall ⟨d, h⟩

theorem digitChar_digitValue
    {c : Char}
    (h : c.isDigit = true) :
    digitValue c < 10 ∧ Nat.digitChar (digitValue c) = c := by
  obtain ⟨hlow, hhigh⟩ := isDigit_iff.1 h
  have hvalue : digitValue c = c.toNat - 48 := by
    rw [digitValue, if_pos h]
    rfl
  have hlt : digitValue c < 10 := by omega
  refine ⟨hlt, Char.toNat_inj.1 ?_⟩
  rw [Nat.toNat_digitChar_of_lt_ten hlt]
  omega

end Digits

section Values

theorem lt_of_numeralBelow?
    {bound radix n : Nat}
    {digits : List Char}
    (h : numeralBelow? bound radix digits = some n) :
    n < bound := by
  unfold numeralBelow? at h
  split at h
  · next hlt =>
      cases h
      exact hlt
  · cases h

theorem lt_of_numberBelow?
    {bound radix n : Nat}
    {isDigit : Char → Bool}
    {word : List Char}
    (h : numberBelow? bound radix isDigit word = some n) :
    n < bound := by
  unfold numberBelow? at h
  extract_lets digits at h
  split at h
  · cases h
  · exact lt_of_numeralBelow? h

theorem numeralValue_toDigits
    {radix : Nat}
    (hlow : 1 < radix)
    (hhigh : radix ≤ 16)
    (n : Nat) :
    numeralValue radix (Nat.toDigits radix n) = n := by
  induction n using Nat.strongRecOn with
  | ind n ih =>
      rw [Nat.toDigits_eq_if hlow]
      split
      · next hlt =>
          have hd : digitValue n.digitChar = n := digitValue_digitChar (by omega)
          simp [numeralValue, hd]
      · next hge =>
          have hpos : 0 < n := by omega
          have hmod : n % radix < radix := Nat.mod_lt n (by omega)
          rw [numeralValue_concat, ih (n / radix) (Nat.div_lt_self hpos hlow),
            digitValue_digitChar (by omega)]
          exact Nat.div_add_mod n radix

theorem toDigits_numeralValue
    {digits : List Char}
    (hne : digits ≠ [])
    (hdigits : ∀ c ∈ digits, c.isDigit = true)
    (hzero : digits.head? ≠ some '0') :
    Nat.toDigits 10 (numeralValue 10 digits) = digits := by
  induction digits using List.reverseRecOn with
  | nil => exact absurd rfl hne
  | append_singleton digits c ih =>
      obtain ⟨hlt, hchar⟩ := digitChar_digitValue (hdigits c (by simp))
      rw [numeralValue_concat]
      cases digits with
      | nil => simp [Nat.toDigits_of_lt_base hlt, hchar]
      | cons first others =>
          have hfront : Nat.toDigits 10 (numeralValue 10 (first :: others)) = first :: others :=
            ih (List.cons_ne_nil first others) (fun d hd => hdigits d (List.mem_append_left _ hd))
              (by simpa using hzero)
          have hpos : 0 < numeralValue 10 (first :: others) := by
            refine Nat.pos_of_ne_zero fun hnone => hzero ?_
            rw [← hfront, hnone]
            rfl
          rw [← Nat.toDigits_append_toDigits (by decide) hpos hlt, hfront,
            Nat.toDigits_of_lt_base hlt, hchar]

theorem isHexDigit_of_mem_toDigits
    {n : Nat}
    {c : Char}
    (h : c ∈ Nat.toDigits 16 n) :
    isHexDigit c = true := by
  induction n using Nat.strongRecOn with
  | ind n ih =>
      rw [Nat.toDigits_eq_if (by decide)] at h
      split at h
      · next hlt =>
          rw [List.mem_singleton.1 h]
          exact isHexDigit_digitChar hlt
      · next hge =>
          rcases List.mem_append.1 h with h | h
          · exact ih (n / 16) (Nat.div_lt_self (by omega) (by decide)) h
          · rw [List.mem_singleton.1 h]
            exact isHexDigit_digitChar (Nat.mod_lt n (by decide))

/-- Zeros before a numeral change nothing. -/
theorem numeralValue_replicate_append
    (radix count : Nat)
    (digits : List Char) :
    numeralValue radix (List.replicate count '0' ++ digits) = numeralValue radix digits := by
  induction count with
  | zero => rfl
  | succ count ih =>
      rw [List.replicate_succ, List.cons_append, ← ih]
      simp [numeralValue, digitValue]

/-- The digits of a number in hexadecimal, filled up with zeros. -/
def hexDigits (width n : Nat) : List Char :=
  (Nat.toDigits 16 n).leftpad width '0'

theorem toList_hexLiteral
    (width n : Nat) :
    (hexLiteral width n).toList = '0' :: 'x' :: hexDigits width n := by
  simp [hexLiteral, hex, hexDigits]

theorem numeralValue_hexDigits
    (width n : Nat) :
    numeralValue 16 (hexDigits width n) = n := by
  rw [hexDigits, List.leftpad, numeralValue_replicate_append]
  exact numeralValue_toDigits (by decide) (by decide) n

theorem isHexDigit_of_mem_hexDigits
    {width n : Nat}
    {c : Char}
    (h : c ∈ hexDigits width n) :
    isHexDigit c = true := by
  rw [hexDigits, List.leftpad] at h
  rcases List.mem_append.1 h with h | h
  · rw [List.eq_of_mem_replicate h]
    rfl
  · exact isHexDigit_of_mem_toDigits h

theorem toList_hex
    (width n : Nat) :
    (hex width n).toList = hexDigits width n := by
  simp [hex, hexDigits]

theorem length_hexDigits
    {width n : Nat}
    (hpos : 0 < width)
    (h : n < 16 ^ width) :
    (hexDigits width n).length = width := by
  have hdigits : (Nat.toDigits 16 n).length ≤ width :=
    (Nat.length_toDigits_le_iff (by decide) hpos).2 h
  rw [hexDigits, List.length_leftpad, Nat.max_eq_left hdigits]

theorem hexDigits_ne_nil
    (width n : Nat) :
    hexDigits width n ≠ [] := by
  rw [hexDigits, List.leftpad]
  intro hnil
  exact Nat.toDigits_ne_nil (List.append_eq_nil_iff.1 hnil).2

end Values

end Numerals

end Text
end Microcomputer
