/-!
# Numerals

Numbers written in decimal and in hexadecimal, and the number that a run of digits stands for.
-/

namespace Microcomputer
namespace Text

def isHexDigit (c : Char) : Bool :=
  c.isDigit
    || ('a'.toNat ≤ c.toNat && c.toNat ≤ 'f'.toNat)
    || ('A'.toNat ≤ c.toNat && c.toNat ≤ 'F'.toNat)

/-- What a single digit stands for; the letters `a` to `f` stand for ten to fifteen. -/
def digitValue (c : Char) : Nat :=
  if c.isDigit then
    c.toNat - '0'.toNat
  else if 'a'.toNat ≤ c.toNat then
    c.toNat - 'a'.toNat + 10
  else
    c.toNat - 'A'.toNat + 10

/-- The number that a run of digits stands for, most significant digit first. -/
def numeralValue
    (radix : Nat)
    (digits : List Char) :
    Nat :=
  digits.foldl (fun value c => radix * value + digitValue c) 0

/-- The number that digits stand for, or `limit` if it is not below that. -/
def numeralUpTo
    (limit radix : Nat)
    (digits : List Char) :
    Nat :=
  digits.foldl (fun value c => min limit (radix * value + digitValue c)) 0

/-- The number that a run of digits stands for, if it is below a bound. -/
def numeralBelow?
    (bound radix : Nat)
    (digits : List Char) :
    Option Nat :=
  if numeralUpTo bound radix digits < bound then
    some (numeralUpTo bound radix digits)
  else
    none

/-- The number below a bound that a word gives: digits, after at most one plus sign. -/
def numberBelow?
    (bound radix : Nat)
    (isDigit : Char → Bool)
    (word : List Char) :
    Option Nat :=
  let digits := match word with
    | '+' :: rest => rest
    | _ => word
  if digits.isEmpty || !digits.all isDigit then none
  else numeralBelow? bound radix digits

def decimal (n : Nat) : String :=
  String.ofList (Nat.toDigits 10 n)

/-- `n` in hexadecimal, filled with zeros on the left up to `width` digits. -/
def hex
    (width n : Nat) :
    String :=
  String.ofList ((Nat.toDigits 16 n).leftpad width '0')

/-- `n` in hexadecimal after `0x`, filled with zeros up to `width` digits. -/
def hexLiteral
    (width n : Nat) :
    String :=
  "0x" ++ hex width n

/-- `text` with blanks added on the left up to `width` characters. -/
def alignRight
    (width : Nat)
    (text : String) :
    String :=
  String.ofList (text.toList.leftpad width ' ')

/-- `text` with blanks added on the right up to `width` characters. -/
def alignLeft
    (width : Nat)
    (text : String) :
    String :=
  String.ofList (text.toList.rightpad width ' ')

@[simp]
theorem numeralValue_nil (radix : Nat) : numeralValue radix [] = 0 :=
  rfl

theorem numeralValue_concat
    (radix : Nat)
    (digits : List Char)
    (c : Char) :
    numeralValue radix (digits ++ [c]) =
      radix * numeralValue radix digits + digitValue c := by
  simp [numeralValue]

theorem min_mul_add_min
    (limit radix value digit : Nat)
    (hr : 0 < radix) :
    min limit (radix * min limit value + digit) = min limit (radix * value + digit) := by
  rcases Nat.le_total value limit with h | h
  · rw [Nat.min_eq_right h]
  · rw [Nat.min_eq_left h]
    have h1 : limit ≤ radix * limit := Nat.le_mul_of_pos_left limit hr
    have h2 : radix * limit ≤ radix * value := Nat.mul_le_mul_left radix h
    omega

theorem numeralUpTo_eq_min
    (limit radix : Nat)
    (digits : List Char)
    (hr : 0 < radix) :
    numeralUpTo limit radix digits = min limit (numeralValue radix digits) := by
  have step : ∀ (digits : List Char) (value : Nat),
      digits.foldl (fun v c => min limit (radix * v + digitValue c)) (min limit value) =
        min limit (digits.foldl (fun v c => radix * v + digitValue c) value) := by
    intro digits
    induction digits with
    | nil => intro value; rfl
    | cons c rest ih =>
        intro value
        simp only [List.foldl_cons]
        rw [min_mul_add_min limit radix value (digitValue c) hr]
        exact ih _
  have h := step digits 0
  rw [Nat.min_eq_right (Nat.zero_le limit)] at h
  exact h

theorem numeralBelow?_eq
    (bound radix : Nat)
    (digits : List Char)
    (hr : 0 < radix) :
    numeralBelow? bound radix digits =
      if numeralValue radix digits < bound then some (numeralValue radix digits) else none := by
  unfold numeralBelow?
  rw [numeralUpTo_eq_min bound radix digits hr]
  by_cases h : numeralValue radix digits < bound
  · have hm : min bound (numeralValue radix digits) = numeralValue radix digits := by omega
    simp [hm, h]
  · have hm : min bound (numeralValue radix digits) = bound := by omega
    simp [hm, h]

example : numeralValue 16 "00fF".toList = 255 := by decide +kernel

example : hexLiteral 4 0x1A = "0x001a" := by decide +kernel

end Text
end Microcomputer
