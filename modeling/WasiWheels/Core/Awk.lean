import WasiWheels.Core.Text
import Mathlib.Algebra.Order.Ring.Int
import Mathlib.Data.Rat.Cast.Order

/-! How an awk compares a field with a `-v` variable: as numbers if both look numeric, as
strings otherwise. -/

namespace WasiWheels

namespace Awk

def digits (text : Text) : Nat := text.foldl (fun value char => 10 * value + (char.toNat - '0'.toNat)) 0

/-- An optional sign, and what follows it. -/
def signed : Text → Bool × Text
  | '-' :: rest => (true, rest)
  | '+' :: rest => (false, rest)
  | text => (false, text)

/-- The exponent a decimal number ends in, none if there is something else. -/
def exponent : Text → Option ℤ
  | [] => some 0
  | mark :: rest =>
    let power := (signed rest).2
    if (mark = 'e' ∨ mark = 'E') ∧ power ≠ [] ∧ power.all Char.isDigit then
      some (if (signed rest).1 then -(digits power : ℤ) else digits power)
    else none

/-- The fraction digits after an optional point, and the rest. -/
def fraction : Text → Text × Text
  | '.' :: rest => (rest.takeWhile Char.isDigit, rest.dropWhile Char.isDigit)
  | text => ([], text)

/-- The value of a decimal floating-point number, none if the text is not one. -/
def decimal (text : Text) : Option ℚ :=
  let unsigned := (signed text).2
  let whole := unsigned.takeWhile Char.isDigit
  let rest := fraction (unsigned.dropWhile Char.isDigit)
  if whole = [] ∧ rest.1 = [] then none
  else (exponent rest.2).map fun power =>
    (if (signed text).1 then -1 else 1) * (digits (whole ++ rest.1) : ℚ) * 10 ^ (power - (rest.1.length : ℤ))

end Awk

/-- An implementation of awk, as far as `$1 == p` goes. Which strings it takes for numbers, and
which of those it compares as such, differs: hexadecimal numerals and numbers out of range are
left open. -/
structure Awk where
  equal : Text → Text → Bool
  equal_self : ∀ text, equal text text = true
  /-- Decimal numerals of integers that a double holds exactly are compared as numbers. -/
  equal_numerals : ∀ {field variable_ : Text} {number other : ℤ}, Awk.decimal field = some (number : ℚ) →
    Awk.decimal variable_ = some (other : ℚ) → |number| ≤ 2 ^ 53 → |other| ≤ 2 ^ 53 →
      equal field variable_ = decide (number = other)

namespace Awk

attribute [simp] Awk.equal_self

/-- Decimal numerals compared as rational numbers, everything else as strings. -/
def equalExactly (field variable_ : Text) : Bool :=
  match decimal field, decimal variable_ with
  | some number, some other => decide (number = other)
  | _, _ => decide (field = variable_)

def exact : Awk where
  equal := equalExactly
  equal_self text := by
    unfold equalExactly
    cases decimal text with
    | none => exact decide_eq_true rfl
    | some number => exact decide_eq_true rfl
  equal_numerals := by
    intro field variable_ number other first second _ _
    rw [equalExactly, first, second]
    exact decide_eq_decide.mpr Int.cast_inj

end Awk

end WasiWheels
