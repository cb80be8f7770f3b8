/-!
# Integers that people type

A sign, which may be missing, and at least one digit; leading zeros do no harm. The number must
fit into 32 bits.
-/

namespace Logo.Text

/-- The number that some digits stand for, if they are digits and there is one. -/
def magnitude? (ds : List Char) : Option Nat :=
  if ds ≠ [] ∧ ds.all Char.isDigit then
    some (ds.foldl (fun n d => 10 * n + (d.toNat - '0'.toNat)) 0)
  else none

/-- How many integers of 32 bits are negative. -/
def negatives : Nat := 2147483648

/-- The integer that a text stands for. -/
def integer? (cs : List Char) : Option Int32 :=
  match cs with
  | '-' :: ds => (magnitude? ds).bind fun n => if n ≤ negatives then some (-Int32.ofNat n) else none
  | '+' :: ds => (magnitude? ds).bind fun n => if n < negatives then some (Int32.ofNat n) else none
  | ds => (magnitude? ds).bind fun n => if n < negatives then some (Int32.ofNat n) else none

example : integer? ['-', '2', '1', '4', '7', '4', '8', '3', '6', '4', '8'] = some Int32.minValue := by
  decide

end Logo.Text
