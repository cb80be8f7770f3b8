import Logo.Machine

/-!
# What expressions and conditions mean

Numbers are signed and have 32 bits; sums, differences and products wrap around, and quotients are
cut towards zero. Operands are evaluated from left to right, and combined from right to left.

Calls of procedures are handed to `run`, which runs the procedure that a name means on its inputs.
-/

namespace Logo

/-- What came of running a statement. -/
inductive Outcome where
  /-- It ended, and may have left a value that nobody asked for. -/
  | ended (value : Option Int32)
  /-- An `output` was met: all that encloses it stops, up to where the value is asked for. -/
  | output (value : Int32)
  deriving DecidableEq, Repr

namespace Outcome

/-- It ended without a value. -/
def done : Outcome := .ended none

/-- The value, however it came about. -/
def value? : Outcome → Option Int32
  | .ended value => value
  | .output value => some value

/-- Whether an `output` was met. -/
def isOutput : Outcome → Bool
  | .ended _ => false
  | .output _ => true

end Outcome

/-- Runs the procedure that was called by a name on its inputs. -/
abbrev Runner := String → Entry → List Int32 → Exec Outcome

/-! ## Operators -/

/-- Adds or subtracts. -/
def AddOp.apply : AddOp → Int32 → Int32 → Int32
  | .plus, a, b => a + b
  | .minus, a, b => a - b

/-- Multiplies or divides. Nothing can be divided by zero. -/
def MulOp.apply : MulOp → Int32 → Int32 → Except RuntimeError Int32
  | .times, a, b => .ok (a * b)
  | .over, a, b => if b = 0 then .error .divisionByZero else .ok (a / b)

/-- Compares. -/
def Comparison.apply : Comparison → Int32 → Int32 → Bool
  | .less, a, b => a < b
  | .greater, a, b => a > b
  | .equal, a, b => a = b
  | .notEqual, a, b => a ≠ b

/-- The value with a sign before it. -/
def signed (negated : Bool) (value : Int32) : Int32 := if negated then -value else value

/-- What a reporter says about the turtle. -/
def Reporter.report (t : Turtle) : Reporter → Int32
  | .x => t.position.x
  | .y => t.position.y
  | .heading => t.heading

/-! ## Expressions -/

mutual

/-- The value of an operand of a product. A call has to leave a value. -/
def Factor.eval (run : Runner) : Factor → Exec Int32
  | .number n => return Int32.ofNat n
  | .variable name => Exec.lookup name
  | .call c => do
    match (← c.run run).value? with
    | some value => return value
    | none => throw (.noOutput c.name)
  | .grouped e => e.eval run

/-- Runs what is called. The inputs of a procedure are evaluated before it is running. -/
def Call.run (run : Runner) : Call → Exec Outcome
  | .reporter what => return .ended (some (what.report (← get).turtle))
  | .procedure name arguments => do
    let p ← Exec.procedure name arguments.length
    run name.text p (← evalAll run arguments)

/-- The values of some expressions. -/
def evalAll (run : Runner) : List Expr → Exec (List Int32)
  | [] => return []
  | e :: es => return (← e.eval run) :: (← evalAll run es)

/-- The value of a product. -/
def Term.eval (run : Runner) : Term → Exec Int32
  | .single f => f.eval run
  | .chain f op rest => do
    let left ← f.eval run
    let right ← rest.eval run
    match op.apply left right with
    | .ok value => return value
    | .error e => throw e

/-- The value of a sum. -/
def Expr.eval (run : Runner) : Expr → Exec Int32
  | .single negated t => return signed negated (← t.eval run)
  | .chain negated t op rest => do
    let left ← t.eval run
    let right ← rest.eval run
    return op.apply (signed negated left) right

end

/-! ## Conditions -/

mutual

/-- Whether an operand of a condition holds. -/
def Clause.eval (run : Runner) : Clause → Exec Bool
  | .constant value => return value
  | .negation c => return !(← c.eval run)
  | .braced c => c.eval run
  | .compared left op right => do
    let left ← left.eval run
    let right ← right.eval run
    return op.apply left right

/-- Whether a condition holds. What cannot matter after an `and` or an `or` is not evaluated. -/
def Condition.eval (run : Runner) : Condition → Exec Bool
  | .single c => c.eval run
  | .chain c op rest => do
    let left ← c.eval run
    match op, left with
    | .and, false => return false
    | .and, true => rest.eval run
    | .or, true => return true
    | .or, false => rest.eval run
    | .xor, left => return left != (← rest.eval run)

end

end Logo
