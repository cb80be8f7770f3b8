import Logo.Bindings
import Logo.Token

/-!
# Programs

What a parsed program consists of. Sums and products are chains that group to the right: an
`Expr` is a sign, a term and perhaps an operator with the rest of the sum; a `Term` is a factor
and perhaps an operator with the rest of the product. Conditions are chains in the same way.

Statements that only do something (`Command`) are kept apart from those that steer what is run
next (`Statement`). Procedures are defined at the top of a program only (`Item`).
-/

namespace Logo

/-- A name and the place where it stands. -/
structure Name where
  text : String
  position : Position
  deriving DecidableEq, Repr

/-- What can be asked about the turtle. -/
inductive Reporter where
  | x | y | heading
  deriving DecidableEq, Repr

/-- The reserved word that asks. -/
def Reporter.keyword : Reporter → Keyword
  | .x => .getX
  | .y => .getY
  | .heading => .getHeading

/-! ## Numbers -/

mutual

/-- An operand of a product. -/
inductive Factor where
  | number (value : Nat)
  | variable (name : Name)
  | call (call : Call)
  | grouped (inner : Expr)
  deriving Repr

/-- A request for something that is computed elsewhere. -/
inductive Call where
  | reporter (what : Reporter)
  | procedure (name : Name) (arguments : List Expr)
  deriving Repr

/-- A product. -/
inductive Term where
  | single (first : Factor)
  | chain (first : Factor) (op : MulOp) (rest : Term)
  deriving Repr

/-- A sum. The sign applies to the first term only. -/
inductive Expr where
  | single (negated : Bool) (first : Term)
  | chain (negated : Bool) (first : Term) (op : AddOp) (rest : Expr)
  deriving Repr

end

/-- The name that messages give a call. -/
def Call.name : Call → String
  | .reporter what => what.keyword.spelling
  | .procedure name _ => name.text

/-! ## Conditions -/

/-- The operators between conditions. -/
inductive Connective where
  | and | or | xor
  deriving DecidableEq, Repr

/-- The reserved word for an operator. -/
def Connective.keyword : Connective → Keyword
  | .and => .and
  | .or => .or
  | .xor => .xor

mutual

/-- An operand of a condition. -/
inductive Clause where
  | constant (value : Bool)
  | negation (inner : Condition)
  | braced (inner : Condition)
  | compared (left : Expr) (op : Comparison) (right : Expr)
  deriving Repr

/-- Clauses that are joined by operators. -/
inductive Condition where
  | single (first : Clause)
  | chain (first : Clause) (op : Connective) (rest : Condition)
  deriving Repr

end

/-! ## Statements -/

/-- Which variable of a name is set: the one that all procedures share, or the one of the innermost
running procedure. -/
inductive Reach where
  | shared | own
  deriving DecidableEq, Repr

/-- A statement that evaluates its operands and then does one thing. -/
inductive Command where
  | forward (length : Expr)
  | back (length : Expr)
  | right (angle : Expr)
  | left (angle : Expr)
  | moveBy (dx dy : Expr)
  | moveTo (x y : Expr)
  | setHeading (heading : Expr)
  | home
  | clearScreen
  | penUp
  | penDown
  | setColor (red green blue : Expr)
  | printText (text : String)
  | printNumber (value : Expr)
  | scan (reach : Reach) (target : Name)
  | make (reach : Reach) (target : Name) (value : Expr)
  | sleep (milliseconds : Expr)
  deriving Repr

/-- A statement. -/
inductive Statement where
  | command (command : Command)
  | call (call : Call)
  | output (value : Expr)
  | ifTrue (condition : Condition) (body : List Statement)
  | loop (count : Expr) (body : List Statement)
  deriving Repr

/-- A procedure. -/
structure Procedure where
  name : String
  parameters : List String
  body : List Statement
  deriving Repr

/-- How many inputs a procedure takes. -/
def Procedure.arity (p : Procedure) : Nat := p.parameters.length

/-- What is known of a procedure. Its body is missing from the end of its header on until its
definition has been read to the end. -/
structure Entry where
  name : String
  parameters : List String
  body? : Option (List Statement)
  deriving Repr

namespace Entry

/-- How many inputs the procedure takes. -/
def arity (e : Entry) : Nat := e.parameters.length

/-- What the procedure runs: nothing, as long as its body is missing. -/
def body (e : Entry) : List Statement := e.body?.getD []

/-- Gives the procedure its body, if it has none yet. -/
def fill (e : Entry) (body : List Statement) : Entry :=
  { e with body? := e.body?.or (some body) }

end Entry

/-- All is known of a procedure that has been read. -/
def Procedure.entry (p : Procedure) : Entry := ⟨p.name, p.parameters, some p.body⟩

/-- A part of a program at its top. -/
inductive Item where
  | definition (procedure : Procedure)
  | statement (statement : Statement)
  deriving Repr

/-- What one submitted text holds. -/
abbrev Program := List Item

/-- The procedures that are known. -/
abbrev Procedures := Bindings Entry

/-- Binds a procedure to its name. -/
def Procedures.define (known : Procedures) (p : Procedure) : Procedures :=
  known.insert p.name p.entry

end Logo
