import Mathlib
import Logo.Syntax

/-!
# The calls in a program

Which procedures a program calls can be told from its text: a call gives a name and some inputs.
This module collects those calls, with the number of inputs in place of the inputs themselves.
Calls among the inputs of a call are collected too; reporters are no procedures and are left out.
-/

namespace Logo

/-- A call of a procedure, as far as finding the procedure goes. -/
structure CallSite where
  name : Name
  /-- How many inputs are given. -/
  inputs : Nat
  deriving DecidableEq, Repr

/-! ## Expressions -/

mutual

/-- The calls in an operand of a product. -/
def Factor.calls : Factor → List CallSite
  | .number _ => []
  | .variable _ => []
  | .call c => c.calls
  | .grouped e => e.calls

/-- A call, if it is one of a procedure, and the calls among its inputs. -/
def Call.calls : Call → List CallSite
  | .reporter _ => []
  | .procedure name arguments => ⟨name, arguments.length⟩ :: callsInAll arguments

/-- The calls in some expressions. -/
def callsInAll : List Expr → List CallSite
  | [] => []
  | e :: es => e.calls ++ callsInAll es

/-- The calls in a product. -/
def Term.calls : Term → List CallSite
  | .single f => f.calls
  | .chain f _ rest => f.calls ++ rest.calls

/-- The calls in a sum. -/
def Expr.calls : Expr → List CallSite
  | .single _ t => t.calls
  | .chain _ t _ rest => t.calls ++ rest.calls

end

theorem mem_callsInAll {site : CallSite} {es : List Expr} :
    site ∈ callsInAll es ↔ ∃ e ∈ es, site ∈ e.calls := by
  induction es with
  | nil => simp only [callsInAll, List.not_mem_nil, false_and, exists_false]
  | cons e es ih =>
    rw [callsInAll, List.mem_append, ih]
    constructor
    · rintro (inside | ⟨e', among, inside⟩)
      · exact ⟨e, List.mem_cons_self, inside⟩
      · exact ⟨e', List.mem_cons_of_mem e among, inside⟩
    · rintro ⟨e', among, inside⟩
      rcases List.mem_cons.1 among with rfl | among
      · exact .inl inside
      · exact .inr ⟨e', among, inside⟩

/-! ## Conditions -/

mutual

/-- The calls in an operand of a condition. -/
def Clause.calls : Clause → List CallSite
  | .constant _ => []
  | .negation c => c.calls
  | .braced c => c.calls
  | .compared left _ right => left.calls ++ right.calls

/-- The calls in a condition. -/
def Condition.calls : Condition → List CallSite
  | .single c => c.calls
  | .chain c _ rest => c.calls ++ rest.calls

end

/-! ## Statements -/

/-- The expressions that a command evaluates, in order. -/
def Command.operands : Command → List Expr
  | .forward e | .back e | .right e | .left e | .setHeading e => [e]
  | .printNumber e | .make _ _ e | .sleep e => [e]
  | .moveBy a b | .moveTo a b => [a, b]
  | .setColor a b c => [a, b, c]
  | .home | .clearScreen | .penUp | .penDown | .printText _ | .scan _ _ => []

/-- The calls in a command. -/
def Command.calls (c : Command) : List CallSite := callsInAll c.operands

mutual

/-- The calls in a statement. -/
def Statement.calls : Statement → List CallSite
  | .command c => c.calls
  | .call c => c.calls
  | .output value => value.calls
  | .ifTrue condition body => condition.calls ++ blockCalls body
  | .loop count body => count.calls ++ blockCalls body

/-- The calls in some statements. -/
def blockCalls : List Statement → List CallSite
  | [] => []
  | s :: rest => s.calls ++ blockCalls rest

end

/-! ## Programs -/

/-- The calls in a part of a program. -/
def Item.calls : Item → List CallSite
  | .definition p => blockCalls p.body
  | .statement s => s.calls

/-- The calls in a program, those in the procedures that it defines among them. -/
def Program.calls (program : Program) : List CallSite := program.flatMap Item.calls

theorem Program.calls_append (a b : Program) : Program.calls (a ++ b) = a.calls ++ b.calls :=
  List.flatMap_append

end Logo
