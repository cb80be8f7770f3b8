import Logo.SyntaxError
import Logo.Syntax

/-!
# Reading tokens

A reader takes the tokens that are left, and gives what it read together with the tokens that are
left after it. A reader that fails tells which token it could not go on with: the first one of
`Failure.rest`, or what ends the tokens if there is none. Readers look one token ahead and never
go back.

What a grammar rule reads after at least one token of its own is handed to it as a reader
(`termWith`, `blockWith` and so on). The rules are tied together by a bound on the number of
tokens (`termWithin`): no rule reads anything from no tokens, so a reader that may look at no
token fails as it would fail at the end of the tokens, and a bound that is not below the number
of tokens makes no difference.
-/

namespace Logo

/-- How many inputs each known procedure takes. -/
abbrev Signature := String → Option Nat

/-- The signature after the header of a definition. -/
def Signature.bind (sig : Signature) (name : String) (arity : Nat) : Signature :=
  fun other => if other = name then some arity else sig other

/-- The signature of a set of procedures. -/
def Procedures.signature (ps : Procedures) : Signature :=
  fun name => ps[name]?.map Entry.arity

/-- Why a reader cannot go on. -/
inductive Failure.Cause where
  | expected (what : Expectation)
  | notAVariable (name : String)
  | nestedDefinition (outer : String)
  deriving DecidableEq, Repr

/-- A reader's failure: `rest` begins with the token that it cannot go on with. -/
structure Failure where
  cause : Failure.Cause
  rest : List Token
  deriving DecidableEq, Repr

/-- Reads something from the tokens that are left. -/
abbrev Reader (α : Type) := List Token → Except Failure (α × List Token)

namespace Grammar

/-- What could come next does not stand at the beginning of the tokens. -/
def missing {α : Type} (what : Expectation) : Reader α :=
  fun ts => .error ⟨.expected what, ts⟩

/-- Takes the lexeme `l`, and nothing else. -/
def expect (l : Lexeme) (what : Expectation) : Reader Unit
  | [] => missing what []
  | t :: rest => if t.lexeme = l then .ok ((), rest) else missing what (t :: rest)

end Grammar

end Logo
