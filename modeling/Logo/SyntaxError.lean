import Logo.Token

/-!
# Errors in a program's text

A program that cannot be parsed is refused as a whole. The error names the first token that cannot
stand where it stands.
-/

namespace Logo

/-- What could have gone on at a place where something else stands. -/
inductive Expectation where
  | procedureName
  | endOfDefinition
  | statement
  | makeOrScan
  | openingBracket
  | closingBracket
  | variableName
  | closingParenthesis
  | operand
  | comparison
  | closingBrace
  deriving DecidableEq, Repr

def Expectation.text : Expectation → String
  | .procedureName => "a procedure name"
  | .endOfDefinition => "end"
  | .statement => "a statement"
  | .makeOrScan => "make or scan"
  | .openingBracket => "an opening bracket"
  | .closingBracket => "a closing bracket"
  | .variableName => "a variable name"
  | .closingParenthesis => "a closing parenthesis"
  | .operand => "a number, a variable or a procedure call"
  | .comparison => "a comparison operator"
  | .closingBrace => "a closing brace"

/-- Why a program is refused. -/
inductive SyntaxError.Cause where
  /-- What stands there is no token. -/
  | unrecognized
  /-- Another token stands there than could. -/
  | expected (what : Expectation) (found : Lexeme)
  /-- The text ends there, but the program does not. -/
  | unexpectedEnd (what : Expectation)
  /-- The name of a procedure stands where a variable is set. -/
  | notAVariable (name : String)
  /-- A definition begins inside the definition of `outer`. -/
  | nestedDefinition (outer : String)
  deriving DecidableEq, Repr

/-- An error in a program's text. -/
structure SyntaxError where
  position : Position
  cause : SyntaxError.Cause
  deriving DecidableEq, Repr

/-- What is wrong, without the place. -/
def SyntaxError.Cause.text : SyntaxError.Cause → String
  | .unrecognized => "unrecognized token"
  | .expected what found => "expected " ++ what.text ++ ", found " ++ found.text
  | .unexpectedEnd what => "reached end of text while looking for " ++ what.text
  | .notAVariable name => "\"" ++ name ++ "\" is a procedure, not a variable"
  | .nestedDefinition outer =>
    "procedure definitions can't be nested (inside \"" ++ outer ++ "\")"

/-- The message for the user. -/
def SyntaxError.message (e : SyntaxError) : String :=
  e.position.shown ++ ": " ++ e.cause.text

end Logo
