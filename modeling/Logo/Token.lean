import Logo.Keyword
import Logo.Position

/-!
# Tokens

A lexeme is what a program's text is made of once blanks are gone; a token is a lexeme together
with the place where it begins. `Lexeme.text` is how error messages and the journal name one: a
quoted text is shown between quotes as it is, without escapes.
-/

namespace Logo

/-- The operators between terms, and the signs. -/
inductive AddOp where
  | plus | minus
  deriving DecidableEq, Repr

/-- The operators between factors. -/
inductive MulOp where
  | times | over
  deriving DecidableEq, Repr

/-- The operators that compare two numbers. -/
inductive Comparison where
  | less | greater | equal | notEqual
  deriving DecidableEq, Repr

def AddOp.text : AddOp → String
  | .plus => "+"
  | .minus => "-"

def MulOp.text : MulOp → String
  | .times => "*"
  | .over => "/"

def Comparison.text : Comparison → String
  | .less => "<"
  | .greater => ">"
  | .equal => "="
  | .notEqual => "!="

/-- A smallest meaningful part of a program. -/
inductive Lexeme where
  /-- A number, which has no sign of its own. -/
  | number (value : Nat)
  /-- A text between quotes, without them and with its escapes undone. -/
  | quoted (text : String)
  /-- A word that is not reserved. -/
  | word (name : String)
  | keyword (k : Keyword)
  | addOp (op : AddOp)
  | mulOp (op : MulOp)
  | comparison (op : Comparison)
  | parenOpen | parenClose
  | braceOpen | braceClose
  | bracketOpen | bracketClose
  deriving DecidableEq, Repr

/-- How a lexeme is shown to people. -/
def Lexeme.text : Lexeme → String
  | .number n => toString n
  | .quoted s => "\"" ++ s ++ "\""
  | .word w => w
  | .keyword k => k.spelling
  | .addOp op => op.text
  | .mulOp op => op.text
  | .comparison op => op.text
  | .parenOpen => "("
  | .parenClose => ")"
  | .braceOpen => "\x7b"
  | .braceClose => "\x7d"
  | .bracketOpen => "["
  | .bracketClose => "]"

/-- A lexeme and the place where it begins. -/
structure Token where
  lexeme : Lexeme
  position : Position
  deriving DecidableEq, Repr

end Logo
