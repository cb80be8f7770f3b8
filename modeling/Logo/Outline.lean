import Logo.Syntax

/-!
# Programs as nested lists

The outline of a program shows how it was understood: every part is a list in parentheses that
begins with its kind, and names that stand for variables and procedures show where they stand. A
text is quoted; in it a backslash stands before quotes and backslashes.
-/

namespace Logo.Outline

/-- A list of parts. -/
def group (parts : List String) : String := "(" ++ " ".intercalate parts ++ ")"

/-- A text in quotes. -/
def quoted (s : String) : String :=
  let escaped := s.toList.flatMap fun c => if c = '\\' ∨ c = '"' then ['\\', c] else [c]
  "\"" ++ String.ofList escaped ++ "\""

/-- A name and where it stands. -/
def name (n : Name) : String :=
  let p := n.position
  quoted n.text ++ " " ++ toString p.byte ++ ":" ++ toString p.row ++ ":" ++ toString p.column

/-- The sign of a term. -/
def sign (negated : Bool) : String := if negated then "neg" else "pos"

mutual

def factor : Factor → String
  | .number n => toString n
  | .variable n => group ["var", name n]
  | .call c => call c
  | .grouped e => group ["paren", expr e]

def call : Call → String
  | .reporter what => group ["call", what.keyword.spelling]
  | .procedure n es => group ("call" :: name n :: exprs es)

def exprs : List Expr → List String
  | [] => []
  | e :: es => expr e :: exprs es

def term : Term → String
  | .single f => group ["mul", factor f]
  | .chain f op rest => group ["mul", factor f, op.text, term rest]

def expr : Expr → String
  | .single negated t => group ["add", sign negated, term t]
  | .chain negated t op rest => group ["add", sign negated, term t, op.text, expr rest]

end

mutual

def clause : Clause → String
  | .constant b => if b then "true" else "false"
  | .negation c => group ["not", condition c]
  | .braced c => group ["braced", condition c]
  | .compared l op r => group ["cmp", expr l, op.text, expr r]

def condition : Condition → String
  | .single c => group ["set", clause c]
  | .chain c op rest => group ["set", clause c, op.keyword.spelling, condition rest]

end

def reach : Reach → String
  | .shared => "global"
  | .own => "local"

def command : Command → String
  | .forward e => group ["fd", expr e]
  | .back e => group ["bk", expr e]
  | .right e => group ["rt", expr e]
  | .left e => group ["lt", expr e]
  | .moveBy dx dy => group ["move", expr dx, expr dy]
  | .moveTo x y => group ["setxy", expr x, expr y]
  | .setHeading e => group ["head", expr e]
  | .home => group ["home"]
  | .clearScreen => group ["cs"]
  | .penUp => group ["pu"]
  | .penDown => group ["pd"]
  | .setColor r g b => group ["setcolor", expr r, expr g, expr b]
  | .printText s => group ["print", quoted s]
  | .printNumber e => group ["print", expr e]
  | .scan r n => group ["scan", reach r, name n]
  | .make r n e => group ["make", reach r, name n, expr e]
  | .sleep e => group ["sleep", expr e]

/-- Statements in brackets. -/
def bracketed (parts : List String) : String := "[" ++ " ".intercalate parts ++ "]"

mutual

def statement : Statement → String
  | .command c => command c
  | .call c => call c
  | .output e => group ["output", expr e]
  | .ifTrue c body => group ["if", condition c, bracketed (statements body)]
  | .loop e body => group ["repeat", expr e, bracketed (statements body)]

def statements : List Statement → List String
  | [] => []
  | s :: rest => statement s :: statements rest

end

def item : Item → String
  | .definition p =>
    group ["define", quoted p.name, group ("params" :: p.parameters.map quoted),
      bracketed (statements p.body)]
  | .statement s => statement s

/-- The outline of a program. -/
def program (p : Program) : String := bracketed (p.map item)

end Logo.Outline
