import Logo.Grammar.Condition

/-!
# Reading statements

    statement = call | output expr | if condition block | repeat expr block | command
    block     = [ statement ... statement ]

A variable can be set by any word or quoted text that is not the name of a known procedure.
-/

namespace Logo.Grammar

/-! ## Operands -/

/-- Reads the name of a variable that is to be set. -/
def target (sig : Signature) : Reader Name
  | [] => missing .variableName []
  | t :: rest =>
    match t.lexeme with
    | .word name | .quoted name =>
      if (sig name).isSome then .error ⟨.notAVariable name, t :: rest⟩
      else .ok (⟨name, t.position⟩, rest)
    | _ => missing .variableName (t :: rest)

/-- Reads one operand. -/
def operand (sig : Signature) {α : Type} (make : Expr → α) : Reader α := fun ts => do
  let (a, rest) ← expr sig ts
  .ok (make a, rest)

/-- Reads two operands. -/
def operands₂ (sig : Signature) {α : Type} (make : Expr → Expr → α) : Reader α := fun ts => do
  let (a, rest) ← expr sig ts
  let (b, rest) ← expr sig rest
  .ok (make a b, rest)

/-- Reads three operands. -/
def operands₃ (sig : Signature) {α : Type} (make : Expr → Expr → Expr → α) : Reader α := fun ts => do
  let (a, rest) ← expr sig ts
  let (b, rest) ← expr sig rest
  let (c, rest) ← expr sig rest
  .ok (make a b c, rest)

/-! ## Commands -/

/-- Reads what follows `scan`. -/
def scan (sig : Signature) (reach : Reach) : Reader Command := fun ts => do
  let (name, rest) ← target sig ts
  .ok (.scan reach name, rest)

/-- Reads what follows `make`. -/
def make (sig : Signature) (reach : Reach) : Reader Command := fun ts => do
  let (name, rest) ← target sig ts
  let (value, rest) ← expr sig rest
  .ok (.make reach name value, rest)

/-- Reads what follows `local`. -/
def localTo (sig : Signature) : Reader Command
  | ⟨.keyword .make, _⟩ :: rest => make sig .own rest
  | ⟨.keyword .scan, _⟩ :: rest => scan sig .own rest
  | ts => missing .makeOrScan ts

/-- Reads what follows `print`. -/
def print (sig : Signature) : Reader Command
  | ⟨.quoted text, _⟩ :: rest => .ok (.printText text, rest)
  | ts => operand sig .printNumber ts

/-- The reader for what follows the reserved word of a command; none if no command begins so. -/
def command? (sig : Signature) : Keyword → Option (Reader Command)
  | .forward => some (operand sig .forward)
  | .back => some (operand sig .back)
  | .right => some (operand sig .right)
  | .left => some (operand sig .left)
  | .move => some (operands₂ sig .moveBy)
  | .setXY => some (operands₂ sig .moveTo)
  | .head => some (operand sig .setHeading)
  | .home => some fun ts => .ok (.home, ts)
  | .clearScreen => some fun ts => .ok (.clearScreen, ts)
  | .penUp => some fun ts => .ok (.penUp, ts)
  | .penDown => some fun ts => .ok (.penDown, ts)
  | .setColor => some (operands₃ sig .setColor)
  | .print => some (print sig)
  | .scan => some (scan sig .shared)
  | .make => some (make sig .shared)
  | .localTo => some (localTo sig)
  | .sleep => some (operand sig .sleep)
  | _ => none

/-! ## Statements and blocks -/

/-- Reads a statement that begins with the reserved word `k`, after that word; `block` reads what
follows an opening bracket. -/
def keywordStatement? (sig : Signature) (block : Reader (List Statement)) :
    Keyword → Option (Reader Statement)
  | .output => some (operand sig .output)
  | .ifTrue => some fun ts => do
    let (c, rest) ← condition sig ts
    let (_, rest) ← expect .bracketOpen .openingBracket rest
    let (body, rest) ← block rest
    .ok (.ifTrue c body, rest)
  | .loop => some fun ts => do
    let (count, rest) ← expr sig ts
    let (_, rest) ← expect .bracketOpen .openingBracket rest
    let (body, rest) ← block rest
    .ok (.loop count body, rest)
  | k => (command? sig k).map fun command ts => do
    let (c, rest) ← command ts
    .ok (.command c, rest)

/-- Reads a statement, with `block` for what follows an opening bracket. -/
def statementWith (sig : Signature) (block : Reader (List Statement)) : Reader Statement
  | [] => missing .statement []
  | t :: rest =>
    match callee? sig t.lexeme with
    | some callee => do
      let (c, rest) ← call sig callee t.position rest
      .ok (.call c, rest)
    | none =>
      match t.lexeme with
      | .keyword k =>
        match keywordStatement? sig block k with
        | some statement => statement rest
        | none => missing .statement (t :: rest)
      | _ => missing .statement (t :: rest)

/-- Reads statements up to a closing bracket, and the bracket, with `block` for the statements
after the first. -/
def blockWith (statement : Reader Statement) (block : Reader (List Statement)) :
    Reader (List Statement)
  | [] => missing .closingBracket []
  | ⟨.bracketClose, _⟩ :: rest => .ok ([], rest)
  | ts => do
    let (s, rest) ← statement ts
    let (ss, rest) ← block rest
    .ok (s :: ss, rest)

/-- Reads what follows an opening bracket, from at most so many tokens. -/
def blockWithin (sig : Signature) : Nat → Reader (List Statement)
  | 0, ts => missing .closingBracket ts
  | n + 1, ts => blockWith (statementWith sig (blockWithin sig n)) (blockWithin sig n) ts

/-- Reads statements up to a closing bracket, and the bracket. -/
def block (sig : Signature) : Reader (List Statement) := fun ts => blockWithin sig ts.length ts

/-- Reads a statement. -/
def statement (sig : Signature) : Reader Statement := statementWith sig (block sig)

end Logo.Grammar
