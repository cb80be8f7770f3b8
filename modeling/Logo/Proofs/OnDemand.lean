import Mathlib
import Logo.Interpreter
import Logo.Lexer

/-!
# Parsing token by token

`parse` first takes all tokens of a text and then reads them. Here the grammar is written down as it is
when there is just one token at hand: a parser asks a lexer for the next token, looks at it, and asks for
one more when it knows what to do with it. A parser that has gone wrong asks for none.

What the lexer gives is kept in `Feed.calls`, so that it can be told what a parser has asked for. As in
`Logo.Proofs.Attempt`, nothing here says that parsing ends, and how deep the rules may go into each other is
cut off somewhere.

Main definitions: `Pull.advance`, `Pull.Rules.once`, `Pull.parse`.
-/

namespace Logo

/-- What a call for the next token gives, if it is a token that can be read. -/
def Lexed.token? : Lexed → Option Token
  | .piece ⟨some l, p⟩ => some ⟨l, p⟩
  | .piece ⟨none, _⟩ | .endOfText _ => none

/-- The error of a parser that looks for something else than what is ahead. -/
def Lexed.fault (what : Expectation) : Lexed → SyntaxError
  | .piece ⟨some l, p⟩ => ⟨p, .expected what l⟩
  | .piece ⟨none, p⟩ => ⟨p, .unrecognized⟩
  | .endOfText p => ⟨p, .unexpectedEnd what⟩

/-- What a parser works with. -/
structure Feed where
  lexer : Lexer
  /-- The token ahead, which the last call gave. -/
  ahead : Lexed
  /-- What the calls for the next token have given, from the first on. -/
  calls : List Lexed
  known : Procedures

namespace Feed

/-- Before the first call, nothing is ahead. -/
def start (lexer : Lexer) (known : Procedures) : Feed := ⟨lexer, .endOfText .start, [], known⟩

/-- One more call for the next token. -/
def call (s : Feed) : Feed :=
  ⟨s.lexer.next.2, s.lexer.next.1, s.calls ++ [s.lexer.next.1], s.known⟩

/-- The header of a definition has been read. -/
def announce (s : Feed) (name : String) (parameters : List String) : Feed :=
  { s with known := s.known.insert name ⟨name, parameters, none⟩ }

/-- A definition has been read. -/
def complete (s : Feed) (name : String) (body : List Statement) : Feed :=
  { s with known := s.known.complete name body }

end Feed

/-- A parser that may have to go deeper than it is let. -/
abbrev Pull (α : Type) := ExceptT SyntaxError (StateT Feed Option) α

namespace Pull

open Grammar (callee? connective?)

variable {α : Type}

/-- The token ahead, unless it is the end of the text. -/
def peek : Pull (Option Token) := return (← get).ahead.token?

/-- The known procedures. -/
def signature : Pull Signature := return (← get).known.signature

/-- Asks for the next token, and gives up if it is none that can be read. -/
def advance : Pull Unit := do
  modify Feed.call
  match (← get).ahead with
  | .piece ⟨none, p⟩ => throw ⟨p, .unrecognized⟩
  | _ => return ()

/-- Gives up at the token ahead. -/
def expected (what : Expectation) : Pull α := do throw ((← get).ahead.fault what)

/-- Takes the lexeme `l`, and nothing else. -/
def expect (l : Lexeme) (what : Expectation) : Pull Unit := do
  match ← peek with
  | some t => if t.lexeme = l then advance else expected what
  | none => expected what

/-- Reads the name of a variable that is to be set. -/
def target : Pull Name := do
  match ← peek with
  | some ⟨.word name, p⟩ | some ⟨.quoted name, p⟩ =>
    if ((← signature) name).isSome then throw ⟨p, .notAVariable name⟩
    else do
      advance
      return ⟨name, p⟩
  | _ => expected .variableName

/-- Reads what follows `scan`. -/
def scan (reach : Reach) : Pull Command := return .scan reach (← target)

/-- The rules that use each other. -/
structure Rules where
  arguments : Nat → Pull (List Expr)
  factor : Pull Factor
  term : Pull Term
  /-- A sum after its sign. -/
  sum : Bool → Pull Expr
  expr : Pull Expr
  clause : Pull Clause
  condition : Pull Condition
  statement : Pull Statement
  /-- An opening bracket and the statements up to the closing one. -/
  bracketed : Pull (List Statement)
  /-- Statements up to a closing bracket, and the bracket. -/
  block : Pull (List Statement)
  /-- The parameters of a procedure of this name. -/
  parameters : String → Pull (List String)
  /-- The body of a procedure of this name, and its `end`. -/
  body : String → Pull (List Statement)

namespace Rules

/-- Rules that may not be used. -/
def none : Rules :=
  have out {α : Type} : Pull α := fun _ => Option.none
  ⟨fun _ => out, out, out, fun _ => out, out, out, out, out, out, out, fun _ => out, fun _ => out⟩

variable (r : Rules)

/-- Reads a call that begins with the token ahead, which stands at `p`. -/
def callAt (p : Position) : Option Grammar.Callee → Pull (Option Call)
  | .none => return .none
  | some (.reporter what) => do
    advance
    return some (.reporter what)
  | some (.procedure name arity) => do
    advance
    return some (.procedure ⟨name, p⟩ (← r.arguments arity))

/-- Reads a call, if one begins with the token ahead. -/
def call : Pull (Option Call) := do
  match ← peek with
  | .none => return .none
  | some t => r.callAt t.position (callee? (← signature) t.lexeme)

/-- Reads two expressions with a comparison between them. -/
def comparison : Pull Clause := do
  let left ← r.expr
  match ← peek with
  | some ⟨.comparison op, _⟩ => do
    advance
    return .compared left op (← r.expr)
  | _ => expected .comparison

/-- Reads what follows `make`. -/
def make (reach : Reach) : Pull Command := do
  let name ← target
  return .make reach name (← r.expr)

/-- Reads what follows `local`. -/
def localTo : Pull Command := do
  match ← peek with
  | some ⟨.keyword .make, _⟩ => do
    advance
    r.make .own
  | some ⟨.keyword .scan, _⟩ => do
    advance
    scan .own
  | _ => expected .makeOrScan

/-- Reads one operand. -/
def operand (make : Expr → α) : Pull α := return make (← r.expr)

/-- Reads two operands. -/
def operands₂ (make : Expr → Expr → α) : Pull α := do
  let a ← r.expr
  return make a (← r.expr)

/-- Reads three operands. -/
def operands₃ (make : Expr → Expr → Expr → α) : Pull α := do
  let a ← r.expr
  let b ← r.expr
  return make a b (← r.expr)

/-- Reads what follows `print`. -/
def print : Pull Command := do
  match ← peek with
  | some ⟨.quoted text, _⟩ => do
    advance
    return .printText text
  | _ => r.operand .printNumber

/-- How a command goes on after its reserved word. -/
def command? : Keyword → Option (Pull Command)
  | .forward => some (r.operand .forward)
  | .back => some (r.operand .back)
  | .right => some (r.operand .right)
  | .left => some (r.operand .left)
  | .move => some (r.operands₂ .moveBy)
  | .setXY => some (r.operands₂ .moveTo)
  | .head => some (r.operand .setHeading)
  | .home => some (return .home)
  | .clearScreen => some (return .clearScreen)
  | .penUp => some (return .penUp)
  | .penDown => some (return .penDown)
  | .setColor => some (r.operands₃ .setColor)
  | .print => some r.print
  | .scan => some (scan .shared)
  | .make => some (r.make .shared)
  | .localTo => some r.localTo
  | .sleep => some (r.operand .sleep)
  | _ => Option.none

/-- The rules, where `r` holds those that they use. -/
def once : Rules where
  arguments n :=
    match n with
    | 0 => return []
    | n + 1 => do
      let e ← r.expr
      return e :: (← r.arguments n)
  factor := do
    match ← peek with
    | some ⟨.number n, _⟩ => do
      advance
      return .number n
    | some ⟨.parenOpen, _⟩ => do
      advance
      let e ← r.expr
      expect .parenClose .closingParenthesis
      return .grouped e
    | _ =>
      match ← r.call with
      | some c => return .call c
      | .none =>
        match ← peek with
        | some ⟨.word w, p⟩ => do
          advance
          return .variable ⟨w, p⟩
        | _ => expected .operand
  term := do
    let f ← r.factor
    match ← peek with
    | some ⟨.mulOp op, _⟩ => do
      advance
      return .chain f op (← r.term)
    | _ => return .single f
  sum negated := do
    let t ← r.term
    match ← peek with
    | some ⟨.addOp op, _⟩ => do
      advance
      return .chain negated t op (← r.expr)
    | _ => return .single negated t
  expr := do
    match ← peek with
    | some ⟨.addOp sign, _⟩ => do
      advance
      r.sum (sign = .minus)
    | _ => r.sum false
  clause := do
    match ← peek with
    | some ⟨.keyword .truth, _⟩ => do
      advance
      return .constant true
    | some ⟨.keyword .falsehood, _⟩ => do
      advance
      return .constant false
    | some ⟨.keyword .not, _⟩ => do
      advance
      return .negation (← r.condition)
    | some ⟨.braceOpen, _⟩ => do
      advance
      let c ← r.condition
      expect .braceClose .closingBrace
      return .braced c
    | _ => r.comparison
  condition := do
    let first ← r.clause
    match (← peek).bind fun t => connective? t.lexeme with
    | some op => do
      advance
      return .chain first op (← r.condition)
    | .none => return .single first
  statement := do
    match ← r.call with
    | some c => return .call c
    | .none =>
      match ← peek with
      | some ⟨.keyword .output, _⟩ => do
        advance
        r.operand .output
      | some ⟨.keyword .ifTrue, _⟩ => do
        advance
        let c ← r.condition
        return .ifTrue c (← r.bracketed)
      | some ⟨.keyword .loop, _⟩ => do
        advance
        let count ← r.expr
        return .loop count (← r.bracketed)
      | some ⟨.keyword k, _⟩ =>
        match r.command? k with
        | some command => do
          advance
          return .command (← command)
        | .none => expected .statement
      | _ => expected .statement
  bracketed := do
    expect .bracketOpen .openingBracket
    r.block
  block := do
    match ← peek with
    | .none => expected .closingBracket
    | some ⟨.bracketClose, _⟩ => do
      advance
      return []
    | some _ => do
      let s ← r.statement
      return s :: (← r.block)
  parameters name := do
    match ← peek with
    | some ⟨.word w, _⟩ =>
      if w = name ∨ ((← signature) w).isSome then return []
      else do
        advance
        return w :: (← r.parameters name)
    | _ => return []
  body outer := do
    match ← peek with
    | .none => expected .endOfDefinition
    | some ⟨.keyword .endDefine, _⟩ => do
      advance
      return []
    | some ⟨.keyword .define, p⟩ => throw ⟨p, .nestedDefinition outer⟩
    | some _ => do
      let s ← r.statement
      return s :: (← r.body outer)

end Rules

/-- The rules, which may go so deep into each other. -/
def rules : (depth : Nat) → Rules
  | 0 => .none
  | depth + 1 => (rules depth).once

/-- Reads the name of a procedure and its parameters. -/
def header (depth : Nat) : Pull (String × List String) := do
  match ← peek with
  | some ⟨.word name, _⟩ => do
    advance
    return (name, ← (rules depth).parameters name)
  | _ => expected .procedureName

/-- Reads a definition. -/
def definition (depth : Nat) : Pull Procedure := do
  advance
  let (name, parameters) ← header depth
  modify (·.announce name parameters)
  let body ← (rules depth).body name
  modify (·.complete name body)
  return ⟨name, parameters, body⟩

/-- Reads definitions and statements up to the end of the text. -/
def items : (depth : Nat) → Pull Program
  | 0 => fun _ => none
  | depth + 1 => do
    match ← peek with
    | none => return []
    | some t =>
      if t.lexeme = .keyword .define then do
        let p ← definition depth
        return .definition p :: (← items depth)
      else do
        let s ← (rules depth).statement
        return .statement s :: (← items depth)

/-- Parses what a lexer gives. -/
def parse (depth : Nat) (lexer : Lexer) (known : Procedures) :
    Option (Except SyntaxError Program × Feed) :=
  (advance >>= fun _ => items depth) (.start lexer known)

end Pull

end Logo
