import Mathlib
import Logo.Interpreter

/-!
# Submitting without a measure

The rules of the grammar, the loops and the calls are defined with something that is used up: the
tokens that are left, the rounds that a count can still have, the room for calls. Here they are
written down once more with nothing of that kind. A rule reads what it needs by whatever rules it
needs, a loop goes on until its counter has reached the count, and a call runs the body that is
bound to the name.

Nothing in these rules says that they come to an end. So how deep they may go into each other is
cut off somewhere, and what would have to go deeper gives `none`. What runs for ever gives `none`
however deep it may go; what ends does not, from some depth on.

Main definitions: `Search.Rules.once`, `Search.program` (reading), `Attempt.Rules.once` (running),
`Machine.attempt` (a whole submission).
-/

namespace Logo

/-! ## Pieces of a text -/

/-- All pieces from a place on. -/
def Cursor.attempt : (depth : Nat) → Cursor → Option (List Piece)
  | 0, _ => none
  | depth + 1, cursor =>
    match cursor.next? with
    | none => some []
    | some (piece, after) => do return piece :: (← attempt depth after)

/-! ## Reading -/

/-- A reader that may have to go deeper than it is let. -/
abbrev Search (α : Type) := StateT (List Token) (ExceptT Failure Option) α

namespace Search

open Grammar

variable {α : Type}

/-- A reader that uses no other rules. -/
def of (r : Reader α) : Search α := fun ts => some (r ts)

/-- The next token, which is not taken. -/
def peek : Search (Option Token) := fun ts => some (.ok (ts.head?, ts))

/-- Takes the next token. -/
def advance : Search Unit := fun ts => some (.ok ((), ts.tail))

/-- The rules that use each other. -/
structure Rules where
  factor : Search Factor
  /-- What a call needs after its name. -/
  call : Callee → Position → Search Call
  arguments : Nat → Search (List Expr)
  term : Search Term
  /-- A sum after its sign. -/
  sum : Bool → Search Expr
  expr : Search Expr
  clause : Search Clause
  condition : Search Condition
  statement : Search Statement
  /-- An opening bracket and the statements up to the closing one. -/
  bracketed : Search (List Statement)
  /-- Statements up to a closing bracket, and the bracket. -/
  block : Search (List Statement)
  /-- The body of a procedure of this name, and its `end`. -/
  body : String → Search (List Statement)

namespace Rules

/-- Rules that may not be used. -/
def none : Rules :=
  have out {α : Type} : Search α := fun _ => Option.none
  ⟨out, fun _ _ => out, fun _ => out, out, fun _ => out, out, out, out, out, out, out, fun _ => out⟩

variable (sig : Signature) (r : Rules)

/-- Reads two expressions with a comparison between them. -/
def comparison : Search Clause := do
  let left ← r.expr
  match ← peek with
  | some ⟨.comparison op, _⟩ => do
    advance
    return .compared left op (← r.expr)
  | _ => of (missing .comparison)

/-- Reads what follows `scan`. -/
def scan (reach : Reach) : Search Command := return .scan reach (← of (target sig))

/-- Reads what follows `make`. -/
def make (reach : Reach) : Search Command := do
  let name ← of (target sig)
  return .make reach name (← r.expr)

/-- Reads what follows `local`. -/
def localTo : Search Command := do
  match ← peek with
  | some ⟨.keyword .make, _⟩ => do
    advance
    r.make sig .own
  | some ⟨.keyword .scan, _⟩ => do
    advance
    scan sig .own
  | _ => of (missing .makeOrScan)

/-- Reads one operand. -/
def operand (make : Expr → α) : Search α := return make (← r.expr)

/-- Reads two operands. -/
def operands₂ (make : Expr → Expr → α) : Search α := do
  let a ← r.expr
  return make a (← r.expr)

/-- Reads three operands. -/
def operands₃ (make : Expr → Expr → Expr → α) : Search α := do
  let a ← r.expr
  let b ← r.expr
  return make a b (← r.expr)

/-- Reads what follows `print`. -/
def print : Search Command := do
  match ← peek with
  | some ⟨.quoted text, _⟩ => do
    advance
    return .printText text
  | _ => r.operand .printNumber

/-- How a command goes on after its reserved word. -/
def command? : Keyword → Option (Search Command)
  | .forward => some (r.operand .forward)
  | .back => some (r.operand .back)
  | .right => some (r.operand .right)
  | .left => some (r.operand .left)
  | .move => some (r.operands₂ .moveBy)
  | .setXY => some (r.operands₂ .moveTo)
  | .head => some (r.operand .setHeading)
  | .home => some (return .home)
  | .clearScreen => some (return .clearScreen)
  | .penUp => some (return .penUp)
  | .penDown => some (return .penDown)
  | .setColor => some (r.operands₃ .setColor)
  | .print => some r.print
  | .scan => some (scan sig .shared)
  | .make => some (r.make sig .shared)
  | .localTo => some (r.localTo sig)
  | .sleep => some (r.operand .sleep)
  | _ => Option.none

/-- The rules, where `r` holds those that they use. -/
def once : Rules where
  factor := do
    match ← peek with
    | .none => of (missing .operand)
    | some t =>
      match callee? sig t.lexeme with
      | some callee => do
        advance
        return .call (← r.call callee t.position)
      | .none =>
        match t.lexeme with
        | .number n => do
          advance
          return .number n
        | .word w => do
          advance
          return .variable ⟨w, t.position⟩
        | .parenOpen => do
          advance
          let e ← r.expr
          of (expect .parenClose .closingParenthesis)
          return .grouped e
        | _ => of (missing .operand)
  call callee position :=
    match callee with
    | .reporter what => return .reporter what
    | .procedure name arity => do return .procedure ⟨name, position⟩ (← r.arguments arity)
  arguments n :=
    match n with
    | 0 => return []
    | n + 1 => do
      let e ← r.expr
      return e :: (← r.arguments n)
  term := do
    let f ← r.factor
    match ← peek with
    | some ⟨.mulOp op, _⟩ => do
      advance
      return .chain f op (← r.term)
    | _ => return .single f
  sum negated := do
    let t ← r.term
    match ← peek with
    | some ⟨.addOp op, _⟩ => do
      advance
      return .chain negated t op (← r.expr)
    | _ => return .single negated t
  expr := do
    match ← peek with
    | some ⟨.addOp sign, _⟩ => do
      advance
      r.sum (sign = .minus)
    | _ => r.sum false
  clause := do
    match ← peek with
    | some ⟨.keyword .truth, _⟩ => do
      advance
      return .constant true
    | some ⟨.keyword .falsehood, _⟩ => do
      advance
      return .constant false
    | some ⟨.keyword .not, _⟩ => do
      advance
      return .negation (← r.condition)
    | some ⟨.braceOpen, _⟩ => do
      advance
      let c ← r.condition
      of (expect .braceClose .closingBrace)
      return .braced c
    | _ => r.comparison
  condition := do
    let first ← r.clause
    match (← peek).bind fun t => connective? t.lexeme with
    | some op => do
      advance
      return .chain first op (← r.condition)
    | .none => return .single first
  statement := do
    match ← peek with
    | .none => of (missing .statement)
    | some t =>
      match callee? sig t.lexeme with
      | some callee => do
        advance
        return .call (← r.call callee t.position)
      | .none =>
        match t.lexeme with
        | .keyword .output => do
          advance
          r.operand .output
        | .keyword .ifTrue => do
          advance
          let c ← r.condition
          return .ifTrue c (← r.bracketed)
        | .keyword .loop => do
          advance
          let count ← r.expr
          return .loop count (← r.bracketed)
        | .keyword k =>
          match r.command? sig k with
          | some command => do
            advance
            return .command (← command)
          | .none => of (missing .statement)
        | _ => of (missing .statement)
  bracketed := do
    of (expect .bracketOpen .openingBracket)
    r.block
  block := do
    match ← peek with
    | .none => of (missing .closingBracket)
    | some ⟨.bracketClose, _⟩ => do
      advance
      return []
    | some _ => do
      let s ← r.statement
      return s :: (← r.block)
  body outer := do
    match ← peek with
    | .none => of (missing .endOfDefinition)
    | some ⟨.keyword .endDefine, _⟩ => do
      advance
      return []
    | some ⟨.keyword .define, _⟩ => of fun ts => .error ⟨.nestedDefinition outer, ts⟩
    | some _ => do
      let s ← r.statement
      return s :: (← r.body outer)

end Rules

/-- The rules, which may go so deep into each other. -/
def rules (sig : Signature) : (depth : Nat) → Rules
  | 0 => .none
  | depth + 1 => (rules sig depth).once sig

/-- Reads all tokens as a program. -/
def program : (depth : Nat) → Procedures → List Token → Option Reading
  | 0, _, _ => none
  | _ + 1, known, [] => some ⟨[], known, .ok []⟩
  | depth + 1, known, t :: rest =>
    if t.lexeme = .keyword .define then
      match header known.signature rest with
      | .error f => some ⟨[], known, .error f⟩
      | .ok (h, rest) => do
        match ← (rules (known.announce h).signature depth).body h.name rest with
        | .error f => return ⟨[h], known.announce h, .error f⟩
        | .ok (ss, rest) =>
          let more ← program depth ((known.announce h).complete h.name ss) rest
          return more.after [h] (.definition ⟨h.name, h.parameters, ss⟩)
    else do
      match ← (rules known.signature depth).statement (t :: rest) with
      | .error f => return ⟨[], known, .error f⟩
      | .ok (s, rest) => return (← program depth known rest).after [] (.statement s)

end Search

/-- What a reading of some tokens says about the text. -/
def Parse.of (scan : Scan) (reading : Grammar.Reading) : Parse :=
  match reading.result with
  | .error f =>
    ⟨scan, reading.headers, reading.known, f.rest.length, .error (f.toError scan.stop)⟩
  | .ok program =>
    match scan.stop with
    | .endOfText _ => ⟨scan, reading.headers, reading.known, 0, .ok program⟩
    | .unreadable p => ⟨scan, reading.headers, reading.known, 0, .error ⟨p, .unrecognized⟩⟩

theorem parse_eq (known : Procedures) (text : String) :
    parse known text =
      .of (Scan.ofText text) (Grammar.program known (Scan.ofText text).tokens) := rfl

/-- Parses a text with the procedures that are known. -/
def Search.parse (depth : Nat) (known : Procedures) (text : String) : Option Parse := do
  let cursor := Cursor.ofText text
  let scan := Scan.ofPieces cursor.finish (← cursor.attempt depth)
  return .of scan (← program depth known scan.tokens)

/-! ## Running -/

/-- A computation that may have to go deeper than it is let. -/
abbrev Attempt (α : Type) := ExceptT RuntimeError (StateT Machine Option) α

namespace Attempt

variable {α : Type}

/-- A computation that uses no other rules. -/
def of (x : Exec α) : Attempt α := fun m =>
  match x m with
  | .ok a m' => some (.ok a, m')
  | .error e m' => some (.error e, m')

/-- How what a program consists of is run, each by means of the others. -/
structure Rules where
  factor : Factor → Attempt Int32
  call : Call → Attempt Outcome
  exprs : List Expr → Attempt (List Int32)
  term : Term → Attempt Int32
  expr : Expr → Attempt Int32
  clause : Clause → Attempt Bool
  condition : Condition → Attempt Bool
  command : Command → Attempt Unit
  statement : Statement → Attempt Outcome
  /-- Statements after one that ended so. -/
  block : Outcome → List Statement → Attempt Outcome
  /-- A loop of this count and this body. Its counter, which has 32 bits and wraps around, stands at
  this number, and its body has ended so the last time. -/
  loop : Expr → List Statement → Int32 → Outcome → Attempt Outcome

namespace Rules

/-- Rules that may not be used. -/
def none : Rules :=
  have out {α : Type} : Attempt α := fun _ => Option.none
  ⟨fun _ => out, fun _ => out, fun _ => out, fun _ => out, fun _ => out, fun _ => out,
    fun _ => out, fun _ => out, fun _ => out, fun _ _ => out, fun _ _ _ _ => out⟩

/-- The rules, where `r` holds those that they use. -/
def once (r : Rules) : Rules where
  factor
    | .number n => return Int32.ofNat n
    | .variable name => of (Exec.lookup name)
    | .call c => do
      match (← r.call c).value? with
      | some value => return value
      | .none => throw (.noOutput c.name)
    | .grouped e => r.expr e
  call
    | .reporter what => return .ended (some (what.report (← get).turtle))
    | .procedure name arguments => do
      let p ← of (Exec.procedure name arguments.length)
      let inputs ← r.exprs arguments
      fun m =>
        if maxDepth ≤ m.calls then some (.error (.stackOverflow name.text), m)
        else do
          let (result, m') ← r.block .done p.body (m.enter (p.locals inputs))
          return (result, m'.leave)
  exprs
    | [] => return []
    | e :: es => do
      let value ← r.expr e
      return value :: (← r.exprs es)
  term
    | .single f => r.factor f
    | .chain f op rest => do
      let left ← r.factor f
      let right ← r.term rest
      match op.apply left right with
      | .ok value => return value
      | .error e => throw e
  expr
    | .single negated t => return signed negated (← r.term t)
    | .chain negated t op rest => do
      let left ← r.term t
      let right ← r.expr rest
      return op.apply (signed negated left) right
  clause
    | .constant value => return value
    | .negation c => return !(← r.condition c)
    | .braced c => r.condition c
    | .compared left op right => do
      let left ← r.expr left
      let right ← r.expr right
      return op.apply left right
  condition
    | .single c => r.clause c
    | .chain c op rest => do
      let left ← r.clause c
      match op, left with
      | .and, false => return false
      | .and, true => r.condition rest
      | .or, true => return true
      | .or, false => r.condition rest
      | .xor, left => return left != (← r.condition rest)
  command
    | .forward length => do
      let length ← r.expr length
      modify (·.forward length)
    | .back length => do
      let length ← r.expr length
      modify (·.forward (-length))
    | .right angle => do
      let angle ← r.expr angle
      modify (·.turn (-angle))
    | .left angle => do
      let angle ← r.expr angle
      modify (·.turn angle)
    | .moveBy dx dy => do
      let dx ← r.expr dx
      let dy ← r.expr dy
      modify (·.moveBy dx dy)
    | .moveTo x y => do
      let x ← r.expr x
      let y ← r.expr y
      modify (·.moveTo ⟨x, y⟩)
    | .setHeading heading => do
      let heading ← r.expr heading
      modify (·.setHeading heading)
    | .home => modify (·.home)
    | .clearScreen => modify (·.clear)
    | .penUp => modify (·.setPen false)
    | .penDown => modify (·.setPen true)
    | .setColor red green blue => do
      let red ← r.expr red
      let green ← r.expr green
      let blue ← r.expr blue
      modify (·.setColour red green blue)
    | .printText text => modify (·.print (text ++ "\n"))
    | .printNumber value => do
      let value ← r.expr value
      modify (·.print (toString value.toInt ++ "\n"))
    | .scan reach target => do
      let value ← of (Exec.prompt target)
      modify (·.assign reach target.text value)
    | .make reach target value => do
      let value ← r.expr value
      modify (·.assign reach target.text value)
    | .sleep milliseconds => do
      let ms ← r.expr milliseconds
      if ms < 0 then throw (.negativeSleep ms)
      else modify (·.tell (.sleeping ms.toInt))
  statement
    | .command c => do
      r.command c
      return .done
    | .call c => r.call c
    | .output value => return .output (← r.expr value)
    | .ifTrue c body => do
      if ← r.condition c then r.block .done body else return .done
    | .loop count body => if body.isEmpty then return .done else r.loop count body 0 .done
  block last
    | [] => return last
    | s :: rest => do
      let outcome ← r.statement s
      if outcome.isOutput then return outcome else r.block outcome rest
  loop count body counter last := do
    let n ← r.expr count
    if counter < n then
      let outcome ← r.block .done body
      if outcome.isOutput then return outcome else r.loop count body (counter + 1) outcome
    else return last

end Rules

/-- The rules, which may go so deep into each other. -/
def rules : (depth : Nat) → Rules
  | 0 => .none
  | depth + 1 => (rules depth).once

/-- Runs a part of a program. -/
def item (depth : Nat) : Item → Attempt Outcome
  | .definition p => do
    modify (·.define p)
    return .done
  | .statement s => (rules depth).statement s

/-- Runs a program. -/
def program (depth : Nat) (program : Program) : Attempt Unit :=
  program.forM fun part => discard (item depth part)

end Attempt

/-! ## Submitting -/

/-- What parsing a text makes of the machine. -/
def Machine.accept (m : Machine) (p : Parse) : Machine :=
  let known :=
    match p.result with
    | .error _ => p.known.restore m.procedures
    | .ok _ => p.known
  { m with procedures := known, journal := m.journal ++ p.events }

theorem Machine.read_eq (m : Machine) (text : String) :
    m.read text = ((parse m.procedures text).result, m.accept (parse m.procedures text)) := rfl

/-- Parses a text and runs it, with rules that may go so deep into each other. -/
def Machine.attempt (depth : Nat) (m : Machine) (text : String) : Option (Reply × Machine) := do
  let p ← Search.parse depth m.procedures text
  let m := m.accept p
  match p.result with
  | .error e => return m.reply (e.message ++ "\n")
  | .ok program =>
    match ← Attempt.program depth program m with
    | (.ok _, m) => return m.reply ""
    | (.error e, m) => return (m.tell (.failed e.message)).reply (e.message ++ "\n")

end Logo
