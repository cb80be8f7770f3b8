import Logo.Grammar.Basic

/-!
# Reading expressions

    expr   = [sign] term [(+ | -) expr]
    term   = factor [(* | /) term]
    factor = number | call | variable | ( expr )
    call   = reporter | procedure expr ... expr

A word is a call if a procedure of that name is known, and a variable otherwise. A call takes as
many expressions as its procedure has parameters; nothing marks where they end.
-/

namespace Logo.Grammar

/-- What a token calls. -/
inductive Callee where
  | reporter (what : Reporter)
  | procedure (name : String) (arity : Nat)
  deriving DecidableEq, Repr

/-- What a lexeme calls, if it calls anything: a reporter, or a procedure that is known. -/
def callee? (sig : Signature) : Lexeme → Option Callee
  | .keyword .getX => some (.reporter .x)
  | .keyword .getY => some (.reporter .y)
  | .keyword .getHeading => some (.reporter .heading)
  | .word name => (sig name).map (.procedure name)
  | _ => none

/-! ## The rules -/

/-- Reads `n` expressions. -/
def argumentsWith (expr : Reader Expr) : Nat → Reader (List Expr)
  | 0, ts => .ok ([], ts)
  | n + 1, ts => do
    let (e, rest) ← expr ts
    let (es, rest) ← argumentsWith expr n rest
    .ok (e :: es, rest)

/-- Reads what a call needs after its name, which stands at `position`. -/
def callWith (expr : Reader Expr) (callee : Callee) (position : Position) : Reader Call := fun ts =>
  match callee with
  | .reporter what => .ok (.reporter what, ts)
  | .procedure name arity => do
    let (es, rest) ← argumentsWith expr arity ts
    .ok (.procedure ⟨name, position⟩ es, rest)

/-- Reads an operand of a product. -/
def factorWith (sig : Signature) (expr : Reader Expr) : Reader Factor
  | [] => missing .operand []
  | t :: rest =>
    match callee? sig t.lexeme with
    | some callee => do
      let (c, rest) ← callWith expr callee t.position rest
      .ok (.call c, rest)
    | none =>
      match t.lexeme with
      | .number n => .ok (.number n, rest)
      | .word w => .ok (.variable ⟨w, t.position⟩, rest)
      | .parenOpen => do
        let (e, rest) ← expr rest
        let (_, rest) ← expect .parenClose .closingParenthesis rest
        .ok (.grouped e, rest)
      | _ => missing .operand (t :: rest)

/-- Reads a product, with `term` for what comes after its first operator. -/
def termWith (factor : Reader Factor) (term : Reader Term) : Reader Term := fun ts => do
  let (f, rest) ← factor ts
  match rest with
  | ⟨.mulOp op, _⟩ :: more =>
    let (t, rest) ← term more
    .ok (.chain f op t, rest)
  | _ => .ok (.single f, rest)

/-- Reads a sum after its sign, with `expr` for what comes after its first operator. -/
def sumWith (term : Reader Term) (expr : Reader Expr) (negated : Bool) : Reader Expr := fun ts => do
  let (t, rest) ← term ts
  match rest with
  | ⟨.addOp op, _⟩ :: more =>
    let (e, rest) ← expr more
    .ok (.chain negated t op e, rest)
  | _ => .ok (.single negated t, rest)

/-- Reads a sum. -/
def exprWith (term : Reader Term) (expr : Reader Expr) : Reader Expr
  | ⟨.addOp sign, _⟩ :: rest => sumWith term expr (sign = .minus) rest
  | ts => sumWith term expr false ts

/-! ## The rules tied together -/

mutual

/-- Reads a product from at most so many tokens. -/
def termWithin (sig : Signature) : Nat → Reader Term
  | 0, ts => missing .operand ts
  | n + 1, ts => termWith (factorWith sig (exprWithin sig n)) (termWithin sig n) ts

/-- Reads a sum from at most so many tokens. -/
def exprWithin (sig : Signature) : Nat → Reader Expr
  | 0, ts => missing .operand ts
  | n + 1, ts =>
    exprWith (termWith (factorWith sig (exprWithin sig n)) (termWithin sig n)) (exprWithin sig n) ts

end

/-- Reads a sum. -/
def expr (sig : Signature) : Reader Expr := fun ts => exprWithin sig ts.length ts

/-- Reads a product. -/
def term (sig : Signature) : Reader Term := fun ts => termWithin sig ts.length ts

/-- Reads an operand of a product. -/
def factor (sig : Signature) : Reader Factor := factorWith sig (expr sig)

/-- Reads what a call needs after its name, which stands at `position`. -/
def call (sig : Signature) : Callee → Position → Reader Call := callWith (expr sig)

end Logo.Grammar
