import Logo.Grammar.Expression

/-!
# Reading conditions

    condition = clause [(and | or | xor) condition]
    clause    = true | false | not condition | { condition } | expr (< | > | = | !=) expr

A `not` applies to all of the condition that follows it.
-/

namespace Logo.Grammar

/-- The connective that a lexeme is. -/
def connective? : Lexeme → Option Connective
  | .keyword .and => some .and
  | .keyword .or => some .or
  | .keyword .xor => some .xor
  | _ => none

/-- Reads two expressions with a comparison between them. -/
def comparison (sig : Signature) : Reader Clause := fun ts => do
  let (left, rest) ← expr sig ts
  match rest with
  | ⟨.comparison op, _⟩ :: more =>
    let (right, rest) ← expr sig more
    .ok (.compared left op right, rest)
  | _ => missing .comparison rest

/-- Reads a clause, with `condition` for what comes after a `not` or an opening brace. -/
def clauseWith (sig : Signature) (condition : Reader Condition) : Reader Clause
  | ⟨.keyword .truth, _⟩ :: rest => .ok (.constant true, rest)
  | ⟨.keyword .falsehood, _⟩ :: rest => .ok (.constant false, rest)
  | ⟨.keyword .not, _⟩ :: rest => do
    let (c, rest) ← condition rest
    .ok (.negation c, rest)
  | ⟨.braceOpen, _⟩ :: rest => do
    let (c, rest) ← condition rest
    let (_, rest) ← expect .braceClose .closingBrace rest
    .ok (.braced c, rest)
  | ts => comparison sig ts

/-- Reads a condition, with `condition` for what comes after its first connective. -/
def conditionWith (clause : Reader Clause) (condition : Reader Condition) : Reader Condition :=
  fun ts => do
    let (first, rest) ← clause ts
    match rest with
    | [] => .ok (.single first, [])
    | t :: more =>
      match connective? t.lexeme with
      | some op => do
        let (c, rest) ← condition more
        .ok (.chain first op c, rest)
      | none => .ok (.single first, t :: more)

/-- Reads a condition from at most so many tokens. -/
def conditionWithin (sig : Signature) : Nat → Reader Condition
  | 0, ts => missing .operand ts
  | n + 1, ts =>
    conditionWith (clauseWith sig (conditionWithin sig n)) (conditionWithin sig n) ts

/-- Reads a condition. -/
def condition (sig : Signature) : Reader Condition := fun ts => conditionWithin sig ts.length ts

/-- Reads a clause. -/
def clause (sig : Signature) : Reader Clause := clauseWith sig (condition sig)

end Logo.Grammar
