import Logo.Grammar.Bound

/-!
# The steps of a reader

Every rule of the grammar is put together from four steps: giving something without taking a token,
failing, going on after another reader, and letting the next token decide (`give`, `fail`,
`andThen`, `branch`). A rule that looks at the next token only to refuse it does so with `refuse`.
What holds of these steps, however they are put together, holds of the whole grammar.

Results: `factor_steps`, `term_steps`, `expr_steps`, `clause_steps`, `condition_steps`,
`target_steps`, `statement_steps`, `block_steps`, `body_steps`: the rules, written with these steps.
-/

namespace Logo

/-- The lexeme that comes next, if there is one. -/
def next (ts : List Token) : Option Lexeme := ts.head?.map Token.lexeme

@[simp] theorem next_nil : next [] = none := rfl

@[simp] theorem next_cons (t : Token) (ts : List Token) : next (t :: ts) = some t.lexeme := rfl

namespace Reader

variable {α β : Type}

/-- Takes nothing. -/
def give (a : α) : Reader α := fun ts => .ok (a, ts)

/-- Takes nothing and fails, for a reason that depends on what comes next. -/
def fail (why : Option Lexeme → Failure.Cause) : Reader α := fun ts => .error ⟨why (next ts), ts⟩

/-- Goes on with what is made of what was read first. -/
def andThen (r : Reader α) (more : α → Reader β) : Reader β := fun ts => do
  let (a, rest) ← r ts
  more a rest

/-- Takes the next token if `choose` tells how to go on after it. If not, `otherwise` begins with
that token. -/
def branch (choose : Token → Option (Reader α)) (otherwise : Reader α) : Reader α
  | [] => otherwise []
  | t :: rest =>
    match choose t with
    | some r => r rest
    | none => otherwise (t :: rest)

/-- Reads as `r` does, unless there is a reason against what comes next. -/
def refuse (why : Option Lexeme → Option Failure.Cause) (r : Reader α) : Reader α := fun ts =>
  match why (next ts) with
  | some cause => .error ⟨cause, ts⟩
  | none => r ts

theorem andThen_ok {r : Reader α} {more : α → Reader β} {ts rest : List Token} {a : α}
    (first : r ts = .ok (a, rest)) : r.andThen more ts = more a rest := by
  simp only [andThen, first, bind, Except.bind]

theorem andThen_error {r : Reader α} {more : α → Reader β} {ts : List Token} {f : Failure}
    (first : r ts = .error f) : r.andThen more ts = .error f := by
  simp only [andThen, first, bind, Except.bind]

theorem andThen_eq_ok {r : Reader α} {more : α → Reader β} {ts rest : List Token} {b : β} :
    r.andThen more ts = .ok (b, rest) ↔
      ∃ a between, r ts = .ok (a, between) ∧ more a between = .ok (b, rest) := by
  cases begun : r ts with
  | error f =>
    rw [andThen_error begun]
    exact ⟨nofun, fun ⟨_, _, read, _⟩ => nomatch read⟩
  | ok taken =>
    obtain ⟨a, between⟩ := taken
    rw [andThen_ok begun]
    refine ⟨fun read => ⟨a, between, rfl, read⟩, ?_⟩
    rintro ⟨_, _, ⟨⟩, read⟩
    exact read

theorem give_eq_ok {ts rest : List Token} {a b : α} :
    give a ts = .ok (b, rest) ↔ a = b ∧ ts = rest := by
  rw [give, Except.ok.injEq, Prod.mk.injEq]

theorem andThen_give_eq_ok {r : Reader α} {f : α → β} {ts rest : List Token} {b : β} :
    r.andThen (fun a => give (f a)) ts = .ok (b, rest) ↔ ∃ a, r ts = .ok (a, rest) ∧ f a = b := by
  rw [andThen_eq_ok]
  constructor
  · rintro ⟨a, between, read, ⟨⟩⟩
    exact ⟨a, read, rfl⟩
  · rintro ⟨a, read, rfl⟩
    exact ⟨a, rest, read, rfl⟩

theorem branch_some {choose : Token → Option (Reader α)} {otherwise r : Reader α} {t : Token}
    (chosen : choose t = some r) (rest : List Token) :
    branch choose otherwise (t :: rest) = r rest := by
  simp only [branch, chosen]

theorem branch_none {choose : Token → Option (Reader α)} {otherwise : Reader α} {t : Token}
    (left : choose t = none) (rest : List Token) :
    branch choose otherwise (t :: rest) = otherwise (t :: rest) := by
  simp only [branch, left]

/-- No token is taken by `choose`, if one comes next. -/
def Unchosen (choose : Token → Option (Reader α)) (ts : List Token) : Prop :=
  ∀ t ∈ ts.head?, choose t = none

theorem branch_unchosen {choose : Token → Option (Reader α)} {otherwise : Reader α}
    {ts : List Token} (unchosen : Unchosen choose ts) :
    branch choose otherwise ts = otherwise ts := by
  cases ts with
  | nil => rfl
  | cons t ts => exact branch_none (unchosen t rfl) ts

theorem unchosen_of_next {choose : Token → Option (Reader α)} {ts : List Token}
    (none : ∀ l p, next ts = some l → choose ⟨l, p⟩ = none) : Unchosen choose ts :=
  fun t first => none t.lexeme t.position (Option.map_eq_some_iff.2 ⟨t, first, rfl⟩)

theorem fail_takes (why : Option Lexeme → Failure.Cause) : Takes (fail why : Reader α) :=
  fun _ _ _ given => nomatch given

end Reader

namespace Grammar

open Reader

theorem missing_eq {α : Type} (what : Expectation) :
    (missing what : Reader α) = fail fun _ => .expected what := rfl

theorem expect_steps (l : Lexeme) (what : Expectation) :
    expect l what =
      branch (fun t => if t.lexeme = l then some (give ()) else none) (missing what) := by
  funext ts
  cases ts with
  | nil => rfl
  | cons t rest =>
    simp only [expect, branch]
    split <;> rfl

/-! ## Expressions -/

theorem argumentsWith_succ (expr : Reader Expr) (n : Nat) :
    argumentsWith expr (n + 1) =
      expr.andThen fun e => (argumentsWith expr n).andThen fun es => give (e :: es) := rfl

theorem call_procedure (sig : Signature) (name : String) (arity : Nat) (position : Position) :
    call sig (.procedure name arity) position =
      (argumentsWith (expr sig) arity).andThen fun es => give (.procedure ⟨name, position⟩ es) := rfl

/-- How an operand of a product goes on after its first token. -/
def factorAt (sig : Signature) (t : Token) : Option (Reader Factor) :=
  match callee? sig t.lexeme with
  | some callee => some ((call sig callee t.position).andThen fun c => give (.call c))
  | none =>
    match t.lexeme with
    | .number n => some (give (.number n))
    | .word w => some (give (.variable ⟨w, t.position⟩))
    | .parenOpen => some ((expr sig).andThen fun e =>
        (expect .parenClose .closingParenthesis).andThen fun _ => give (.grouped e))
    | _ => none

theorem factor_steps (sig : Signature) : factor sig = branch (factorAt sig) (missing .operand) := by
  funext ts
  cases ts with
  | nil => rfl
  | cons t rest =>
    simp only [factor, factorWith, branch, factorAt]
    cases callee? sig t.lexeme with
    | some callee => rfl
    | none => cases t.lexeme <;> rfl

/-- How a product goes on after its first operand, if the next token is an operator. -/
def termAfter (sig : Signature) (f : Factor) (t : Token) : Option (Reader Term) :=
  match t.lexeme with
  | .mulOp op => some ((term sig).andThen fun rest => give (.chain f op rest))
  | _ => none

theorem term_steps (sig : Signature) :
    term sig = (factor sig).andThen fun f => branch (termAfter sig f) (give (.single f)) := by
  funext ts
  rw [term_eq]
  refine bind_agree rfl fun ⟨f, rest⟩ _ => ?_
  rcases rest with _ | ⟨⟨l, p⟩, rest⟩
  · rfl
  · cases l <;> rfl

/-- Reads a sum after its sign. -/
def sum (sig : Signature) (negated : Bool) : Reader Expr := sumWith (term sig) (expr sig) negated

/-- How a sum goes on after its first term, if the next token is an operator. -/
def sumAfter (sig : Signature) (negated : Bool) (first : Term) (t : Token) :
    Option (Reader Expr) :=
  match t.lexeme with
  | .addOp op => some ((expr sig).andThen fun rest => give (.chain negated first op rest))
  | _ => none

theorem sum_steps (sig : Signature) (negated : Bool) :
    sum sig negated =
      (term sig).andThen fun t => branch (sumAfter sig negated t) (give (.single negated t)) := by
  funext ts
  refine bind_agree rfl fun ⟨t, rest⟩ _ => ?_
  rcases rest with _ | ⟨⟨l, p⟩, rest⟩
  · rfl
  · cases l <;> rfl

/-- How a sum goes on after its sign. -/
def exprAt (sig : Signature) (t : Token) : Option (Reader Expr) :=
  match t.lexeme with
  | .addOp sign => some (sum sig (sign = .minus))
  | _ => none

theorem expr_steps (sig : Signature) : expr sig = branch (exprAt sig) (sum sig false) := by
  funext ts
  rw [expr_eq]
  rcases ts with _ | ⟨⟨l, p⟩, rest⟩
  · rfl
  · cases l <;> rfl

/-! ## Conditions -/

/-- How a comparison goes on after its left side. -/
def comparisonAfter (sig : Signature) (left : Expr) (t : Token) : Option (Reader Clause) :=
  match t.lexeme with
  | .comparison op => some ((expr sig).andThen fun right => give (.compared left op right))
  | _ => none

theorem comparison_steps (sig : Signature) :
    comparison sig =
      (expr sig).andThen fun left => branch (comparisonAfter sig left) (missing .comparison) := by
  funext ts
  refine bind_agree rfl fun ⟨left, rest⟩ _ => ?_
  rcases rest with _ | ⟨⟨l, p⟩, rest⟩
  · rfl
  · cases l <;> rfl

/-- How a clause that is no comparison goes on after its first token. -/
def clauseAt (sig : Signature) (t : Token) : Option (Reader Clause) :=
  match t.lexeme with
  | .keyword .truth => some (give (.constant true))
  | .keyword .falsehood => some (give (.constant false))
  | .keyword .not => some ((condition sig).andThen fun c => give (.negation c))
  | .braceOpen => some ((condition sig).andThen fun c =>
      (expect .braceClose .closingBrace).andThen fun _ => give (.braced c))
  | _ => none

theorem clause_steps (sig : Signature) : clause sig = branch (clauseAt sig) (comparison sig) := by
  funext ts
  rcases ts with _ | ⟨⟨l, p⟩, rest⟩
  · rfl
  · cases l with
    | keyword k => cases k <;> rfl
    | _ => rfl

/-- How a condition goes on after its first clause, if the next token is a connective. -/
def conditionAfter (sig : Signature) (first : Clause) (t : Token) : Option (Reader Condition) :=
  (connective? t.lexeme).map fun op => (condition sig).andThen fun c => give (.chain first op c)

theorem condition_steps (sig : Signature) :
    condition sig =
      (clause sig).andThen fun c => branch (conditionAfter sig c) (give (.single c)) := by
  funext ts
  rw [condition_eq]
  refine bind_agree rfl fun ⟨c, rest⟩ _ => ?_
  rcases rest with _ | ⟨t, rest⟩
  · rfl
  · simp only [branch, conditionAfter]
    cases connective? t.lexeme <;> rfl

/-! ## Statements -/

/-- How the name of a variable that is to be set is read. -/
def targetAt (sig : Signature) (t : Token) : Option (Reader Name) :=
  match t.lexeme with
  | .word name | .quoted name => if (sig name).isSome then none else some (give ⟨name, t.position⟩)
  | _ => none

/-- Why what comes next is no variable that can be set. -/
def targetFault (sig : Signature) : Option Lexeme → Failure.Cause
  | some (.word name) | some (.quoted name) =>
    if (sig name).isSome then .notAVariable name else .expected .variableName
  | _ => .expected .variableName

theorem target_steps (sig : Signature) : target sig = branch (targetAt sig) (fail (targetFault sig)) := by
  funext ts
  rcases ts with _ | ⟨⟨l, p⟩, rest⟩
  · rfl
  · cases l with
    | word name | quoted name =>
      simp only [target, branch, targetAt, fail, targetFault, next_cons]
      cases h : (sig name).isSome <;> simp [give]
    | _ => rfl

theorem operand_eq (sig : Signature) {α : Type} (make : Expr → α) :
    operand sig make = (expr sig).andThen fun a => give (make a) := rfl

theorem operands₂_eq (sig : Signature) {α : Type} (make : Expr → Expr → α) :
    operands₂ sig make = (expr sig).andThen fun a => (expr sig).andThen fun b => give (make a b) := rfl

theorem operands₃_eq (sig : Signature) {α : Type} (make : Expr → Expr → Expr → α) :
    operands₃ sig make =
      (expr sig).andThen fun a => (expr sig).andThen fun b => (expr sig).andThen fun c =>
        give (make a b c) := rfl

theorem scan_eq (sig : Signature) (reach : Reach) :
    scan sig reach = (target sig).andThen fun name => give (.scan reach name) := rfl

theorem make_eq (sig : Signature) (reach : Reach) :
    make sig reach =
      (target sig).andThen fun name => (expr sig).andThen fun value =>
        give (.make reach name value) := rfl

/-- How a command that sets a variable of a procedure's own goes on after `local`. -/
def localAt (sig : Signature) (t : Token) : Option (Reader Command) :=
  match t.lexeme with
  | .keyword .make => some (make sig .own)
  | .keyword .scan => some (scan sig .own)
  | _ => none

theorem localTo_steps (sig : Signature) :
    localTo sig = branch (localAt sig) (missing .makeOrScan) := by
  funext ts
  rcases ts with _ | ⟨⟨l, p⟩, rest⟩
  · rfl
  · cases l with
    | keyword k => cases k <;> rfl
    | _ => rfl

/-- How `print` goes on, if a text comes next. -/
def printAt (t : Token) : Option (Reader Command) :=
  match t.lexeme with
  | .quoted text => some (give (.printText text))
  | _ => none

theorem print_steps (sig : Signature) : print sig = branch printAt (operand sig .printNumber) := by
  funext ts
  rcases ts with _ | ⟨⟨l, p⟩, rest⟩
  · rfl
  · cases l <;> rfl

/-- Reads an opening bracket and the statements up to the closing one. -/
def bracketed (sig : Signature) : Reader (List Statement) :=
  (expect .bracketOpen .openingBracket).andThen fun _ => block sig

theorem keywordStatement?_ifTrue (sig : Signature) :
    keywordStatement? sig (block sig) .ifTrue =
      some ((condition sig).andThen fun c => (bracketed sig).andThen fun body =>
        give (.ifTrue c body)) := by
  refine congrArg some (funext fun ts => bind_agree rfl fun ⟨c, rest⟩ _ => ?_)
  simp only [bracketed, andThen, bind_assoc]
  rfl

theorem keywordStatement?_loop (sig : Signature) :
    keywordStatement? sig (block sig) .loop =
      some ((expr sig).andThen fun count => (bracketed sig).andThen fun body =>
        give (.loop count body)) := by
  refine congrArg some (funext fun ts => bind_agree rfl fun ⟨count, rest⟩ _ => ?_)
  simp only [bracketed, andThen, bind_assoc]
  rfl

/-- A statement that begins with a reserved word is an `output`, an `if`, a `repeat` or a command. -/
theorem keywordStatement?_cases {sig : Signature} {k : Keyword} {r : Reader Statement}
    (begins : keywordStatement? sig (block sig) k = some r) :
    (k = .output ∧ r = operand sig .output) ∨
    (k = .ifTrue ∧ r = (condition sig).andThen fun c => (bracketed sig).andThen fun body =>
      give (.ifTrue c body)) ∨
    (k = .loop ∧ r = (expr sig).andThen fun count => (bracketed sig).andThen fun body =>
      give (.loop count body)) ∨
    ∃ command, command? sig k = some command ∧ r = command.andThen fun c => give (.command c) := by
  cases k with
  | output => exact .inl ⟨rfl, (Option.some.inj begins).symm⟩
  | ifTrue =>
    exact .inr (.inl ⟨rfl, Option.some.inj (begins.symm.trans (keywordStatement?_ifTrue sig))⟩)
  | loop =>
    exact .inr (.inr (.inl
      ⟨rfl, Option.some.inj (begins.symm.trans (keywordStatement?_loop sig))⟩))
  | _ =>
    simp only [keywordStatement?] at begins
    obtain ⟨command, found, rfl⟩ := Option.map_eq_some_iff.1 begins
    exact .inr (.inr (.inr ⟨command, found, rfl⟩))

/-- How a statement goes on after its first token. -/
def statementAt (sig : Signature) (t : Token) : Option (Reader Statement) :=
  match callee? sig t.lexeme with
  | some callee => some ((call sig callee t.position).andThen fun c => give (.call c))
  | none =>
    match t.lexeme with
    | .keyword k => keywordStatement? sig (block sig) k
    | _ => none

theorem statement_steps (sig : Signature) :
    statement sig = branch (statementAt sig) (missing .statement) := by
  funext ts
  rcases ts with _ | ⟨t, rest⟩
  · rfl
  · simp only [statement, statementWith, branch, statementAt]
    cases callee? sig t.lexeme with
    | some callee => rfl
    | none =>
      cases t.lexeme with
      | keyword k =>
        dsimp only
        cases keywordStatement? sig (block sig) k <;> rfl
      | _ => rfl

/-- Ends a list of statements at the lexeme `l`. -/
def closeAt (l : Lexeme) (t : Token) : Option (Reader (List Statement)) :=
  if t.lexeme = l then some (give []) else none

/-- Why a block does not go on. -/
def blockFault : Option Lexeme → Option Failure.Cause
  | none => some (.expected .closingBracket)
  | some _ => none

theorem block_steps (sig : Signature) :
    block sig = branch (closeAt .bracketClose) (refuse blockFault
      ((statement sig).andThen fun s => (block sig).andThen fun ss => give (s :: ss))) := by
  funext ts
  conv => lhs; rw [block_eq]
  rcases ts with _ | ⟨⟨l, p⟩, rest⟩
  · rfl
  · cases l <;> rfl

/-- Why the body of the procedure `outer` does not go on. -/
def bodyFault (outer : String) : Option Lexeme → Option Failure.Cause
  | none => some (.expected .endOfDefinition)
  | some (.keyword .define) => some (.nestedDefinition outer)
  | some _ => none

theorem body_steps (sig : Signature) (outer : String) :
    body sig outer = branch (closeAt (.keyword .endDefine)) (refuse (bodyFault outer)
      ((statement sig).andThen fun s => (body sig outer).andThen fun ss => give (s :: ss))) := by
  funext ts
  conv => lhs; rw [body_eq]
  rcases ts with _ | ⟨⟨l, p⟩, rest⟩
  · rfl
  · cases l with
    | keyword k => cases k <;> rfl
    | _ => rfl

/-! ## Programs -/

theorem program_definition (known : Procedures) (position : Position) (ts : List Token) :
    program known (⟨.keyword .define, position⟩ :: ts) = definitionWith known program ts := by
  rw [program_eq]
  rfl

theorem program_statement {known : Procedures} {t : Token} {ts : List Token}
    (first : t.lexeme ≠ .keyword .define) :
    program known (t :: ts) =
      match statement known.signature (t :: ts) with
      | .error f => ⟨[], known, .error f⟩
      | .ok (s, rest) => (program known rest).after [] (.statement s) := by
  conv => lhs; rw [program_eq]
  obtain ⟨l, p⟩ := t
  cases l with
  | keyword k =>
    cases k with
    | define => exact absurd rfl first
    | _ => rfl
  | _ => rfl

end Grammar

end Logo
