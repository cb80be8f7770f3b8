import Mathlib
import Logo.Proofs.Parts
import Logo.Proofs.Writing

/-!
# What is written is read again

Nothing marks where the inputs of a call end, so not every program can be told from its writing:
`f 1 + 2` calls `f` with `1 + 2`, and is never a sum of which the first term is a call. In the same way
a minus at the beginning of an operand is taken as the operator after the operand before it, and a `not`
takes all that follows it. A program is clear if its writing says it in spite of this (`Program.Clear`).

A clear program whose names fit comes of parsing its writing. Its tokens (`tokensOf`) are read exactly
as the program; that the tokens of the text, which have the same lexemes, are then read as the same
program but for the places of names is known from `Reads.again`.

Results:
1. `expr_read`, `condition_read`, `statement_read`, `body_read`: what is written is read, one rule after
   the other.
2. `reads_tokens`: so it is for programs.
3. `parse_spelled`: so it is for whole texts.
-/

namespace Logo

/-! ## What can be said in writing -/

/-- The call has inputs, and nothing marks where they end. -/
def Call.isOpen : Call → Bool
  | .procedure _ (_ :: _) => true
  | _ => false

def Factor.isOpen : Factor → Bool
  | .call c => c.isOpen
  | _ => false

/-- The last operand of a product is open. -/
def Term.endsOpen : Term → Bool
  | .single f => f.isOpen
  | .chain _ _ rest => rest.endsOpen

/-- The sum begins with a minus. -/
def Expr.negated : Expr → Bool
  | .single negated _ => negated
  | .chain negated _ _ _ => negated

mutual

def Factor.Clear : Factor → Prop
  | .number _ => True
  | .variable _ => True
  | .call c => c.Clear
  | .grouped e => e.Clear

def Call.Clear : Call → Prop
  | .reporter _ => True
  | .procedure _ arguments => ClearAll arguments

/-- Expressions that are written one after the other: a minus at the beginning of one would belong to
the one before it. -/
def ClearAll : List Expr → Prop
  | [] => True
  | e :: es => e.Clear ∧ (∀ e' ∈ es.head?, e'.negated = false) ∧ ClearAll es

/-- An operator after the last input of a call would belong to that input. -/
def Term.Clear : Term → Prop
  | .single f => f.Clear
  | .chain f _ rest => f.Clear ∧ f.isOpen = false ∧ rest.Clear

def Expr.Clear : Expr → Prop
  | .single _ t => t.Clear
  | .chain _ t _ rest => t.Clear ∧ t.endsOpen = false ∧ rest.Clear

end

def Clause.isNegation : Clause → Bool
  | .negation _ => true
  | _ => false

mutual

def Clause.Clear : Clause → Prop
  | .constant _ => True
  | .negation c => c.Clear
  | .braced c => c.Clear
  | .compared left _ right => left.Clear ∧ right.Clear

/-- A connective after what a `not` applies to would belong to that. -/
def Condition.Clear : Condition → Prop
  | .single c => c.Clear
  | .chain c _ rest => c.Clear ∧ c.isNegation = false ∧ rest.Clear

end

mutual

def Statement.Clear : Statement → Prop
  | .command c => ClearAll c.operands
  | .call c => c.Clear
  | .output value => value.Clear
  | .ifTrue condition body => condition.Clear ∧ ClearBlock body
  | .loop count body => count.Clear ∧ ClearBlock body

def ClearBlock : List Statement → Prop
  | [] => True
  | s :: rest => s.Clear ∧ ClearBlock rest

end

def Item.Clear : Item → Prop
  | .definition p => ClearBlock p.body
  | .statement s => s.Clear

/-- Whether the writing of the program says the program. -/
def Program.Clear (program : Program) : Prop := ∀ item ∈ program, item.Clear

/-! ## Tokens of marks -/

/-- The tokens that write a mark, where the place of a name is the one that it has. -/
def Mark.tokens : Mark → List Token
  | .lexeme l => [⟨l, .start⟩]
  | .sign true => [⟨.addOp .minus, .start⟩]
  | .sign false => []
  | .variable name => [⟨.word name.text, name.position⟩]
  | .callee name _ => [⟨.word name.text, name.position⟩]
  | .target name => [⟨.quoted name.text, name.position⟩]

/-- The tokens that write some marks. -/
def tokensOf (marks : List Mark) : List Token := marks.flatMap Mark.tokens

@[simp] theorem tokensOf_nil : tokensOf [] = [] := rfl

@[simp] theorem tokensOf_cons (mark : Mark) (marks : List Mark) :
    tokensOf (mark :: marks) = mark.tokens ++ tokensOf marks := rfl

@[simp] theorem tokensOf_append (marks marks' : List Mark) :
    tokensOf (marks ++ marks') = tokensOf marks ++ tokensOf marks' := List.flatMap_append

theorem lexemes_tokensOf (marks : List Mark) :
    (tokensOf marks).map Token.lexeme = marks.flatMap Mark.lexemes := by
  have one (mark : Mark) : mark.tokens.map Token.lexeme = mark.lexemes := by
    cases mark with
    | sign negated => cases negated <;> rfl
    | _ => rfl
  rw [tokensOf, List.map_flatMap]
  simp only [one]

/-! ## What comes next -/

def Lexeme.isOperator : Lexeme → Bool
  | .addOp _ | .mulOp _ => true
  | _ => false

/-- The lexemes that an operand of a product begins with. -/
def Lexeme.beginsFactor : Lexeme → Bool
  | .number _ | .word _ | .parenOpen => true
  | .keyword .getX | .keyword .getY | .keyword .getHeading => true
  | _ => false

/-- No operator between operands comes next. -/
def NoOperator (ts : List Token) : Prop := ∀ l ∈ next ts, l.isOperator = false

/-- No operator of a product comes next. -/
def NoMulOp (ts : List Token) : Prop := ∀ op, next ts ≠ some (.mulOp op)

/-- No operator between conditions comes next. -/
def NoConnective (ts : List Token) : Prop := ∀ l ∈ next ts, Grammar.connective? l = none

/-- An operand of a product comes next. -/
def FactorNext (ts : List Token) : Prop := ∃ l, next ts = some l ∧ l.beginsFactor = true

theorem FactorNext.noOperator {ts : List Token} (comes : FactorNext ts) : NoOperator ts := by
  obtain ⟨l, first, begins⟩ := comes
  intro l' first'
  obtain rfl := Option.some.inj (first.symm.trans first')
  cases l <;> first | rfl | cases begins

theorem NoOperator.noMulOp {ts : List Token} (apart : NoOperator ts) : NoMulOp ts :=
  fun _ first => nomatch apart _ first

theorem Call.next_tokens (c : Call) (rest : List Token) : FactorNext (tokensOf c.marks ++ rest) := by
  cases c with
  | reporter what => cases what <;> exact ⟨_, rfl, rfl⟩
  | procedure name arguments => exact ⟨_, rfl, rfl⟩

theorem Factor.next_tokens (f : Factor) (rest : List Token) :
    FactorNext (tokensOf f.marks ++ rest) := by
  cases f with
  | call c => exact c.next_tokens rest
  | _ => exact ⟨_, rfl, rfl⟩

theorem Term.next_tokens (t : Term) (rest : List Token) : FactorNext (tokensOf t.marks ++ rest) := by
  cases t with
  | single f => exact f.next_tokens rest
  | chain f op t =>
    rw [Term.marks, tokensOf_append, List.append_assoc]
    exact f.next_tokens _

theorem Expr.next_tokens {e : Expr} (unsigned : e.negated = false) (rest : List Token) :
    FactorNext (tokensOf e.marks ++ rest) := by
  cases e with
  | single negated t =>
    obtain rfl := unsigned
    exact t.next_tokens rest
  | chain negated t op e =>
    obtain rfl := unsigned
    rw [Expr.marks, tokensOf_cons, tokensOf_append, List.append_assoc, List.append_assoc]
    exact t.next_tokens _

/-- No operator comes next where nothing is written, or first an expression without a minus. -/
theorem unsigned_noOperator {es : List Expr} {rest : List Token}
    (unsigned : ∀ e ∈ es.head?, e.negated = false) (apart : NoOperator rest) :
    NoOperator (tokensOf (marksOfAll es) ++ rest) := by
  cases es with
  | nil => exact apart
  | cons e es =>
    rw [marksOfAll, tokensOf_append, List.append_assoc]
    exact (Expr.next_tokens (unsigned e rfl) _).noOperator

/-- An expression begins with a minus or with an operand. -/
theorem Expr.next_cases (e : Expr) (rest : List Token) :
    next (tokensOf e.marks ++ rest) = some (.addOp .minus) ∨ FactorNext (tokensOf e.marks ++ rest) := by
  cases signed : e.negated with
  | false => exact .inr (next_tokens signed rest)
  | true =>
    refine .inl ?_
    cases e with
    | single negated t | chain negated t op e =>
      obtain rfl := signed
      rfl

namespace Grammar

open Reader

variable {sig : Signature}

/-! ## Expressions -/

theorem branch_give {α : Type} {choose : Token → Option (Reader α)} {a : α} {ts : List Token}
    (unchosen : Unchosen choose ts) : branch choose (give a) ts = .ok (a, ts) :=
  branch_unchosen unchosen

theorem termAfter_unchosen {rest : List Token} (apart : NoMulOp rest) (f : Factor) :
    Unchosen (termAfter sig f) rest := by
  refine unchosen_of_next fun l p first => ?_
  cases l with
  | mulOp op => exact absurd first (apart op)
  | _ => rfl

theorem sumAfter_unchosen {rest : List Token} (apart : NoOperator rest) (negated : Bool)
    (t : Term) : Unchosen (sumAfter sig negated t) rest := by
  refine unchosen_of_next fun l p first => ?_
  cases l with
  | addOp op => cases apart _ first
  | _ => rfl

/-- A sum is read after its sign. -/
theorem expr_signed (negated : Bool) {ts : List Token} (comes : FactorNext ts) :
    expr sig ((Mark.sign negated).tokens ++ ts) = sum sig negated ts := by
  rw [expr_steps]
  cases negated with
  | true => rfl
  | false =>
    refine branch_unchosen (unchosen_of_next fun l p first => ?_)
    have other := comes.noOperator l first
    cases l with
    | addOp op => cases other
    | _ => rfl

theorem expect_ok (l : Lexeme) (what : Expectation) (p : Position) (rest : List Token) :
    expect l what (⟨l, p⟩ :: rest) = .ok ((), rest) := if_pos rfl

/-- What stands between parentheses or braces. -/
theorem enclosed_read {α β : Type} {r : Reader α} {f : α → β} {a : α} {l : Lexeme}
    {what : Expectation} {ts rest : List Token} {p : Position}
    (inner : r (ts ++ ⟨l, p⟩ :: rest) = .ok (a, ⟨l, p⟩ :: rest)) :
    (r.andThen fun a => (expect l what).andThen fun _ => give (f a)) (ts ++ ⟨l, p⟩ :: rest) =
      .ok (f a, rest) := by
  rw [andThen_ok inner, andThen_ok (expect_ok l what p rest)]
  rfl

-- By recursion on the tree. What follows the last part of a tree is what follows the tree, so that
-- the conditions on `rest` are handed on to that part; the other parts are followed by an operator,
-- a closing sign or one more operand of the same tree.
mutual

/-- An operand of a product is read from the tokens that write it, unless an operator after them is
taken as part of its last input. -/
theorem factor_read (f : Factor) (rest : List Token) (fits : ∀ mark ∈ f.marks, mark.Fits sig)
    (clear : f.Clear) (apart : f.isOpen = true → NoOperator rest) :
    factor sig (tokensOf f.marks ++ rest) = .ok (f, rest) := by
  rw [factor_steps]
  cases f with
  | number n => rfl
  | «variable» name =>
    have free : sig name.text = none := fits (.variable name) List.mem_cons_self
    refine (branch_some (r := give (.variable name)) ?_ rest).trans rfl
    simp only [factorAt, callee?, free, Option.map_none]
  | call c =>
    obtain ⟨l, p, ts, callee, tokens, called, reads⟩ := call_read c rest fits clear apart
    rw [Factor.marks, tokens, List.cons_append]
    have chosen : factorAt sig ⟨l, p⟩ =
        some ((call sig callee p).andThen fun c => give (.call c)) := by
      simp only [factorAt, called]
    exact (branch_some chosen _).trans (andThen_ok reads)
  | grouped e =>
    have fits' : ∀ mark ∈ e.marks, mark.Fits sig := fun mark among =>
      fits mark (List.mem_cons_of_mem _ (List.mem_append_left _ among))
    have inner := expr_read e (⟨.parenClose, .start⟩ :: rest) fits' clear
      (fun l first => by cases first; rfl)
    rw [Factor.marks, tokensOf_cons, tokensOf_append, List.append_assoc, List.append_assoc]
    exact enclosed_read inner

/-- A call is read from what stands after its first token. -/
theorem call_read (c : Call) (rest : List Token) (fits : ∀ mark ∈ c.marks, mark.Fits sig)
    (clear : c.Clear) (apart : c.isOpen = true → NoOperator rest) :
    ∃ l p ts callee, tokensOf c.marks = ⟨l, p⟩ :: ts ∧ callee? sig l = some callee ∧
      call sig callee p (ts ++ rest) = .ok (c, rest) := by
  cases c with
  | reporter what => cases what <;> exact ⟨_, _, [], _, rfl, rfl, rfl⟩
  | procedure name arguments =>
    obtain ⟨bound, fits'⟩ := List.forall_mem_cons.1 fits
    have bound : sig name.text = some arguments.length := bound
    refine ⟨.word name.text, name.position, tokensOf (marksOfAll arguments),
      .procedure name.text arguments.length, rfl, ?_, ?_⟩
    · rw [callee?, bound]
      rfl
    · rw [call_procedure]
      refine andThen_ok (arguments_read arguments rest fits' clear fun some => apart ?_)
      cases arguments with
      | nil => exact absurd rfl some
      | cons e es => rfl

/-- Inputs are read one after the other. -/
theorem arguments_read (es : List Expr) (rest : List Token)
    (fits : ∀ mark ∈ marksOfAll es, mark.Fits sig) (clear : ClearAll es)
    (apart : es ≠ [] → NoOperator rest) :
    argumentsWith (expr sig) es.length (tokensOf (marksOfAll es) ++ rest) = .ok (es, rest) := by
  cases es with
  | nil => rfl
  | cons e es =>
    obtain ⟨first, others⟩ := List.forall_mem_append.1 fits
    obtain ⟨clear₁, unsigned, clear₂⟩ := clear
    have apart' := unsigned_noOperator unsigned (apart (List.cons_ne_nil e es))
    rw [marksOfAll, tokensOf_append, List.append_assoc, List.length_cons, argumentsWith_succ,
      andThen_ok (expr_read e _ first clear₁ apart')]
    exact andThen_ok (arguments_read es rest others clear₂ fun _ => apart (List.cons_ne_nil _ _))

theorem term_read (t : Term) (rest : List Token) (fits : ∀ mark ∈ t.marks, mark.Fits sig)
    (clear : t.Clear) (apart : NoMulOp rest) (apart' : t.endsOpen = true → NoOperator rest) :
    term sig (tokensOf t.marks ++ rest) = .ok (t, rest) := by
  rw [term_steps]
  cases t with
  | single f =>
    rw [Term.marks, andThen_ok (factor_read f rest fits clear apart')]
    exact branch_give (termAfter_unchosen apart f)
  | chain f op t =>
    obtain ⟨first, others⟩ := List.forall_mem_append.1 fits
    obtain ⟨clear₁, closed, clear₂⟩ := clear
    have head := factor_read f (⟨.mulOp op, .start⟩ :: (tokensOf t.marks ++ rest)) first clear₁
      (fun opens => nomatch closed.symm.trans opens)
    rw [Term.marks, tokensOf_append, List.append_assoc]
    refine (andThen_ok head).trans ?_
    refine (branch_some rfl _).trans (andThen_ok (term_read t rest ?_ clear₂ apart apart'))
    exact (List.forall_mem_cons.1 others).2

theorem expr_read (e : Expr) (rest : List Token) (fits : ∀ mark ∈ e.marks, mark.Fits sig)
    (clear : e.Clear) (apart : NoOperator rest) :
    expr sig (tokensOf e.marks ++ rest) = .ok (e, rest) := by
  cases e with
  | single negated t =>
    have fits' := (List.forall_mem_cons.1 fits).2
    rw [Expr.marks, tokensOf_cons, List.append_assoc, expr_signed negated (t.next_tokens rest),
      sum_steps, andThen_ok (term_read t rest fits' clear apart.noMulOp fun _ => apart)]
    exact branch_give (sumAfter_unchosen apart negated t)
  | chain negated t op e =>
    obtain ⟨first, others⟩ := List.forall_mem_append.1 (List.forall_mem_cons.1 fits).2
    obtain ⟨clear₁, closed, clear₂⟩ := clear
    have head := term_read t (⟨.addOp op, .start⟩ :: (tokensOf e.marks ++ rest)) first clear₁
      (fun _ => nofun) (fun opens => nomatch closed.symm.trans opens)
    rw [Expr.marks, tokensOf_cons, tokensOf_append, List.append_assoc, List.append_assoc,
      expr_signed negated (t.next_tokens _), sum_steps]
    refine (andThen_ok head).trans ?_
    refine (branch_some rfl _).trans (andThen_ok (expr_read e rest ?_ clear₂ apart))
    exact (List.forall_mem_cons.1 others).2

end

/-! ## Conditions -/

theorem conditionAfter_unchosen {rest : List Token} (apart : NoConnective rest) (first : Clause) :
    Unchosen (conditionAfter sig first) rest := by
  refine unchosen_of_next fun l p comes => ?_
  rw [conditionAfter, apart l comes]
  rfl

/-- Where a sign or an operand comes next, a comparison is read. -/
theorem clauseAt_unchosen {ts : List Token}
    (comes : (∃ op, next ts = some (.addOp op)) ∨ FactorNext ts) : Unchosen (clauseAt sig) ts := by
  refine unchosen_of_next fun l p here => ?_
  obtain ⟨op, first⟩ | ⟨l', first, begins⟩ := comes
  · cases here.symm.trans first
    rfl
  · obtain rfl := Option.some.inj (first.symm.trans here)
    cases l' with
    | keyword k => cases k <;> first | rfl | cases begins
    | braceOpen => cases begins
    | _ => rfl

theorem connective?_keyword (op : Connective) : connective? (.keyword op.keyword) = some op := by
  cases op <;> rfl

mutual

theorem clause_read (c : Clause) (rest : List Token) (fits : ∀ mark ∈ c.marks, mark.Fits sig)
    (clear : c.Clear) (apart : NoOperator rest) (apart' : c.isNegation = true → NoConnective rest) :
    clause sig (tokensOf c.marks ++ rest) = .ok (c, rest) := by
  rw [clause_steps]
  cases c with
  | constant value => cases value <;> rfl
  | negation c =>
    have fits' := (List.forall_mem_cons.1 fits).2
    exact (branch_some rfl _).trans (andThen_ok (condition_read c rest fits' clear apart (apart' rfl)))
  | braced c =>
    have fits' : ∀ mark ∈ c.marks, mark.Fits sig := fun mark among =>
      fits mark (List.mem_cons_of_mem _ (List.mem_append_left _ among))
    have inner := condition_read c (⟨.braceClose, .start⟩ :: rest) fits' clear
      (fun l first => by cases first; rfl) (fun l first => by cases first; rfl)
    rw [Clause.marks, tokensOf_cons, tokensOf_append, List.append_assoc, List.append_assoc]
    exact (branch_some rfl _).trans (enclosed_read inner)
  | compared left op right =>
    obtain ⟨first, others⟩ := List.forall_mem_append.1 fits
    have head := expr_read left (⟨.comparison op, .start⟩ :: (tokensOf right.marks ++ rest)) first
      clear.1 (fun l first => by cases first; rfl)
    have more := expr_read right rest (List.forall_mem_cons.1 others).2 clear.2 apart
    rw [Clause.marks, tokensOf_append, List.append_assoc,
      branch_unchosen (clauseAt_unchosen ((left.next_cases _).imp_left fun minus => ⟨_, minus⟩)),
      comparison_steps]
    exact (andThen_ok head).trans ((branch_some rfl _).trans (andThen_ok more))

theorem condition_read (c : Condition) (rest : List Token)
    (fits : ∀ mark ∈ c.marks, mark.Fits sig) (clear : c.Clear) (apart : NoOperator rest)
    (apart' : NoConnective rest) : condition sig (tokensOf c.marks ++ rest) = .ok (c, rest) := by
  rw [condition_steps]
  cases c with
  | single c =>
    rw [Condition.marks, andThen_ok (clause_read c rest fits clear apart fun _ => apart')]
    exact branch_give (conditionAfter_unchosen apart' c)
  | chain c op more =>
    obtain ⟨first, others⟩ := List.forall_mem_append.1 fits
    obtain ⟨clear₁, plain, clear₂⟩ := clear
    have head := clause_read c (⟨.keyword op.keyword, .start⟩ :: (tokensOf more.marks ++ rest)) first
      clear₁ (fun l first => by cases first; rfl) (fun negation => nomatch plain.symm.trans negation)
    have chosen : conditionAfter sig c ⟨.keyword op.keyword, .start⟩ =
        some ((condition sig).andThen fun rest => give (.chain c op rest)) := by
      rw [conditionAfter, connective?_keyword]
      rfl
    have tail := condition_read more rest (List.forall_mem_cons.1 others).2 clear₂ apart apart'
    rw [Condition.marks, tokensOf_append, List.append_assoc]
    exact (andThen_ok head).trans ((branch_some chosen _).trans (andThen_ok tail))

end

/-! ## Statements -/

theorem target_read (name : Name) (rest : List Token) (free : sig name.text = none) :
    target sig (⟨.quoted name.text, name.position⟩ :: rest) = .ok (name, rest) := by
  have chosen : targetAt sig ⟨.quoted name.text, name.position⟩ = some (give name) := by
    simp only [targetAt, free, Option.isSome_none, Bool.false_eq_true, if_false]
  rw [target_steps, branch_some chosen]
  rfl

section

variable {α : Type} (rest : List Token) (apart : NoOperator rest)

include apart

theorem operand_read (make : Expr → α) {e : Expr} (fits : ∀ mark ∈ marksOfAll [e], mark.Fits sig)
    (clear : ClearAll [e]) :
    operand sig make (tokensOf (marksOfAll [e]) ++ rest) = .ok (make e, rest) := by
  rw [marksOfAll, marksOfAll, List.append_nil] at fits ⊢
  rw [operand_eq, andThen_ok (expr_read e rest fits clear.1 apart)]
  rfl

theorem operands₂_read (make : Expr → Expr → α) {a b : Expr}
    (fits : ∀ mark ∈ marksOfAll [a, b], mark.Fits sig) (clear : ClearAll [a, b]) :
    operands₂ sig make (tokensOf (marksOfAll [a, b]) ++ rest) = .ok (make a b, rest) := by
  obtain ⟨first, others⟩ := List.forall_mem_append.1 fits
  obtain ⟨clear₁, unsigned, clear₂⟩ := clear
  have comes := unsigned_noOperator unsigned apart
  rw [marksOfAll, tokensOf_append, List.append_assoc]
  rw [operands₂_eq, andThen_ok (expr_read a _ first clear₁ comes)]
  exact operand_read rest apart (make a) others clear₂

theorem operands₃_read (make : Expr → Expr → Expr → α) {a b c : Expr}
    (fits : ∀ mark ∈ marksOfAll [a, b, c], mark.Fits sig) (clear : ClearAll [a, b, c]) :
    operands₃ sig make (tokensOf (marksOfAll [a, b, c]) ++ rest) = .ok (make a b c, rest) := by
  obtain ⟨first, others⟩ := List.forall_mem_append.1 fits
  obtain ⟨clear₁, unsigned, clear₂⟩ := clear
  have comes := unsigned_noOperator unsigned apart
  rw [marksOfAll, tokensOf_append, List.append_assoc]
  rw [operands₃_eq, andThen_ok (expr_read a _ first clear₁ comes)]
  exact operands₂_read rest apart (make a) others clear₂

end

/-- No expression begins as a text does. -/
theorem printAt_unchosen (e : Expr) (rest : List Token) :
    Unchosen printAt (tokensOf e.marks ++ rest) := by
  refine unchosen_of_next fun l p comes => ?_
  obtain minus | ⟨l', first, begins⟩ := e.next_cases rest
  · cases comes.symm.trans minus
    rfl
  · obtain rfl := Option.some.inj (first.symm.trans comes)
    cases l' with
    | quoted text => cases begins
    | _ => rfl

theorem scan_read (reach : Reach) (name : Name) (rest : List Token) (free : sig name.text = none) :
    scan sig reach (⟨.quoted name.text, name.position⟩ :: rest) = .ok (.scan reach name, rest) := by
  rw [scan_eq, andThen_ok (target_read name rest free)]
  rfl

theorem make_read (reach : Reach) (name : Name) {value : Expr} (rest : List Token)
    (apart : NoOperator rest) (free : sig name.text = none)
    (fits : ∀ mark ∈ marksOfAll [value], mark.Fits sig) (clear : ClearAll [value]) :
    make sig reach (⟨.quoted name.text, name.position⟩ :: (tokensOf (marksOfAll [value]) ++ rest)) =
      .ok (.make reach name value, rest) := by
  rw [make_eq, andThen_ok (target_read name _ free)]
  exact operand_read rest apart (Command.make reach name) fits clear

/-- A command is read from what stands after its first token. -/
theorem command_read (c : Command) (rest : List Token) (fits : ∀ mark ∈ c.marks, mark.Fits sig)
    (clear : ClearAll c.operands) (apart : NoOperator rest) :
    ∃ k p ts r, tokensOf c.marks = ⟨.keyword k, p⟩ :: ts ∧ command? sig k = some r ∧
      r (ts ++ rest) = .ok (c, rest) := by
  obtain ⟨opens, operands⟩ := List.forall_mem_append.1 fits
  cases c with
  | forward e | back e | right e | left e | setHeading e | sleep e =>
    exact ⟨_, _, _, _, rfl, rfl, operand_read rest apart _ operands clear⟩
  | moveBy a b | moveTo a b =>
    exact ⟨_, _, _, _, rfl, rfl, operands₂_read rest apart _ operands clear⟩
  | setColor a b c =>
    exact ⟨_, _, _, _, rfl, rfl, operands₃_read rest apart _ operands clear⟩
  | home | clearScreen | penUp | penDown => exact ⟨_, _, _, _, rfl, rfl, rfl⟩
  | printText text => exact ⟨_, _, _, _, rfl, rfl, rfl⟩
  | printNumber e =>
    have value := operand_read rest apart Command.printNumber operands clear
    refine ⟨_, _, tokensOf (marksOfAll [e]), _, rfl, rfl, ?_⟩
    rw [marksOfAll, marksOfAll, List.append_nil] at value ⊢
    rw [print_steps, branch_unchosen (printAt_unchosen e rest), value]
  | scan reach name =>
    have free : sig name.text = none :=
      opens (.target name) (List.mem_append_right _ List.mem_cons_self)
    cases reach with
    | shared => exact ⟨_, _, [_], _, rfl, rfl, scan_read .shared name rest free⟩
    | own => exact ⟨_, _, [_, _], _, rfl, rfl, scan_read .own name rest free⟩
  | make reach name value =>
    have free : sig name.text = none :=
      opens (.target name) (List.mem_append_right _ List.mem_cons_self)
    have read (reach : Reach) := make_read reach name rest apart free operands clear
    cases reach with
    | shared => exact ⟨_, _, _, _, rfl, rfl, read .shared⟩
    | own => exact ⟨_, _, _ :: _, _, rfl, rfl, read .own⟩

/-- Where a command begins, nothing else does. -/
theorem command?_begins {k : Keyword} {r : Reader Command} (begins : command? sig k = some r) :
    callee? sig (.keyword k) = none ∧ keywordStatement? sig (block sig) k =
      some (r.andThen fun c => give (.command c)) := by
  cases k <;> cases begins <;> exact ⟨rfl, rfl⟩

/-- The lexeme begins a statement: it is a reserved word that neither begins nor ends a definition, or
the name of a procedure. -/
def BeginsStatement (sig : Signature) (l : Lexeme) : Prop :=
  (∃ k, l = .keyword k ∧ k ≠ .define ∧ k ≠ .endDefine) ∨ ∃ w, l = .word w ∧ (sig w).isSome

/-- A statement comes next. -/
def StatementNext (sig : Signature) (ts : List Token) : Prop :=
  ∃ l, next ts = some l ∧ BeginsStatement sig l

theorem StatementNext.noOperator {ts : List Token} (comes : StatementNext sig ts) :
    NoOperator ts := by
  obtain ⟨l, first, begins⟩ := comes
  intro l' first'
  obtain rfl := Option.some.inj (first.symm.trans first')
  obtain ⟨k, rfl, _⟩ | ⟨w, rfl, _⟩ := begins <;> rfl

theorem statementNext_keyword {k : Keyword} {p : Position} {ts : List Token}
    (begins : k ≠ .define ∧ k ≠ .endDefine) : StatementNext sig (⟨.keyword k, p⟩ :: ts) :=
  ⟨_, rfl, .inl ⟨k, rfl, begins⟩⟩

theorem statement_next (s : Statement) (rest : List Token) (fits : ∀ mark ∈ s.marks, mark.Fits sig) :
    StatementNext sig (tokensOf s.marks ++ rest) := by
  cases s with
  | command c =>
    cases c with
    | scan reach | make reach => cases reach <;> exact statementNext_keyword (by decide)
    | _ => exact statementNext_keyword (by decide)
  | call c =>
    cases c with
    | reporter what => cases what <;> exact statementNext_keyword (by decide)
    | procedure name arguments =>
      have bound : sig name.text = some arguments.length :=
        fits (.callee name arguments.length) List.mem_cons_self
      exact ⟨_, rfl, .inr ⟨name.text, rfl, by rw [bound]; rfl⟩⟩
  | output | ifTrue | loop => exact statementNext_keyword (by decide)

theorem statements_next (ss : List Statement) {close : Lexeme} (rest : List Token)
    (fits : ∀ mark ∈ blockMarks ss close, mark.Fits sig) :
    next (tokensOf (blockMarks ss close) ++ rest) = some close ∨
      StatementNext sig (tokensOf (blockMarks ss close) ++ rest) := by
  cases ss with
  | nil => exact .inl rfl
  | cons s ss =>
    rw [blockMarks, tokensOf_append, List.append_assoc]
    exact .inr (statement_next s _ (List.forall_mem_append.1 fits).1)

theorem statements_noOperator (ss : List Statement) {close : Lexeme} (rest : List Token)
    (fits : ∀ mark ∈ blockMarks ss close, mark.Fits sig) (closes : close.isOperator = false) :
    NoOperator (tokensOf (blockMarks ss close) ++ rest) := by
  obtain first | comes := statements_next ss rest fits
  · intro l first'
    obtain rfl := Option.some.inj (first.symm.trans first')
    exact closes
  · exact comes.noOperator

/-! ### Statements one after the other -/

/-- Reading goes on with a statement where one begins. -/
theorem statements_read {r : Reader (List Statement)} {close : Lexeme}
    {why : Option Lexeme → Option Failure.Cause} {ts more rest : List Token} {s : Statement}
    {ss : List Statement}
    (steps : r = branch (closeAt close) (refuse why
      ((statement sig).andThen fun s => r.andThen fun ss => give (s :: ss))))
    (goes : ∀ l, BeginsStatement sig l → l ≠ close ∧ why (some l) = none)
    (comes : StatementNext sig ts) (first : statement sig ts = .ok (s, more))
    (others : r more = .ok (ss, rest)) : r ts = .ok (s :: ss, rest) := by
  obtain ⟨l, begins, statement⟩ := comes
  obtain ⟨open', unrefused⟩ := goes l statement
  have unchosen : Unchosen (closeAt close) ts := by
    refine unchosen_of_next fun l' p first' => ?_
    obtain rfl := Option.some.inj (begins.symm.trans first')
    exact if_neg open'
  rw [steps, branch_unchosen unchosen, Steady.refuse_none (begins ▸ unrefused),
    andThen_ok first, andThen_ok others]
  rfl

theorem closed_read {close : Lexeme} {otherwise : Reader (List Statement)} (p : Position)
    (rest : List Token) : branch (closeAt close) otherwise (⟨close, p⟩ :: rest) = .ok ([], rest) :=
  (branch_some (r := give []) (if_pos rfl) rest).trans rfl

theorem bracketed_read {ss : List Statement} {ts rest : List Token}
    (read : block sig ts = .ok (ss, rest)) (p : Position) :
    bracketed sig (⟨.bracketOpen, p⟩ :: ts) = .ok (ss, rest) := by
  rw [bracketed, andThen_ok (expect_ok .bracketOpen _ p ts), read]

mutual

theorem statement_read (s : Statement) (rest : List Token)
    (fits : ∀ mark ∈ s.marks, mark.Fits sig) (clear : s.Clear) (apart : NoOperator rest) :
    statement sig (tokensOf s.marks ++ rest) = .ok (s, rest) := by
  rw [statement_steps]
  cases s with
  | command c =>
    obtain ⟨k, p, ts, r, tokens, begins, read⟩ := command_read c rest fits clear apart
    obtain ⟨plain, begins⟩ := command?_begins begins
    have chosen : statementAt sig ⟨.keyword k, p⟩ =
        some (r.andThen fun c => give (.command c)) := by
      simp only [statementAt, plain, begins]
    rw [Statement.marks, tokens]
    exact (branch_some chosen _).trans (andThen_ok read)
  | call c =>
    obtain ⟨l, p, ts, callee, tokens, called, reads⟩ := call_read c rest fits clear fun _ => apart
    have chosen : statementAt sig ⟨l, p⟩ =
        some ((call sig callee p).andThen fun c => give (.call c)) := by
      simp only [statementAt, called]
    rw [Statement.marks, tokens]
    exact (branch_some chosen _).trans (andThen_ok reads)
  | output value =>
    have fits' := (List.forall_mem_cons.1 fits).2
    refine (branch_some (r := operand sig .output) rfl _).trans ?_
    rw [operand_eq]
    exact andThen_ok (expr_read value rest fits' clear apart)
  | ifTrue c body =>
    obtain ⟨first, others⟩ := List.forall_mem_append.1 (List.forall_mem_cons.1 fits).2
    have inner := block_read body rest (List.forall_mem_cons.1 others).2 clear.2
    have head := condition_read c
      (⟨.bracketOpen, .start⟩ :: (tokensOf (blockMarks body .bracketClose) ++ rest)) first clear.1
      (fun l first => by cases first; rfl) (fun l first => by cases first; rfl)
    rw [Statement.marks, tokensOf_cons, tokensOf_append, List.append_assoc, List.append_assoc]
    refine (branch_some (keywordStatement?_ifTrue sig) _).trans ((andThen_ok head).trans ?_)
    exact andThen_ok (bracketed_read inner .start)
  | loop count body =>
    obtain ⟨first, others⟩ := List.forall_mem_append.1 (List.forall_mem_cons.1 fits).2
    have inner := block_read body rest (List.forall_mem_cons.1 others).2 clear.2
    have head := expr_read count
      (⟨.bracketOpen, .start⟩ :: (tokensOf (blockMarks body .bracketClose) ++ rest)) first clear.1
      (fun l first => by cases first; rfl)
    rw [Statement.marks, tokensOf_cons, tokensOf_append, List.append_assoc, List.append_assoc]
    refine (branch_some (keywordStatement?_loop sig) _).trans ((andThen_ok head).trans ?_)
    exact andThen_ok (bracketed_read inner .start)

theorem block_read (ss : List Statement) (rest : List Token)
    (fits : ∀ mark ∈ blockMarks ss .bracketClose, mark.Fits sig) (clear : ClearBlock ss) :
    block sig (tokensOf (blockMarks ss .bracketClose) ++ rest) = .ok (ss, rest) := by
  cases ss with
  | nil =>
    rw [block_steps]
    exact closed_read .start rest
  | cons s ss =>
    obtain ⟨first, others⟩ := List.forall_mem_append.1 fits
    have apart := statements_noOperator ss rest others rfl
    rw [blockMarks, tokensOf_append, List.append_assoc]
    refine statements_read (block_steps sig) ?_ (statement_next s _ first)
      (statement_read s _ first clear.1 apart) (block_read ss rest others clear.2)
    rintro l (⟨k, rfl, _⟩ | ⟨w, rfl, _⟩) <;> exact ⟨nofun, rfl⟩

end

theorem body_read (outer : String) (ss : List Statement) (rest : List Token)
    (fits : ∀ mark ∈ blockMarks ss (.keyword .endDefine), mark.Fits sig) (clear : ClearBlock ss) :
    body sig outer (tokensOf (blockMarks ss (.keyword .endDefine)) ++ rest) = .ok (ss, rest) := by
  induction ss with
  | nil =>
    rw [body_steps]
    exact closed_read .start rest
  | cons s ss ih =>
    obtain ⟨first, others⟩ := List.forall_mem_append.1 fits
    have apart := statements_noOperator ss rest others rfl
    rw [blockMarks, tokensOf_append, List.append_assoc]
    refine statements_read (body_steps sig outer) ?_ (statement_next s _ first)
      (statement_read s _ first clear.1 apart) (ih others clear.2)
    rintro l (⟨k, rfl, ordinary⟩ | ⟨w, rfl, _⟩)
    · refine ⟨fun same => ordinary.2 (Lexeme.keyword.inj same), ?_⟩
      cases k with
      | define => exact absurd rfl ordinary.1
      | _ => rfl
    · exact ⟨nofun, rfl⟩

/-! ## Programs -/

theorem parameters_read (name : String) (ps : List String) {more : List Token}
    (new : ∀ w ∈ ps, w ≠ name ∧ sig w = none) (last : NoParameter sig name more) :
    parameters sig name (tokensOf (ps.map (.lexeme ∘ .word)) ++ more) = (ps, more) := by
  induction ps with
  | nil => exact parameters_none last
  | cons w ps ih =>
    obtain ⟨⟨other, free⟩, others⟩ := List.forall_mem_cons.1 new
    have fresh : ¬ (w = name ∨ (sig w).isSome) := by
      rw [free]
      exact fun known => known.elim other nofun
    refine (parameters_cons .start (tokensOf (ps.map (.lexeme ∘ .word)) ++ more) fresh).trans ?_
    rw [ih others]

/-- After the parameters of a procedure, its body or the end of its definition begins. -/
theorem noParameter_statements {known : Procedures} {p : Procedure} {close : Lexeme}
    {ss : List Statement} {rest : List Token} (closes : ∀ w, close ≠ .word w)
    (fits : ∀ mark ∈ blockMarks ss close, mark.Fits (known.define p).signature) :
    NoParameter known.signature p.name (tokensOf (blockMarks ss close) ++ rest) := by
  intro w comes
  obtain first | ⟨l, first, begins⟩ := statements_next ss rest fits
  · exact absurd (Option.some.inj (first.symm.trans comes)) (closes w)
  · obtain rfl := Option.some.inj (first.symm.trans comes)
    obtain ⟨k, same, _⟩ | ⟨w', same, bound⟩ := begins
    · cases same
    · cases same
      rw [Procedures.define, Procedures.signature_insert, Signature.bind] at bound
      split at bound
      · next same => exact .inl same
      · exact .inr bound

theorem definition_reads {known : Procedures} {p : Procedure} {program : Program} {ts : List Token}
    (fits : p.Fits known) (clear : ClearBlock p.body)
    (others : Reads (known.define p) ts program) :
    Reads known (tokensOf (Item.marks (.definition p)) ++ ts) (.definition p :: program) := by
  obtain ⟨name, ps, ss⟩ := p
  let more := tokensOf (blockMarks ss (.keyword .endDefine)) ++ ts
  have last : NoParameter known.signature name more :=
    noParameter_statements (fun _ => Lexeme.noConfusion) fits.body
  have headed : header known.signature
      (⟨.word name, .start⟩ :: (tokensOf (ps.map (.lexeme ∘ .word)) ++ more)) =
      .ok (⟨name, ps, (known.signature name).isSome, more.length⟩, more) := by
    rw [header]
    dsimp only
    rw [parameters_read name ps fits.parameters last]
  have bodied := body_read name ss ts fits.body clear
  rw [← known.signature_announce ⟨name, ps, (known.signature name).isSome, more.length⟩ ss] at bodied
  rw [Item.marks, tokensOf_cons, tokensOf_cons, tokensOf_append, List.append_assoc,
    List.append_assoc, List.append_assoc]
  exact .definition headed bodied others

/-- No part of a program begins with an operator. -/
theorem program_noOperator {known : Procedures} {program : Program} (fits : program.Fits known) :
    NoOperator (tokensOf program.marks) := by
  cases program with
  | nil => exact fun _ first => nomatch first
  | cons item program =>
    cases item with
    | definition p =>
      intro l first
      cases first
      rfl
    | statement s =>
      have comes := statement_next s (tokensOf (Program.marks program)) fits.1
      rw [← tokensOf_append] at comes
      exact comes.noOperator

/-- The tokens that write a program are that program, if it is clear and its names fit. -/
theorem reads_tokens {known : Procedures} {program : Program} (fits : program.Fits known)
    (clear : program.Clear) : Reads known (tokensOf program.marks) program := by
  induction program generalizing known with
  | nil => exact .nil
  | cons item program ih =>
    obtain ⟨clear₁, clear₂⟩ := List.forall_mem_cons.1 clear
    have split : tokensOf (Program.marks (item :: program)) =
        tokensOf item.marks ++ tokensOf (Program.marks program) :=
      tokensOf_append item.marks (Program.marks program)
    rw [split]
    cases item with
    | definition p => exact definition_reads fits.1 clear₁ (ih fits.2 clear₂)
    | statement s =>
      have apart := program_noOperator fits.2
      exact .statement (statement_read s _ fits.1 clear₁ apart) (ih fits.2 clear₂)

end Grammar

/-- A clear program comes of parsing its writing, but for the places of its names, if these fit where they
stand and all its lexemes can be written: names are identifiers, numbers are not too large, and texts do
not end in a backslash. -/
theorem parse_spelled {known : Procedures} {program : Program} (fits : program.Fits known)
    (clear : program.Clear) (writable : ∀ l ∈ program.lexemes, l.Writable) :
    ∃ again, (parse known (spelled program.lexemes)).result = .ok again ∧
      again.bare = program.bare := by
  obtain ⟨lexemes, ends⟩ := Scan.ofText_spelled writable
  -- the text has the lexemes of the tokens that write the program, though not their places
  have same : SameLexemes (tokensOf program.marks) (Scan.ofText (spelled program.lexemes)).tokens := by
    rw [SameLexemes, lexemes, lexemes_tokensOf]
    rfl
  obtain ⟨again, reads, bare⟩ := (Grammar.reads_tokens fits clear).again rfl same
  exact ⟨again, parse_ok_iff.2 ⟨reads, ends⟩, bare.symm⟩

/-- A sum with a minus inside, and a call of which the input begins with a minus. -/
theorem parse_spelled_minus :
    let program : Program :=
      [.definition ⟨"f", ["a"], [.output (.chain false (.single (.variable ⟨"a", .start⟩)) .plus
          (.single true (.single (.number 2))))]⟩,
        .statement (.command (.printNumber (.single false (.single (.call
          (.procedure ⟨"f", .start⟩ [.single true (.single (.number 1))]))))))]
    ∃ again, (parse ∅ (spelled program.lexemes)).result = .ok again ∧ again.bare = program.bare := by
  intro program
  have signature (ss : List Statement) :
      (Procedures.define ∅ ⟨"f", ["a"], ss⟩).signature = (Procedures.signature ∅).bind "f" 1 :=
    Procedures.signature_insert ..
  have unbound : Procedures.signature ∅ "a" = none := rfl
  have lexemes : program.lexemes =
      [.keyword .define, .word "f", .word "a", .keyword .output, .word "a", .addOp .plus,
        .addOp .minus, .number 2, .keyword .endDefine, .keyword .print, .word "f", .addOp .minus,
        .number 1] := rfl
  have f : IsIdentifier "f" := isIdentifier_letter (c := 'f') rfl
  have a : IsIdentifier "a" := isIdentifier_letter (c := 'a') rfl
  refine parse_spelled ⟨⟨?_, ?_⟩, ?_, trivial⟩ ?_ ?_
  · exact List.forall_mem_singleton.2 ⟨by decide, rfl⟩
  · simp [blockMarks, Statement.marks, Expr.marks, Term.marks, Factor.marks, Mark.Fits,
      Mark.keyword, signature, Signature.bind, unbound]
  · simp [Statement.marks, Command.marks, Command.opening, Command.operands, marksOfAll, Expr.marks,
      Term.marks, Factor.marks, Call.marks, Mark.Fits, Mark.keyword, signature, Signature.bind]
  · simp [program, Program.Clear, Item.Clear, ClearBlock, Statement.Clear, Command.operands,
      ClearAll, Expr.Clear, Term.Clear, Factor.Clear, Call.Clear, Term.endsOpen, Factor.isOpen]
  · rw [lexemes]
    simp [Lexeme.Writable, f, a, maxNumber]

end Logo
