import Mathlib
import Logo.Proofs.Arithmetic
import Logo.Proofs.Soundness

/-!
# What conditions mean

The tokens of a condition have a meaning of their own, as those of an expression have. A condition is
a chain of clauses with operators between them. Clauses are evaluated from left to right, up to one
that settles the operator after it: an `and` is settled by what does not hold, an `or` by what holds,
a `xor` by nothing. Then the values are combined from right to left (`inTurn`). What settles an
operator is also what comes of it, so what is left out would have made no difference.

A `not` takes all of the chain that follows it (`ConditionText`). Braces, or the end of the condition,
are what ends that. A comparison is one of integers (`Comparison.exact`).

Results:
1. `Comparison.apply_exact`: numbers are compared as integers.
2. `Connective.settles_iff`: when the right side of an operator does not matter.
3. `inTurn_eq_ok`, `inTurn_eq_error`: what is evaluated, what comes of it, and what can fail.
4. `condition_means`: a condition is read just from tokens that have a meaning, and holds if that does.
-/

namespace Logo

/-! ## Comparisons -/

/-- Compares the integers that two numbers stand for. -/
def Comparison.exact : Comparison → Int32 → Int32 → Bool
  | .less, a, b => a.toInt < b.toInt
  | .greater, a, b => b.toInt < a.toInt
  | .equal, a, b => a.toInt = b.toInt
  | .notEqual, a, b => a.toInt ≠ b.toInt

theorem Comparison.apply_exact (op : Comparison) (a b : Int32) : op.apply a b = op.exact a b := by
  cases op with
  | less => exact decide_eq_decide.2 Int32.lt_iff_toInt_lt
  | greater => exact decide_eq_decide.2 Int32.lt_iff_toInt_lt
  | equal => exact decide_eq_decide.2 Int32.toInt_inj.symm
  | notEqual => exact decide_eq_decide.2 (not_congr Int32.toInt_inj.symm)

/-! ## Connectives -/

/-- What a connective makes of the values on its left and right. -/
def Connective.apply : Connective → Bool → Bool → Bool
  | .and, a, b => a && b
  | .or, a, b => a || b
  | .xor, a, b => a != b

/-- Whether the value on its left settles what comes of a connective. -/
def Connective.settles : Connective → Bool → Bool
  | .and, a => !a
  | .or, a => a
  | .xor, _ => false

/-- What settles a connective is what comes of it, whatever the value on its right is. -/
theorem Connective.settles_iff {op : Connective} {a : Bool} :
    op.settles a = true ↔ ∀ b, op.apply a b = a := by
  cases op <;> cases a <;> decide

/-! ## Chains of clauses -/

/-- Combines values from right to left. -/
def combined : Bool → List (Connective × Bool) → Bool
  | a, [] => a
  | a, (op, b) :: more => op.apply a (combined b more)

/-- Evaluates clauses from left to right, up to the first that settles the connective after it. -/
def evaluated : Exec Bool → List (Connective × Exec Bool) → Exec (Bool × List (Connective × Bool))
  | x, [] => do return (← x, [])
  | x, (op, y) :: more => do
    let a ← x
    if op.settles a then return (a, [])
    else
      let (b, others) ← evaluated y more
      return (a, (op, b) :: others)

/-- Evaluates clauses as far as they are not settled, and then combines their values. -/
def inTurn (first : Exec Bool) (more : List (Connective × Exec Bool)) : Exec Bool := do
  let (a, others) ← evaluated first more
  return combined a others

/-- Evaluates clauses from left to right, all of them. -/
def inOrder (first : Exec Bool) (more : List (Connective × Exec Bool)) :
    Exec (Bool × List (Connective × Bool)) := do
  let a ← first
  let others ← more.mapM fun (op, x) => do return (op, ← x)
  return (a, others)

/-- No value settles the connective after it. -/
def Unsettled : Bool → List (Connective × Bool) → Prop
  | _, [] => True
  | a, (op, b) :: more => op.settles a = false ∧ Unsettled b more

/-- The last value. -/
def lastOf : Bool → List (Connective × Bool) → Bool
  | a, [] => a
  | _, (_, b) :: more => lastOf b more

/-- A chain by its first connective. -/
theorem inTurn_cons (x y : Exec Bool) (op : Connective) (more : List (Connective × Exec Bool)) :
    inTurn x ((op, y) :: more) = (do
      let a ← x
      if op.settles a then return a else return op.apply a (← inTurn y more)) := by
  simp only [inTurn, evaluated, bind_assoc]
  refine congrArg _ (funext fun a => ?_)
  split
  · rfl
  · simp only [bind_assoc, pure_bind, combined]

@[simp] theorem inTurn_nil (x : Exec Bool) : inTurn x [] = x := by
  simp only [inTurn, evaluated, bind_assoc, pure_bind, combined]
  exact bind_pure x

/-- Once a value settles the connective after it, all that follows makes no difference. -/
theorem combined_settled {a : Bool} {others left : List (Connective × Bool)}
    (settled : ∀ next ∈ left.head?, next.1.settles (lastOf a others) = true) :
    combined a (others ++ left) = combined a others := by
  induction others generalizing a with
  | nil =>
    cases left with
    | nil => rfl
    | cons next left => exact Connective.settles_iff.1 (settled next rfl) _
  | cons next others ih =>
    obtain ⟨op, b⟩ := next
    exact congrArg (op.apply a) (ih settled)

section

variable {x y : Exec Bool} {op : Connective} {more : List (Connective × Exec Bool)}
  {m m' : Machine} {values : Bool × List (Connective × Bool)} {e : RuntimeError}

theorem inOrder_nil_eq_ok :
    inOrder x [] m = .ok values m' ↔ x m = .ok values.1 m' ∧ values.2 = [] := by
  obtain ⟨a, others⟩ := values
  rw [inOrder, Exec.bind_eq_ok]
  constructor
  · rintro ⟨a, m₁, ran, ⟨⟩⟩
    exact ⟨ran, rfl⟩
  · rintro ⟨ran, rfl⟩
    exact ⟨a, m', ran, rfl⟩

theorem inOrder_cons_eq_ok : inOrder x ((op, y) :: more) m = .ok values m' ↔
    ∃ a m₁ others, x m = .ok a m₁ ∧ inOrder y more m₁ = .ok others m' ∧
      values = (a, (op, others.1) :: others.2) := by
  have unfolded : inOrder x ((op, y) :: more) = (do
      let a ← x
      let others ← inOrder y more
      return (a, (op, others.1) :: others.2)) := by
    simp only [inOrder, List.mapM_cons, bind_assoc, pure_bind]
  rw [unfolded, Exec.bind_eq_ok]
  refine exists_congr fun a => exists_congr fun m₁ => ?_
  rw [Exec.bind_eq_ok]
  constructor
  · rintro ⟨ran, others, m₂, follow, ⟨⟩⟩
    exact ⟨others, ran, follow, rfl⟩
  · rintro ⟨others, ran, follow, rfl⟩
    exact ⟨ran, others, m', follow, rfl⟩

theorem evaluated_cons_eq_ok : evaluated x ((op, y) :: more) m = .ok values m' ↔
    ∃ a m₁, x m = .ok a m₁ ∧
      (op.settles a = true ∧ values = (a, []) ∧ m' = m₁ ∨
        op.settles a = false ∧ ∃ others, evaluated y more m₁ = .ok others m' ∧
          values = (a, (op, others.1) :: others.2)) := by
  rw [evaluated, Exec.bind_eq_ok]
  refine exists_congr fun a => exists_congr fun m₁ => and_congr_right fun _ => ?_
  cases settled : op.settles a with
  | true =>
    constructor
    · rintro ⟨⟩
      exact .inl ⟨rfl, rfl, rfl⟩
    · rintro (⟨-, rfl, rfl⟩ | ⟨⟨⟩, -⟩)
      rfl
  | false =>
    rw [if_neg Bool.false_ne_true, Exec.bind_eq_ok]
    constructor
    · rintro ⟨others, m₂, follow, ⟨⟩⟩
      exact .inr ⟨rfl, others, follow, rfl⟩
    · rintro (⟨⟨⟩, -⟩ | ⟨-, others, follow, rfl⟩)
      exact ⟨others, m', follow, rfl⟩

/-- What is evaluated is a first part of the chain, up to where the operator after it is settled. -/
theorem evaluated_eq_ok :
    evaluated x more m = .ok values m' ↔
      ∃ seen unseen, more = seen ++ unseen ∧ inOrder x seen m = .ok values m' ∧
        Unsettled values.1 values.2 ∧
        ∀ next ∈ unseen.head?, next.1.settles (lastOf values.1 values.2) = true := by
  induction more generalizing x m values with
  | nil =>
    constructor
    · intro ran
      have ran : inOrder x [] m = .ok values m' := ran
      exact ⟨[], [], rfl, ran, by rw [(inOrder_nil_eq_ok.1 ran).2]; trivial, nofun⟩
    · rintro ⟨seen, unseen, split, ran, -⟩
      obtain ⟨rfl, rfl⟩ := List.append_eq_nil_iff.1 split.symm
      exact ran
  | cons next more ih =>
    obtain ⟨op, y⟩ := next
    rw [evaluated_cons_eq_ok]
    constructor
    · rintro ⟨a, m₁, ran, ⟨settled, rfl, rfl⟩ | ⟨unsettled, others, follow, rfl⟩⟩
      · refine ⟨[], (op, y) :: more, rfl, inOrder_nil_eq_ok.2 ⟨ran, rfl⟩, trivial, ?_⟩
        rintro next ⟨⟩
        exact settled
      · obtain ⟨seen, unseen, rfl, ran', unsettled', settled⟩ := ih.1 follow
        exact ⟨(op, y) :: seen, unseen, rfl, inOrder_cons_eq_ok.2 ⟨a, m₁, others, ran, ran', rfl⟩,
          ⟨unsettled, unsettled'⟩, settled⟩
    · rintro ⟨_ | ⟨next, seen⟩, unseen, split, ran, unsettled, settled⟩
      · cases split
        obtain ⟨a, others⟩ := values
        obtain ⟨ran, none⟩ := inOrder_nil_eq_ok.1 ran
        cases none
        exact ⟨a, m', ran, .inl ⟨settled _ rfl, rfl, rfl⟩⟩
      · cases split
        obtain ⟨a, m₁, others, first, follow, rfl⟩ := inOrder_cons_eq_ok.1 ran
        exact ⟨a, m₁, first, .inr ⟨unsettled.1, others,
          ih.2 ⟨seen, unseen, rfl, follow, unsettled.2, settled⟩, rfl⟩⟩

theorem evaluated_cons_eq_error : evaluated x ((op, y) :: more) m = .error e m' ↔
    x m = .error e m' ∨ ∃ a m₁, x m = .ok a m₁ ∧ op.settles a = false ∧
      evaluated y more m₁ = .error e m' := by
  rw [evaluated, Exec.bind_eq_error]
  refine or_congr_right (exists_congr fun a => exists_congr fun m₁ => and_congr_right fun _ => ?_)
  cases settled : op.settles a with
  | true => exact ⟨nofun, nofun⟩
  | false =>
    rw [if_neg Bool.false_ne_true, Exec.bind_eq_error]
    constructor
    · rintro (failed | ⟨_, _, _, ⟨⟩⟩)
      exact ⟨rfl, failed⟩
    · rintro ⟨-, failed⟩
      exact .inl failed

/-- Evaluation fails at the first clause, or at one that is reached because nothing before it settles
anything. -/
theorem evaluated_eq_error :
    evaluated x more m = .error e m' ↔
      x m = .error e m' ∨ ∃ seen op y unseen values m₁, more = seen ++ (op, y) :: unseen ∧
        inOrder x seen m = .ok values m₁ ∧ Unsettled values.1 values.2 ∧
        op.settles (lastOf values.1 values.2) = false ∧ y m₁ = .error e m' := by
  induction more generalizing x m with
  | nil =>
    rw [evaluated, Exec.bind_eq_error]
    constructor
    · rintro (failed | ⟨_, _, _, ⟨⟩⟩)
      exact .inl failed
    · rintro (failed | ⟨seen, _, _, _, _, _, split, _⟩)
      · exact .inl failed
      · cases seen <;> cases split
  | cons next more ih =>
    obtain ⟨op, y⟩ := next
    rw [evaluated_cons_eq_error]
    refine or_congr_right ?_
    simp only [ih]
    constructor
    · rintro ⟨a, m₁, ran, unsettled, failed | later⟩
      · exact ⟨[], op, y, more, (a, []), m₁, rfl, inOrder_nil_eq_ok.2 ⟨ran, rfl⟩, trivial,
          unsettled, failed⟩
      · obtain ⟨seen, op', z, unseen, values, m₂, rfl, ran', unsettled', reached, failed⟩ := later
        exact ⟨(op, y) :: seen, op', z, unseen, _, m₂, rfl,
          inOrder_cons_eq_ok.2 ⟨a, m₁, values, ran, ran', rfl⟩, ⟨unsettled, unsettled'⟩, reached,
          failed⟩
    · rintro ⟨_ | ⟨next, seen⟩, op', z, unseen, values, m₁, split, ran, unsettled, reached, failed⟩
      · cases split
        obtain ⟨a, others⟩ := values
        obtain ⟨ran, none⟩ := inOrder_nil_eq_ok.1 ran
        cases none
        exact ⟨a, m₁, ran, reached, .inl failed⟩
      · cases split
        obtain ⟨a, m₂, others, first, follow, rfl⟩ := inOrder_cons_eq_ok.1 ran
        exact ⟨a, m₂, first, unsettled.1, .inr
          ⟨seen, op', z, unseen, others, m₁, rfl, follow, unsettled.2, reached, failed⟩⟩

/-- What comes of a chain: that of combining all values from right to left, whatever those would be
that are left out. -/
theorem inTurn_eq_ok {value : Bool} :
    inTurn x more m = .ok value m' ↔
      ∃ seen unseen a others, more = seen ++ unseen ∧ inOrder x seen m = .ok (a, others) m' ∧
        Unsettled a others ∧ (∀ next ∈ unseen.head?, next.1.settles (lastOf a others) = true) ∧
        ∀ left, left.map Prod.fst = unseen.map Prod.fst → combined a (others ++ left) = value := by
  have settles {unseen : List (Connective × Exec Bool)} {left : List (Connective × Bool)}
      {last : Bool} (same : left.map Prod.fst = unseen.map Prod.fst)
      (settled : ∀ next ∈ unseen.head?, next.1.settles last = true) :
      ∀ next ∈ left.head?, next.1.settles last = true := by
    cases left with
    | nil => exact nofun
    | cons next left =>
      cases unseen with
      | nil => cases same
      | cons next' unseen =>
        rintro _ ⟨⟩
        rw [(List.cons.inj same).1]
        exact settled next' rfl
  rw [inTurn, Exec.bind_eq_ok]
  constructor
  · rintro ⟨⟨a, others⟩, m₁, ran, ⟨⟩⟩
    obtain ⟨seen, unseen, rfl, ran, unsettled, settled⟩ := evaluated_eq_ok.1 ran
    exact ⟨seen, unseen, a, others, rfl, ran, unsettled, settled,
      fun left same => combined_settled (settles same settled)⟩
  · rintro ⟨seen, unseen, a, others, rfl, ran, unsettled, settled, value⟩
    refine ⟨(a, others), m', evaluated_eq_ok.2 ⟨seen, unseen, rfl, ran, unsettled, settled⟩, ?_⟩
    have same : (unseen.map fun next => (next.1, false)).map Prod.fst = unseen.map Prod.fst := by
      rw [List.map_map]
      rfl
    rw [← value _ same, combined_settled (settles same settled)]
    rfl

/-- A chain fails just where a clause that is reached does. -/
theorem inTurn_eq_error :
    inTurn x more m = .error e m' ↔
      x m = .error e m' ∨ ∃ seen op y unseen a others m₁, more = seen ++ (op, y) :: unseen ∧
        inOrder x seen m = .ok (a, others) m₁ ∧ Unsettled a others ∧
        op.settles (lastOf a others) = false ∧ y m₁ = .error e m' := by
  rw [inTurn, Exec.bind_eq_error, evaluated_eq_error]
  simp only [Prod.exists]
  constructor
  · rintro (failed | ⟨_, _, _, _, ⟨⟩⟩)
    exact failed
  · exact .inl

end

/-! ## Texts -/

mutual

/-- `ClauseText sig isOpen ts x`: the tokens `ts` are a clause, other than a `not`, with the value
`x`. -/
inductive ClauseText (sig : Signature) : Bool → List Token → Exec Bool → Prop
  | truth {p} : ClauseText sig false [⟨.keyword .truth, p⟩] (return true)
  | falsehood {p} : ClauseText sig false [⟨.keyword .falsehood, p⟩] (return false)
  | braced {p isOpen ts first more q} : ConditionText sig isOpen ts first more →
      ClauseText sig false (⟨.braceOpen, p⟩ :: (ts ++ [⟨.braceClose, q⟩])) (inTurn first more)
  | compared {ts first more op p ts' first' more'} : SumText sig ts first more →
      SumText sig ts' first' more' →
      ClauseText sig true (ts ++ ⟨.comparison op, p⟩ :: ts') (do
        let a ← inChain AddOp.exact first more
        let b ← inChain AddOp.exact first' more'
        return op.exact a b)

/-- `ConditionText sig isOpen ts first more`: the tokens `ts` are a chain of clauses, with the values
`first` and `more`. After a `not`, all that follows is one clause of the chain. -/
inductive ConditionText (sig : Signature) :
    Bool → List Token → Exec Bool → List (Connective × Exec Bool) → Prop
  | single {isOpen ts x} : ClauseText sig isOpen ts x → ConditionText sig isOpen ts x []
  | chain {isOpen ts x op p isOpen' ts' y more} : ClauseText sig isOpen ts x →
      ConditionText sig isOpen' ts' y more →
      ConditionText sig isOpen' (ts ++ ⟨.keyword op.keyword, p⟩ :: ts') x ((op, y) :: more)
  | negated {p isOpen ts first more} : ConditionText sig isOpen ts first more →
      ConditionText sig isOpen (⟨.keyword .not, p⟩ :: ts) ((!·) <$> inTurn first more) []

end

/-! ## Values of trees -/

theorem Condition.eval_chain (run : Runner) (c : Clause) (op : Connective) (rest : Condition) :
    (Condition.chain c op rest).eval run = (do
      let a ← c.eval run
      if op.settles a then return a else return op.apply a (← rest.eval run)) := by
  rw [Condition.eval]
  refine congrArg _ (funext fun a => ?_)
  have same : rest.eval run = rest.eval run >>= pure := (bind_pure _).symm
  cases op <;> cases a <;> first | rfl | exact same

theorem Clause.eval_negation (run : Runner) (c : Condition) :
    (Clause.negation c).eval run = (!·) <$> c.eval run := by
  rw [Clause.eval, map_eq_pure_bind]

theorem Clause.eval_compared (run : Runner) (left : Expr) (op : Comparison) (right : Expr) :
    (Clause.compared left op right).eval run = (do
      let a ← left.eval run
      let b ← right.eval run
      return op.exact a b) := by
  simp only [Clause.eval, op.apply_exact]

/-! ## What the rules read -/

namespace Grammar

open Reader

variable {sig : Signature} {ts rest : List Token}

theorem noConnective_iff :
    NoConnective ts ↔ ∀ op : Connective, next ts ≠ some (.keyword op.keyword) := by
  constructor
  · intro apart op first
    cases (apart _ first).symm.trans (connective?_keyword op)
  · intro none l first
    cases joins : connective? l with
    | none => rfl
    | some op => exact absurd (connective?_eq_some joins ▸ first) (none op)

/-- A condition is read up to where no connective follows a clause. -/
theorem condition_eq_ok {c : Condition} : condition sig ts = .ok (c, rest) ↔
    ∃ first between, clause sig ts = .ok (first, between) ∧
      (NoConnective between ∧ .single first = c ∧ between = rest ∨
        ∃ op p more, between = ⟨.keyword op.keyword, p⟩ :: more ∧
          ∃ c', condition sig more = .ok (c', rest) ∧ .chain first op c' = c) := by
  conv_lhs => rw [condition_steps, andThen_eq_ok]
  refine exists_congr fun first => exists_congr fun between => and_congr_right fun _ => ?_
  have chosen (op : Connective) (p : Position) : conditionAfter sig first ⟨.keyword op.keyword, p⟩ =
      some ((condition sig).andThen fun c => give (.chain first op c)) := by
    rw [conditionAfter, connective?_keyword]
    rfl
  have left (l : Lexeme) (p : Position) (other : ∀ op : Connective, l ≠ .keyword op.keyword) :
      conditionAfter sig first ⟨l, p⟩ = none := by
    refine Option.map_eq_none_iff.2 (Option.eq_none_iff_forall_ne_some.2 fun op joins => ?_)
    exact other op (connective?_eq_some joins)
  rw [branch_operator (fun op : Connective => .keyword op.keyword) chosen left]
  simp only [andThen_give_eq_ok, give_eq_ok, noConnective_iff]

/-- A comparison is two sums. -/
theorem comparison_eq_ok {c : Clause} : comparison sig ts = .ok (c, rest) ↔
    ∃ left op p more right, expr sig ts = .ok (left, ⟨.comparison op, p⟩ :: more) ∧
      expr sig more = .ok (right, rest) ∧ .compared left op right = c := by
  rw [comparison_steps, andThen_eq_ok]
  constructor
  · rintro ⟨left, between, read, goes⟩
    rw [branch_operator .comparison (fun _ _ => rfl)
      (fun l p other => by cases l <;> first | rfl | exact absurd rfl (other _))] at goes
    obtain ⟨-, ⟨⟩⟩ | ⟨op, p, more, rfl, goes⟩ := goes
    obtain ⟨right, read', rfl⟩ := andThen_give_eq_ok.1 goes
    exact ⟨left, op, p, more, right, read, read', rfl⟩
  · rintro ⟨left, op, p, more, right, read, read', rfl⟩
    exact ⟨left, _, read, (branch_some rfl _).trans (andThen_give_eq_ok.2 ⟨right, read', rfl⟩)⟩

end Grammar

/-! ## What is read has a meaning -/

/-- The tokens `taken`, with `rest` after them, are a chain of clauses and say whether the condition
holds. -/
def Condition.Means (sig : Signature) (c : Condition) (taken rest : List Token) : Prop :=
  NoConnective rest ∧ ∃ isOpen first more, ConditionText sig isOpen taken first more ∧
    c.eval Procedure.run = inTurn first more ∧ (isOpen = true → NoOperator rest)

/-- The tokens `taken`, with `rest` after them, are a clause and say whether it holds. If it is a
`not`, they are a whole chain. -/
def Clause.Means (sig : Signature) (c : Clause) (taken rest : List Token) : Prop :=
  (∃ isOpen, ClauseText sig isOpen taken (c.eval Procedure.run) ∧
    (isOpen = true → NoOperator rest)) ∨
  (Condition.single c).Means sig taken rest

namespace Grammar

open Reader

variable {sig : Signature} {n : Nat}

theorem comparison_tells (sig : Signature) (n : Nat) :
    Tells n (Clause.Means sig) (comparison sig) := by
  intro ts c rest short read
  obtain ⟨left, op, p, more, right, first, second, rfl⟩ := comparison_eq_ok.1 read
  obtain ⟨taken, rfl, -, x, xs, text, value⟩ := (numbers_tell sig n).2 short first
  rw [List.length_append, List.length_cons] at short
  obtain ⟨taken', rfl, apart, y, ys, text', value'⟩ := (numbers_tell sig n).2 (by omega) second
  refine ⟨taken ++ ⟨.comparison op, p⟩ :: taken', by simp, .inl ⟨true, ?_, fun _ => apart⟩⟩
  rw [Clause.eval_compared, value, value']
  exact .compared text text'

theorem clause_tells (c : Tells n (Condition.Means sig) (condition sig)) :
    Tells (n + 1) (Clause.Means sig) (clause sig) := by
  intro ts x rest short read
  rw [clause_steps] at read
  rcases ts with _ | ⟨⟨l, p⟩, ts⟩
  · exact comparison_tells sig _ short read
  · have fewer := Nat.lt_of_succ_lt_succ short
    cases choice : clauseAt sig ⟨l, p⟩ with
    | none =>
      rw [branch_none choice] at read
      exact comparison_tells sig _ short read
    | some r =>
      rw [branch_some choice] at read
      unfold clauseAt at choice
      split at choice
      · next same =>
        cases same
        cases choice
        cases read
        exact ⟨[_], rfl, .inl ⟨false, by rw [Clause.eval]; exact .truth, nofun⟩⟩
      · next same =>
        cases same
        cases choice
        cases read
        exact ⟨[_], rfl, .inl ⟨false, by rw [Clause.eval]; exact .falsehood, nofun⟩⟩
      · next same =>
        cases same
        cases choice
        obtain ⟨inner, follow, rfl⟩ := andThen_give_eq_ok.1 read
        obtain ⟨taken, rfl, none, isOpen, first, more, text, value, apart⟩ := c fewer follow
        refine ⟨⟨.keyword .not, p⟩ :: taken, rfl,
          .inr ⟨none, isOpen, _, [], .negated text, ?_, apart⟩⟩
        rw [Condition.eval, Clause.eval_negation, value, inTurn_nil]
      · next same =>
        cases same
        cases choice
        obtain ⟨inner, between, begun, goes⟩ := andThen_eq_ok.1 read
        obtain ⟨_, closed, rfl⟩ := andThen_give_eq_ok.1 goes
        obtain ⟨taken, rfl, -, isOpen, first, more, text, value, -⟩ := c fewer begun
        obtain ⟨q, rfl⟩ := expect_eq_ok.1 closed
        refine ⟨⟨.braceOpen, p⟩ :: (taken ++ [⟨.braceClose, q⟩]), by simp, .inl ⟨false, ?_, nofun⟩⟩
        rw [Clause.eval, value]
        exact .braced text
      · cases choice

theorem condition_step_tells (x : Tells (n + 1) (Clause.Means sig) (clause sig))
    (c : Tells n (Condition.Means sig) (condition sig)) :
    Tells (n + 1) (Condition.Means sig) (condition sig) := by
  intro ts whole rest short read
  obtain ⟨first, between, begun, goes⟩ := condition_eq_ok.1 read
  have fewer : between.length < n :=
    Nat.lt_of_lt_of_le (clauseWith_takes (condition_takes sig) begun) (Nat.le_of_lt_succ short)
  obtain ⟨taken, rfl, ⟨isOpen, text, apart⟩ | means⟩ := x short begun
  · rcases goes with ⟨none, rfl, rfl⟩ | ⟨op, p, more, rfl, c', follow, rfl⟩
    · refine ⟨taken, rfl, none, isOpen, _, [], .single text, ?_, apart⟩
      rw [Condition.eval, inTurn_nil]
    · obtain ⟨taken', rfl, none, isOpen', y, others, text', value, apart'⟩ :=
        c (Nat.lt_of_succ_lt fewer) follow
      refine ⟨taken ++ ⟨.keyword op.keyword, p⟩ :: taken', by simp, none, isOpen', _, _,
        .chain text text', ?_, apart'⟩
      rw [Condition.eval_chain, inTurn_cons, value]
  · rcases goes with ⟨none, rfl, rfl⟩ | ⟨op, p, more, rfl, -⟩
    · exact ⟨taken, rfl, means⟩
    · exact absurd rfl (noConnective_iff.1 means.1 op)

/-- What is read as a condition has a meaning. By induction on the number of tokens, as for numbers. -/
theorem conditions_tell (sig : Signature) (n : Nat) :
    Tells n (Condition.Means sig) (condition sig) := by
  induction n with
  | zero => exact fun _ _ _ short => nomatch short
  | succ n ih => exact condition_step_tells (clause_tells ih) ih

end Grammar

/-! ## What has a meaning is read -/

open Grammar Reader

variable {sig : Signature}

/-- A sum begins with a sign or with an operand. -/
theorem SumText.next_cases {ts : List Token} {x : Exec Int32} {more : List (AddOp × Exec Int32)}
    (text : SumText sig ts x more) (rest : List Token) :
    (∃ op, next (ts ++ rest) = some (.addOp op)) ∨ FactorNext (ts ++ rest) := by
  have signed {negated : Bool} {sign ts : List Token} (signs : SignText negated sign)
      (comes : FactorNext ts) :
      (∃ op, next (sign ++ ts) = some (.addOp op)) ∨ FactorNext (sign ++ ts) := by
    cases signs with
    | none => exact .inr comes
    | sign => exact .inl ⟨_, rfl⟩
  cases text with
  | single signs text =>
    rw [List.append_assoc]
    exact signed signs (text.next rest)
  | chain signs text =>
    rw [List.append_assoc, List.append_assoc]
    exact signed signs (text.next _)

-- By recursion on what makes up the text. A clause inside a chain is followed by a connective, and a
-- chain in braces by the closing one.
mutual

theorem ClauseText.read {isOpen : Bool} {ts : List Token} {x : Exec Bool} :
    ClauseText sig isOpen ts x → ∀ rest, (isOpen = true → NoOperator rest) →
      ∃ c, clause sig (ts ++ rest) = .ok (c, rest) ∧ c.eval Procedure.run = x
  | .truth, rest, _ => by
    refine ⟨.constant true, ?_, by rw [Clause.eval]⟩
    rw [clause_steps]
    rfl
  | .falsehood, rest, _ => by
    refine ⟨.constant false, ?_, by rw [Clause.eval]⟩
    rw [clause_steps]
    rfl
  | .braced (q := q) text, rest, _ => by
    obtain ⟨c, reads, value⟩ := text.read (⟨.braceClose, q⟩ :: rest) (by rintro l ⟨⟩; rfl)
      (by rintro - l ⟨⟩; rfl)
    refine ⟨.braced c, ?_, by rw [Clause.eval, value]⟩
    rw [clause_steps, List.cons_append, List.append_assoc]
    exact (branch_some rfl _).trans (enclosed_read reads)
  | @ClauseText.compared _ _ _ _ op p ts' _ _ text text', rest, apart => by
    obtain ⟨left, first, value⟩ := text.read (⟨.comparison op, p⟩ :: (ts' ++ rest))
      (by rintro l ⟨⟩; rfl)
    obtain ⟨right, second, value'⟩ := text'.read rest (apart rfl)
    refine ⟨.compared left op right, ?_, by rw [Clause.eval_compared, value, value']⟩
    rw [List.append_assoc, clause_steps, branch_unchosen (clauseAt_unchosen (text.next_cases _))]
    exact comparison_eq_ok.2 ⟨left, op, p, _, right, first, second, rfl⟩

theorem ConditionText.read {isOpen : Bool} {ts : List Token} {x : Exec Bool}
    {more : List (Connective × Exec Bool)} :
    ConditionText sig isOpen ts x more → ∀ rest, NoConnective rest →
      (isOpen = true → NoOperator rest) →
      ∃ c, condition sig (ts ++ rest) = .ok (c, rest) ∧ c.eval Procedure.run = inTurn x more
  | .single text, rest, ends, apart => by
    obtain ⟨c, reads, value⟩ := text.read rest apart
    refine ⟨.single c, condition_eq_ok.2 ⟨c, rest, reads, .inl ⟨ends, rfl, rfl⟩⟩, ?_⟩
    rw [Condition.eval, value, inTurn_nil]
  | @ConditionText.chain _ _ _ _ op p _ ts' _ _ text text', rest, ends, apart => by
    obtain ⟨c', others, value'⟩ := text'.read rest ends apart
    obtain ⟨c, reads, value⟩ := text.read (⟨.keyword op.keyword, p⟩ :: (ts' ++ rest))
      (by rintro - l ⟨⟩; rfl)
    refine ⟨.chain c op c', ?_, by rw [Condition.eval_chain, inTurn_cons, value, value']⟩
    rw [List.append_assoc]
    exact condition_eq_ok.2 ⟨c, _, reads, .inr ⟨op, p, _, rfl, c', others, rfl⟩⟩
  | .negated text, rest, ends, apart => by
    obtain ⟨c, reads, value⟩ := text.read rest ends apart
    refine ⟨.single (.negation c),
      condition_eq_ok.2 ⟨.negation c, rest, ?_, .inl ⟨ends, rfl, rfl⟩⟩, ?_⟩
    · rw [clause_steps]
      exact (branch_some rfl _).trans (andThen_give_eq_ok.2 ⟨c, reads, rfl⟩)
    · rw [Condition.eval, Clause.eval_negation, value, inTurn_nil]

end

/-- What an `if` asks stands before its opening bracket. -/
theorem statement_ifTrue {p : Position} {ts rest : List Token} {c : Condition}
    {body : List Statement} :
    statement sig (⟨.keyword .ifTrue, p⟩ :: ts) = .ok (.ifTrue c body, rest) ↔
      ∃ q after, condition sig ts = .ok (c, ⟨.bracketOpen, q⟩ :: after) ∧
        block sig after = .ok (body, rest) := by
  rw [statement_steps, branch_some (keywordStatement?_ifTrue sig), andThen_eq_ok]
  constructor
  · rintro ⟨c', between, read, goes⟩
    obtain ⟨body', read', ⟨⟩⟩ := andThen_give_eq_ok.1 goes
    obtain ⟨_, after, opened, inside⟩ := andThen_eq_ok.1 read'
    obtain ⟨q, rfl⟩ := expect_eq_ok.1 opened
    exact ⟨q, after, read, inside⟩
  · rintro ⟨q, after, read, inside⟩
    refine ⟨c, _, read, andThen_give_eq_ok.2 ⟨body, ?_, rfl⟩⟩
    exact andThen_eq_ok.2 ⟨(), after, expect_ok _ _ q after, inside⟩

/-- Tokens are read as a condition just if they are, up to where no connective follows, a chain of
clauses, and the condition holds if that does. -/
theorem condition_read_iff {ts rest : List Token} {x : Exec Bool} :
    (∃ c, condition sig ts = .ok (c, rest) ∧ c.eval Procedure.run = x) ↔
      ∃ taken isOpen first more, ts = taken ++ rest ∧ NoConnective rest ∧
        (isOpen = true → NoOperator rest) ∧ ConditionText sig isOpen taken first more ∧
        inTurn first more = x := by
  constructor
  · rintro ⟨c, read, rfl⟩
    obtain ⟨taken, rfl, ends, isOpen, first, more, text, value, apart⟩ :=
      conditions_tell sig (ts.length + 1) (Nat.lt_succ_self _) read
    exact ⟨taken, isOpen, first, more, rfl, ends, apart, text, value.symm⟩
  · rintro ⟨taken, isOpen, first, more, rfl, ends, apart, text, rfl⟩
    exact text.read rest ends apart

/-- Tokens are read as a condition just if they are, up to where no connective follows, a chain of
clauses, and its value is what comes of that; so it is for what stands between `if` and a bracket.

A chain evaluates some first clauses, one after the other, up to one that settles the connective
after it, or all of them. What comes of it is what comes of combining the values from right to left,
whatever the values of the other clauses would be. It fails just where a clause that is reached
does. -/
theorem condition_means :
    (∀ {sig : Signature} {ts rest : List Token} {x : Exec Bool},
      (∃ c, condition sig ts = .ok (c, rest) ∧ c.eval Procedure.run = x) ↔
        ∃ taken isOpen first more, ts = taken ++ rest ∧ NoConnective rest ∧
          (isOpen = true → NoOperator rest) ∧ ConditionText sig isOpen taken first more ∧
          inTurn first more = x) ∧
    (∀ {sig : Signature} {p : Position} {ts rest : List Token} {body : List Statement}
      {x : Exec Bool},
      (∃ c, statement sig (⟨.keyword .ifTrue, p⟩ :: ts) = .ok (.ifTrue c body, rest) ∧
        c.eval Procedure.run = x) ↔
        ∃ taken q after isOpen first more, ts = taken ++ ⟨.bracketOpen, q⟩ :: after ∧
          ConditionText sig isOpen taken first more ∧ inTurn first more = x ∧
          block sig after = .ok (body, rest)) ∧
    (∀ {first : Exec Bool} {more : List (Connective × Exec Bool)} {m m' : Machine} {value : Bool},
      inTurn first more m = .ok value m' ↔
        ∃ seen unseen a others, more = seen ++ unseen ∧
          inOrder first seen m = .ok (a, others) m' ∧ Unsettled a others ∧
          (∀ next ∈ unseen.head?, next.1.settles (lastOf a others) = true) ∧
          ∀ left, left.map Prod.fst = unseen.map Prod.fst →
            combined a (others ++ left) = value) ∧
    ∀ {first : Exec Bool} {more : List (Connective × Exec Bool)} {m m' : Machine}
      {e : RuntimeError},
      inTurn first more m = .error e m' ↔
        first m = .error e m' ∨ ∃ seen op y unseen a others m₁, more = seen ++ (op, y) :: unseen ∧
          inOrder first seen m = .ok (a, others) m₁ ∧ Unsettled a others ∧
          op.settles (lastOf a others) = false ∧ y m₁ = .error e m' := by
  refine ⟨condition_read_iff, fun {sig p ts rest body x} => ?_, inTurn_eq_ok, inTurn_eq_error⟩
  constructor
  · rintro ⟨c, read, value⟩
    obtain ⟨q, after, asked, inside⟩ := statement_ifTrue.1 read
    obtain ⟨taken, isOpen, first, more, rfl, -, -, text, value⟩ :=
      condition_read_iff.1 ⟨c, asked, value⟩
    exact ⟨taken, q, after, isOpen, first, more, rfl, text, value, inside⟩
  · rintro ⟨taken, q, after, isOpen, first, more, rfl, text, rfl, inside⟩
    obtain ⟨c, asked, value⟩ := text.read (⟨.bracketOpen, q⟩ :: after) (by rintro l ⟨⟩; rfl)
      (by rintro - l ⟨⟩; rfl)
    exact ⟨c, statement_ifTrue.2 ⟨q, after, asked, inside⟩, value⟩

/-- A `not` takes the chain that follows, and `or true` does not help where an `and` is settled. -/
example :
    ((Machine.initial (.scripted [])).submit
      "if not false or true [print 1] if {not true} or true [print 2]
        if false and 1 / 0 = 1 or true [print 3]").1 = ⟨"2\n", ""⟩ := by
  decide +kernel

end Logo
