import Mathlib
import Logo.Evaluation
import Logo.Execution
import Logo.Proofs.RoundTrip
import Logo.Proofs.Session

/-!
# What arithmetic means

Tokens that make up an expression have a meaning of their own, without a tree. A product is a chain
of operands with operators between them, and a sum is a chain of products with a sign before each of
them that belongs to it alone (`FactorText`, `ProductText`, `SumText`). What is in a chain is
evaluated from left to right, each once; only then are the values combined, from right to left
(`inChain`). Numbers are combined as whole numbers, and the result is brought into 32 bits
(`MulOp.exact`, `AddOp.exact`).

Nothing marks where the inputs of a call end: an operator after them belongs to the last input. So
what has inputs at its end (`isOpen`) can only be the last operand of a chain.

Results:
1. `MulOp.apply_exact`, `AddOp.apply_exact`, `signed_exact`: operators combine numbers exactly.
2. `combineRight_eq_error`, `inChain_cons`: when a product fails, and a chain by its first operator.
3. `expr_means`: an expression is read just from tokens that have a meaning, up to where no operator
   follows, and its value is that meaning.
-/

namespace Logo

/-! ## Numbers of 32 bits -/

/-- The product in 32 bits; or the quotient in 32 bits, cut towards zero, if there is one. -/
def MulOp.exact : MulOp → Int32 → Int32 → Except RuntimeError Int32
  | .times, a, b => .ok (Int32.ofInt (a.toInt * b.toInt))
  | .over, a, b =>
    if b.toInt = 0 then .error .divisionByZero else .ok (Int32.ofInt (a.toInt.tdiv b.toInt))

/-- The sum or the difference in 32 bits. -/
def AddOp.exact : AddOp → Int32 → Int32 → Except RuntimeError Int32
  | .plus, a, b => .ok (Int32.ofInt (a.toInt + b.toInt))
  | .minus, a, b => .ok (Int32.ofInt (a.toInt - b.toInt))

/-- The number with a sign before it, in 32 bits. -/
def signedExact (negated : Bool) (a : Int32) : Int32 :=
  if negated then Int32.ofInt (-a.toInt) else a

theorem MulOp.apply_exact (op : MulOp) (a b : Int32) : op.apply a b = op.exact a b := by
  cases op with
  | times => rw [apply, exact, Int32.ofInt_mul, Int32.ofInt_toInt, Int32.ofInt_toInt]
  | «over» =>
    have zero : b = 0 ↔ b.toInt = 0 := by rw [← Int32.toInt_inj, Int32.toInt_zero]
    have quotient : a / b = Int32.ofInt (a.toInt.tdiv b.toInt) := by
      rw [← Int32.toInt_inj, Int32.toInt_div, Int32.toInt_ofInt]
    simp only [apply, exact, zero, quotient]

theorem AddOp.apply_exact (op : AddOp) (a b : Int32) : op.exact a b = .ok (op.apply a b) := by
  cases op with
  | plus => rw [apply, exact, Int32.ofInt_add, Int32.ofInt_toInt, Int32.ofInt_toInt]
  | minus => rw [apply, exact, Int32.ofInt_sub, Int32.ofInt_toInt, Int32.ofInt_toInt]

theorem signed_exact (negated : Bool) (a : Int32) : signed negated a = signedExact negated a := by
  rw [signed, signedExact, Int32.ofInt_neg, Int32.ofInt_toInt]

/-- The smallest number divided by `-1` is itself, and quotients are cut towards zero. -/
example : MulOp.exact .over Int32.minValue (-1) = .ok Int32.minValue ∧
    MulOp.exact .over (-7) 2 = .ok (-3) ∧ MulOp.exact .over 1 0 = .error .divisionByZero := by
  decide

/-! ## Chains -/

/-- Combines numbers from right to left. -/
def combineRight {Op : Type} (combine : Op → Int32 → Int32 → Except RuntimeError Int32) :
    Int32 → List (Op × Int32) → Except RuntimeError Int32
  | a, [] => .ok a
  | a, (op, b) :: more => do combine op a (← combineRight combine b more)

/-- Evaluates operands from left to right, and then combines them from right to left. -/
def inChain {Op : Type} (combine : Op → Int32 → Int32 → Except RuntimeError Int32)
    (first : Exec Int32) (more : List (Op × Exec Int32)) : Exec Int32 := do
  let a ← first
  let others ← more.mapM fun (op, x) => do return (op, ← x)
  MonadExcept.ofExcept (combineRight combine a others)

/-- Products fail exactly where a number is divided by what comes of all that follows, and that is
zero. -/
theorem combineRight_eq_error {a : Int32} {others : List (MulOp × Int32)} {e : RuntimeError} :
    combineRight MulOp.exact a others = .error e ↔
      e = .divisionByZero ∧ ∃ before b after, others = before ++ (.over, b) :: after ∧
        combineRight MulOp.exact b after = .ok 0 := by
  induction others generalizing a e with
  | nil => simp [combineRight]
  | cons next more ih =>
    obtain ⟨op, b⟩ := next
    have split : (∃ before b' after, (op, b) :: more = before ++ (.over, b') :: after ∧
        combineRight MulOp.exact b' after = .ok 0) ↔
        (op = .over ∧ combineRight MulOp.exact b more = .ok 0) ∨
          ∃ before b' after, more = before ++ (.over, b') :: after ∧
            combineRight MulOp.exact b' after = .ok 0 := by
      constructor
      · rintro ⟨_ | ⟨first, before⟩, b', after, same, zero⟩
        · cases same
          exact .inl ⟨rfl, zero⟩
        · exact .inr ⟨before, b', after, (List.cons.inj same).2, zero⟩
      · rintro (⟨rfl, zero⟩ | ⟨before, b', after, rfl, zero⟩)
        · exact ⟨[], b, more, rfl, zero⟩
        · exact ⟨(op, b) :: before, b', after, rfl, zero⟩
    rw [combineRight, split]
    cases inner : combineRight MulOp.exact b more with
    | error e' =>
      obtain ⟨rfl, deeper⟩ := ih.1 inner
      constructor
      · rintro ⟨⟩
        exact ⟨rfl, .inr deeper⟩
      · rintro ⟨rfl, -⟩
        rfl
    | ok value =>
      have fine : ¬ ∃ before b' after, more = before ++ (.over, b') :: after ∧
          combineRight MulOp.exact b' after = .ok 0 := fun deeper => by
        cases inner.symm.trans (ih (e := .divisionByZero).2 ⟨rfl, deeper⟩)
      have zero : value.toInt = 0 ↔ value = 0 := by rw [← Int32.toInt_inj, Int32.toInt_zero]
      show op.exact a value = .error e ↔ _
      cases op with
      | times => simp [MulOp.exact, fine]
      | «over» =>
        by_cases none : value = 0
        · simp [MulOp.exact, fine, none, eq_comm]
        · simp [MulOp.exact, fine, zero, none]

section

variable {Op : Type} {combine : Op → Int32 → Int32 → Except RuntimeError Int32}

@[simp] theorem inChain_nil (x : Exec Int32) : inChain combine x [] = x := by
  simp only [inChain, List.mapM_nil, pure_bind, combineRight]
  exact bind_pure x

/-- A chain is its first operand, combined with the chain of the others once they are evaluated. -/
theorem inChain_cons (x y : Exec Int32) (op : Op) (more : List (Op × Exec Int32)) :
    inChain combine x ((op, y) :: more) = (do
      let a ← x
      let b ← inChain combine y more
      MonadExcept.ofExcept (combine op a b)) := by
  simp only [inChain, List.mapM_cons, bind_assoc, pure_bind, combineRight]
  refine congrArg _ (funext fun a => congrArg _ (funext fun b => congrArg _ ?_))
  funext others
  cases combineRight combine b others with
  | ok value => exact (pure_bind _ _).symm
  | error e => rfl

end

/-! ## Texts -/

/-- The value of a call with these inputs. -/
def called (name : Name) (inputs : List (Exec Int32)) : Exec Int32 := do
  let p ← Exec.procedure name inputs.length
  let values ← inputs.mapM id
  match (← Procedure.run name.text p values).value? with
  | some value => return value
  | none => throw (.noOutput name.text)

/-- `SignText negated ts`: at most one sign, and `negated` tells whether it is a minus. -/
inductive SignText : Bool → List Token → Prop
  | none : SignText false []
  | sign {op p} : SignText (op = .minus) [⟨.addOp op, p⟩]

mutual

/-- `FactorText sig isOpen ts x`: the tokens `ts` are an operand of a product with the value `x`. -/
inductive FactorText (sig : Signature) : Bool → List Token → Exec Int32 → Prop
  | number {n p} : FactorText sig false [⟨.number n, p⟩] (return Int32.ofNat n)
  | variable {w p} : sig w = none → FactorText sig false [⟨.word w, p⟩] (Exec.lookup ⟨w, p⟩)
  | reporter {what : Reporter} {p} :
      FactorText sig false [⟨.keyword what.keyword, p⟩] (do return what.report (← get).turtle)
  | call {w p ts inputs} : sig w = some inputs.length → InputTexts sig ts inputs →
      FactorText sig (!inputs.isEmpty) (⟨.word w, p⟩ :: ts) (called ⟨w, p⟩ inputs)
  | grouped {p ts first more q} : SumText sig ts first more →
      FactorText sig false (⟨.parenOpen, p⟩ :: (ts ++ [⟨.parenClose, q⟩]))
        (inChain AddOp.exact first more)

/-- `InputTexts sig ts inputs`: the tokens `ts` are inputs of a call, with these values. An operator
would belong to the input before it. -/
inductive InputTexts (sig : Signature) : List Token → List (Exec Int32) → Prop
  | nil : InputTexts sig [] []
  | cons {ts first more ts' inputs} : SumText sig ts first more → NoOperator ts' →
      InputTexts sig ts' inputs →
      InputTexts sig (ts ++ ts') (inChain AddOp.exact first more :: inputs)

/-- `ProductText sig isOpen ts first more`: the tokens `ts` are a chain of operands of a product,
with the values `first` and `more`. -/
inductive ProductText (sig : Signature) :
    Bool → List Token → Exec Int32 → List (MulOp × Exec Int32) → Prop
  | single {isOpen ts x} : FactorText sig isOpen ts x → ProductText sig isOpen ts x []
  | chain {ts x op p isOpen ts' y more} : FactorText sig false ts x →
      ProductText sig isOpen ts' y more →
      ProductText sig isOpen (ts ++ ⟨.mulOp op, p⟩ :: ts') x ((op, y) :: more)

/-- `SumText sig ts first more`: the tokens `ts` are a chain of products, each after its sign, with
the values `first` and `more`. -/
inductive SumText (sig : Signature) :
    List Token → Exec Int32 → List (AddOp × Exec Int32) → Prop
  | single {negated sign isOpen ts x factors} : SignText negated sign →
      ProductText sig isOpen ts x factors →
      SumText sig (sign ++ ts) (signedExact negated <$> inChain MulOp.exact x factors) []
  | chain {negated sign ts x factors op p ts' y more} : SignText negated sign →
      ProductText sig false ts x factors → SumText sig ts' y more →
      SumText sig (sign ++ (ts ++ ⟨.addOp op, p⟩ :: ts'))
        (signedExact negated <$> inChain MulOp.exact x factors) ((op, y) :: more)

end

/-! ## Values of trees -/

theorem evalAll_eq (run : Runner) (es : List Expr) :
    evalAll run es = (es.map (Expr.eval run)).mapM id := by
  induction es with
  | nil => rw [evalAll, List.map_nil, List.mapM_nil]
  | cons e es ih => rw [evalAll, ih, List.map_cons, List.mapM_cons, id]

theorem Factor.eval_reporter (run : Runner) (what : Reporter) :
    (Factor.call (.reporter what)).eval run = (do return what.report (← get).turtle) := by
  rw [Factor.eval, Call.run]
  rfl

theorem Factor.eval_procedure (name : Name) (arguments : List Expr) :
    (Factor.call (.procedure name arguments)).eval Procedure.run =
      called name (arguments.map (Expr.eval Procedure.run)) := by
  rw [Factor.eval, Call.run, called, List.length_map]
  simp only [evalAll_eq, bind_assoc]
  rfl

theorem Term.eval_chain (run : Runner) (f : Factor) (op : MulOp) (rest : Term) :
    (Term.chain f op rest).eval run = (do
      let a ← f.eval run
      let b ← rest.eval run
      MonadExcept.ofExcept (op.exact a b)) := by
  rw [Term.eval]
  refine congrArg _ (funext fun a => congrArg _ (funext fun b => ?_))
  rw [MulOp.apply_exact]
  cases op.exact a b <;> rfl

theorem Expr.eval_single (run : Runner) (negated : Bool) (t : Term) :
    (Expr.single negated t).eval run = signedExact negated <$> t.eval run := by
  rw [Expr.eval, map_eq_pure_bind]
  simp only [signed_exact]

theorem Expr.eval_chain (run : Runner) (negated : Bool) (t : Term) (op : AddOp) (rest : Expr) :
    (Expr.chain negated t op rest).eval run = (do
      let a ← signedExact negated <$> t.eval run
      let b ← rest.eval run
      MonadExcept.ofExcept (op.exact a b)) := by
  rw [Expr.eval, bind_map_left]
  simp only [signed_exact, AddOp.apply_exact]
  rfl

/-! ## What the rules read -/

namespace Grammar

open Reader

variable {sig : Signature} {ts rest : List Token}

/-- No sign, and no operator of a sum, comes next. -/
def NoAddOp (ts : List Token) : Prop := ∀ op, next ts ≠ some (.addOp op)

theorem noOperator_iff : NoOperator ts ↔ NoMulOp ts ∧ NoAddOp ts := by
  refine ⟨fun apart => ⟨apart.noMulOp, fun op first => nomatch apart _ first⟩, ?_⟩
  rintro ⟨noMul, noAdd⟩ l first
  cases l with
  | addOp op => exact absurd first (noAdd op)
  | mulOp op => exact absurd first (noMul op)
  | _ => rfl

theorem expect_eq_ok {l : Lexeme} {what : Expectation} {u : Unit} :
    expect l what ts = .ok (u, rest) ↔ ∃ p, ts = ⟨l, p⟩ :: rest := by
  constructor
  · intro read
    obtain ⟨⟨l', p⟩, ts, rfl⟩ : ∃ t more, ts = t :: more := by
      cases ts with
      | nil => cases read
      | cons t more => exact ⟨t, more, rfl⟩
    rw [expect] at read
    split at read
    · next same =>
      cases read
      exact ⟨p, by rw [← same]⟩
    · cases read
  · rintro ⟨p, rfl⟩
    exact expect_ok l what p rest

theorem keyword_of_callee {l : Lexeme} {what : Reporter}
    (called : callee? sig l = some (.reporter what)) : l = .keyword what.keyword := by
  cases l with
  | keyword k => cases k <;> cases called <;> rfl
  | word w => cases (Option.map_eq_some_iff.1 called).choose_spec.2
  | _ => cases called

theorem word_of_callee {l : Lexeme} {name : String} {arity : Nat}
    (called : callee? sig l = some (.procedure name arity)) :
    l = .word name ∧ sig name = some arity := by
  cases l with
  | keyword k => cases k <;> cases called
  | word w =>
    obtain ⟨_, known, ⟨⟩⟩ := Option.map_eq_some_iff.1 called
    exact ⟨rfl, known⟩
  | _ => cases called

/-- Where only operators are chosen, either one comes next or none does. -/
theorem branch_operator {α Op : Type} (operator : Op → Lexeme)
    {choose : Token → Option (Reader α)} {otherwise : Reader α} {after : Op → Reader α} {a : α}
    (chosen : ∀ op p, choose ⟨operator op, p⟩ = some (after op))
    (left : ∀ l p, (∀ op, l ≠ operator op) → choose ⟨l, p⟩ = none) :
    branch choose otherwise ts = .ok (a, rest) ↔
      (∀ op, next ts ≠ some (operator op)) ∧ otherwise ts = .ok (a, rest) ∨
        ∃ op p more, ts = ⟨operator op, p⟩ :: more ∧ after op more = .ok (a, rest) := by
  constructor
  · intro read
    rcases ts with _ | ⟨⟨l, p⟩, more⟩
    · exact .inl ⟨fun op first => (nomatch first), read⟩
    · by_cases comes : ∃ op, l = operator op
      · obtain ⟨op, rfl⟩ := comes
        rw [branch_some (chosen op p)] at read
        exact .inr ⟨op, p, more, rfl, read⟩
      · have other : ∀ op, l ≠ operator op := fun op same => comes ⟨op, same⟩
        rw [branch_none (left l p other)] at read
        exact .inl ⟨fun op first => other op (Option.some.inj first), read⟩
  · rintro (⟨none, read⟩ | ⟨op, p, more, rfl, read⟩)
    · rw [branch_unchosen (unchosen_of_next fun l p first =>
        left l p fun op same => none op (same ▸ first))]
      exact read
    · rw [branch_some (chosen op p)]
      exact read

/-- A product is read up to where no operator of a product follows an operand. -/
theorem term_eq_ok {t : Term} : term sig ts = .ok (t, rest) ↔
    ∃ f between, factor sig ts = .ok (f, between) ∧
      (NoMulOp between ∧ .single f = t ∧ between = rest ∨
        ∃ op p more, between = ⟨.mulOp op, p⟩ :: more ∧
          ∃ t', term sig more = .ok (t', rest) ∧ .chain f op t' = t) := by
  conv_lhs => rw [term_steps, andThen_eq_ok]
  refine exists_congr fun f => exists_congr fun between => and_congr_right fun _ => ?_
  rw [branch_operator .mulOp (fun _ _ => rfl)
    (fun l p other => by cases l <;> first | rfl | exact absurd rfl (other _))]
  simp only [andThen_give_eq_ok, give_eq_ok, NoMulOp]

/-- A sum is read up to where no operator of a sum follows a product. -/
theorem sum_eq_ok {negated : Bool} {e : Expr} : sum sig negated ts = .ok (e, rest) ↔
    ∃ t between, term sig ts = .ok (t, between) ∧
      (NoAddOp between ∧ .single negated t = e ∧ between = rest ∨
        ∃ op p more, between = ⟨.addOp op, p⟩ :: more ∧
          ∃ e', expr sig more = .ok (e', rest) ∧ .chain negated t op e' = e) := by
  rw [sum_steps, andThen_eq_ok]
  refine exists_congr fun t => exists_congr fun between => and_congr_right fun _ => ?_
  rw [branch_operator .addOp (fun _ _ => rfl)
    (fun l p other => by cases l <;> first | rfl | exact absurd rfl (other _))]
  simp only [andThen_give_eq_ok, give_eq_ok, NoAddOp]

/-- An expression is a sum after a sign, if there is one. -/
theorem expr_eq_ok {e : Expr} : expr sig ts = .ok (e, rest) ↔
    NoAddOp ts ∧ sum sig false ts = .ok (e, rest) ∨
      ∃ op p more, ts = ⟨.addOp op, p⟩ :: more ∧ sum sig (op = .minus) more = .ok (e, rest) := by
  rw [expr_steps]
  exact branch_operator .addOp (fun _ _ => rfl)
    (fun l p other => by cases l <;> first | rfl | exact absurd rfl (other _))

end Grammar

/-! ## What is read has a meaning -/

/-- The tokens `taken`, with `rest` after them, are an operand of a product and say its value. -/
def Factor.Means (sig : Signature) (f : Factor) (taken rest : List Token) : Prop :=
  ∃ isOpen, FactorText sig isOpen taken (f.eval Procedure.run) ∧ (isOpen = true → NoOperator rest)

def Term.Means (sig : Signature) (t : Term) (taken rest : List Token) : Prop :=
  NoMulOp rest ∧ ∃ isOpen first more, ProductText sig isOpen taken first more ∧
    t.eval Procedure.run = inChain MulOp.exact first more ∧ (isOpen = true → NoOperator rest)

def Expr.Means (sig : Signature) (e : Expr) (taken rest : List Token) : Prop :=
  NoOperator rest ∧ ∃ first more, SumText sig taken first more ∧
    e.eval Procedure.run = inChain AddOp.exact first more

/-- From fewer than `n` tokens, a success takes some first tokens that tell what it gives. -/
def Reader.Tells {α : Type} (n : Nat) (Q : α → List Token → List Token → Prop) (r : Reader α) :
    Prop :=
  ∀ ⦃ts a rest⦄, ts.length < n → r ts = .ok (a, rest) → ∃ taken, ts = taken ++ rest ∧ Q a taken rest

theorem NoOperator.of_append {ts ts' : List Token} (apart : NoOperator (ts ++ ts')) :
    NoOperator ts := by
  cases ts with
  | nil => exact fun l first => nomatch first
  | cons t ts => exact apart

theorem NoOperator.append {ts ts' : List Token} (apart : NoOperator ts) (after : NoOperator ts') :
    NoOperator (ts ++ ts') := by
  cases ts with
  | nil => exact after
  | cons t ts => exact apart

namespace Grammar

open Reader

variable {sig : Signature} {n : Nat}

section

variable (e : Tells n (Expr.Means sig) (expr sig))

include e

theorem arguments_tell {arity : Nat} {ts rest : List Token} {es : List Expr}
    (short : ts.length < n) (read : argumentsWith (expr sig) arity ts = .ok (es, rest)) :
    ∃ taken, ts = taken ++ rest ∧ es.length = arity ∧
      InputTexts sig taken (es.map (Expr.eval Procedure.run)) ∧ (es ≠ [] → NoOperator rest) := by
  induction arity generalizing ts es with
  | zero =>
    cases read
    exact ⟨[], rfl, rfl, .nil, fun some => absurd rfl some⟩
  | succ arity ih =>
    rw [argumentsWith_succ] at read
    obtain ⟨first, between, begun, goes⟩ := andThen_eq_ok.1 read
    obtain ⟨others, follow, rfl⟩ := andThen_give_eq_ok.1 goes
    obtain ⟨taken, rfl, apart, x, more, text, value⟩ := e short begun
    rw [List.length_append] at short
    obtain ⟨taken', rfl, count, texts, apart'⟩ := ih (by omega) follow
    refine ⟨taken ++ taken', (List.append_assoc ..).symm, congrArg (· + 1) count, ?_, fun _ => ?_⟩
    · rw [List.map_cons, value]
      exact .cons text apart.of_append texts
    · cases others with
      | nil =>
        cases texts
        exact apart
      | cons _ _ => exact apart' (List.cons_ne_nil _ _)

/-- A call reads the inputs of what it calls. -/
theorem call_tells {l : Lexeme} {callee : Callee} (called : callee? sig l = some callee)
    (p : Position) {ts rest : List Token} {c : Call} (short : ts.length < n)
    (read : call sig callee p ts = .ok (c, rest)) :
    ∃ taken, ts = taken ++ rest ∧ (Factor.call c).Means sig (⟨l, p⟩ :: taken) rest := by
  cases callee with
  | reporter what =>
    obtain rfl := keyword_of_callee called
    cases read
    exact ⟨[], rfl, false, by rw [Factor.eval_reporter]; exact .reporter, nofun⟩
  | procedure name arity =>
    obtain ⟨rfl, known⟩ := word_of_callee called
    rw [call_procedure] at read
    obtain ⟨es, inputs, rfl⟩ := andThen_give_eq_ok.1 read
    obtain ⟨taken, rfl, count, texts, apart⟩ := arguments_tell e short inputs
    refine ⟨taken, rfl, !(es.map (Expr.eval Procedure.run)).isEmpty, ?_, ?_⟩
    · rw [Factor.eval_procedure]
      refine .call ?_ texts
      rw [List.length_map, count, known]
    · intro opens
      refine apart fun none => ?_
      rw [none] at opens
      cases opens

theorem factor_tells : Tells (n + 1) (Factor.Means sig) (factor sig) := by
  intro ts f rest short read
  rw [factor_steps] at read
  rcases ts with _ | ⟨⟨l, p⟩, ts⟩
  · cases read
  · have fewer := Nat.lt_of_succ_lt_succ short
    cases choice : factorAt sig ⟨l, p⟩ with
    | none =>
      rw [branch_none choice] at read
      cases read
    | some r =>
      rw [branch_some choice] at read
      unfold factorAt at choice
      split at choice
      · next callee called =>
        cases choice
        obtain ⟨c, reads, rfl⟩ := andThen_give_eq_ok.1 read
        obtain ⟨taken, rfl, means⟩ := call_tells e called p fewer reads
        exact ⟨_, rfl, means⟩
      · next called =>
        cases l with
        | number value =>
          cases choice
          cases read
          exact ⟨[_], rfl, false, by rw [Factor.eval]; exact .number, nofun⟩
        | word w =>
          cases choice
          cases read
          refine ⟨[_], rfl, false, ?_, nofun⟩
          rw [Factor.eval]
          exact .variable (Option.map_eq_none_iff.1 called)
        | parenOpen =>
          cases choice
          obtain ⟨inner, between, begun, goes⟩ := andThen_eq_ok.1 read
          obtain ⟨_, closed, rfl⟩ := andThen_give_eq_ok.1 goes
          obtain ⟨taken, rfl, _, first, more, text, value⟩ := e fewer begun
          obtain ⟨q, rfl⟩ := expect_eq_ok.1 closed
          refine ⟨⟨.parenOpen, p⟩ :: (taken ++ [⟨.parenClose, q⟩]), by simp, false, ?_, nofun⟩
          rw [Factor.eval, value]
          exact .grouped text
        | _ => cases choice

end

/-- What stands before an operator has no inputs at its end. -/
theorem eq_false_of_operator {isOpen : Bool} {t : Token} {rest : List Token}
    (apart : isOpen = true → NoOperator (t :: rest)) (operator : t.lexeme.isOperator = true) :
    isOpen = false := by
  refine Bool.eq_false_of_not_eq_true fun opens => ?_
  rw [apart opens _ rfl] at operator
  cases operator

theorem term_tells (f : Tells (n + 1) (Factor.Means sig) (factor sig))
    (t : Tells n (Term.Means sig) (term sig)) : Tells (n + 1) (Term.Means sig) (term sig) := by
  intro ts whole rest short read
  obtain ⟨first, between, begun, goes⟩ := term_eq_ok.1 read
  have fewer : between.length < n :=
    Nat.lt_of_lt_of_le (factor_takes sig begun) (Nat.le_of_lt_succ short)
  obtain ⟨taken, rfl, isOpen, text, apart⟩ := f short begun
  rcases goes with ⟨noMul, rfl, rfl⟩ | ⟨op, p, more, rfl, t', follow, rfl⟩
  · refine ⟨taken, rfl, noMul, isOpen, _, [], .single text, ?_, apart⟩
    rw [Term.eval, inChain_nil]
  · obtain rfl := eq_false_of_operator apart rfl
    obtain ⟨taken', rfl, noMul, isOpen', x, factors, text', value, apart'⟩ :=
      t (Nat.lt_of_succ_lt fewer) follow
    refine ⟨taken ++ ⟨.mulOp op, p⟩ :: taken', by simp, noMul, isOpen', _, _, .chain text text', ?_,
      apart'⟩
    rw [Term.eval_chain, inChain_cons, value]

theorem sum_tells (t : Tells (n + 1) (Term.Means sig) (term sig))
    (e : Tells n (Expr.Means sig) (expr sig)) {negated : Bool} {sign : List Token}
    (signs : SignText negated sign) :
    Tells (n + 1) (fun e taken rest => e.Means sig (sign ++ taken) rest) (sum sig negated) := by
  intro ts whole rest short read
  obtain ⟨first, between, begun, goes⟩ := sum_eq_ok.1 read
  have fewer : between.length < n :=
    Nat.lt_of_lt_of_le (term_takes sig begun) (Nat.le_of_lt_succ short)
  obtain ⟨taken, rfl, noMul, isOpen, x, factors, text, value, apart⟩ := t short begun
  rcases goes with ⟨noAdd, rfl, rfl⟩ | ⟨op, p, more, rfl, e', follow, rfl⟩
  · refine ⟨taken, rfl, noOperator_iff.2 ⟨noMul, noAdd⟩, _, [], .single signs text, ?_⟩
    rw [Expr.eval_single, value, inChain_nil]
  · obtain rfl := eq_false_of_operator apart rfl
    obtain ⟨taken', rfl, after, y, others, text', value'⟩ := e (Nat.lt_of_succ_lt fewer) follow
    refine ⟨taken ++ ⟨.addOp op, p⟩ :: taken', by simp, after, _, _, .chain signs text text', ?_⟩
    rw [Expr.eval_chain, inChain_cons, value, value']

theorem expr_step_tells (t : Tells (n + 1) (Term.Means sig) (term sig))
    (e : Tells n (Expr.Means sig) (expr sig)) : Tells (n + 1) (Expr.Means sig) (expr sig) := by
  intro ts whole rest short read
  rcases expr_eq_ok.1 read with ⟨-, unsigned⟩ | ⟨op, p, more, rfl, after⟩
  · exact sum_tells t e .none short unsigned
  · have fewer := Nat.lt_of_succ_lt short
    obtain ⟨taken, rfl, means⟩ := sum_tells t e (.sign (p := p)) fewer after
    exact ⟨⟨.addOp op, p⟩ :: taken, rfl, means⟩

/-- What is read as a product or as a sum has a meaning. By induction on the number of tokens, since
every rule takes one before it comes back to itself. -/
theorem numbers_tell (sig : Signature) (n : Nat) :
    Tells n (Term.Means sig) (term sig) ∧ Tells n (Expr.Means sig) (expr sig) := by
  induction n with
  | zero => exact ⟨fun _ _ _ short => (nomatch short), fun _ _ _ short => nomatch short⟩
  | succ n ih =>
    have t := term_tells (factor_tells ih.2) ih.1
    exact ⟨t, expr_step_tells t ih.2⟩

end Grammar

/-! ## What has a meaning is read -/

open Grammar Reader

variable {sig : Signature}

theorem FactorText.next {isOpen : Bool} {ts : List Token} {x : Exec Int32}
    (text : FactorText sig isOpen ts x) (rest : List Token) : FactorNext (ts ++ rest) := by
  cases text with
  | @reporter what => cases what <;> exact ⟨_, rfl, rfl⟩
  | _ => exact ⟨_, rfl, rfl⟩

theorem ProductText.next {isOpen : Bool} {ts : List Token} {x : Exec Int32}
    {more : List (MulOp × Exec Int32)} (text : ProductText sig isOpen ts x more)
    (rest : List Token) : FactorNext (ts ++ rest) := by
  cases text with
  | single text => exact text.next rest
  | chain text =>
    rw [List.append_assoc]
    exact text.next _

/-- After a sign, or where an operand comes next, a sum is read. -/
theorem SignText.read {negated : Bool} {sign ts : List Token} {e : Expr} {rest : List Token}
    (signs : SignText negated sign) (comes : FactorNext ts)
    (read : sum sig negated ts = .ok (e, rest)) : expr sig (sign ++ ts) = .ok (e, rest) := by
  cases signs with
  | none => exact expr_eq_ok.2 (.inl ⟨(noOperator_iff.1 comes.noOperator).2, read⟩)
  | sign => exact expr_eq_ok.2 (.inr ⟨_, _, ts, rfl, read⟩)

theorem factor_of_factorAt {t : Token} {r : Reader Factor} {ts rest : List Token} {f : Factor}
    (choice : factorAt sig t = some r) (read : r ts = .ok (f, rest)) :
    factor sig (t :: ts) = .ok (f, rest) := by
  rw [factor_steps, branch_some choice, read]

-- By recursion on what makes up the text. What follows the last part of a chain is what follows the
-- chain; the other parts are followed by an operator, and leave it since they have no inputs at their
-- ends.
mutual

theorem FactorText.read {isOpen : Bool} {ts : List Token} {x : Exec Int32} :
    FactorText sig isOpen ts x → ∀ rest, (isOpen = true → NoOperator rest) →
      ∃ f, factor sig (ts ++ rest) = .ok (f, rest) ∧ f.eval Procedure.run = x
  | .number (n := n), rest, _ => by
    refine ⟨.number n, factor_of_factorAt (r := give (.number n)) rfl rfl, ?_⟩
    rw [Factor.eval]
  | .variable (w := w) (p := p) free, rest, _ => by
    refine ⟨.variable ⟨w, p⟩, factor_of_factorAt (r := give (.variable ⟨w, p⟩)) ?_ rfl, ?_⟩
    · simp only [factorAt, callee?, free, Option.map_none]
    · rw [Factor.eval]
  | @FactorText.reporter _ what _, rest, _ => by
    refine ⟨.call (.reporter what), ?_, Factor.eval_reporter _ what⟩
    cases what <;> exact factor_of_factorAt rfl rfl
  | @FactorText.call _ w p _ _ known texts, rest, apart => by
    obtain ⟨es, reads, rfl⟩ := texts.read rest fun some => apart (by simpa using some)
    rw [List.length_map] at known reads
    refine ⟨.call (.procedure ⟨w, p⟩ es), ?_, Factor.eval_procedure _ _⟩
    refine factor_of_factorAt (r := (call sig (.procedure w es.length) p).andThen fun c =>
      give (.call c)) ?_ ?_
    · simp only [factorAt, callee?, known, Option.map_some]
    · exact andThen_give_eq_ok.2 ⟨_, andThen_give_eq_ok.2 ⟨es, reads, rfl⟩, rfl⟩
  | .grouped (q := q) text, rest, _ => by
    obtain ⟨e, reads, value⟩ := text.read (⟨.parenClose, q⟩ :: rest) (by rintro l ⟨⟩; rfl)
    refine ⟨.grouped e, ?_, by rw [Factor.eval, value]⟩
    rw [List.cons_append, List.append_assoc]
    refine factor_of_factorAt (r := (expr sig).andThen fun e =>
      (expect .parenClose .closingParenthesis).andThen fun _ => give (.grouped e)) rfl ?_
    exact andThen_eq_ok.2 ⟨e, _, reads, andThen_give_eq_ok.2 ⟨(), expect_ok _ _ q rest, rfl⟩⟩

theorem InputTexts.read {ts : List Token} {inputs : List (Exec Int32)} :
    InputTexts sig ts inputs → ∀ rest, (inputs ≠ [] → NoOperator rest) →
      ∃ es, argumentsWith (expr sig) inputs.length (ts ++ rest) = .ok (es, rest) ∧
        es.map (Expr.eval Procedure.run) = inputs
  | .nil, rest, _ => ⟨[], rfl, rfl⟩
  | @InputTexts.cons _ _ _ _ ts' _ text apart texts, rest, after => by
    have ends := after (List.cons_ne_nil _ _)
    obtain ⟨es, others, rfl⟩ := texts.read rest fun _ => ends
    obtain ⟨e, reads, value⟩ := text.read (ts' ++ rest) (apart.append ends)
    refine ⟨e :: es, ?_, by rw [List.map_cons, value]⟩
    rw [List.append_assoc, List.length_cons, argumentsWith_succ]
    exact andThen_eq_ok.2 ⟨e, _, reads, andThen_give_eq_ok.2 ⟨es, others, rfl⟩⟩

theorem ProductText.read {isOpen : Bool} {ts : List Token} {x : Exec Int32}
    {more : List (MulOp × Exec Int32)} :
    ProductText sig isOpen ts x more → ∀ rest, NoMulOp rest → (isOpen = true → NoOperator rest) →
      ∃ t, term sig (ts ++ rest) = .ok (t, rest) ∧
        t.eval Procedure.run = inChain MulOp.exact x more
  | .single text, rest, noMul, apart => by
    obtain ⟨f, reads, value⟩ := text.read rest apart
    refine ⟨.single f, term_eq_ok.2 ⟨f, rest, reads, .inl ⟨noMul, rfl, rfl⟩⟩, ?_⟩
    rw [Term.eval, value, inChain_nil]
  | @ProductText.chain _ _ _ op p _ ts' _ _ text text', rest, noMul, apart => by
    obtain ⟨t, others, value'⟩ := text'.read rest noMul apart
    obtain ⟨f, reads, value⟩ := text.read (⟨.mulOp op, p⟩ :: (ts' ++ rest)) nofun
    refine ⟨.chain f op t, ?_, by rw [Term.eval_chain, inChain_cons, value, value']⟩
    rw [List.append_assoc]
    exact term_eq_ok.2 ⟨f, _, reads, .inr ⟨op, p, _, rfl, t, others, rfl⟩⟩

theorem SumText.read {ts : List Token} {x : Exec Int32} {more : List (AddOp × Exec Int32)} :
    SumText sig ts x more → ∀ rest, NoOperator rest →
      ∃ e, expr sig (ts ++ rest) = .ok (e, rest) ∧
        e.eval Procedure.run = inChain AddOp.exact x more
  | @SumText.single _ negated _ _ _ _ _ signs text, rest, apart => by
    obtain ⟨noMul, noAdd⟩ := noOperator_iff.1 apart
    obtain ⟨t, reads, value⟩ := text.read rest noMul fun _ => apart
    refine ⟨.single negated t, ?_, by rw [Expr.eval_single, value, inChain_nil]⟩
    rw [List.append_assoc]
    exact signs.read (text.next rest) (sum_eq_ok.2 ⟨t, rest, reads, .inl ⟨noAdd, rfl, rfl⟩⟩)
  | @SumText.chain _ negated _ _ _ _ op p ts' _ _ signs text text', rest, apart => by
    obtain ⟨e, others, value'⟩ := text'.read rest apart
    obtain ⟨t, reads, value⟩ := text.read (⟨.addOp op, p⟩ :: (ts' ++ rest)) nofun nofun
    refine ⟨.chain negated t op e, ?_, by rw [Expr.eval_chain, inChain_cons, value, value']⟩
    rw [List.append_assoc, List.append_assoc]
    exact signs.read (text.next _)
      (sum_eq_ok.2 ⟨t, _, reads, .inr ⟨op, p, _, rfl, e, others, rfl⟩⟩)

end

/-- Tokens are read as an expression just if they are, up to where no operator follows, a sum of
products, and its value is what comes of their chains: so the value of every expression is told by
its text. A product fails on its own account just where a number is divided by zero. -/
theorem expr_means :
    (∀ {sig : Signature} {ts rest : List Token} {x : Exec Int32},
      (∃ e, Grammar.expr sig ts = .ok (e, rest) ∧ e.eval Procedure.run = x) ↔
        ∃ taken first more, ts = taken ++ rest ∧ NoOperator rest ∧
          SumText sig taken first more ∧ inChain AddOp.exact first more = x) ∧
    ∀ {a : Int32} {others : List (MulOp × Int32)} {e : RuntimeError},
      combineRight MulOp.exact a others = .error e ↔
        e = .divisionByZero ∧ ∃ before b after, others = before ++ (.over, b) :: after ∧
          combineRight MulOp.exact b after = .ok 0 := by
  refine ⟨fun {sig ts rest x} => ⟨?_, ?_⟩, combineRight_eq_error⟩
  · rintro ⟨e, read, rfl⟩
    obtain ⟨taken, rfl, apart, first, more, text, value⟩ :=
      (numbers_tell sig (ts.length + 1)).2 (Nat.lt_succ_self _) read
    exact ⟨taken, first, more, rfl, apart, text, value.symm⟩
  · rintro ⟨taken, first, more, rfl, apart, text, rfl⟩
    exact text.read rest apart

/-- Differences are taken from the right, and a sign applies to one product. -/
example :
    ((Machine.initial (.scripted [])).submit "print 10 - -2 * 3 - 1 print 8 / 4 / 2").1 =
      ⟨"17\n4\n", ""⟩ := by
  decide +kernel

end Logo
