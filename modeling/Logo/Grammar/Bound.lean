import Logo.Grammar.Program

/-!
# The bound on the tokens makes no difference

The rules of the grammar are tied together by a bound on the number of tokens. Here it is shown
that the bound is of no consequence: every reader takes a token if it succeeds (`Takes`), so that a
bound that is not below the number of tokens is never felt, and the readers satisfy the rules of
the grammar as equations.

Results:
1. `expr_takes`, `term_takes`, `factor_takes`, `condition_takes`, `statement_takes`,
   `block_takes`, `body_takes`: what succeeds leaves fewer tokens.
2. `expr_eq`, `term_eq`, `condition_eq`, `block_eq`, `body_eq`, `program_eq`: the rules, without a
   bound.
-/

namespace Logo

/-- A reader that succeeds takes at least one token. -/
def Reader.Takes {α : Type} (r : Reader α) : Prop :=
  ∀ ⦃ts : List Token⦄ ⦃a : α⦄ ⦃rest : List Token⦄, r ts = .ok (a, rest) → rest.length < ts.length

/-- A reader that succeeds leaves no more tokens than there were. -/
def Reader.Keeps {α : Type} (r : Reader α) : Prop :=
  ∀ ⦃ts : List Token⦄ ⦃a : α⦄ ⦃rest : List Token⦄, r ts = .ok (a, rest) → rest.length ≤ ts.length

/-- Two readers do the same with at most `n` tokens. -/
def Reader.AgreeTo {α : Type} (n : Nat) (r s : Reader α) : Prop :=
  ∀ ⦃ts : List Token⦄, ts.length ≤ n → r ts = s ts

theorem Reader.Takes.keeps {α : Type} {r : Reader α} (h : r.Takes) : r.Keeps :=
  fun _ _ _ e => Nat.le_of_lt (h e)

theorem Reader.AgreeTo.mono {α : Type} {m n : Nat} {r s : Reader α} (h : AgreeTo n r s)
    (hmn : m ≤ n) : AgreeTo m r s :=
  fun _ hts => h (Nat.le_trans hts hmn)

theorem Reader.AgreeTo.trans {α : Type} {n : Nat} {r s t : Reader α} (h : AgreeTo n r s)
    (h' : AgreeTo n s t) : AgreeTo n r t :=
  fun _ hts => (h hts).trans (h' hts)

namespace Grammar

/-! ## Steps of a reader -/

theorem bind_eq_ok {ε α β : Type} {x : Except ε α} {f : α → Except ε β} {b : β} :
    (x >>= f) = .ok b ↔ ∃ a, x = .ok a ∧ f a = .ok b := by
  cases x <;> simp [bind, Except.bind]

theorem map_eq_ok {ε α β : Type} {x : Except ε α} {f : α → β} {b : β} :
    x.map f = .ok b ↔ ∃ a, x = .ok a ∧ f a = b := by
  cases x <;> simp [Except.map]

/-- Two computations that begin alike and go on alike are alike. -/
theorem bind_agree {ε α β : Type} {x y : Except ε α} {f g : α → Except ε β} (hxy : x = y)
    (hfg : ∀ a, x = .ok a → f a = g a) : (x >>= f) = (y >>= g) := by
  subst hxy
  cases x with
  | error e => rfl
  | ok a => exact hfg a rfl

@[simp] theorem missing_ne_ok {α : Type} {what : Expectation} {ts : List Token}
    {p : α × List Token} : missing what ts ≠ .ok p := by
  simp [missing]

theorem expect_takes (l : Lexeme) (what : Expectation) : Reader.Takes (expect l what) := by
  intro ts a rest h
  cases ts with
  | nil => exact absurd h missing_ne_ok
  | cons t ts =>
    simp only [expect] at h
    split at h
    · cases h
      exact Nat.lt_succ_self _
    · exact absurd h missing_ne_ok

/-! ## Expressions -/

theorem argumentsWith_keeps {expr : Reader Expr} (he : expr.Takes) (n : Nat) :
    Reader.Keeps (argumentsWith expr n) := by
  induction n with
  | zero =>
    intro ts es rest h
    cases h
    exact Nat.le_refl _
  | succ n ih =>
    intro ts es rest h
    obtain ⟨⟨e, r⟩, h₁, h⟩ := bind_eq_ok.1 h
    obtain ⟨⟨es', r'⟩, h₂, h⟩ := bind_eq_ok.1 h
    cases h
    exact Nat.le_trans (ih h₂) (Nat.le_of_lt (he h₁))

theorem callWith_keeps {expr : Reader Expr} (he : expr.Takes) (callee : Callee)
    (position : Position) : Reader.Keeps (callWith expr callee position) := by
  intro ts c rest h
  cases callee with
  | reporter what =>
    cases h
    exact Nat.le_refl _
  | procedure name arity =>
    obtain ⟨⟨es, r⟩, h₁, h⟩ := bind_eq_ok.1 h
    cases h
    exact argumentsWith_keeps he arity h₁

theorem factorWith_takes (sig : Signature) {expr : Reader Expr} (he : expr.Takes) :
    Reader.Takes (factorWith sig expr) := by
  intro ts f rest h
  cases ts with
  | nil => exact absurd h missing_ne_ok
  | cons t ts =>
    simp only [factorWith] at h
    split at h
    · next callee _ =>
      obtain ⟨⟨c, r⟩, h₁, h⟩ := bind_eq_ok.1 h
      cases h
      exact Nat.lt_succ_of_le (callWith_keeps he callee t.position h₁)
    · split at h
      · cases h
        exact Nat.lt_succ_self _
      · cases h
        exact Nat.lt_succ_self _
      · obtain ⟨⟨e, r⟩, h₁, h⟩ := bind_eq_ok.1 h
        obtain ⟨⟨_, r'⟩, h₂, h⟩ := bind_eq_ok.1 h
        cases h
        have := he h₁
        have := expect_takes _ _ h₂
        simp only [List.length_cons] at *
        omega
      · exact absurd h missing_ne_ok

theorem termWith_takes {factor : Reader Factor} {term : Reader Term} (hf : factor.Takes)
    (ht : term.Takes) : Reader.Takes (termWith factor term) := by
  intro ts t rest h
  obtain ⟨⟨f, r⟩, h₁, h⟩ := bind_eq_ok.1 h
  have := hf h₁
  simp only at h
  split at h
  · obtain ⟨⟨t', r'⟩, h₂, h⟩ := bind_eq_ok.1 h
    cases h
    have := ht h₂
    simp only [List.length_cons] at *
    omega
  · cases h
    assumption

theorem sumWith_takes {term : Reader Term} {expr : Reader Expr} (ht : term.Takes)
    (he : expr.Takes) (negated : Bool) : Reader.Takes (sumWith term expr negated) := by
  intro ts e rest h
  obtain ⟨⟨t, r⟩, h₁, h⟩ := bind_eq_ok.1 h
  have := ht h₁
  simp only at h
  split at h
  · obtain ⟨⟨e', r'⟩, h₂, h⟩ := bind_eq_ok.1 h
    cases h
    have := he h₂
    simp only [List.length_cons] at *
    omega
  · cases h
    assumption

theorem exprWith_takes {term : Reader Term} {expr : Reader Expr} (ht : term.Takes)
    (he : expr.Takes) : Reader.Takes (exprWith term expr) := by
  intro ts e rest h
  unfold exprWith at h
  split at h
  · exact Nat.lt_succ_of_lt (sumWith_takes ht he _ h)
  · exact sumWith_takes ht he _ h

theorem within_takes (sig : Signature) (n : Nat) :
    Reader.Takes (termWithin sig n) ∧ Reader.Takes (exprWithin sig n) := by
  induction n with
  | zero => exact ⟨fun _ _ _ h => absurd h missing_ne_ok, fun _ _ _ h => absurd h missing_ne_ok⟩
  | succ n ih =>
    have ht := termWith_takes (factorWith_takes sig ih.2) ih.1
    exact ⟨ht, exprWith_takes ht ih.2⟩

theorem term_takes (sig : Signature) : Reader.Takes (term sig) :=
  fun ts _ _ h => (within_takes sig ts.length).1 h

theorem expr_takes (sig : Signature) : Reader.Takes (expr sig) :=
  fun ts _ _ h => (within_takes sig ts.length).2 h

theorem factor_takes (sig : Signature) : Reader.Takes (factor sig) :=
  factorWith_takes sig (expr_takes sig)

theorem call_keeps (sig : Signature) (callee : Callee) (position : Position) :
    Reader.Keeps (call sig callee position) :=
  callWith_keeps (expr_takes sig) callee position

/-! ## Expressions without a bound -/

theorem argumentsWith_agree {m : Nat} {expr expr' : Reader Expr} (he : expr.Takes)
    (h : Reader.AgreeTo m expr expr') (n : Nat) :
    Reader.AgreeTo m (argumentsWith expr n) (argumentsWith expr' n) := by
  induction n with
  | zero => exact fun _ _ => rfl
  | succ n ih =>
    intro ts hts
    refine bind_agree (h hts) fun ⟨e, r⟩ h₁ => bind_agree (ih ?_) fun _ _ => rfl
    exact Nat.le_trans (Nat.le_of_lt (he h₁)) hts

theorem callWith_agree {m : Nat} {expr expr' : Reader Expr} (he : expr.Takes)
    (h : Reader.AgreeTo m expr expr') (callee : Callee) (position : Position) :
    Reader.AgreeTo m (callWith expr callee position) (callWith expr' callee position) := by
  intro ts hts
  cases callee with
  | reporter what => rfl
  | procedure name arity => exact bind_agree (argumentsWith_agree he h arity hts) fun _ _ => rfl

theorem factorWith_agree {m : Nat} (sig : Signature) {expr expr' : Reader Expr} (he : expr.Takes)
    (h : Reader.AgreeTo m expr expr') :
    Reader.AgreeTo (m + 1) (factorWith sig expr) (factorWith sig expr') := by
  intro ts hts
  cases ts with
  | nil => rfl
  | cons t ts =>
    have hts : ts.length ≤ m := Nat.le_of_succ_le_succ hts
    simp only [factorWith]
    split
    · exact bind_agree (callWith_agree he h _ _ hts) fun _ _ => rfl
    · split
      · rfl
      · rfl
      · exact bind_agree (h hts) fun _ _ => rfl
      · rfl

theorem termWith_agree {m : Nat} {factor factor' : Reader Factor} {term term' : Reader Term}
    (hf : factor.Takes) (h : Reader.AgreeTo (m + 1) factor factor')
    (h' : Reader.AgreeTo m term term') :
    Reader.AgreeTo (m + 1) (termWith factor term) (termWith factor' term') := by
  intro ts hts
  refine bind_agree (h hts) fun ⟨f, r⟩ h₁ => ?_
  have := hf h₁
  simp only
  split
  · refine bind_agree (h' ?_) fun _ _ => rfl
    simp only [List.length_cons] at *
    omega
  · rfl

theorem sumWith_agree {m : Nat} {term term' : Reader Term} {expr expr' : Reader Expr}
    (ht : term.Takes) (h : Reader.AgreeTo (m + 1) term term') (h' : Reader.AgreeTo m expr expr')
    (negated : Bool) :
    Reader.AgreeTo (m + 1) (sumWith term expr negated) (sumWith term' expr' negated) := by
  intro ts hts
  refine bind_agree (h hts) fun ⟨t, r⟩ h₁ => ?_
  have := ht h₁
  simp only
  split
  · refine bind_agree (h' ?_) fun _ _ => rfl
    simp only [List.length_cons] at *
    omega
  · rfl

theorem exprWith_agree {m : Nat} {term term' : Reader Term} {expr expr' : Reader Expr}
    (ht : term.Takes) (h : Reader.AgreeTo (m + 1) term term') (h' : Reader.AgreeTo m expr expr') :
    Reader.AgreeTo (m + 1) (exprWith term expr) (exprWith term' expr') := by
  intro ts hts
  unfold exprWith
  split
  · exact sumWith_agree ht h h' _ (Nat.le_of_succ_le hts)
  · exact sumWith_agree ht h h' _ hts

theorem within_agree_succ (sig : Signature) (n : Nat) :
    Reader.AgreeTo n (termWithin sig n) (termWithin sig (n + 1)) ∧
    Reader.AgreeTo n (exprWithin sig n) (exprWithin sig (n + 1)) := by
  induction n with
  | zero =>
    constructor <;>
    · intro ts hts
      obtain rfl := List.length_eq_zero_iff.1 (Nat.le_zero.1 hts)
      rfl
  | succ n ih =>
    have hf := factorWith_agree sig (within_takes sig n).2 ih.2
    have hft := factorWith_takes sig (within_takes sig n).2
    have ht := termWith_agree hft hf ih.1
    exact ⟨ht, exprWith_agree (termWith_takes hft (within_takes sig n).1) ht ih.2⟩

theorem within_agree (sig : Signature) {m n : Nat} (h : m ≤ n) :
    Reader.AgreeTo m (termWithin sig m) (termWithin sig n) ∧
    Reader.AgreeTo m (exprWithin sig m) (exprWithin sig n) := by
  induction h with
  | refl => exact ⟨fun _ _ => rfl, fun _ _ => rfl⟩
  | step h ih =>
    have hs := within_agree_succ sig
    exact ⟨ih.1.trans ((hs _).1.mono h), ih.2.trans ((hs _).2.mono h)⟩

theorem termWithin_agree (sig : Signature) (n : Nat) :
    Reader.AgreeTo n (termWithin sig n) (term sig) :=
  fun _ hts => ((within_agree sig hts).1 (Nat.le_refl _)).symm

theorem exprWithin_agree (sig : Signature) (n : Nat) :
    Reader.AgreeTo n (exprWithin sig n) (expr sig) :=
  fun _ hts => ((within_agree sig hts).2 (Nat.le_refl _)).symm

/-- A product is a factor, and perhaps an operator and a product. -/
theorem term_eq (sig : Signature) : term sig = termWith (factor sig) (term sig) := by
  funext ts
  have hf := factorWith_agree sig (within_takes sig ts.length).2
    (exprWithin_agree sig ts.length)
  have hft := factorWith_takes sig (within_takes sig ts.length).2
  rw [← termWithin_agree sig (ts.length + 1) (Nat.le_succ _)]
  exact termWith_agree hft hf (termWithin_agree sig ts.length) (Nat.le_succ _)

/-- A sum is a sign, which may be missing, a term, and perhaps an operator and a sum. -/
theorem expr_eq (sig : Signature) : expr sig = exprWith (term sig) (expr sig) := by
  funext ts
  rw [← exprWithin_agree sig (ts.length + 1) (Nat.le_succ _)]
  exact exprWith_agree (within_takes sig (ts.length + 1)).1 (termWithin_agree sig (ts.length + 1))
    (exprWithin_agree sig ts.length) (Nat.le_succ _)

/-! ## Conditions -/

theorem comparison_takes (sig : Signature) : Reader.Takes (comparison sig) := by
  intro ts c rest h
  obtain ⟨⟨e, r⟩, h₁, h⟩ := bind_eq_ok.1 h
  have := expr_takes sig h₁
  simp only at h
  split at h
  · obtain ⟨⟨e', r'⟩, h₂, h⟩ := bind_eq_ok.1 h
    cases h
    have := expr_takes sig h₂
    simp only [List.length_cons] at *
    omega
  · exact absurd h missing_ne_ok

theorem clauseWith_takes {sig : Signature} {condition : Reader Condition} (hc : condition.Takes) :
    Reader.Takes (clauseWith sig condition) := by
  intro ts c rest h
  unfold clauseWith at h
  split at h
  · cases h
    exact Nat.lt_succ_self _
  · cases h
    exact Nat.lt_succ_self _
  · obtain ⟨⟨c', r⟩, h₁, h⟩ := bind_eq_ok.1 h
    cases h
    exact Nat.lt_succ_of_lt (hc h₁)
  · obtain ⟨⟨c', r⟩, h₁, h⟩ := bind_eq_ok.1 h
    obtain ⟨⟨_, r'⟩, h₂, h⟩ := bind_eq_ok.1 h
    cases h
    exact Nat.lt_succ_of_lt (Nat.lt_trans (expect_takes _ _ h₂) (hc h₁))
  · exact comparison_takes sig h

theorem conditionWith_takes {clause : Reader Clause} {condition : Reader Condition}
    (hc : clause.Takes) (hs : condition.Takes) : Reader.Takes (conditionWith clause condition) := by
  intro ts c rest h
  obtain ⟨⟨c', r⟩, h₁, h⟩ := bind_eq_ok.1 h
  have := hc h₁
  simp only at h
  split at h
  · cases h
    assumption
  · split at h
    · obtain ⟨⟨c'', r'⟩, h₂, h⟩ := bind_eq_ok.1 h
      cases h
      have := hs h₂
      simp only [List.length_cons] at *
      omega
    · cases h
      assumption

theorem conditionWithin_takes (sig : Signature) (n : Nat) :
    Reader.Takes (conditionWithin sig n) := by
  induction n with
  | zero => exact fun _ _ _ h => absurd h missing_ne_ok
  | succ n ih => exact conditionWith_takes (clauseWith_takes ih) ih

theorem condition_takes (sig : Signature) : Reader.Takes (condition sig) :=
  fun ts _ _ h => conditionWithin_takes sig ts.length h

theorem clauseWith_agree {m : Nat} {sig : Signature} {condition condition' : Reader Condition}
    (h : Reader.AgreeTo m condition condition') :
    Reader.AgreeTo (m + 1) (clauseWith sig condition) (clauseWith sig condition') := by
  intro ts hts
  unfold clauseWith
  split
  · rfl
  · rfl
  · exact bind_agree (h (Nat.le_of_succ_le_succ hts)) fun _ _ => rfl
  · exact bind_agree (h (Nat.le_of_succ_le_succ hts)) fun _ _ => rfl
  · rfl

theorem conditionWith_agree {m : Nat} {clause clause' : Reader Clause}
    {condition condition' : Reader Condition} (hc : clause.Takes)
    (h : Reader.AgreeTo (m + 1) clause clause') (h' : Reader.AgreeTo m condition condition') :
    Reader.AgreeTo (m + 1) (conditionWith clause condition) (conditionWith clause' condition') := by
  intro ts hts
  refine bind_agree (h hts) fun ⟨c, r⟩ h₁ => ?_
  have := hc h₁
  simp only
  split
  · rfl
  · split
    · refine bind_agree (h' ?_) fun _ _ => rfl
      simp only [List.length_cons] at *
      omega
    · rfl

theorem conditionWithin_agree_succ (sig : Signature) (n : Nat) :
    Reader.AgreeTo n (conditionWithin sig n) (conditionWithin sig (n + 1)) := by
  induction n with
  | zero =>
    intro ts hts
    obtain rfl := List.length_eq_zero_iff.1 (Nat.le_zero.1 hts)
    rfl
  | succ n ih =>
    exact conditionWith_agree (clauseWith_takes (conditionWithin_takes sig n))
      (clauseWith_agree ih) ih

theorem conditionWithin_agree (sig : Signature) (n : Nat) :
    Reader.AgreeTo n (conditionWithin sig n) (condition sig) := by
  intro ts hts
  have : ∀ {m n}, m ≤ n → Reader.AgreeTo m (conditionWithin sig m) (conditionWithin sig n) := by
    intro m n h
    induction h with
    | refl => exact fun _ _ => rfl
    | step h ih => exact ih.trans ((conditionWithin_agree_succ sig _).mono h)
  exact (this hts (Nat.le_refl _)).symm

/-- A condition is a clause, and perhaps a connective and a condition. -/
theorem condition_eq (sig : Signature) :
    condition sig = conditionWith (clause sig) (condition sig) := by
  funext ts
  rw [← conditionWithin_agree sig (ts.length + 1) (Nat.le_succ _)]
  exact conditionWith_agree (clauseWith_takes (conditionWithin_takes sig ts.length))
    (clauseWith_agree (conditionWithin_agree sig ts.length)) (conditionWithin_agree sig ts.length)
    (Nat.le_succ _)

/-! ## Statements -/

theorem target_takes (sig : Signature) : Reader.Takes (target sig) := by
  intro ts name rest h
  cases ts with
  | nil => exact absurd h missing_ne_ok
  | cons t ts =>
    simp only [target] at h
    split at h
    · split at h
      · cases h
      · cases h
        exact Nat.lt_succ_self _
    · split at h
      · cases h
      · cases h
        exact Nat.lt_succ_self _
    · exact absurd h missing_ne_ok

theorem operand_takes (sig : Signature) {α : Type} (make : Expr → α) :
    Reader.Takes (operand sig make) := by
  intro ts a rest h
  obtain ⟨⟨e, r⟩, h₁, h⟩ := bind_eq_ok.1 h
  cases h
  exact expr_takes sig h₁

theorem operands₂_takes (sig : Signature) {α : Type} (make : Expr → Expr → α) :
    Reader.Takes (operands₂ sig make) := by
  intro ts a rest h
  obtain ⟨⟨e, r⟩, h₁, h⟩ := bind_eq_ok.1 h
  obtain ⟨⟨e', r'⟩, h₂, h⟩ := bind_eq_ok.1 h
  cases h
  exact Nat.lt_trans (expr_takes sig h₂) (expr_takes sig h₁)

theorem operands₃_takes (sig : Signature) {α : Type} (make : Expr → Expr → Expr → α) :
    Reader.Takes (operands₃ sig make) := by
  intro ts a rest h
  obtain ⟨⟨e, r⟩, h₁, h⟩ := bind_eq_ok.1 h
  obtain ⟨⟨e', r'⟩, h₂, h⟩ := bind_eq_ok.1 h
  obtain ⟨⟨e'', r''⟩, h₃, h⟩ := bind_eq_ok.1 h
  cases h
  exact Nat.lt_trans (expr_takes sig h₃) (Nat.lt_trans (expr_takes sig h₂) (expr_takes sig h₁))

theorem scan_takes (sig : Signature) (reach : Reach) : Reader.Takes (scan sig reach) := by
  intro ts c rest h
  obtain ⟨⟨name, r⟩, h₁, h⟩ := bind_eq_ok.1 h
  cases h
  exact target_takes sig h₁

theorem make_takes (sig : Signature) (reach : Reach) : Reader.Takes (make sig reach) := by
  intro ts c rest h
  obtain ⟨⟨name, r⟩, h₁, h⟩ := bind_eq_ok.1 h
  obtain ⟨⟨e, r'⟩, h₂, h⟩ := bind_eq_ok.1 h
  cases h
  exact Nat.lt_trans (expr_takes sig h₂) (target_takes sig h₁)

theorem localTo_takes (sig : Signature) : Reader.Takes (localTo sig) := by
  intro ts c rest h
  unfold localTo at h
  split at h
  · exact Nat.lt_succ_of_lt (make_takes sig .own h)
  · exact Nat.lt_succ_of_lt (scan_takes sig .own h)
  · exact absurd h missing_ne_ok

theorem print_takes (sig : Signature) : Reader.Takes (print sig) := by
  intro ts c rest h
  unfold print at h
  split at h
  · cases h
    exact Nat.lt_succ_self _
  · exact operand_takes sig _ h

theorem command?_keeps {sig : Signature} {k : Keyword} {r : Reader Command}
    (h : command? sig k = some r) : r.Keeps := by
  unfold command? at h
  split at h <;> cases h
  case h_9 | h_10 | h_11 | h_8 =>
    intro ts c rest h
    cases h
    exact Nat.le_refl _
  case h_5 | h_6 => exact (operands₂_takes sig _).keeps
  case h_12 => exact (operands₃_takes sig _).keeps
  case h_13 => exact (print_takes sig).keeps
  case h_14 => exact (scan_takes sig _).keeps
  case h_15 => exact (make_takes sig _).keeps
  case h_16 => exact (localTo_takes sig).keeps
  all_goals exact (operand_takes sig _).keeps

theorem keywordStatement?_keeps {sig : Signature} {block : Reader (List Statement)}
    (hb : block.Takes) {k : Keyword} {r : Reader Statement}
    (h : keywordStatement? sig block k = some r) : r.Keeps := by
  unfold keywordStatement? at h
  split at h
  · cases h
    exact (operand_takes sig _).keeps
  · cases h
    intro ts s rest h
    obtain ⟨⟨c, r⟩, h₁, h⟩ := bind_eq_ok.1 h
    obtain ⟨⟨_, r'⟩, h₂, h⟩ := bind_eq_ok.1 h
    obtain ⟨⟨ss, r''⟩, h₃, h⟩ := bind_eq_ok.1 h
    cases h
    exact Nat.le_of_lt (Nat.lt_trans (hb h₃) (Nat.lt_trans (expect_takes _ _ h₂)
      (condition_takes sig h₁)))
  · cases h
    intro ts s rest h
    obtain ⟨⟨c, r⟩, h₁, h⟩ := bind_eq_ok.1 h
    obtain ⟨⟨_, r'⟩, h₂, h⟩ := bind_eq_ok.1 h
    obtain ⟨⟨ss, r''⟩, h₃, h⟩ := bind_eq_ok.1 h
    cases h
    exact Nat.le_of_lt (Nat.lt_trans (hb h₃) (Nat.lt_trans (expect_takes _ _ h₂)
      (expr_takes sig h₁)))
  · obtain ⟨command, hc, rfl⟩ := Option.map_eq_some_iff.1 h
    intro ts s rest h
    obtain ⟨⟨c, r⟩, h₁, h⟩ := bind_eq_ok.1 h
    cases h
    exact command?_keeps hc h₁

theorem statementWith_takes {sig : Signature} {block : Reader (List Statement)}
    (hb : block.Takes) : Reader.Takes (statementWith sig block) := by
  intro ts s rest h
  cases ts with
  | nil => exact absurd h missing_ne_ok
  | cons t ts =>
    simp only [statementWith] at h
    split at h
    · obtain ⟨⟨c, r⟩, h₁, h⟩ := bind_eq_ok.1 h
      cases h
      exact Nat.lt_succ_of_le (call_keeps sig _ _ h₁)
    · split at h
      · split at h
        · next hk => exact Nat.lt_succ_of_le (keywordStatement?_keeps hb hk h)
        · exact absurd h missing_ne_ok
      · exact absurd h missing_ne_ok

theorem blockWith_takes {statement : Reader Statement} {block : Reader (List Statement)}
    (hs : statement.Takes) (hb : block.Takes) : Reader.Takes (blockWith statement block) := by
  intro ts ss rest h
  unfold blockWith at h
  split at h
  · exact absurd h missing_ne_ok
  · cases h
    exact Nat.lt_succ_self _
  · obtain ⟨⟨s, r⟩, h₁, h⟩ := bind_eq_ok.1 h
    obtain ⟨⟨ss', r'⟩, h₂, h⟩ := bind_eq_ok.1 h
    cases h
    exact Nat.lt_trans (hb h₂) (hs h₁)

theorem blockWithin_takes (sig : Signature) (n : Nat) : Reader.Takes (blockWithin sig n) := by
  induction n with
  | zero => exact fun _ _ _ h => absurd h missing_ne_ok
  | succ n ih => exact blockWith_takes (statementWith_takes ih) ih

theorem block_takes (sig : Signature) : Reader.Takes (block sig) :=
  fun ts _ _ h => blockWithin_takes sig ts.length h

theorem statement_takes (sig : Signature) : Reader.Takes (statement sig) :=
  statementWith_takes (block_takes sig)

/-- A keyword's reader depends on the reader of blocks only through shorter lists of tokens. -/
theorem keywordStatement?_agree {m : Nat} (sig : Signature) {block block' : Reader (List Statement)}
    (h : Reader.AgreeTo m block block') (k : Keyword) {ts : List Token} (hts : ts.length ≤ m) :
    (keywordStatement? sig block k).map (· ts) = (keywordStatement? sig block' k).map (· ts) := by
  unfold keywordStatement?
  split
  · rfl
  · refine congrArg some (bind_agree rfl fun ⟨c, r⟩ h₁ => bind_agree rfl fun ⟨_, r'⟩ h₂ => ?_)
    have := condition_takes sig h₁
    have := expect_takes _ _ h₂
    exact bind_agree (h (by omega)) fun _ _ => rfl
  · refine congrArg some (bind_agree rfl fun ⟨c, r⟩ h₁ => bind_agree rfl fun ⟨_, r'⟩ h₂ => ?_)
    have := expr_takes sig h₁
    have := expect_takes _ _ h₂
    exact bind_agree (h (by omega)) fun _ _ => rfl
  · rfl

theorem statementWith_agree {m : Nat} {sig : Signature} {block block' : Reader (List Statement)}
    (h : Reader.AgreeTo m block block') :
    Reader.AgreeTo (m + 1) (statementWith sig block) (statementWith sig block') := by
  intro ts hts
  cases ts with
  | nil => rfl
  | cons t ts =>
    simp only [statementWith]
    split
    · rfl
    · split
      · next k _ =>
        have hk := keywordStatement?_agree sig h k (Nat.le_of_succ_le_succ hts)
        cases h₁ : keywordStatement? sig block k <;>
          cases h₂ : keywordStatement? sig block' k <;> simp_all
      · rfl

theorem blockWith_agree {m : Nat} {statement statement' : Reader Statement}
    {block block' : Reader (List Statement)} (hs : statement.Takes)
    (h : Reader.AgreeTo (m + 1) statement statement') (h' : Reader.AgreeTo m block block') :
    Reader.AgreeTo (m + 1) (blockWith statement block) (blockWith statement' block') := by
  intro ts hts
  unfold blockWith
  split
  · rfl
  · rfl
  · refine bind_agree (h hts) fun ⟨s, r⟩ h₁ => bind_agree (h' ?_) fun _ _ => rfl
    have := hs h₁
    omega

theorem blockWithin_agree_succ (sig : Signature) (n : Nat) :
    Reader.AgreeTo n (blockWithin sig n) (blockWithin sig (n + 1)) := by
  induction n with
  | zero =>
    intro ts hts
    obtain rfl := List.length_eq_zero_iff.1 (Nat.le_zero.1 hts)
    rfl
  | succ n ih =>
    exact blockWith_agree (statementWith_takes (blockWithin_takes sig n)) (statementWith_agree ih) ih

theorem blockWithin_agree (sig : Signature) (n : Nat) :
    Reader.AgreeTo n (blockWithin sig n) (block sig) := by
  intro ts hts
  have : ∀ {m n}, m ≤ n → Reader.AgreeTo m (blockWithin sig m) (blockWithin sig n) := by
    intro m n h
    induction h with
    | refl => exact fun _ _ => rfl
    | step h ih => exact ih.trans ((blockWithin_agree_succ sig _).mono h)
  exact (this hts (Nat.le_refl _)).symm

/-- A block is a closing bracket, or a statement and a block. -/
theorem block_eq (sig : Signature) : block sig = blockWith (statement sig) (block sig) := by
  funext ts
  rw [← blockWithin_agree sig (ts.length + 1) (Nat.le_succ _)]
  exact blockWith_agree (statementWith_takes (blockWithin_takes sig ts.length))
    (statementWith_agree (blockWithin_agree sig ts.length)) (blockWithin_agree sig ts.length)
    (Nat.le_succ _)

/-! ## Definitions and programs -/

theorem parameters_le (sig : Signature) (name : String) (ts : List Token) :
    (parameters sig name ts).2.length ≤ ts.length := by
  induction ts with
  | nil => exact Nat.le_refl _
  | cons t ts ih =>
    unfold parameters
    split
    · split
      · exact Nat.le_refl _
      · exact Nat.le_succ_of_le ih
    · exact Nat.le_refl _

theorem header_takes (sig : Signature) : Reader.Takes (header sig) := by
  intro ts h rest hh
  cases ts with
  | nil => exact absurd hh missing_ne_ok
  | cons t ts =>
    simp only [header] at hh
    split at hh
    · cases hh
      exact Nat.lt_succ_of_le (parameters_le sig _ ts)
    · exact absurd hh missing_ne_ok

theorem bodyWith_takes {statement : Reader Statement} {outer : String}
    {body : Reader (List Statement)} (hs : statement.Takes) (hb : body.Takes) :
    Reader.Takes (bodyWith statement outer body) := by
  intro ts ss rest h
  unfold bodyWith at h
  split at h
  · exact absurd h missing_ne_ok
  · cases h
    exact Nat.lt_succ_self _
  · cases h
  · obtain ⟨⟨s, r⟩, h₁, h⟩ := bind_eq_ok.1 h
    obtain ⟨⟨ss', r'⟩, h₂, h⟩ := bind_eq_ok.1 h
    cases h
    exact Nat.lt_trans (hb h₂) (hs h₁)

theorem bodyWithin_takes (sig : Signature) (outer : String) (n : Nat) :
    Reader.Takes (bodyWithin sig outer n) := by
  induction n with
  | zero => exact fun _ _ _ h => absurd h missing_ne_ok
  | succ n ih => exact bodyWith_takes (statement_takes sig) ih

theorem body_takes (sig : Signature) (outer : String) : Reader.Takes (body sig outer) :=
  fun ts _ _ h => bodyWithin_takes sig outer ts.length h

theorem bodyWith_agree {m : Nat} {statement : Reader Statement} {outer : String}
    {body body' : Reader (List Statement)} (hs : statement.Takes)
    (h : Reader.AgreeTo m body body') :
    Reader.AgreeTo (m + 1) (bodyWith statement outer body) (bodyWith statement outer body') := by
  intro ts hts
  unfold bodyWith
  split
  · rfl
  · rfl
  · rfl
  · refine bind_agree rfl fun ⟨s, r⟩ h₁ => bind_agree (h ?_) fun _ _ => rfl
    have := hs h₁
    omega

theorem bodyWithin_agree_succ (sig : Signature) (outer : String) (n : Nat) :
    Reader.AgreeTo n (bodyWithin sig outer n) (bodyWithin sig outer (n + 1)) := by
  induction n with
  | zero =>
    intro ts hts
    obtain rfl := List.length_eq_zero_iff.1 (Nat.le_zero.1 hts)
    rfl
  | succ n ih => exact bodyWith_agree (statement_takes sig) ih

theorem bodyWithin_agree (sig : Signature) (outer : String) (n : Nat) :
    Reader.AgreeTo n (bodyWithin sig outer n) (body sig outer) := by
  intro ts hts
  have : ∀ {m n}, m ≤ n →
      Reader.AgreeTo m (bodyWithin sig outer m) (bodyWithin sig outer n) := by
    intro m n h
    induction h with
    | refl => exact fun _ _ => rfl
    | step h ih => exact ih.trans ((bodyWithin_agree_succ sig outer _).mono h)
  exact (this hts (Nat.le_refl _)).symm

/-- A body is `end`, or a statement and a body. -/
theorem body_eq (sig : Signature) (outer : String) :
    body sig outer = bodyWith (statement sig) outer (body sig outer) := by
  funext ts
  rw [← bodyWithin_agree sig outer (ts.length + 1) (Nat.le_succ _)]
  exact bodyWith_agree (statement_takes sig) (bodyWithin_agree sig outer ts.length) (Nat.le_succ _)

/-- Two readers of programs that do the same with fewer tokens do the same after a first part. -/
theorem programWith_agree {known : Procedures} {program program' : Procedures → ProgramReader}
    {ts : List Token}
    (h : ∀ known' rest, rest.length < ts.length → program known' rest = program' known' rest) :
    programWith known program ts = programWith known program' ts := by
  unfold programWith
  split
  · rfl
  · unfold definitionWith
    split
    · rfl
    · next h₁ =>
      dsimp only
      split
      · rfl
      · next h₂ =>
        have := header_takes _ h₁
        have := body_takes _ _ h₂
        simp only [List.length_cons] at h
        rw [h _ _ (by omega)]
  · split
    · rfl
    · next h₁ => rw [h _ _ (statement_takes _ h₁)]

theorem programWithin_agree (n : Nat) (known : Procedures) {ts : List Token}
    (hts : ts.length ≤ n) : programWithin n known ts = programWithin (n + 1) known ts := by
  induction n generalizing known ts with
  | zero =>
    obtain rfl := List.length_eq_zero_iff.1 (Nat.le_zero.1 hts)
    rfl
  | succ n ih => exact programWith_agree fun known' rest hr => ih known' (by omega)

theorem programWithin_eq {n : Nat} (known : Procedures) {ts : List Token} (hts : ts.length ≤ n) :
    programWithin n known ts = program known ts := by
  induction hts with
  | refl => rfl
  | step h ih => exact (programWithin_agree _ known h).symm.trans ih

/-- A program is empty, or a definition or a statement and a program. -/
theorem program_eq (known : Procedures) : program known = programWith known program := by
  funext ts
  rw [← programWithin_eq known (Nat.le_succ ts.length)]
  exact programWith_agree fun known' rest hr => programWithin_eq known' (Nat.le_of_lt hr)

end Grammar

end Logo
