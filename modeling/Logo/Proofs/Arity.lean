import Logo.Proofs.Calls
import Logo.Proofs.Known

/-!
# What a text calls is known when it is read

A word is read as a call only if it is the name of a known procedure, and the call then takes as
many inputs as the procedure does. So whatever a reader gives calls nothing but known procedures,
each with its number of inputs. This is shown rule by rule, as the grammar is built.

Results: `Grammar.statement_knows`, `Grammar.body_knows`: the calls in a statement and in a body are
known where they stand.
-/

namespace Logo

/-- These calls are of procedures that are known to take so many inputs. -/
def Signature.KnowsAll (sig : Signature) (sites : List CallSite) : Prop :=
  ∀ site ∈ sites, sig site.name.text = some site.inputs

namespace Signature

variable {sig : Signature} {site : CallSite} {a b : List CallSite}

@[simp] theorem knowsAll_nil : sig.KnowsAll [] := List.forall_mem_nil _

@[simp] theorem knowsAll_cons :
    sig.KnowsAll (site :: b) ↔ sig site.name.text = some site.inputs ∧ sig.KnowsAll b :=
  List.forall_mem_cons

@[simp] theorem knowsAll_append :
    sig.KnowsAll (a ++ b) ↔ sig.KnowsAll a ∧ sig.KnowsAll b :=
  List.forall_mem_append

end Signature

/-- Whatever a reader gives is such. -/
def Reader.Gives {α : Type} (r : Reader α) (P : α → Prop) : Prop :=
  ∀ ⦃ts : List Token⦄ ⦃a : α⦄ ⦃rest : List Token⦄, r ts = .ok (a, rest) → P a

namespace Grammar

variable {sig : Signature}

theorem missing_gives {α : Type} (what : Expectation) (P : α → Prop) :
    Reader.Gives (missing what) P :=
  fun _ _ _ given => absurd given missing_ne_ok

/-! ## Expressions -/

/-- If it is a procedure that is called, it is known. -/
def Callee.Known (sig : Signature) : Callee → Prop
  | .reporter _ => True
  | .procedure name arity => sig name = some arity

theorem callee?_known {l : Lexeme} {callee : Callee} (called : callee? sig l = some callee) :
    callee.Known sig := by
  unfold callee? at called
  split at called
  case h_4 name =>
    obtain ⟨arity, known, rfl⟩ := Option.map_eq_some_iff.1 called
    exact known
  case h_5 => cases called
  all_goals
    cases called
    trivial

theorem argumentsWith_knows {expr : Reader Expr} (he : expr.Gives fun e => sig.KnowsAll e.calls)
    (n : Nat) :
    Reader.Gives (argumentsWith expr n) fun es => es.length = n ∧ sig.KnowsAll (callsInAll es) := by
  induction n with
  | zero =>
    intro ts es rest given
    cases given
    exact ⟨rfl, Signature.knowsAll_nil⟩
  | succ n ih =>
    intro ts es rest given
    obtain ⟨⟨e, r⟩, first, given⟩ := bind_eq_ok.1 given
    obtain ⟨⟨es', r'⟩, others, given⟩ := bind_eq_ok.1 given
    cases given
    obtain ⟨count, known⟩ := ih others
    refine ⟨congrArg (· + 1) count, ?_⟩
    rw [callsInAll, Signature.knowsAll_append]
    exact ⟨he first, known⟩

theorem callWith_knows {expr : Reader Expr} (he : expr.Gives fun e => sig.KnowsAll e.calls)
    {callee : Callee} (known : callee.Known sig) (position : Position) :
    Reader.Gives (callWith expr callee position) fun c => sig.KnowsAll c.calls := by
  intro ts c rest given
  cases callee with
  | reporter what =>
    cases given
    exact Signature.knowsAll_nil
  | procedure name arity =>
    obtain ⟨⟨es, r⟩, inputs, given⟩ := bind_eq_ok.1 given
    cases given
    obtain ⟨rfl, inside⟩ := argumentsWith_knows he arity inputs
    rw [Call.calls, Signature.knowsAll_cons]
    exact ⟨known, inside⟩

theorem factorWith_knows {expr : Reader Expr} (he : expr.Gives fun e => sig.KnowsAll e.calls) :
    Reader.Gives (factorWith sig expr) fun f => sig.KnowsAll f.calls := by
  intro ts f rest given
  cases ts with
  | nil => exact absurd given missing_ne_ok
  | cons t ts =>
    simp only [factorWith] at given
    split at given
    · next callee called =>
      obtain ⟨⟨c, r⟩, call, given⟩ := bind_eq_ok.1 given
      cases given
      exact callWith_knows he (callee?_known called) _ call
    · split at given
      · cases given
        exact Signature.knowsAll_nil
      · cases given
        exact Signature.knowsAll_nil
      · obtain ⟨⟨e, r⟩, inner, given⟩ := bind_eq_ok.1 given
        obtain ⟨⟨_, r'⟩, closing, given⟩ := bind_eq_ok.1 given
        cases given
        exact he inner
      · exact absurd given missing_ne_ok

theorem termWith_knows {factor : Reader Factor} {term : Reader Term}
    (hf : factor.Gives fun f => sig.KnowsAll f.calls)
    (ht : term.Gives fun t => sig.KnowsAll t.calls) :
    Reader.Gives (termWith factor term) fun t => sig.KnowsAll t.calls := by
  intro ts t rest given
  obtain ⟨⟨f, r⟩, first, given⟩ := bind_eq_ok.1 given
  simp only at given
  split at given
  · obtain ⟨⟨t', r'⟩, others, given⟩ := bind_eq_ok.1 given
    cases given
    rw [Term.calls, Signature.knowsAll_append]
    exact ⟨hf first, ht others⟩
  · cases given
    exact hf first

theorem sumWith_knows {term : Reader Term} {expr : Reader Expr}
    (ht : term.Gives fun t => sig.KnowsAll t.calls)
    (he : expr.Gives fun e => sig.KnowsAll e.calls) (negated : Bool) :
    Reader.Gives (sumWith term expr negated) fun e => sig.KnowsAll e.calls := by
  intro ts e rest given
  obtain ⟨⟨t, r⟩, first, given⟩ := bind_eq_ok.1 given
  simp only at given
  split at given
  · obtain ⟨⟨e', r'⟩, others, given⟩ := bind_eq_ok.1 given
    cases given
    rw [Expr.calls, Signature.knowsAll_append]
    exact ⟨ht first, he others⟩
  · cases given
    exact ht first

theorem exprWith_knows {term : Reader Term} {expr : Reader Expr}
    (ht : term.Gives fun t => sig.KnowsAll t.calls)
    (he : expr.Gives fun e => sig.KnowsAll e.calls) :
    Reader.Gives (exprWith term expr) fun e => sig.KnowsAll e.calls := by
  intro ts e rest given
  unfold exprWith at given
  split at given <;> exact sumWith_knows ht he _ given

theorem within_knows (sig : Signature) (n : Nat) :
    (Reader.Gives (termWithin sig n) fun t => sig.KnowsAll t.calls) ∧
    Reader.Gives (exprWithin sig n) fun e => sig.KnowsAll e.calls := by
  induction n with
  | zero => exact ⟨missing_gives _ _, missing_gives _ _⟩
  | succ n ih =>
    have ht := termWith_knows (factorWith_knows ih.2) ih.1
    exact ⟨ht, exprWith_knows ht ih.2⟩

theorem expr_knows (sig : Signature) : Reader.Gives (expr sig) fun e => sig.KnowsAll e.calls :=
  fun ts _ _ given => (within_knows sig ts.length).2 given

theorem call_knows {callee : Callee} (known : callee.Known sig) (position : Position) :
    Reader.Gives (call sig callee position) fun c => sig.KnowsAll c.calls :=
  callWith_knows (expr_knows sig) known position

/-! ## Conditions -/

theorem comparison_knows (sig : Signature) :
    Reader.Gives (comparison sig) fun c => sig.KnowsAll c.calls := by
  intro ts c rest given
  obtain ⟨⟨left, r⟩, first, given⟩ := bind_eq_ok.1 given
  simp only at given
  split at given
  · obtain ⟨⟨right, r'⟩, second, given⟩ := bind_eq_ok.1 given
    cases given
    rw [Clause.calls, Signature.knowsAll_append]
    exact ⟨expr_knows sig first, expr_knows sig second⟩
  · exact absurd given missing_ne_ok

theorem clauseWith_knows {condition : Reader Condition}
    (hc : condition.Gives fun c => sig.KnowsAll c.calls) :
    Reader.Gives (clauseWith sig condition) fun c => sig.KnowsAll c.calls := by
  intro ts c rest given
  unfold clauseWith at given
  split at given
  · cases given
    exact Signature.knowsAll_nil
  · cases given
    exact Signature.knowsAll_nil
  · obtain ⟨⟨c', r⟩, inner, given⟩ := bind_eq_ok.1 given
    cases given
    exact hc inner
  · obtain ⟨⟨c', r⟩, inner, given⟩ := bind_eq_ok.1 given
    obtain ⟨⟨_, r'⟩, closing, given⟩ := bind_eq_ok.1 given
    cases given
    exact hc inner
  · exact comparison_knows sig given

theorem conditionWith_knows {clause : Reader Clause} {condition : Reader Condition}
    (hc : clause.Gives fun c => sig.KnowsAll c.calls)
    (hs : condition.Gives fun c => sig.KnowsAll c.calls) :
    Reader.Gives (conditionWith clause condition) fun c => sig.KnowsAll c.calls := by
  intro ts c rest given
  obtain ⟨⟨c', r⟩, first, given⟩ := bind_eq_ok.1 given
  simp only at given
  split at given
  · cases given
    exact hc first
  · split at given
    · obtain ⟨⟨c'', r'⟩, others, given⟩ := bind_eq_ok.1 given
      cases given
      rw [Condition.calls, Signature.knowsAll_append]
      exact ⟨hc first, hs others⟩
    · cases given
      exact hc first

theorem conditionWithin_knows (sig : Signature) (n : Nat) :
    Reader.Gives (conditionWithin sig n) fun c => sig.KnowsAll c.calls := by
  induction n with
  | zero => exact missing_gives _ _
  | succ n ih => exact conditionWith_knows (clauseWith_knows ih) ih

theorem condition_knows (sig : Signature) :
    Reader.Gives (condition sig) fun c => sig.KnowsAll c.calls :=
  fun ts _ _ given => conditionWithin_knows sig ts.length given

/-! ## Statements -/

theorem operand_gives {α : Type} {P : α → Prop} {make : Expr → α}
    (made : ∀ a, sig.KnowsAll a.calls → P (make a)) : Reader.Gives (operand sig make) P := by
  intro ts x rest given
  obtain ⟨⟨a, r⟩, first, given⟩ := bind_eq_ok.1 given
  cases given
  exact made a (expr_knows sig first)

theorem operands₂_gives {α : Type} {P : α → Prop} {make : Expr → Expr → α}
    (made : ∀ a b, sig.KnowsAll a.calls → sig.KnowsAll b.calls → P (make a b)) :
    Reader.Gives (operands₂ sig make) P := by
  intro ts x rest given
  obtain ⟨⟨a, r⟩, first, given⟩ := bind_eq_ok.1 given
  obtain ⟨⟨b, r'⟩, second, given⟩ := bind_eq_ok.1 given
  cases given
  exact made a b (expr_knows sig first) (expr_knows sig second)

theorem operands₃_gives {α : Type} {P : α → Prop} {make : Expr → Expr → Expr → α}
    (made : ∀ a b c, sig.KnowsAll a.calls → sig.KnowsAll b.calls → sig.KnowsAll c.calls →
      P (make a b c)) : Reader.Gives (operands₃ sig make) P := by
  intro ts x rest given
  obtain ⟨⟨a, r⟩, first, given⟩ := bind_eq_ok.1 given
  obtain ⟨⟨b, r'⟩, second, given⟩ := bind_eq_ok.1 given
  obtain ⟨⟨c, r''⟩, third, given⟩ := bind_eq_ok.1 given
  cases given
  exact made a b c (expr_knows sig first) (expr_knows sig second) (expr_knows sig third)

theorem scan_knows (sig : Signature) (reach : Reach) :
    Reader.Gives (scan sig reach) fun c => sig.KnowsAll c.calls := by
  intro ts c rest given
  obtain ⟨⟨name, r⟩, target, given⟩ := bind_eq_ok.1 given
  cases given
  exact Signature.knowsAll_nil

theorem make_knows (sig : Signature) (reach : Reach) :
    Reader.Gives (make sig reach) fun c => sig.KnowsAll c.calls := by
  intro ts c rest given
  obtain ⟨⟨name, r⟩, target, given⟩ := bind_eq_ok.1 given
  obtain ⟨⟨value, r'⟩, first, given⟩ := bind_eq_ok.1 given
  cases given
  exact Signature.knowsAll_append.2 ⟨expr_knows sig first, Signature.knowsAll_nil⟩

theorem localTo_knows (sig : Signature) :
    Reader.Gives (localTo sig) fun c => sig.KnowsAll c.calls := by
  intro ts c rest given
  unfold localTo at given
  split at given
  · exact make_knows sig .own given
  · exact scan_knows sig .own given
  · exact absurd given missing_ne_ok

theorem print_knows (sig : Signature) : Reader.Gives (print sig) fun c => sig.KnowsAll c.calls := by
  intro ts c rest given
  unfold print at given
  split at given
  · cases given
    exact Signature.knowsAll_nil
  · have number : Reader.Gives (operand sig Command.printNumber) fun c => sig.KnowsAll c.calls :=
      operand_gives fun a known => Signature.knowsAll_append.2 ⟨known, Signature.knowsAll_nil⟩
    exact number given

theorem command?_knows {k : Keyword} {r : Reader Command} (begun : command? sig k = some r) :
    r.Gives fun c => sig.KnowsAll c.calls := by
  unfold command? at begun
  split at begun <;> cases begun
  case h_8 | h_9 | h_10 | h_11 =>
    intro ts c rest given
    cases given
    exact Signature.knowsAll_nil
  case h_5 | h_6 =>
    refine operands₂_gives fun a b ha hb => ?_
    simp only [Command.calls, Command.operands, callsInAll, Signature.knowsAll_append,
      Signature.knowsAll_nil, ha, hb, and_true]
  case h_12 =>
    refine operands₃_gives fun a b c ha hb hc => ?_
    simp only [Command.calls, Command.operands, callsInAll, Signature.knowsAll_append,
      Signature.knowsAll_nil, ha, hb, hc, and_true]
  case h_13 => exact print_knows sig
  case h_14 => exact scan_knows sig _
  case h_15 => exact make_knows sig _
  case h_16 => exact localTo_knows sig
  all_goals
    refine operand_gives fun a known => ?_
    exact Signature.knowsAll_append.2 ⟨known, Signature.knowsAll_nil⟩

theorem keywordStatement?_knows {block : Reader (List Statement)}
    (hb : block.Gives fun ss => sig.KnowsAll (blockCalls ss)) {k : Keyword} {r : Reader Statement}
    (begun : keywordStatement? sig block k = some r) : r.Gives fun s => sig.KnowsAll s.calls := by
  unfold keywordStatement? at begun
  split at begun
  · cases begun
    exact operand_gives fun a known => known
  · cases begun
    intro ts s rest given
    obtain ⟨⟨c, r⟩, condition, given⟩ := bind_eq_ok.1 given
    obtain ⟨⟨_, r'⟩, opening, given⟩ := bind_eq_ok.1 given
    obtain ⟨⟨ss, r''⟩, body, given⟩ := bind_eq_ok.1 given
    cases given
    rw [Statement.calls, Signature.knowsAll_append]
    exact ⟨condition_knows sig condition, hb body⟩
  · cases begun
    intro ts s rest given
    obtain ⟨⟨count, r⟩, times, given⟩ := bind_eq_ok.1 given
    obtain ⟨⟨_, r'⟩, opening, given⟩ := bind_eq_ok.1 given
    obtain ⟨⟨ss, r''⟩, body, given⟩ := bind_eq_ok.1 given
    cases given
    rw [Statement.calls, Signature.knowsAll_append]
    exact ⟨expr_knows sig times, hb body⟩
  · obtain ⟨command, found, rfl⟩ := Option.map_eq_some_iff.1 begun
    intro ts s rest given
    obtain ⟨⟨c, r⟩, first, given⟩ := bind_eq_ok.1 given
    cases given
    exact command?_knows found first

theorem statementWith_knows {block : Reader (List Statement)}
    (hb : block.Gives fun ss => sig.KnowsAll (blockCalls ss)) :
    Reader.Gives (statementWith sig block) fun s => sig.KnowsAll s.calls := by
  intro ts s rest given
  cases ts with
  | nil => exact absurd given missing_ne_ok
  | cons t ts =>
    simp only [statementWith] at given
    split at given
    · next callee called =>
      obtain ⟨⟨c, r⟩, call, given⟩ := bind_eq_ok.1 given
      cases given
      exact call_knows (callee?_known called) _ call
    · split at given
      · split at given
        · next begun => exact keywordStatement?_knows hb begun given
        · exact absurd given missing_ne_ok
      · exact absurd given missing_ne_ok

theorem blockWith_knows {statement : Reader Statement} {block : Reader (List Statement)}
    (hs : statement.Gives fun s => sig.KnowsAll s.calls)
    (hb : block.Gives fun ss => sig.KnowsAll (blockCalls ss)) :
    Reader.Gives (blockWith statement block) fun ss => sig.KnowsAll (blockCalls ss) := by
  intro ts ss rest given
  unfold blockWith at given
  split at given
  · exact absurd given missing_ne_ok
  · cases given
    exact Signature.knowsAll_nil
  · obtain ⟨⟨s, r⟩, first, given⟩ := bind_eq_ok.1 given
    obtain ⟨⟨ss', r'⟩, others, given⟩ := bind_eq_ok.1 given
    cases given
    rw [blockCalls, Signature.knowsAll_append]
    exact ⟨hs first, hb others⟩

theorem blockWithin_knows (sig : Signature) (n : Nat) :
    Reader.Gives (blockWithin sig n) fun ss => sig.KnowsAll (blockCalls ss) := by
  induction n with
  | zero => exact missing_gives _ _
  | succ n ih => exact blockWith_knows (statementWith_knows ih) ih

/-- The calls in a statement are of procedures that are known where it stands. -/
theorem statement_knows (sig : Signature) :
    Reader.Gives (statement sig) fun s => sig.KnowsAll s.calls :=
  statementWith_knows fun ts _ _ given => blockWithin_knows sig ts.length given

/-! ## Definitions -/

theorem bodyWith_knows {statement : Reader Statement} {outer : String}
    {body : Reader (List Statement)} (hs : statement.Gives fun s => sig.KnowsAll s.calls)
    (hb : body.Gives fun ss => sig.KnowsAll (blockCalls ss)) :
    Reader.Gives (bodyWith statement outer body) fun ss => sig.KnowsAll (blockCalls ss) := by
  intro ts ss rest given
  unfold bodyWith at given
  split at given
  · exact absurd given missing_ne_ok
  · cases given
    exact Signature.knowsAll_nil
  · cases given
  · obtain ⟨⟨s, r⟩, first, given⟩ := bind_eq_ok.1 given
    obtain ⟨⟨ss', r'⟩, others, given⟩ := bind_eq_ok.1 given
    cases given
    rw [blockCalls, Signature.knowsAll_append]
    exact ⟨hs first, hb others⟩

/-- The calls in the body of a definition are of procedures that are known there. -/
theorem body_knows (sig : Signature) (outer : String) :
    Reader.Gives (body sig outer) fun ss => sig.KnowsAll (blockCalls ss) := by
  have within (n : Nat) :
      Reader.Gives (bodyWithin sig outer n) fun ss => sig.KnowsAll (blockCalls ss) := by
    induction n with
    | zero => exact missing_gives _ _
    | succ n ih => exact bodyWith_knows (statement_knows sig) ih
  exact fun ts _ _ given => within ts.length given

end Grammar

end Logo
