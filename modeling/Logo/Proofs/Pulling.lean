import Mathlib
import Logo.Proofs.OnDemand
import Logo.Proofs.Termination
import Logo.Proofs.Tiling

/-!
# Rules take tokens

That a parser comes to an end is not to be seen from any counter. What gets less is the text that the lexer
has not been asked for, and a rule that could succeed without asking would make a loop go on for ever. Here
it is shown that there is none but those that may find nothing to read: the parameters of a procedure, the
inputs of a call, and a call itself, which is then told to be missing.

Nothing is assumed of the lexer or of the known procedures, and a rule may begin anywhere.

Results: `Takes.bind` and `Keeps.bind_takes` for steps, `Rules.Consume.once` for the rules, `rules_consume`.
-/

namespace Logo

namespace Pull

variable {α β : Type}

/-! ## Steps -/

theorem bind_ok {p : Pull α} {f : α → Pull β} {s s' : Feed} {a : α}
    (first : p s = some (.ok a, s')) : (p >>= f) s = f a s' := by
  show (p s).bind _ = f a s'
  rw [first]
  rfl

theorem bind_error {p : Pull α} {f : α → Pull β} {s s' : Feed} {e : SyntaxError}
    (first : p s = some (.error e, s')) : (p >>= f) s = some (.error e, s') := by
  show (p s).bind _ = _
  rw [first]
  rfl

/-- What comes of two parsers, one after the other, comes of the second, if the first one succeeds. -/
theorem bind_eq_ok {p : Pull α} {f : α → Pull β} {s s'' : Feed} {b : β}
    (done : (p >>= f) s = some (.ok b, s'')) :
    ∃ a s', p s = some (.ok a, s') ∧ f a s' = some (.ok b, s'') := by
  cases first : p s with
  | none =>
    have stuck : (p >>= f) s = none := by
      show (p s).bind _ = _
      rw [first]
      rfl
    cases stuck.symm.trans done
  | some outcome =>
    obtain ⟨r, s'⟩ := outcome
    cases r with
    | error e => cases (bind_error first).symm.trans done
    | ok a => exact ⟨a, s', rfl, (bind_ok first).symm.trans done⟩

theorem advance_eq (s : Feed) :
    advance s =
      some (match s.lexer.next.1 with
        | .piece ⟨none, p⟩ => .error ⟨p, .unrecognized⟩
        | _ => .ok (), s.call) := by
  show (match s.call.ahead with | .piece ⟨none, p⟩ => throw ⟨p, .unrecognized⟩ | _ => return () :
    Pull Unit) s.call = _
  rw [show s.call.ahead = s.lexer.next.1 from rfl]
  cases s.lexer.next.1 with
  | endOfText p => rfl
  | piece piece => obtain ⟨_ | l, p⟩ := piece <;> rfl

/-! ## What is taken -/

/-- A parser that succeeds has asked for at least one token. -/
def Takes (p : Pull α) : Prop :=
  ∀ ⦃s s' : Feed⦄ ⦃a : α⦄, p s = some (.ok a, s') → s.calls.length < s'.calls.length

/-- No call is forgotten. -/
def Keeps (p : Pull α) : Prop :=
  ∀ ⦃s s' : Feed⦄ ⦃a : α⦄, p s = some (.ok a, s') → s.calls.length ≤ s'.calls.length

theorem Takes.keeps {p : Pull α} (takes : Takes p) : Keeps p := fun _ _ _ done =>
  Nat.le_of_lt (takes done)

theorem Takes.bind {p : Pull α} {f : α → Pull β} (first : Takes p) (more : ∀ a, Keeps (f a)) :
    Takes (p >>= f) := by
  intro s s'' b done
  obtain ⟨a, s', begun, done⟩ := bind_eq_ok done
  exact Nat.lt_of_lt_of_le (first begun) (more a done)

theorem Keeps.bind_takes {p : Pull α} {f : α → Pull β} (first : Keeps p) (more : ∀ a, Takes (f a)) :
    Takes (p >>= f) := by
  intro s s'' b done
  obtain ⟨a, s', begun, done⟩ := bind_eq_ok done
  exact Nat.lt_of_le_of_lt (first begun) (more a done)

theorem Keeps.bind {p : Pull α} {f : α → Pull β} (first : Keeps p) (more : ∀ a, Keeps (f a)) :
    Keeps (p >>= f) := by
  intro s s'' b done
  obtain ⟨a, s', begun, done⟩ := bind_eq_ok done
  exact Nat.le_trans (first begun) (more a done)

theorem keeps_pure (a : α) : Keeps (pure a) := by
  intro s s' b done
  cases done
  exact Nat.le_refl _

theorem keeps_peek : Keeps peek := by
  intro s s' ahead done
  cases done
  exact Nat.le_refl _

theorem keeps_signature : Keeps signature := by
  intro s s' sig done
  cases done
  exact Nat.le_refl _

theorem takes_advance : Takes advance := by
  intro s s' _ done
  rw [advance_eq] at done
  obtain ⟨-, rfl⟩ := Prod.mk.inj (Option.some.inj done)
  show s.calls.length < (s.calls ++ [_]).length
  rw [List.length_append]
  exact Nat.lt_succ_self _

theorem takes_throw (e : SyntaxError) : Takes (throw e : Pull α) := by
  intro s s' a done
  have failed : (throw e : Pull α) s = some (.error e, s) := rfl
  cases failed.symm.trans done

theorem takes_expected (what : Expectation) : Takes (expected what : Pull α) := by
  intro s s' a done
  have failed : (expected what : Pull α) s = some (.error (s.ahead.fault what), s) := rfl
  cases failed.symm.trans done

theorem takes_expect (l : Lexeme) (what : Expectation) : Takes (expect l what) := by
  refine keeps_peek.bind_takes fun ahead => ?_
  split
  · split
    · exact takes_advance
    · exact takes_expected what
  · exact takes_expected what

/-- What is made of what a parser read takes no more. -/
theorem Takes.return {p : Pull α} (takes : Takes p) (f : α → β) : Takes (return f (← p)) :=
  takes.bind fun _ => keeps_pure _

theorem takes_target : Takes target := by
  refine keeps_peek.bind_takes fun ahead => ?_
  split
  case h_3 => exact takes_expected _
  all_goals
    refine keeps_signature.bind_takes fun sig => ?_
    split
    · exact takes_throw _
    · exact takes_advance.return fun _ => _

namespace Rules

/-- All rules but those for what may be missing, which are parameters and the inputs of a call, take a
token. -/
structure Consume (r : Rules) : Prop where
  arguments : ∀ n, Keeps (r.arguments n)
  call : ∀ ⦃s s' : Feed⦄ ⦃c : Call⦄, r.call s = some (.ok (some c), s') →
    s.calls.length < s'.calls.length
  factor : Takes r.factor
  term : Takes r.term
  sum : ∀ negated, Takes (r.sum negated)
  expr : Takes r.expr
  clause : Takes r.clause
  condition : Takes r.condition
  statement : Takes r.statement
  bracketed : Takes r.bracketed
  block : Takes r.block
  parameters : ∀ name, Keeps (r.parameters name)
  body : ∀ name, Takes (r.body name)

variable {r : Rules}

/-- Where a call begins, its name is taken; where none does, nothing is. -/
theorem call_takes (inputs : ∀ n, Keeps (r.arguments n)) {s s' : Feed} {c : Option Call}
    (done : r.call s = some (.ok c, s')) :
    c.isSome ∧ s.calls.length < s'.calls.length ∨ c = Option.none ∧ s' = s := by
  obtain ⟨ahead, s₁, ⟨⟩, done⟩ := bind_eq_ok done
  cases ahead : s.ahead.token? with
  | none =>
    rw [ahead] at done
    cases done
    exact .inr ⟨rfl, rfl⟩
  | some t =>
    rw [ahead] at done
    obtain ⟨sig, s₂, ⟨⟩, done⟩ := bind_eq_ok done
    change r.callAt t.position (Grammar.callee? s.known.signature t.lexeme) _ = _ at done
    cases called : Grammar.callee? s.known.signature t.lexeme with
    | none =>
      rw [called] at done
      cases done
      exact .inr ⟨rfl, rfl⟩
    | some callee =>
      rw [called] at done
      cases callee with
      | reporter what =>
        obtain ⟨_, s₃, taken, ⟨⟩⟩ := bind_eq_ok done
        exact .inl ⟨rfl, takes_advance taken⟩
      | procedure name arity =>
        obtain ⟨_, s₃, taken, done⟩ := bind_eq_ok done
        obtain ⟨es, s₄, read, ⟨⟩⟩ := bind_eq_ok done
        exact .inl ⟨rfl, Nat.lt_of_lt_of_le (takes_advance taken) (inputs _ read)⟩

/-- What begins with a call, if there is one, takes a token if all that it can be otherwise does. -/
theorem takes_call_bind (inputs : ∀ n, Keeps (r.arguments n)) {f : Option Call → Pull α}
    (found : ∀ c, Keeps (f (some c))) (other : Takes (f Option.none)) : Takes (r.call >>= f) := by
  intro s s' a done
  obtain ⟨c, s₁, called, goes⟩ := bind_eq_ok done
  obtain ⟨isSome, taken⟩ | ⟨rfl, rfl⟩ := call_takes inputs called
  · obtain ⟨c, rfl⟩ := Option.isSome_iff_exists.1 isSome
    exact Nat.lt_of_lt_of_le taken (found c goes)
  · exact other goes

section

variable (c : r.Consume)

include c

theorem Consume.operand (make : Expr → α) : Takes (r.operand make) := c.expr.return make

theorem Consume.operands₂ (make : Expr → Expr → α) : Takes (r.operands₂ make) :=
  c.expr.bind fun a => (c.expr.return (make a)).keeps

theorem Consume.operands₃ (make : Expr → Expr → Expr → α) : Takes (r.operands₃ make) :=
  c.expr.bind fun a => (c.expr.bind fun b => (c.expr.return (make a b)).keeps).keeps

theorem Consume.comparison : Takes r.comparison := by
  refine c.expr.bind fun left => keeps_peek.bind fun ahead => ?_
  split
  · exact (takes_advance.bind fun _ => (c.expr.return _).keeps).keeps
  · exact (takes_expected _).keeps

theorem Consume.make (reach : Reach) : Takes (r.make reach) :=
  takes_target.bind fun _ => (c.expr.return _).keeps

theorem Consume.localTo : Takes r.localTo := by
  refine keeps_peek.bind_takes fun ahead => ?_
  split
  · exact takes_advance.bind fun _ => (c.make .own).keeps
  · exact takes_advance.bind fun _ => (takes_target.return _).keeps
  · exact takes_expected _

theorem Consume.print : Takes r.print := by
  refine keeps_peek.bind_takes fun ahead => ?_
  split
  · exact takes_advance.return fun _ => _
  · exact c.operand _

theorem Consume.command {k : Keyword} {command : Pull Command} (found : r.command? k = some command) :
    Keeps command := by
  cases k <;> cases found
  case forward | back | right | left | head | sleep => exact (c.operand _).keeps
  case move | setXY => exact (c.operands₂ _).keeps
  case setColor => exact (c.operands₃ _).keeps
  case home | clearScreen | penUp | penDown => exact keeps_pure _
  case print => exact c.print.keeps
  case scan => exact (takes_target.return _).keeps
  case make => exact (c.make _).keeps
  case localTo => exact c.localTo.keeps

theorem Consume.arguments_once (n : Nat) : Keeps (r.once.arguments n) := by
  cases n with
  | zero => exact keeps_pure _
  | succ n => exact c.expr.keeps.bind fun e => (c.arguments n).bind fun _ => keeps_pure _

theorem Consume.factor_once : Takes r.once.factor := by
  refine keeps_peek.bind_takes fun ahead => ?_
  split
  · exact takes_advance.return fun _ => _
  · exact takes_advance.bind fun _ => c.expr.keeps.bind fun _ => ((takes_expect _ _).return _).keeps
  · refine takes_call_bind c.arguments (fun _ => keeps_pure _) (keeps_peek.bind_takes fun ahead => ?_)
    split
    · exact takes_advance.return fun _ => _
    · exact takes_expected _

theorem Consume.term_once : Takes r.once.term := by
  refine c.factor.bind fun f => keeps_peek.bind fun ahead => ?_
  split
  · exact (takes_advance.bind fun _ => (c.term.return _).keeps).keeps
  · exact keeps_pure _

theorem Consume.sum_once (negated : Bool) : Takes (r.once.sum negated) := by
  refine c.term.bind fun t => keeps_peek.bind fun ahead => ?_
  split
  · exact (takes_advance.bind fun _ => (c.expr.return _).keeps).keeps
  · exact keeps_pure _

theorem Consume.expr_once : Takes r.once.expr := by
  refine keeps_peek.bind_takes fun ahead => ?_
  split
  · exact takes_advance.bind fun _ => (c.sum _).keeps
  · exact c.sum false

theorem Consume.clause_once : Takes r.once.clause := by
  refine keeps_peek.bind_takes fun ahead => ?_
  split
  · exact takes_advance.return fun _ => _
  · exact takes_advance.return fun _ => _
  · exact takes_advance.bind fun _ => (c.condition.return _).keeps
  · exact takes_advance.bind fun _ => c.condition.keeps.bind fun _ =>
      ((takes_expect _ _).return _).keeps
  · exact c.comparison

theorem Consume.condition_once : Takes r.once.condition := by
  refine c.clause.bind fun first => keeps_peek.bind fun ahead => ?_
  split
  · exact (takes_advance.bind fun _ => (c.condition.return _).keeps).keeps
  · exact keeps_pure _

theorem Consume.statement_once : Takes r.once.statement := by
  refine takes_call_bind c.arguments (fun _ => keeps_pure _) (keeps_peek.bind_takes fun ahead => ?_)
  split
  · exact takes_advance.bind fun _ => (c.operand _).keeps
  · exact takes_advance.bind fun _ => c.condition.keeps.bind fun _ => (c.bracketed.return _).keeps
  · exact takes_advance.bind fun _ => c.expr.keeps.bind fun _ => (c.bracketed.return _).keeps
  · split
    · next command found =>
      exact takes_advance.bind fun _ => (c.command found).bind fun _ => keeps_pure _
    · exact takes_expected _
  · exact takes_expected _

theorem Consume.block_once : Takes r.once.block := by
  refine keeps_peek.bind_takes fun ahead => ?_
  split
  · exact takes_expected _
  · exact takes_advance.return fun _ => _
  · exact c.statement.bind fun s => (c.block.return _).keeps

theorem Consume.parameters_once (name : String) : Keeps (r.once.parameters name) := by
  refine keeps_peek.bind fun ahead => ?_
  split
  · refine keeps_signature.bind fun sig => ?_
    split
    · exact keeps_pure _
    · exact takes_advance.keeps.bind fun _ => (c.parameters name).bind fun _ => keeps_pure _
  · exact keeps_pure _

theorem Consume.body_once (name : String) : Takes (r.once.body name) := by
  refine keeps_peek.bind_takes fun ahead => ?_
  split
  · exact takes_expected _
  · exact takes_advance.return fun _ => _
  · exact takes_throw _
  · exact c.statement.bind fun s => ((c.body name).return _).keeps

/-- What takes a token goes on to do so where it is used. -/
theorem Consume.once : r.once.Consume where
  arguments := c.arguments_once
  call _ _ _ done := by
    obtain ⟨-, taken⟩ | ⟨none, -⟩ := call_takes c.arguments_once done
    · exact taken
    · cases none
  factor := c.factor_once
  term := c.term_once
  sum := c.sum_once
  expr := c.expr_once
  clause := c.clause_once
  condition := c.condition_once
  statement := c.statement_once
  bracketed := (takes_expect _ _).bind fun _ => c.block.keeps
  block := c.block_once
  parameters := c.parameters_once
  body := c.body_once

end

end Rules

/-- However deep the rules may go, they take tokens. -/
theorem rules_consume (depth : Nat) : (rules depth).Consume := by
  induction depth with
  | zero =>
    have out {α : Type} : Takes (fun _ => none : Pull α) := fun _ _ _ done => nomatch done
    refine ⟨fun _ => out.keeps, ?_, out, out, fun _ => out, out, out, out, out, out, out,
      fun _ => out.keeps, fun _ => out⟩
    intro s s' c done
    obtain ⟨-, taken⟩ | ⟨none, -⟩ := Rules.call_takes (fun _ => out.keeps) done
    · exact taken
    · cases none
  | succ depth ih => exact ih.once

/-- A definition takes its first word. -/
theorem takes_definition (depth : Nat) : Takes (definition depth) := by
  have changed (f : Feed → Feed) (same : ∀ s, (f s).calls = s.calls) : Keeps (modify f) := by
    intro s s' _ done
    cases done
    rw [same]
  have named : Keeps (header depth) := by
    refine keeps_peek.bind fun ahead => ?_
    split
    · exact takes_advance.keeps.bind fun _ =>
        ((rules_consume depth).parameters _).bind fun _ => keeps_pure _
    · exact (takes_expected _).keeps
  refine takes_advance.bind fun _ => named.bind fun ⟨name, parameters⟩ => ?_
  refine (changed (·.announce name parameters) fun _ => rfl).bind fun _ => ?_
  refine ((rules_consume depth).body name).keeps.bind fun body => ?_
  exact (changed (·.complete name body) fun _ => rfl).bind fun _ => keeps_pure _

end Pull

end Logo
