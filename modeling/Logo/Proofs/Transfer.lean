import Mathlib
import Logo.Proofs.Arity
import Logo.Proofs.RoundTrip
import Logo.Proofs.Soundness

/-!
# The same tokens elsewhere

What a word means depends on the procedures that are known where it stands, and where something ends
depends on what follows it. This module says when the same tokens are read in the same way elsewhere:
with a larger signature, and before other tokens (`Reader.Carries`).

With a larger signature a word that was a variable may be a call. This is not noticed as long as what is
set is still a variable, and what is read is one or calls a procedure without parameters; and the same
comes of it if what is read is still a variable, too. Before other tokens the same is read as long as
these do not go on with it.

Unlike what `Reader.Steady` says, the same means with all places here, and a name may follow a statement.

Results:
1. `Reader.Carries.andThen`, `Reader.Carries.branch`: the steps of a reader are so.
2. `expr_carries`, `condition_carries`, `statement_carries`, `body_carries`: the rules are so.
3. `header_within`: so is the header of a definition.
-/

namespace Logo

/-! ## Names of variables -/

namespace Mark

/-- What is read or set as a variable is one. -/
def Free (sig : Signature) : Mark → Prop
  | .variable name | .target name => sig name.text = none
  | _ => True

/-- What is set is a variable, and what is read as a variable can be read: it is one, or a procedure
without parameters. -/
def Passes (sig : Signature) : Mark → Prop
  | .variable name => ∀ ⦃arity⦄, sig name.text = some arity → arity = 0
  | .target name => sig name.text = none
  | _ => True

theorem Free.passes {sig : Signature} {mark : Mark} (free : mark.Free sig) : mark.Passes sig := by
  cases mark with
  | «variable» name =>
    intro arity bound
    cases bound.symm.trans free
  | _ => exact free

theorem Fits.free {sig : Signature} {mark : Mark} (fits : mark.Fits sig) : mark.Free sig := by
  cases mark with
  | «variable» name | target name => exact fits
  | _ => trivial

end Mark

/-- What is bound in the first signature is bound in the same way in the second one. -/
def Signature.Within (sig sig' : Signature) : Prop :=
  ∀ ⦃name arity⦄, sig name = some arity → sig' name = some arity

/-! ## What follows -/

/-- What stands before `rest` also ends before `rest'`. -/
def Swaps (rest rest' : List Token) : Prop :=
  next rest = next rest' ∨ NoOperator rest' ∧ NoConnective rest'

theorem Swaps.append {rest rest' : List Token} (swaps : Swaps rest rest') (ts : List Token) :
    Swaps (ts ++ rest) (ts ++ rest') := by
  cases ts with
  | nil => exact swaps
  | cons t ts => exact .inl rfl

/-! ## Steps -/

namespace Reader

variable {α β : Type} {n : Nat} {sig : Signature} {marks : α → List Mark} {marks' : β → List Mark}

theorem gives_give {Q : α → Prop} {a : α} (given : Q a) : (give a).Gives Q := by
  intro ts b rest read
  cases read
  exact given

theorem Gives.andThen {Q : β → Prop} {r : Reader α} {more : α → Reader β}
    (second : ∀ a, (more a).Gives Q) : (r.andThen more).Gives Q := by
  intro ts b rest read
  obtain ⟨a, between, -, goes⟩ := andThen_eq_ok.1 read
  exact second a goes

theorem Gives.branch {Q : α → Prop} {choose : Token → Option (Reader α)} {otherwise : Reader α}
    (chosen : ∀ t r, choose t = some r → r.Gives Q) (other : otherwise.Gives Q) :
    (branch choose otherwise).Gives Q := by
  intro ts a rest read
  cases ts with
  | nil => exact other read
  | cons t ts =>
    cases choice : choose t with
    | none => exact other (branch_none choice ts ▸ read)
    | some r => exact chosen t r choice (branch_some choice ts ▸ read)

/-- The same has been read, if all variables are still variables. -/
def Kept (sig : Signature) (marks : α → List Mark) (a a' : α) : Prop :=
  (∀ mark ∈ marks a, mark.Free sig) → a' = a

/-- What one reader reads from fewer than `n` tokens, another one reads from the same tokens, if it
passes in the signature `sig`, and whatever ends it. -/
def Carries (n : Nat) (sig : Signature) (marks : α → List Mark) (r r' : Reader α) : Prop :=
  ∀ ⦃ts : List Token⦄ ⦃a : α⦄ ⦃rest : List Token⦄, ts.length < n → r ts = .ok (a, rest) →
    (∀ mark ∈ marks a, mark.Passes sig) →
    ∃ taken a', ts = taken ++ rest ∧ Kept sig marks a a' ∧
      ∀ ⦃rest'⦄, Swaps rest rest' → r' (taken ++ rest') = .ok (a', rest')

theorem carries_zero {r r' : Reader α} : Carries 0 sig marks r r' :=
  fun _ _ _ short => absurd short (Nat.not_lt_zero _)

theorem carries_give {a a' : α} (kept : Kept sig marks a a') :
    Carries n sig marks (give a) (give a') := by
  intro ts b rest _ read _
  cases read
  exact ⟨[], a', rfl, kept, fun _ _ => rfl⟩

namespace Carries

theorem mono {m : Nat} {r r' : Reader α} (carries : Carries n sig marks r r') (le : m ≤ n) :
    Carries m sig marks r r' :=
  fun _ _ _ short => carries (Nat.lt_of_lt_of_le short le)

/-- How many tokens are left is what matters to the second reader. -/
theorem andThen_fewer {m : Nat} {r r' : Reader α} {more more' : α → Reader β}
    (first : Carries n sig marks r r')
    (fewer : ∀ ⦃ts a rest⦄, r ts = .ok (a, rest) → rest.length ≤ ts.length → ts.length < n →
      rest.length < m)
    (part : ∀ a, (more a).Gives fun b => marks a ⊆ marks' b)
    (second : ∀ a a', Kept sig marks a a' → Carries m sig marks' (more a) (more' a')) :
    Carries n sig marks' (r.andThen more) (r'.andThen more') := by
  intro ts b rest short read passes
  obtain ⟨a, between, begun, goes⟩ := andThen_eq_ok.1 read
  obtain ⟨taken, a', rfl, kept, begins⟩ :=
    first short begun fun mark among => passes mark (part a goes among)
  have fewer := fewer begun (by rw [List.length_append]; omega) short
  obtain ⟨taken', b', rfl, kept', goes'⟩ := second a a' kept fewer goes passes
  refine ⟨taken ++ taken', b', (List.append_assoc ..).symm, kept', fun rest' swaps => ?_⟩
  rw [List.append_assoc]
  exact andThen_eq_ok.2 ⟨a', taken' ++ rest', begins (swaps.append taken'), goes' swaps⟩

theorem andThen {r r' : Reader α} {more more' : α → Reader β} (first : Carries n sig marks r r')
    (part : ∀ a, (more a).Gives fun b => marks a ⊆ marks' b)
    (second : ∀ a a', Kept sig marks a a' → Carries n sig marks' (more a) (more' a')) :
    Carries n sig marks' (r.andThen more) (r'.andThen more') :=
  first.andThen_fewer (fun _ _ _ _ => Nat.lt_of_le_of_lt) part second

/-- What goes on after a reader that takes a token has one token less. -/
theorem andThen_takes {r r' : Reader α} {more more' : α → Reader β}
    (first : Carries (n + 1) sig marks r r') (takes : r.Takes)
    (part : ∀ a, (more a).Gives fun b => marks a ⊆ marks' b)
    (second : ∀ a a', Kept sig marks a a' → Carries n sig marks' (more a) (more' a')) :
    Carries (n + 1) sig marks' (r.andThen more) (r'.andThen more') :=
  first.andThen_fewer
    (fun _ _ _ read _ short => Nat.lt_of_lt_of_le (takes read) (Nat.le_of_lt_succ short)) part second

theorem map {r r' : Reader α} {f f' : α → β} (first : Carries n sig marks r r')
    (part : ∀ a, marks a ⊆ marks' (f a)) (kept : ∀ a, Kept sig marks' (f a) (f' a)) :
    Carries n sig marks' (r.andThen fun a => give (f a)) (r'.andThen fun a => give (f' a)) := by
  refine first.andThen (fun a => gives_give (part a)) fun a a' same => carries_give fun free => ?_
  rw [same fun mark among => free mark (part a among)]
  exact kept a free

/-- A token that is chosen is taken. -/
theorem branch_chosen {choose' : Token → Option (Reader α)} {otherwise' : Reader α}
    {r r' : Reader α} {t : Token} {ts rest : List Token} {a : α} (carries : Carries n sig marks r r')
    (choice' : choose' t = some r') (short : ts.length < n) (read : r ts = .ok (a, rest))
    (passes : ∀ mark ∈ marks a, mark.Passes sig) :
    ∃ taken a', t :: ts = taken ++ rest ∧ Kept sig marks a a' ∧ ∀ ⦃rest'⦄, Swaps rest rest' →
      Reader.branch choose' otherwise' (taken ++ rest') = .ok (a', rest') := by
  obtain ⟨taken, a', rfl, kept, reads⟩ := carries short read passes
  refine ⟨t :: taken, a', rfl, kept, fun rest' swaps => ?_⟩
  rw [List.cons_append, branch_some choice']
  exact reads swaps

/-- If no token is chosen, at least one is taken all the same. -/
theorem branch {choose choose' : Token → Option (Reader α)} {otherwise otherwise' : Reader α}
    (chosen : ∀ t r, choose t = some r → ∃ r', choose' t = some r' ∧ Carries n sig marks r r')
    (unchosen : ∀ t, choose t = none → choose' t = none) (takes : otherwise.Takes)
    (other : Carries (n + 1) sig marks otherwise otherwise') :
    Carries (n + 1) sig marks (Reader.branch choose otherwise) (Reader.branch choose' otherwise') := by
  intro ts a rest short read passes
  cases ts with
  | nil => exact absurd (takes read) (Nat.not_lt_zero _)
  | cons t ts =>
    cases choice : choose t with
    | some r =>
      rw [branch_some choice] at read
      obtain ⟨r', choice', carries⟩ := chosen t r choice
      exact carries.branch_chosen choice' (Nat.lt_of_succ_lt_succ short) read passes
    | none =>
      rw [branch_none choice] at read
      obtain ⟨taken, a', split, kept, reads⟩ := other short read passes
      refine ⟨taken, a', split, kept, fun rest' swaps => ?_⟩
      cases taken with
      | nil => exact absurd (takes read) (by rw [split]; exact Nat.lt_irrefl _)
      | cons t' taken =>
        cases split
        rw [List.cons_append, branch_none (unchosen t choice)]
        exact reads swaps

/-- If no token is chosen, none is taken, and then none must be chosen from what comes instead. -/
theorem branch_give {choose choose' : Token → Option (Reader α)} {a a' : α}
    (chosen : ∀ t r, choose t = some r → ∃ r', choose' t = some r' ∧ Carries n sig marks r r')
    (unchosen : ∀ l p p', choose ⟨l, p⟩ = none → choose' ⟨l, p'⟩ = none)
    (apart : ∀ ⦃ts⦄, NoOperator ts → NoConnective ts → Unchosen choose' ts)
    (kept : Kept sig marks a a') :
    Carries (n + 1) sig marks (Reader.branch choose (give a)) (Reader.branch choose' (give a')) := by
  intro ts b rest short read passes
  by_cases left : Unchosen choose ts
  · rw [branch_unchosen left] at read
    cases read
    refine ⟨[], a', rfl, kept, fun rest' swaps => ?_⟩
    have left' : Unchosen choose' rest' := by
      obtain same | ⟨noOperator, noConnective⟩ := swaps
      · refine unchosen_of_next fun l p first => ?_
        obtain ⟨t, begins, rfl⟩ := Option.map_eq_some_iff.1 (same.trans first)
        exact unchosen t.lexeme t.position p (left t begins)
      · exact apart noOperator noConnective
    exact branch_unchosen left'
  · obtain ⟨l, p, more, r, rfl, choice⟩ := exists_chosen left
    rw [branch_some choice] at read
    obtain ⟨r', choice', carries⟩ := chosen ⟨l, p⟩ r choice
    exact carries.branch_chosen choice' (Nat.lt_of_succ_lt_succ short) read passes

/-- Where nothing is read unless a token is chosen, it does not matter what else is chosen. -/
theorem branch_fail {choose choose' : Token → Option (Reader α)} {otherwise otherwise' : Reader α}
    (chosen : ∀ t r, choose t = some r → ∃ r', choose' t = some r' ∧ Carries n sig marks r r')
    (fails : otherwise.Gives fun _ => False) :
    Carries (n + 1) sig marks (Reader.branch choose otherwise) (Reader.branch choose' otherwise') := by
  intro ts a rest short read passes
  cases ts with
  | nil => exact (fails read).elim
  | cons t ts =>
    cases choice : choose t with
    | none => exact (fails (branch_none choice ts ▸ read)).elim
    | some r =>
      rw [branch_some choice] at read
      obtain ⟨r', choice', carries⟩ := chosen t r choice
      exact carries.branch_chosen choice' (Nat.lt_of_succ_lt_succ short) read passes

theorem refuse {why : Option Lexeme → Option Failure.Cause} {r r' : Reader α}
    (carries : Carries n sig marks r r') (takes : r.Takes) :
    Carries n sig marks (refuse why r) (Reader.refuse why r') := by
  intro ts a rest short read passes
  unfold Reader.refuse at read ⊢
  split at read
  · cases read
  · next allowed =>
    obtain ⟨taken, a', rfl, kept, reads⟩ := carries short read passes
    refine ⟨taken, a', rfl, kept, fun rest' swaps => ?_⟩
    cases taken with
    | nil => exact absurd (takes read) (Nat.lt_irrefl _)
    | cons t taken =>
      rw [List.cons_append, next_cons] at allowed ⊢
      rw [allowed]
      exact reads swaps

end Carries

end Reader

namespace Grammar

open Reader

variable {sig sig' : Signature} {n : Nat}

/-- A lexeme is read in the same way with every signature. -/
theorem expect_carries (marks : Unit → List Mark) (l : Lexeme) (what : Expectation) :
    Carries n sig' marks (expect l what) (expect l what) := by
  rw [expect_steps]
  refine (Carries.branch_fail (fun t r choice => ?_) (missing_gives _ _)).mono n.le_succ
  split at choice
  · next same =>
    cases choice
    exact ⟨_, if_pos same, carries_give fun _ => rfl⟩
  · cases choice

/-- What stands before a closing lexeme is carried over, and so is what it is part of. -/
theorem enclosed_carries {α β : Type} {marks : α → List Mark} {marks' : β → List Mark}
    {r r' : Reader α} {f : α → β} {l : Lexeme} {what : Expectation}
    (inner : Carries n sig' marks r r') (part : ∀ a, marks a ⊆ marks' (f a)) :
    Carries n sig' marks' (r.andThen fun a => (expect l what).andThen fun _ => give (f a))
      (r'.andThen fun a => (expect l what).andThen fun _ => give (f a)) := by
  refine inner.andThen (fun a => .andThen fun _ => gives_give (part a)) fun a a' kept => ?_
  refine (expect_carries (fun _ => []) l what).map (fun _ => List.nil_subset _) fun _ free => ?_
  rw [kept fun mark among => free mark (part a among)]

/-! ## Expressions -/

theorem callee?_within (within : sig.Within sig') {l : Lexeme} {callee : Callee}
    (called : callee? sig l = some callee) : callee? sig' l = some callee := by
  cases l with
  | keyword k => cases k <;> exact called
  | word name =>
    obtain ⟨arity, bound, rfl⟩ := Option.map_eq_some_iff.1 called
    exact Option.map_eq_some_iff.2 ⟨arity, within bound, rfl⟩
  | _ => cases called

section

variable (e : Carries n sig' Expr.marks (expr sig) (expr sig'))

include e

theorem argumentsWith_carries (arity : Nat) :
    Carries n sig' marksOfAll (argumentsWith (expr sig) arity) (argumentsWith (expr sig') arity) := by
  induction arity with
  | zero => exact carries_give fun _ => rfl
  | succ arity ih =>
    rw [argumentsWith_succ, argumentsWith_succ]
    refine e.andThen (fun first => .andThen fun es => gives_give (List.subset_append_left _ _))
      fun first first' kept => ih.map (fun es => List.subset_append_right _ _) fun es free => ?_
    rw [kept (List.forall_mem_append.1 free).1]

theorem call_carries (callee : Callee) (p : Position) :
    Carries n sig' Call.marks (call sig callee p) (call sig' callee p) := by
  cases callee with
  | reporter what => exact carries_give fun _ => rfl
  | procedure name arity =>
    rw [call_procedure, call_procedure]
    exact (argumentsWith_carries e arity).map (fun es => List.subset_cons_self _ _) fun _ _ => rfl

/-- A variable is read where now a procedure without parameters is called. -/
theorem factorAt_carries (within : sig.Within sig') (t : Token) (r : Reader Factor)
    (chosen : factorAt sig t = some r) :
    ∃ r', factorAt sig' t = some r' ∧ Carries n sig' Factor.marks r r' := by
  obtain ⟨l, p⟩ := t
  cases called : callee? sig l with
  | some callee =>
    simp only [factorAt, called, callee?_within within called] at chosen ⊢
    cases chosen
    exact ⟨_, rfl, (call_carries e callee p).map (fun c => List.Subset.refl _) fun _ _ => rfl⟩
  | none =>
    simp only [factorAt, called] at chosen
    cases l with
    | number value =>
      cases chosen
      exact ⟨_, rfl, carries_give fun _ => rfl⟩
    | parenOpen =>
      cases chosen
      refine ⟨_, rfl, enclosed_carries e fun inner => ?_⟩
      exact List.subset_cons_of_subset _ (List.subset_append_left _ _)
    | word w =>
      cases chosen
      cases bound : sig' w with
      | none =>
        refine ⟨give (.variable ⟨w, p⟩), ?_, carries_give fun _ => rfl⟩
        simp only [factorAt, callee?, bound, Option.map_none]
      | some arity =>
        refine ⟨(call sig' (.procedure w arity) p).andThen fun c => give (.call c), ?_, ?_⟩
        · simp only [factorAt, callee?, bound, Option.map_some]
        intro ts f rest _ read passes
        cases read
        obtain rfl : arity = 0 := passes (.variable ⟨w, p⟩) List.mem_cons_self bound
        refine ⟨[], .call (.procedure ⟨w, p⟩ []), rfl, fun free => ?_, fun rest' _ => rfl⟩
        have unbound : sig' w = none := free (.variable ⟨w, p⟩) List.mem_cons_self
        cases unbound.symm.trans bound
    | _ => cases chosen

theorem factor_carries (within : sig.Within sig') :
    Carries (n + 1) sig' Factor.marks (factor sig) (factor sig') := by
  rw [factor_steps, factor_steps]
  exact .branch_fail (factorAt_carries e within) (missing_gives _ _)

end

theorem term_carries (f : Carries (n + 1) sig' Factor.marks (factor sig) (factor sig'))
    (t : Carries n sig' Term.marks (term sig) (term sig')) :
    Carries (n + 1) sig' Term.marks (term sig) (term sig') := by
  rw [term_steps, term_steps]
  refine f.andThen (fun first => .branch (fun ⟨l, p⟩ r choice => ?_) ?_)
    fun first first' kept => .branch_give (fun ⟨l, p⟩ r choice => ?_) (fun l p p' choice => ?_)
      (fun _ apart _ => termAfter_unchosen apart.noMulOp first') fun free => by rw [kept free]
  · cases l <;> cases choice
    exact .andThen fun rest => gives_give (List.subset_append_left _ _)
  · exact gives_give (List.Subset.refl _)
  · cases l <;> cases choice
    refine ⟨_, rfl, t.map (fun rest => ?_) fun rest free => ?_⟩
    · exact List.subset_append_of_subset_right _ (List.subset_cons_self _ _)
    · rw [kept (List.forall_mem_append.1 free).1]
  · cases l <;> first | rfl | cases choice

theorem sum_carries (t : Carries (n + 1) sig' Term.marks (term sig) (term sig'))
    (e : Carries n sig' Expr.marks (expr sig) (expr sig')) (negated : Bool) :
    Carries (n + 1) sig' Expr.marks (sum sig negated) (sum sig' negated) := by
  rw [sum_steps, sum_steps]
  refine t.andThen (fun first => .branch (fun ⟨l, p⟩ r choice => ?_) ?_)
    fun first first' kept => .branch_give (fun ⟨l, p⟩ r choice => ?_) (fun l p p' choice => ?_)
      (fun _ apart _ => sumAfter_unchosen apart negated first')
      fun free => by rw [kept (List.forall_mem_cons.1 free).2]
  · cases l <;> cases choice
    refine .andThen fun rest => gives_give ?_
    exact List.subset_cons_of_subset _ (List.subset_append_left _ _)
  · exact gives_give (List.subset_cons_self _ _)
  · cases l <;> cases choice
    refine ⟨_, rfl, e.map (fun rest => ?_) fun rest free => ?_⟩
    · exact List.subset_cons_of_subset _
        (List.subset_append_of_subset_right _ (List.subset_cons_self _ _))
    · rw [kept (List.forall_mem_append.1 (List.forall_mem_cons.1 free).2).1]
  · cases l <;> first | rfl | cases choice

theorem expr_step_carries (t : Carries (n + 1) sig' Term.marks (term sig) (term sig'))
    (e : Carries n sig' Expr.marks (expr sig) (expr sig')) :
    Carries (n + 1) sig' Expr.marks (expr sig) (expr sig') := by
  rw [expr_steps, expr_steps]
  refine .branch (fun ⟨l, p⟩ r choice => ?_) (fun ⟨l, p⟩ choice => ?_)
    (sumWith_takes (term_takes sig) (expr_takes sig) false) (sum_carries t e false)
  · cases l <;> cases choice
    exact ⟨_, rfl, (sum_carries t e _).mono n.le_succ⟩
  · cases l <;> first | rfl | cases choice

theorem expr_carries (within : sig.Within sig') (n : Nat) :
    Carries n sig' Expr.marks (expr sig) (expr sig') := by
  suffices both : Carries n sig' Term.marks (term sig) (term sig') ∧
      Carries n sig' Expr.marks (expr sig) (expr sig') from both.2
  induction n with
  | zero => exact ⟨carries_zero, carries_zero⟩
  | succ n ih =>
    have t := term_carries (factor_carries ih.2 within) ih.1
    exact ⟨t, expr_step_carries t ih.2⟩

/-! ## Conditions -/

theorem comparison_carries (within : sig.Within sig') (n : Nat) :
    Carries (n + 1) sig' Clause.marks (comparison sig) (comparison sig') := by
  rw [comparison_steps, comparison_steps]
  refine (expr_carries within (n + 1)).andThen
    (fun left => .branch (fun ⟨l, p⟩ r choice => ?_) (missing_gives _ _))
    fun left left' kept => .branch_fail (fun ⟨l, p⟩ r choice => ?_) (missing_gives _ _)
  · cases l <;> cases choice
    exact .andThen fun right => gives_give (List.subset_append_left _ _)
  · cases l <;> cases choice
    refine ⟨_, rfl, (expr_carries within n).map (fun right => ?_) fun right free => ?_⟩
    · exact List.subset_append_of_subset_right _ (List.subset_cons_self _ _)
    · rw [kept (List.forall_mem_append.1 free).1]

theorem clause_carries (within : sig.Within sig')
    (c : Carries n sig' Condition.marks (condition sig) (condition sig')) :
    Carries (n + 1) sig' Clause.marks (clause sig) (clause sig') := by
  rw [clause_steps, clause_steps]
  refine .branch (fun ⟨l, p⟩ r choice => ?_) (fun ⟨l, p⟩ choice => ?_) (comparison_takes sig)
    (comparison_carries within n)
  · cases l with
    | keyword k =>
      cases k with
      | truth | falsehood =>
        cases choice
        exact ⟨_, rfl, carries_give fun _ => rfl⟩
      | not =>
        cases choice
        exact ⟨_, rfl, c.map (fun inner => List.subset_cons_self _ _) fun _ _ => rfl⟩
      | _ => cases choice
    | braceOpen =>
      cases choice
      refine ⟨_, rfl, enclosed_carries c fun inner => ?_⟩
      exact List.subset_cons_of_subset _ (List.subset_append_left _ _)
    | _ => cases choice
  · cases l with
    | keyword k => cases k <;> first | rfl | cases choice
    | _ => first | rfl | cases choice

theorem condition_carries (within : sig.Within sig') (n : Nat) :
    Carries n sig' Condition.marks (condition sig) (condition sig') := by
  induction n with
  | zero => exact carries_zero
  | succ n ih =>
    rw [condition_steps, condition_steps]
    refine (clause_carries within ih).andThen (fun first => .branch (fun t r choice => ?_) ?_)
      fun first first' kept => .branch_give (fun t r choice => ?_)
        (fun l p p' choice => Option.map_eq_none_iff.2 (Option.map_eq_none_iff.1 choice))
        (fun _ _ apart => conditionAfter_unchosen apart first') fun free => by rw [kept free]
    · obtain ⟨op, -, rfl⟩ := Option.map_eq_some_iff.1 choice
      exact .andThen fun rest => gives_give (List.subset_append_left _ _)
    · exact gives_give (List.Subset.refl _)
    · obtain ⟨op, joins, rfl⟩ := Option.map_eq_some_iff.1 choice
      refine ⟨_, Option.map_eq_some_iff.2 ⟨op, joins, rfl⟩,
        ih.map (fun rest => ?_) fun rest free => ?_⟩
      · exact List.subset_append_of_subset_right _ (List.subset_cons_self _ _)
      · rw [kept (List.forall_mem_append.1 free).1]

/-! ## Statements -/

/-- A variable that is set is read again if it passes. -/
theorem target_carries (n : Nat) :
    Carries n sig' (fun name => [.target name]) (target sig) (target sig') := by
  intro ts name rest _ read passes
  cases ts with
  | nil => cases read
  | cons t ts =>
    obtain ⟨l, p⟩ := t
    cases l with
    | word w | quoted w =>
      simp only [target] at read
      split at read
      · cases read
      · cases read
        have unbound : sig' w = none := passes (.target ⟨w, p⟩) (List.mem_singleton_self _)
        refine ⟨[⟨_, p⟩], ⟨w, p⟩, rfl, fun _ => rfl, fun rest' _ => ?_⟩
        simp only [List.cons_append, target, unbound]
        rfl
    | _ => cases read

theorem marks_subset_marksOfAll {e : Expr} {es : List Expr} (among : e ∈ es) :
    e.marks ⊆ marksOfAll es := by
  induction es with
  | nil => cases among
  | cons first es ih =>
    obtain rfl | among := List.mem_cons.1 among
    · exact List.subset_append_left _ _
    · exact List.subset_append_of_subset_right _ (ih among)

/-- The operands of a command are written as part of it. -/
theorem marks_subset_command {c : Command} {e : Expr} (among : e ∈ c.operands) :
    e.marks ⊆ c.marks :=
  List.subset_append_of_subset_right _ (marks_subset_marksOfAll among)

section

variable (within : sig.Within sig')

include within

theorem operand_carries {α : Type} {marks : α → List Mark} (make : Expr → α)
    (part : ∀ e, e.marks ⊆ marks (make e)) :
    Carries n sig' marks (operand sig make) (operand sig' make) := by
  rw [operand_eq, operand_eq]
  exact (expr_carries within n).map part fun _ _ => rfl

theorem operands₂_carries (make : Expr → Expr → Command)
    (operands : ∀ a b, (make a b).operands = [a, b]) :
    Carries n sig' Command.marks (operands₂ sig make) (operands₂ sig' make) := by
  have part₁ (a b : Expr) : a.marks ⊆ (make a b).marks :=
    marks_subset_command (by simp only [operands, List.mem_cons, true_or])
  have part₂ (a b : Expr) : b.marks ⊆ (make a b).marks :=
    marks_subset_command (by simp only [operands, List.mem_cons, true_or, or_true])
  rw [operands₂_eq, operands₂_eq]
  refine (expr_carries within n).andThen
    (fun a => .andThen fun b => gives_give (part₁ a b)) fun a a' kept => ?_
  refine (expr_carries within n).map (part₂ a) fun b free => ?_
  rw [kept fun mark among => free mark (part₁ a b among)]

theorem operands₃_carries (make : Expr → Expr → Expr → Command)
    (operands : ∀ a b c, (make a b c).operands = [a, b, c]) :
    Carries n sig' Command.marks (operands₃ sig make) (operands₃ sig' make) := by
  have part {a b c e : Expr} (among : e ∈ [a, b, c]) : e.marks ⊆ (make a b c).marks :=
    marks_subset_command (operands a b c ▸ among)
  have part₁ (a b c : Expr) : a.marks ⊆ (make a b c).marks := part List.mem_cons_self
  have part₂ (a b c : Expr) : b.marks ⊆ (make a b c).marks := part (.tail _ List.mem_cons_self)
  rw [operands₃_eq, operands₃_eq]
  refine (expr_carries within n).andThen
    (fun a => .andThen fun b => .andThen fun c => gives_give (part₁ a b c)) fun a a' kept => ?_
  refine (expr_carries within n).andThen
    (fun b => .andThen fun c => gives_give (part₂ a b c)) fun b b' kept' => ?_
  refine (expr_carries within n).map (fun c => part (.tail _ (.tail _ List.mem_cons_self)))
    fun c free => ?_
  rw [kept fun mark among => free mark (part₁ a b c among),
    kept' fun mark among => free mark (part₂ a b c among)]

theorem make_carries (reach : Reach) :
    Carries n sig' Command.marks (make sig reach) (make sig' reach) := by
  have part (name : Name) (value : Expr) :
      [.target name] ⊆ (Command.make reach name value).marks :=
    List.subset_append_of_subset_left _ (List.subset_append_right _ _)
  rw [make_eq, make_eq]
  refine (target_carries n).andThen
    (fun name => .andThen fun value => gives_give (part name value)) fun name name' kept => ?_
  refine (expr_carries within n).map (fun value => marks_subset_command List.mem_cons_self)
    fun value free => ?_
  rw [kept fun mark among => free mark (part name value among)]

omit within in
theorem scan_carries (reach : Reach) :
    Carries n sig' Command.marks (scan sig reach) (scan sig' reach) := by
  rw [scan_eq, scan_eq]
  exact (target_carries n).map
    (fun name => List.subset_append_of_subset_left _ (List.subset_append_right _ _)) fun _ _ => rfl

theorem localTo_carries (n : Nat) :
    Carries (n + 1) sig' Command.marks (localTo sig) (localTo sig') := by
  rw [localTo_steps, localTo_steps]
  refine .branch_fail (fun ⟨l, p⟩ r choice => ?_) (missing_gives _ _)
  cases l with
  | keyword k =>
    cases k with
    | make =>
      cases choice
      exact ⟨_, rfl, make_carries within .own⟩
    | scan =>
      cases choice
      exact ⟨_, rfl, scan_carries .own⟩
    | _ => cases choice
  | _ => cases choice

theorem print_carries (n : Nat) :
    Carries (n + 1) sig' Command.marks (print sig) (print sig') := by
  rw [print_steps, print_steps]
  refine .branch (fun ⟨l, p⟩ r choice => ?_) (fun _ choice => choice) (operand_takes sig _)
    (operand_carries within _ fun e => marks_subset_command List.mem_cons_self)
  cases l <;> cases choice
  exact ⟨_, rfl, carries_give fun _ => rfl⟩

theorem command?_carries {k : Keyword} {r : Reader Command} (begins : command? sig k = some r) :
    ∃ r', command? sig' k = some r' ∧ Carries (n + 1) sig' Command.marks r r' := by
  cases k <;> cases begins
  case forward | back | right | left | head | sleep =>
    exact ⟨_, rfl, operand_carries within _ fun e => marks_subset_command List.mem_cons_self⟩
  case move | setXY => exact ⟨_, rfl, operands₂_carries within _ fun _ _ => rfl⟩
  case setColor => exact ⟨_, rfl, operands₃_carries within _ fun _ _ _ => rfl⟩
  case home | clearScreen | penUp | penDown => exact ⟨_, rfl, carries_give fun _ => rfl⟩
  case print => exact ⟨_, rfl, print_carries within n⟩
  case localTo => exact ⟨_, rfl, localTo_carries within n⟩
  case scan => exact ⟨_, rfl, scan_carries .shared⟩
  case make => exact ⟨_, rfl, make_carries within .shared⟩

/-- A statement that begins with a reserved word goes on in the same way. -/
theorem keywordStatement?_carries
    (b : Carries n sig' (blockMarks · .bracketClose) (block sig) (block sig')) {k : Keyword}
    {r : Reader Statement} (begins : keywordStatement? sig (block sig) k = some r) :
    ∃ r', keywordStatement? sig' (block sig') k = some r' ∧ Carries n sig' Statement.marks r r' := by
  have bracketed : Carries n sig' (blockMarks · .bracketClose) (bracketed sig) (bracketed sig') :=
    (expect_carries (fun _ => []) _ _).andThen
      (fun _ _ _ _ _ => List.nil_subset _) fun _ _ _ => b
  obtain ⟨rfl, rfl⟩ | ⟨rfl, rfl⟩ | ⟨rfl, rfl⟩ | ⟨command, first, rfl⟩ :=
    keywordStatement?_cases begins
  · exact ⟨_, rfl, operand_carries within _ fun e => List.subset_cons_self _ _⟩
  · have part (c : Condition) (body : List Statement) :
        c.marks ⊆ (Statement.ifTrue c body).marks :=
      List.subset_cons_of_subset _ (List.subset_append_left _ _)
    refine ⟨_, keywordStatement?_ifTrue sig', ?_⟩
    refine (condition_carries within n).andThen
      (fun c => .andThen fun body => gives_give (part c body)) fun c c' kept => ?_
    refine bracketed.map (fun body => ?_) fun body free => ?_
    · exact List.subset_cons_of_subset _
        (List.subset_append_of_subset_right _ (List.subset_cons_self _ _))
    · rw [kept fun mark among => free mark (part c body among)]
  · have part (count : Expr) (body : List Statement) :
        count.marks ⊆ (Statement.loop count body).marks :=
      List.subset_cons_of_subset _ (List.subset_append_left _ _)
    refine ⟨_, keywordStatement?_loop sig', ?_⟩
    refine (expr_carries within n).andThen
      (fun count => .andThen fun body => gives_give (part count body)) fun count count' kept => ?_
    refine bracketed.map (fun body => ?_) fun body free => ?_
    · exact List.subset_cons_of_subset _
        (List.subset_append_of_subset_right _ (List.subset_cons_self _ _))
    · rw [kept fun mark among => free mark (part count body among)]
  · obtain ⟨command', begins', carries⟩ := command?_carries within first
    refine ⟨_, (command?_begins begins').2, ?_⟩
    exact (carries.mono n.le_succ).map (fun c => List.Subset.refl _) fun _ _ => rfl

theorem statement_carries
    (b : Carries n sig' (blockMarks · .bracketClose) (block sig) (block sig')) :
    Carries (n + 1) sig' Statement.marks (statement sig) (statement sig') := by
  rw [statement_steps, statement_steps]
  refine .branch_fail (fun ⟨l, p⟩ r choice => ?_) (missing_gives _ _)
  cases called : callee? sig l with
  | some callee =>
    simp only [statementAt, called, callee?_within within called] at choice ⊢
    cases choice
    refine ⟨_, rfl, ?_⟩
    exact (call_carries (expr_carries within n) callee p).map (fun c => List.Subset.refl _)
      fun _ _ => rfl
  | none =>
    simp only [statementAt, called] at choice
    cases l with
    | keyword k =>
      obtain ⟨r', begins', carries⟩ := keywordStatement?_carries within b choice
      refine ⟨r', ?_, carries⟩
      have plain : callee? sig' (.keyword k) = none := by
        cases k <;> first | rfl | cases called
      simp only [statementAt, plain, begins']
    | _ => cases choice

omit within in
/-- Statements one after the other, up to the lexeme that ends them. -/
theorem statements_carries {r r' : Reader (List Statement)} {close : Lexeme}
    {why : Option Lexeme → Option Failure.Cause}
    (s : Carries (n + 1) sig' Statement.marks (statement sig) (statement sig')) (takes : r.Takes)
    (others : Carries n sig' (blockMarks · close) r r') :
    Carries (n + 1) sig' (blockMarks · close)
      (branch (closeAt close) (refuse why
        ((statement sig).andThen fun s => r.andThen fun ss => give (s :: ss))))
      (branch (closeAt close) (refuse why
        ((statement sig').andThen fun s => r'.andThen fun ss => give (s :: ss)))) := by
  have whole := statements_takes sig takes
  refine .branch (fun t r choice => ?_) (fun _ choice => choice) whole.refuse (.refuse ?_ whole)
  · unfold closeAt at choice ⊢
    split at choice
    · next closes =>
      cases choice
      rw [if_pos closes]
      exact ⟨_, rfl, carries_give fun _ => rfl⟩
    · cases choice
  · refine s.andThen_takes (statement_takes sig)
      (fun first => .andThen fun ss => gives_give (List.subset_append_left _ _))
      fun first first' kept => others.map (fun ss => List.subset_append_right _ _) fun ss free => ?_
    rw [kept (List.forall_mem_append.1 free).1]

theorem block_carries (n : Nat) :
    Carries n sig' (blockMarks · .bracketClose) (block sig) (block sig') := by
  induction n with
  | zero => exact carries_zero
  | succ n ih =>
    rw [block_steps sig, block_steps sig']
    exact statements_carries (statement_carries within ih) (block_takes sig) ih

theorem body_carries (outer : String) (n : Nat) :
    Carries n sig' (blockMarks · (.keyword .endDefine)) (body sig outer) (body sig' outer) := by
  induction n with
  | zero => exact carries_zero
  | succ n ih =>
    rw [body_steps sig, body_steps sig']
    exact statements_carries (statement_carries within (block_carries within n))
      (body_takes sig outer) ih

end

/-! ## Headers -/

/-- The parameters are the same words, unless one of them means a procedure now. -/
theorem parameters_within (within : sig.Within sig') (name : String) (ts : List Token)
    (free : ∀ w ∈ (parameters sig name ts).1, sig' w = none) :
    parameters sig' name ts = parameters sig name ts := by
  induction ts with
  | nil => rfl
  | cons t ts ih =>
    obtain ⟨l, p⟩ := t
    cases l with
    | word w =>
      by_cases stops : w = name ∨ (sig w).isSome
      · have stops' : w = name ∨ (sig' w).isSome := by
          refine stops.imp_right fun bound => ?_
          obtain ⟨arity, bound⟩ := Option.isSome_iff_exists.1 bound
          rw [within bound]
          rfl
        simp only [parameters, if_pos stops, if_pos stops']
      · rw [parameters_cons p ts stops] at free ⊢
        have unbound : sig' w = none := free w List.mem_cons_self
        have fresh : ¬ (w = name ∨ (sig' w).isSome) := by
          rw [unbound]
          exact fun known => known.elim (fun same => stops (.inl same)) Bool.false_ne_true
        rw [parameters_cons p ts fresh, ih fun w among => free w (List.mem_cons_of_mem _ among)]
    | _ => rfl

/-- A header is read again, though its name may be known now. -/
theorem header_within (within : sig.Within sig') {ts rest : List Token} {h : Header}
    (read : header sig ts = .ok (h, rest)) (free : ∀ w ∈ h.parameters, sig' w = none) :
    header sig' ts = .ok ({ h with known := (sig' h.name).isSome }, rest) := by
  cases ts with
  | nil => cases read
  | cons t ts =>
    obtain ⟨l, p⟩ := t
    cases l with
    | word name =>
      cases read
      simp only [header, parameters_within within name ts free]
    | _ => cases read

end Grammar

end Logo
