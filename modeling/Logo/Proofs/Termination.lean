import Mathlib
import Logo.Proofs.Attempt
import Logo.Proofs.Session
import Logo.Proofs.Frame
import Logo.Proofs.Steps

/-!
# Every submission ends

The definitions of `Logo.Proofs.Attempt` say nothing about why they come to an end. Here it is shown
that they do, and with the same results as those that have a bound:

* taking pieces of a text ends because each piece takes up some of the text;
* reading ends because each rule takes a token before it comes back to itself;
* running ends because a call leaves room for one less, the parts of a statement are smaller than
  the statement, and the counter of a loop comes closer to the largest number with every round.

Results:
1. `Search.parse_eventually`: parsing ends.
2. `Attempt.loop_ends`, `Attempt.bodies_end`: loops and calls end, whatever the count and the body
   do.
3. `submit_ends`: submitting ends, and a loop's counter never wraps around.
-/

namespace Logo

open Filter

theorem eventually_of_succ {p : Nat → Prop} (deeper : ∀ᶠ depth in atTop, p (depth + 1)) :
    ∀ᶠ depth in atTop, p depth := by
  obtain ⟨enough, holds⟩ := eventually_atTop.1 deeper
  refine eventually_atTop.2 ⟨enough + 1, fun depth deep => ?_⟩
  obtain ⟨depth, rfl⟩ := Nat.exists_eq_add_one_of_ne_zero (Nat.ne_zero_of_lt deep)
  exact holds depth (Nat.le_of_succ_le_succ deep)

/-! ## Pieces of a text -/

/-- Taking pieces ends, since each of them takes up some of the text. -/
theorem Cursor.attempt_eventually (cursor : Cursor) :
    ∀ᶠ depth in atTop, cursor.attempt depth = some cursor.pieces := by
  induction left : cursor.rest.length using Nat.strongRecOn generalizing cursor with
  | ind n ih =>
    refine eventually_of_succ ?_
    rw [pieces]
    cases taken : cursor.next? with
    | none =>
      refine .of_forall fun depth => ?_
      rw [attempt, taken]
    | some found =>
      obtain ⟨piece, after⟩ := found
      have shorter := length_of_next? taken
      filter_upwards [ih _ (left ▸ shorter) after rfl] with depth same
      rw [attempt, taken]
      dsimp only
      rw [same]
      rfl

/-! ## Reading -/

namespace Search

open Grammar Reader

variable {α β : Type} {n : Nat} {sig : Signature}

/-- From fewer than `n` tokens, `s` reads what `r` does if its rules may go deep enough. -/
def Ends (n : Nat) (s : Nat → Search α) (r : Reader α) : Prop :=
  ∀ ⦃ts : List Token⦄, ts.length < n → ∀ᶠ depth in atTop, s depth ts = some (r ts)

theorem bind_ok {s : Search α} {f : α → Search β} {ts rest : List Token} {a : α}
    (first : s ts = some (.ok (a, rest))) : (s >>= f) ts = f a rest := by
  show (s ts).bind _ = f a rest
  rw [first]
  rfl

theorem bind_error {s : Search α} {f : α → Search β} {ts : List Token} {e : Failure}
    (first : s ts = some (.error e)) : (s >>= f) ts = some (.error e) := by
  show (s ts).bind _ = _
  rw [first]
  rfl

theorem ends_zero {s : Nat → Search α} {r : Reader α} : Ends 0 s r :=
  fun _ short => absurd short (Nat.not_lt_zero _)

theorem ends_of (r : Reader α) : Ends n (fun _ => of r) r := fun _ _ => .of_forall fun _ => rfl

theorem ends_pure (a : α) : Ends n (fun _ => pure a) (give a) :=
  fun _ _ => .of_forall fun _ => rfl

theorem Ends.mono {m : Nat} {s : Nat → Search α} {r : Reader α} (ends : Ends n s r) (le : m ≤ n) :
    Ends m s r :=
  fun _ short => ends (Nat.lt_of_lt_of_le short le)

theorem Ends.of_succ {s : Nat → Search α} {r : Reader α}
    (deeper : Ends n (fun depth => s (depth + 1)) r) : Ends n s r :=
  fun _ short => eventually_of_succ (deeper short)

/-- What goes on after a reader that takes a token has one token less. -/
theorem Ends.bind_takes {s : Nat → Search α} {r : Reader α} {f : Nat → α → Search β}
    {g : α → Reader β} (first : Ends (n + 1) s r) (takes : r.Takes)
    (more : ∀ a, Ends n (fun depth => f depth a) (g a)) :
    Ends (n + 1) (fun depth => s depth >>= f depth) (r.andThen g) := by
  intro ts short
  cases ran : r ts with
  | error e =>
    filter_upwards [first short] with depth begun
    rw [bind_error (begun.trans (congrArg some ran)), andThen_error ran]
  | ok taken =>
    obtain ⟨a, rest⟩ := taken
    have fewer : rest.length < n := Nat.lt_of_lt_of_le (takes ran) (Nat.le_of_lt_succ short)
    filter_upwards [first short, more a fewer] with depth begun goes
    rw [bind_ok (begun.trans (congrArg some ran)), andThen_ok ran]
    exact goes

theorem Ends.bind {s : Nat → Search α} {r : Reader α} {f : Nat → α → Search β} {g : α → Reader β}
    (first : Ends n s r) (keeps : r.Keeps) (more : ∀ a, Ends n (fun depth => f depth a) (g a)) :
    Ends n (fun depth => s depth >>= f depth) (r.andThen g) := by
  intro ts short
  cases ran : r ts with
  | error e =>
    filter_upwards [first short] with depth begun
    rw [bind_error (begun.trans (congrArg some ran)), andThen_error ran]
  | ok taken =>
    obtain ⟨a, rest⟩ := taken
    have fewer : rest.length < n := Nat.lt_of_le_of_lt (keeps ran) short
    filter_upwards [first short, more a fewer] with depth begun goes
    rw [bind_ok (begun.trans (congrArg some ran)), andThen_ok ran]
    exact goes

/-- What becomes of the next token: `f` goes on after it as `choose` tells, or does not take it. -/
inductive Decides (n : Nat) (f : Nat → Option Token → Search α)
    (choose : Token → Option (Reader α)) (otherwise : Reader α) (t : Token) : Prop
  | takes {s : Nat → Search α} {r : Reader α} :
      choose t = some r → (∀ depth, f depth (some t) = (advance >>= fun _ => s depth)) →
      Ends n s r → Decides n f choose otherwise t
  | passes :
      choose t = none →
      (∀ rest, rest.length < n →
        ∀ᶠ depth in atTop, f depth (some t) (t :: rest) = some (otherwise (t :: rest))) →
      Decides n f choose otherwise t

theorem Decides.leaves {f : Nat → Option Token → Search α} {choose : Token → Option (Reader α)}
    {otherwise : Reader α} {t : Token} (left : choose t = none)
    (ends : Ends (n + 1) (fun depth => f depth (some t)) otherwise) :
    Decides n f choose otherwise t :=
  .passes left fun _ short => ends (Nat.succ_lt_succ short)

theorem ends_branch {f : Nat → Option Token → Search α} {choose : Token → Option (Reader α)}
    {otherwise : Reader α} (last : ∀ᶠ depth in atTop, f depth none [] = some (otherwise []))
    (decides : ∀ t, Decides n f choose otherwise t) :
    Ends (n + 1) (fun depth => peek >>= f depth) (branch choose otherwise) := by
  intro ts short
  cases ts with
  | nil => exact last
  | cons t rest =>
    have short := Nat.lt_of_succ_lt_succ short
    cases decides t with
    | takes chosen same ends =>
      filter_upwards [ends short] with depth goes
      rw [bind_ok (s := peek) rfl, branch_some chosen, List.head?_cons, same,
        bind_ok (s := advance) rfl]
      exact goes
    | passes left ends =>
      filter_upwards [ends rest short] with depth goes
      rw [bind_ok (s := peek) rfl, branch_none left]
      exact goes

/-! ### Expressions -/

section

variable (e : Ends n (fun depth => (rules sig depth).expr) (Grammar.expr sig))

include e

theorem arguments_ends (arity : Nat) :
    Ends n (fun depth => (rules sig depth).arguments arity)
      (argumentsWith (Grammar.expr sig) arity) := by
  induction arity with
  | zero => exact .of_succ (ends_pure [])
  | succ arity ih =>
    rw [argumentsWith_succ]
    exact .of_succ (e.bind (expr_takes sig).keeps fun _ =>
      ih.bind (argumentsWith_keeps (expr_takes sig) arity) fun _ => ends_pure _)

theorem call_ends (callee : Callee) (position : Position) :
    Ends n (fun depth => (rules sig depth).call callee position)
      (Grammar.call sig callee position) := by
  cases callee with
  | reporter what => exact .of_succ (ends_pure (Call.reporter what))
  | procedure name arity =>
    rw [call_procedure]
    exact .of_succ ((arguments_ends e arity).bind
      (argumentsWith_keeps (expr_takes sig) arity) fun _ => ends_pure _)

theorem factor_ends : Ends (n + 1) (fun depth => (rules sig depth).factor) (Grammar.factor sig) := by
  rw [factor_steps]
  refine .of_succ (ends_branch (.of_forall fun _ => rfl) fun ⟨l, p⟩ => ?_)
  cases called : callee? sig l with
  | some callee =>
    refine .takes (by simp only [factorAt, called]; rfl)
      (fun depth => by simp only [called]; rfl) ?_
    exact (call_ends e callee p).bind (call_keeps sig callee p) fun _ => ends_pure _
  | none =>
    cases l with
    | number value => exact .takes rfl (fun _ => rfl) (ends_pure _)
    | word w =>
      exact .takes (by simp only [factorAt, called]; rfl) (fun _ => by simp only [called])
        (ends_pure _)
    | parenOpen =>
      exact .takes rfl (fun _ => rfl) (e.bind (expr_takes sig).keeps fun inner =>
        (ends_of _).bind (expect_takes _ _).keeps fun _ => ends_pure _)
    | keyword k =>
      refine .leaves (by simp only [factorAt, called]) ?_
      simp only [called]
      exact ends_of _
    | _ => exact .leaves rfl (ends_of _)

end

theorem term_ends (f : Ends (n + 1) (fun depth => (rules sig depth).factor) (Grammar.factor sig))
    (t : Ends n (fun depth => (rules sig depth).term) (Grammar.term sig)) :
    Ends (n + 1) (fun depth => (rules sig depth).term) (Grammar.term sig) := by
  rw [term_steps]
  refine .of_succ (f.bind (factor_takes sig).keeps fun first =>
    ends_branch (.of_forall fun _ => rfl) fun ⟨l, p⟩ => ?_)
  cases l with
  | mulOp op =>
    exact .takes rfl (fun _ => rfl) (t.bind (term_takes sig).keeps fun _ => ends_pure _)
  | _ => exact .leaves rfl (ends_pure _)

section

variable (t : Ends (n + 1) (fun depth => (rules sig depth).term) (Grammar.term sig))
  (e : Ends n (fun depth => (rules sig depth).expr) (Grammar.expr sig))

include t e

theorem sum_ends (negated : Bool) :
    Ends (n + 1) (fun depth => (rules sig depth).sum negated) (Grammar.sum sig negated) := by
  rw [sum_steps]
  refine .of_succ (t.bind (term_takes sig).keeps fun first =>
    ends_branch (.of_forall fun _ => rfl) fun ⟨l, p⟩ => ?_)
  cases l with
  | addOp op =>
    exact .takes rfl (fun _ => rfl) (e.bind (expr_takes sig).keeps fun _ => ends_pure _)
  | _ => exact .leaves rfl (ends_pure _)

theorem expr_ends : Ends (n + 1) (fun depth => (rules sig depth).expr) (Grammar.expr sig) := by
  rw [expr_steps]
  have unsigned := sum_ends t e false
  refine .of_succ (ends_branch (unsigned (Nat.succ_pos n)) fun ⟨l, p⟩ => ?_)
  cases l with
  | addOp sign =>
    exact .takes rfl (fun _ => rfl) ((sum_ends t e (sign = .minus)).mono n.le_succ)
  | _ => exact .leaves rfl unsigned

end

/-- Reading an expression ends, since each operand takes a token. -/
theorem numbers_end (sig : Signature) (n : Nat) :
    Ends n (fun depth => (rules sig depth).term) (Grammar.term sig) ∧
      Ends n (fun depth => (rules sig depth).expr) (Grammar.expr sig) := by
  induction n with
  | zero => exact ⟨ends_zero, ends_zero⟩
  | succ n ih =>
    have t := term_ends (factor_ends ih.2) ih.1
    exact ⟨t, expr_ends t ih.2⟩

/-! ### Conditions -/

theorem comparison_ends (sig : Signature) (n : Nat) :
    Ends (n + 1) (fun depth => (rules sig depth).comparison) (Grammar.comparison sig) := by
  rw [comparison_steps]
  have e := fun n => (numbers_end sig n).2
  refine (e (n + 1)).bind (expr_takes sig).keeps fun left =>
    ends_branch (.of_forall fun _ => rfl) fun ⟨l, p⟩ => ?_
  cases l with
  | comparison op =>
    exact .takes rfl (fun _ => rfl) ((e n).bind (expr_takes sig).keeps fun _ => ends_pure _)
  | _ => exact .leaves rfl (ends_of _)

theorem clause_ends
    (c : Ends n (fun depth => (rules sig depth).condition) (Grammar.condition sig)) :
    Ends (n + 1) (fun depth => (rules sig depth).clause) (Grammar.clause sig) := by
  rw [clause_steps]
  have other := comparison_ends sig n
  refine .of_succ (ends_branch (other (Nat.succ_pos n)) fun ⟨l, p⟩ => ?_)
  cases l with
  | keyword k =>
    cases k with
    | truth | falsehood => exact .takes rfl (fun _ => rfl) (ends_pure _)
    | not =>
      exact .takes rfl (fun _ => rfl) (c.bind (condition_takes sig).keeps fun _ => ends_pure _)
    | _ => exact .leaves rfl other
  | braceOpen =>
    exact .takes rfl (fun _ => rfl) (c.bind (condition_takes sig).keeps fun _ =>
      (ends_of _).bind (expect_takes _ _).keeps fun _ => ends_pure _)
  | _ => exact .leaves rfl other

theorem condition_ends (sig : Signature) (n : Nat) :
    Ends n (fun depth => (rules sig depth).condition) (Grammar.condition sig) := by
  induction n with
  | zero => exact ends_zero
  | succ n ih =>
    rw [condition_steps]
    have takes : (Grammar.clause sig).Takes := clauseWith_takes (condition_takes sig)
    refine .of_succ ((clause_ends ih).bind takes.keeps fun first =>
      ends_branch (.of_forall fun _ => rfl) fun ⟨l, p⟩ => ?_)
    cases joined : connective? l with
    | some op =>
      refine .takes (by simp only [conditionAfter, joined, Option.map_some]; rfl)
        (fun _ => by simp only [Option.bind_some, joined]; rfl) ?_
      exact ih.bind (condition_takes sig).keeps fun _ => ends_pure _
    | none =>
      refine .leaves (by simp only [conditionAfter, joined, Option.map_none]) ?_
      simp only [Option.bind_some, joined]
      exact ends_pure _

/-! ### Statements -/

theorem operand_ends (make : Expr → α) :
    Ends n (fun depth => (rules sig depth).operand make) (operand sig make) := by
  rw [operand_eq]
  exact (numbers_end sig n).2.bind (expr_takes sig).keeps fun _ => ends_pure _

theorem operands₂_ends (make : Expr → Expr → α) :
    Ends n (fun depth => (rules sig depth).operands₂ make) (operands₂ sig make) := by
  rw [operands₂_eq]
  have e := (numbers_end sig n).2
  exact e.bind (expr_takes sig).keeps fun _ => e.bind (expr_takes sig).keeps fun _ => ends_pure _

theorem operands₃_ends (make : Expr → Expr → Expr → α) :
    Ends n (fun depth => (rules sig depth).operands₃ make) (operands₃ sig make) := by
  rw [operands₃_eq]
  have e := (numbers_end sig n).2
  exact e.bind (expr_takes sig).keeps fun _ => e.bind (expr_takes sig).keeps fun _ =>
    e.bind (expr_takes sig).keeps fun _ => ends_pure _

theorem scan_ends (reach : Reach) : Ends n (fun _ => Rules.scan sig reach) (scan sig reach) := by
  rw [scan_eq]
  exact (ends_of _).bind (target_takes sig).keeps fun _ => ends_pure _

theorem make_ends (reach : Reach) :
    Ends n (fun depth => (rules sig depth).make sig reach) (make sig reach) := by
  rw [make_eq]
  exact (ends_of _).bind (target_takes sig).keeps fun _ =>
    (numbers_end sig n).2.bind (expr_takes sig).keeps fun _ => ends_pure _

theorem localTo_ends (n : Nat) :
    Ends (n + 1) (fun depth => (rules sig depth).localTo sig) (localTo sig) := by
  rw [localTo_steps]
  refine ends_branch (.of_forall fun _ => rfl) fun ⟨l, p⟩ => ?_
  cases l with
  | keyword k =>
    cases k with
    | make => exact .takes rfl (fun _ => rfl) (make_ends .own)
    | scan => exact .takes rfl (fun _ => rfl) (scan_ends .own)
    | _ => exact .leaves rfl (ends_of _)
  | _ => exact .leaves rfl (ends_of _)

theorem print_ends (n : Nat) : Ends (n + 1) (fun depth => (rules sig depth).print) (print sig) := by
  rw [print_steps]
  have other : Ends (n + 1) (fun depth => (rules sig depth).operand Command.printNumber)
      (operand sig Command.printNumber) := operand_ends Command.printNumber
  refine ends_branch (other (Nat.succ_pos n)) fun ⟨l, p⟩ => ?_
  cases l with
  | quoted text => exact .takes rfl (fun _ => rfl) (ends_pure _)
  | _ => exact .leaves rfl other

/-- What begins a command as a reader also begins it here, and ends. -/
theorem command?_ends (sig : Signature) (n : Nat) (k : Keyword) :
    ((∀ depth, (rules sig depth).command? sig k = none) ∧ command? sig k = none) ∨
      ∃ s r, (∀ depth, (rules sig depth).command? sig k = some (s depth)) ∧
        command? sig k = some r ∧ Ends (n + 1) s r := by
  cases k with
  | forward | back | right | left | head | sleep =>
    exact .inr ⟨_, _, fun _ => rfl, rfl, operand_ends _⟩
  | move | setXY => exact .inr ⟨_, _, fun _ => rfl, rfl, operands₂_ends _⟩
  | setColor => exact .inr ⟨_, _, fun _ => rfl, rfl, operands₃_ends _⟩
  | home | clearScreen | penUp | penDown => exact .inr ⟨_, _, fun _ => rfl, rfl, ends_pure _⟩
  | print => exact .inr ⟨_, _, fun _ => rfl, rfl, print_ends n⟩
  | scan => exact .inr ⟨_, _, fun _ => rfl, rfl, scan_ends .shared⟩
  | make => exact .inr ⟨_, _, fun _ => rfl, rfl, make_ends .shared⟩
  | localTo => exact .inr ⟨_, _, fun _ => rfl, rfl, localTo_ends n⟩
  | _ => exact .inl ⟨fun _ => rfl, rfl⟩

theorem bracketed_keeps (sig : Signature) : (Grammar.bracketed sig).Keeps := by
  intro ts body rest read
  obtain ⟨⟨_, more⟩, opened, read⟩ := bind_eq_ok.1 read
  exact Nat.le_of_lt (Nat.lt_trans (block_takes sig read) (expect_takes _ _ opened))

section

variable (b : Ends n (fun depth => (rules sig depth).block) (Grammar.block sig))

include b

theorem bracketed_ends :
    Ends n (fun depth => (rules sig depth).bracketed) (Grammar.bracketed sig) :=
  .of_succ ((ends_of _).bind (expect_takes _ _).keeps fun _ => b)

theorem statement_ends :
    Ends (n + 1) (fun depth => (rules sig depth).statement) (Grammar.statement sig) := by
  rw [statement_steps]
  have e := (numbers_end sig n).2
  refine .of_succ (ends_branch (.of_forall fun _ => rfl) fun ⟨l, p⟩ => ?_)
  cases called : callee? sig l with
  | some callee =>
    refine .takes (by simp only [statementAt, called]; rfl)
      (fun _ => by simp only [called]; rfl) ?_
    exact (call_ends e callee p).bind (call_keeps sig callee p) fun _ => ends_pure _
  | none =>
    cases l with
    | keyword k =>
      have begun := command?_ends sig n k
      cases k with
      | getX | getY | getHeading => cases called
      | output => exact .takes rfl (fun _ => rfl) (operand_ends Statement.output)
      | ifTrue =>
        exact .takes (keywordStatement?_ifTrue sig) (fun _ => rfl)
          ((condition_ends sig n).bind (condition_takes sig).keeps fun _ =>
            (bracketed_ends b).bind (bracketed_keeps sig) fun _ => ends_pure _)
      | loop =>
        exact .takes (keywordStatement?_loop sig) (fun _ => rfl)
          (e.bind (expr_takes sig).keeps fun _ =>
            (bracketed_ends b).bind (bracketed_keeps sig) fun _ => ends_pure _)
      | _ =>
        rcases begun with ⟨searched, read⟩ | ⟨s, r, searched, read, ends⟩
        · refine .leaves
            (by simp only [statementAt, callee?, keywordStatement?, read, Option.map_none]) ?_
          simp only [callee?, searched]
          exact ends_of _
        · refine .takes (by simp only [statementAt, callee?, keywordStatement?, read]; rfl)
            (fun _ => by simp only [callee?, searched]; rfl) ?_
          exact (ends.mono n.le_succ).bind (command?_keeps read) fun _ => ends_pure _
    | word w =>
      refine .leaves (by simp only [statementAt, called]) ?_
      simp only [called]
      exact ends_of _
    | _ => exact .leaves rfl (ends_of _)

end

theorem block_ends (sig : Signature) (n : Nat) :
    Ends n (fun depth => (rules sig depth).block) (Grammar.block sig) := by
  induction n with
  | zero => exact ends_zero
  | succ n ih =>
    rw [block_steps]
    have more := (statement_ends ih).bind_takes (statement_takes sig) fun s =>
      ih.bind (block_takes sig).keeps fun ss => ends_pure (s :: ss)
    refine .of_succ (ends_branch (.of_forall fun _ => rfl) fun ⟨l, p⟩ => ?_)
    cases l with
    | bracketClose => exact .takes rfl (fun _ => rfl) (ends_pure _)
    | _ => exact .passes rfl fun _ short => more (Nat.succ_lt_succ short)

theorem body_ends (sig : Signature) (outer : String) (n : Nat) :
    Ends n (fun depth => (rules sig depth).body outer) (Grammar.body sig outer) := by
  induction n with
  | zero => exact ends_zero
  | succ n ih =>
    rw [body_steps]
    have more := (statement_ends (block_ends sig n)).bind_takes (statement_takes sig) fun s =>
      ih.bind (body_takes sig outer).keeps fun ss => ends_pure (s :: ss)
    refine .of_succ (ends_branch (.of_forall fun _ => rfl) fun ⟨l, p⟩ => ?_)
    cases l with
    | keyword k =>
      cases k with
      | endDefine => exact .takes rfl (fun _ => rfl) (ends_pure _)
      | define => exact .passes rfl fun _ _ => .of_forall fun _ => rfl
      | _ => exact .passes rfl fun _ short => more (Nat.succ_lt_succ short)
    | _ => exact .passes rfl fun _ short => more (Nat.succ_lt_succ short)

/-! ### Programs -/

theorem program_eventually (known : Procedures) (ts : List Token) :
    ∀ᶠ depth in atTop, program depth known ts = some (Grammar.program known ts) := by
  induction left : ts.length using Nat.strongRecOn generalizing known ts with
  | ind n ih =>
    subst left
    refine eventually_of_succ ?_
    cases ts with
    | nil => exact .of_forall fun _ => rfl
    | cons t rest =>
      by_cases first : t.lexeme = .keyword .define
      · obtain ⟨l, p⟩ := t
        obtain rfl : l = .keyword .define := first
        rw [program_definition, definitionWith]
        cases begun : header known.signature rest with
        | error f =>
          refine .of_forall fun depth => ?_
          rw [program, if_pos rfl, begun]
        | ok taken =>
          obtain ⟨h, rest'⟩ := taken
          have bodied := body_ends (known.announce h).signature h.name _ (Nat.lt_succ_self rest'.length)
          cases read : Grammar.body (known.announce h).signature h.name rest' with
          | error f =>
            filter_upwards [bodied] with depth goes
            rw [program, if_pos rfl, begun]
            dsimp only
            rw [goes, read]
            rfl
          | ok taken =>
            obtain ⟨ss, rest''⟩ := taken
            have := header_takes _ begun
            have := body_takes _ _ read
            have more := ih rest''.length (by simp only [List.length_cons]; omega)
              ((known.announce h).complete h.name ss) rest'' rfl
            filter_upwards [bodied, more] with depth goes ends
            rw [program, if_pos rfl, begun]
            dsimp only
            rw [goes, read]
            show Option.bind (program depth _ rest'') _ = _
            rw [ends]
            rfl
      · rw [program_statement first]
        have started := statement_ends (block_ends known.signature _)
          (Nat.lt_succ_self (t :: rest).length)
        cases read : Grammar.statement known.signature (t :: rest) with
        | error f =>
          filter_upwards [started] with depth goes
          rw [program, if_neg first, goes, read]
          rfl
        | ok taken =>
          obtain ⟨s, rest'⟩ := taken
          have more := ih rest'.length (statement_takes _ read) known rest' rfl
          filter_upwards [started, more] with depth goes ends
          rw [program, if_neg first, goes, read]
          show Option.bind (program depth _ rest') _ = _
          rw [ends]
          rfl

/-- Parsing ends. -/
theorem parse_eventually (known : Procedures) (text : String) :
    ∀ᶠ depth in atTop, Search.parse depth known text = some (Logo.parse known text) := by
  filter_upwards [(Cursor.ofText text).attempt_eventually,
    program_eventually known (Scan.ofText text).tokens] with depth scanned read
  rw [Search.parse, parse_eq]
  dsimp only
  rw [scanned]
  show Option.bind (program depth known (Scan.ofText text).tokens) _ = _
  rw [read]
  rfl

end Search

/-! ## Running -/

namespace Attempt

variable {α β : Type} {calls : Nat}

/-- With so many procedures running, `a` does what `x` does, and comes to an end. It leaves as many
procedures running. -/
def Ends (calls : Nat) (a : Nat → Attempt α) (x : Exec α) : Prop :=
  ∀ m, m.calls = calls → (∀ᶠ depth in atTop, a depth m = of x m) ∧ (x.after m).calls = calls

theorem bind_ok {a : Attempt α} {f : α → Attempt β} {m m' : Machine} {value : α}
    (first : a m = some (.ok value, m')) : (a >>= f) m = f value m' := by
  show (a m).bind _ = f value m'
  rw [first]
  rfl

theorem bind_error {a : Attempt α} {f : α → Attempt β} {m m' : Machine} {e : RuntimeError}
    (first : a m = some (.error e, m')) : (a >>= f) m = some (.error e, m') := by
  show (a m).bind _ = _
  rw [first]
  rfl

theorem of_ok {x : Exec α} {m m' : Machine} {value : α} (ran : x m = .ok value m') :
    of x m = some (.ok value, m') := by
  simp only [of, ran]

theorem of_error {x : Exec α} {m m' : Machine} {e : RuntimeError} (ran : x m = .error e m') :
    of x m = some (.error e, m') := by
  simp only [of, ran]

theorem ends_of {x : Exec α} (keeps : ∀ m, (x.after m).calls = m.calls) :
    Ends calls (fun _ => of x) x :=
  fun m running => ⟨.of_forall fun _ => rfl, (keeps m).trans running⟩

theorem ends_pure (a : α) : Ends calls (fun _ => pure a) (pure a) :=
  fun _ running => ⟨.of_forall fun _ => rfl, running⟩

theorem ends_throw (e : RuntimeError) :
    Ends calls (fun _ => (throw e : Attempt α)) (throw e) :=
  fun _ running => ⟨.of_forall fun _ => rfl, running⟩

theorem ends_modify {f : Machine → Machine} (keeps : ∀ m, (f m).calls = m.calls) :
    Ends calls (fun _ => modify f) (modify f) :=
  fun m running => ⟨.of_forall fun _ => rfl, (keeps m).trans running⟩

theorem Ends.of_succ {a : Nat → Attempt α} {x : Exec α}
    (deeper : Ends calls (fun depth => a (depth + 1)) x) : Ends calls a x :=
  fun m running => ⟨eventually_of_succ (deeper m running).1, (deeper m running).2⟩

theorem Ends.bind {a : Nat → Attempt α} {x : Exec α} {f : Nat → α → Attempt β} {g : α → Exec β}
    (first : Ends calls a x) (more : ∀ value, Ends calls (fun depth => f depth value) (g value)) :
    Ends calls (fun depth => a depth >>= f depth) (x >>= g) := by
  intro m running
  obtain ⟨same, kept⟩ := first m running
  cases ran : x m with
  | ok value m' =>
    have goes : (x >>= g) m = g value m' := Exec.bind_of_ok ran
    rw [Exec.after, ran] at kept
    obtain ⟨same', kept'⟩ := more value m' kept
    refine ⟨?_, by rw [Exec.after, goes]; exact kept'⟩
    filter_upwards [same, same'] with depth begun ends
    rw [bind_ok (begun.trans (of_ok ran)), ends, of, of, goes]
  | error e m' =>
    have stops : (x >>= g) m = .error e m' := Exec.bind_of_error ran
    rw [Exec.after, ran] at kept
    refine ⟨?_, by rw [Exec.after, stops]; exact kept⟩
    filter_upwards [same] with depth begun
    rw [bind_error (begun.trans (of_error ran)), of_error stops]

theorem lookup_ends (name : Name) :
    Ends calls (fun _ => of (Exec.lookup name)) (Exec.lookup name) := by
  refine ends_of fun m => ?_
  have alike := Exec.lookup_alike (c := .executing m.procedures m.calls fun _ => True) name
  exact (alike m ⟨rfl, rfl⟩).2.leads_after.calls

theorem procedure_ends (name : Name) (inputs : Nat) :
    Ends calls (fun _ => of (Exec.procedure name inputs)) (Exec.procedure name inputs) := by
  refine ends_of fun m => ?_
  have alike : (Contract.executing m.procedures m.calls fun _ => True).Alike
      (Exec.procedure name inputs) (Exec.procedure name inputs) := by
    unfold Exec.procedure
    refine .get_bind fun m _ => ?_
    split
    · exact .throw fun _ => trivial
    · split
      · exact .throw fun _ => trivial
      · exact .pure _
  exact (alike m ⟨rfl, rfl⟩).2.leads_after.calls

theorem prompt_ends (name : Name) :
    Ends calls (fun _ => of (Exec.prompt name)) (Exec.prompt name) := by
  refine ends_of fun m => ?_
  have alike := Exec.prompt_alike (c := .executing m.procedures m.calls fun _ => True)
    Contract.executing_permits name
  exact (alike m ⟨rfl, rfl⟩).2.leads_after.calls

/-- Wherever there is room for one more procedure, its body ends. -/
def BodiesEnd (calls : Nat) : Prop :=
  calls < maxDepth → ∀ p : Entry,
    Ends (calls + 1) (fun depth => (rules depth).block .done p.body)
      (runBlock Procedure.run .done p.body)

theorem within_ends {name : String} {p : Entry} {inputs : List Int32} (inner : BodiesEnd calls) :
    Ends calls
      (fun depth m =>
        if maxDepth ≤ m.calls then some (.error (.stackOverflow name), m)
        else do
          let (result, m') ← (rules depth).block .done p.body (m.enter (p.locals inputs))
          return (result, m'.leave))
      (Procedure.run name p inputs) := by
  rintro m rfl
  rw [Procedure.run_eq]
  by_cases full : maxDepth ≤ m.calls
  · have refused : Exec.within name (p.locals inputs) (runBlock Procedure.run .done p.body) m =
        .error (.stackOverflow name) m := Exec.within_full full
    simp only [if_pos full, of_error refused, Exec.after, refused, eventually_const, and_self]
  · obtain ⟨same, kept⟩ := inner (Nat.lt_of_not_le full) p (m.enter (p.locals inputs)) rfl
    rw [Exec.after, of, Exec.within_room full, Exec.withScope]
    rw [Exec.after] at kept
    rw [of] at same
    cases ran : runBlock Procedure.run .done p.body (m.enter (p.locals inputs)) with
    | ok a m' =>
      rw [ran] at kept same
      refine ⟨?_, congrArg (· - 1) kept⟩
      filter_upwards [same] with depth goes
      rw [if_neg full, goes]
      rfl
    | error e m' =>
      rw [ran] at kept same
      refine ⟨?_, congrArg (· - 1) kept⟩
      filter_upwards [same] with depth goes
      rw [if_neg full, goes]
      rfl

/-! ### Expressions and conditions -/

mutual

theorem factor_ends (inner : BodiesEnd calls) : (f : Factor) →
    Ends calls (fun depth => (rules depth).factor f) (f.eval Procedure.run)
  | .number n => by
    rw [Factor.eval]
    exact .of_succ (ends_pure _)
  | .variable name => by
    rw [Factor.eval]
    exact .of_succ (lookup_ends name)
  | .call c => by
    rw [Factor.eval]
    refine .of_succ ((call_ends inner c).bind fun outcome => ?_)
    cases outcome.value? with
    | some value => exact ends_pure value
    | none => exact ends_throw _
  | .grouped e => by
    rw [Factor.eval]
    exact .of_succ (expr_ends inner e)

theorem call_ends (inner : BodiesEnd calls) : (c : Call) →
    Ends calls (fun depth => (rules depth).call c) (c.run Procedure.run)
  | .reporter what => by
    rw [Call.run]
    exact .of_succ fun _ running => ⟨.of_forall fun _ => rfl, running⟩
  | .procedure name arguments => by
    rw [Call.run]
    exact .of_succ ((procedure_ends name arguments.length).bind fun _ =>
      (exprs_ends inner arguments).bind fun _ => within_ends inner)

theorem exprs_ends (inner : BodiesEnd calls) : (es : List Expr) →
    Ends calls (fun depth => (rules depth).exprs es) (evalAll Procedure.run es)
  | [] => by
    rw [evalAll]
    exact .of_succ (ends_pure [])
  | e :: es => by
    rw [evalAll]
    exact .of_succ ((expr_ends inner e).bind fun _ =>
      (exprs_ends inner es).bind fun _ => ends_pure _)

theorem term_ends (inner : BodiesEnd calls) : (t : Term) →
    Ends calls (fun depth => (rules depth).term t) (t.eval Procedure.run)
  | .single f => by
    rw [Term.eval]
    exact .of_succ (factor_ends inner f)
  | .chain f op rest => by
    rw [Term.eval]
    refine .of_succ ((factor_ends inner f).bind fun left =>
      (term_ends inner rest).bind fun right => ?_)
    cases op.apply left right with
    | ok value => exact ends_pure value
    | error e => exact ends_throw e

theorem expr_ends (inner : BodiesEnd calls) : (e : Expr) →
    Ends calls (fun depth => (rules depth).expr e) (e.eval Procedure.run)
  | .single negated t => by
    rw [Expr.eval]
    exact .of_succ ((term_ends inner t).bind fun _ => ends_pure _)
  | .chain negated t op rest => by
    rw [Expr.eval]
    exact .of_succ ((term_ends inner t).bind fun _ =>
      (expr_ends inner rest).bind fun _ => ends_pure _)

end

mutual

theorem clause_ends (inner : BodiesEnd calls) : (c : Clause) →
    Ends calls (fun depth => (rules depth).clause c) (c.eval Procedure.run)
  | .constant value => by
    rw [Clause.eval]
    exact .of_succ (ends_pure value)
  | .negation c => by
    rw [Clause.eval]
    exact .of_succ ((condition_ends inner c).bind fun _ => ends_pure _)
  | .braced c => by
    rw [Clause.eval]
    exact .of_succ (condition_ends inner c)
  | .compared left op right => by
    rw [Clause.eval]
    exact .of_succ ((expr_ends inner left).bind fun _ =>
      (expr_ends inner right).bind fun _ => ends_pure _)

theorem condition_ends (inner : BodiesEnd calls) : (c : Condition) →
    Ends calls (fun depth => (rules depth).condition c) (c.eval Procedure.run)
  | .single c => by
    rw [Condition.eval]
    exact .of_succ (clause_ends inner c)
  | .chain c op rest => by
    rw [Condition.eval]
    refine .of_succ ((clause_ends inner c).bind fun left => ?_)
    cases op <;> cases left
    case and.false | or.true => exact ends_pure _
    case and.true | or.false => exact condition_ends inner rest
    case xor.false | xor.true => exact (condition_ends inner rest).bind fun _ => ends_pure _

end

/-! ### Commands -/

theorem command_ends (inner : BodiesEnd calls) (c : Command) :
    Ends calls (fun depth => (rules depth).command c) (c.run Procedure.run) := by
  refine .of_succ ?_
  cases c <;> rw [Command.run]
  case forward e | back e | right e | left e | setHeading e | printNumber e | make e =>
    exact (expr_ends inner e).bind fun _ => ends_modify fun _ => rfl
  case moveBy a b | moveTo a b =>
    exact (expr_ends inner a).bind fun _ => (expr_ends inner b).bind fun _ =>
      ends_modify fun _ => rfl
  case setColor a b c =>
    exact (expr_ends inner a).bind fun _ => (expr_ends inner b).bind fun _ =>
      (expr_ends inner c).bind fun _ => ends_modify fun _ => rfl
  case home | clearScreen | penUp | penDown | printText => exact ends_modify fun _ => rfl
  case scan reach target => exact (prompt_ends target).bind fun _ => ends_modify fun _ => rfl
  case sleep e =>
    refine (expr_ends inner e).bind fun ms => ?_
    by_cases negative : ms < 0
    · simp only [if_pos negative]
      exact ends_throw _
    · simp only [if_neg negative]
      exact ends_modify fun _ => rfl

/-! ### Loops -/

/-- Counting on wraps around only after the largest number, which no count exceeds. -/
theorem counter_succ {counter limit : Int32} (below : counter < limit) :
    (counter + 1).toInt = counter.toInt + 1 := by
  have := limit.toInt_lt
  have := counter.le_toInt
  have := Int32.lt_iff_toInt_lt.1 below
  rw [Int32.toInt_add]
  exact Int.bmod_eq_of_le (by rw [Int32.toInt_one]; omega) (by rw [Int32.toInt_one]; omega)

/-- A loop ends, however its count changes: a counter that is below some count is below the largest
number, so that it comes closer to it with each round. -/
theorem loop_ends {count : Expr} {body : List Statement}
    (e : Ends calls (fun depth => (rules depth).expr count) (count.eval Procedure.run))
    (b : Ends calls (fun depth => (rules depth).block .done body)
      (runBlock Procedure.run .done body))
    {counter : Int32} {done : Nat} (counted : counter.toInt = done) (last : Outcome) :
    Ends calls (fun depth => (rules depth).loop count body counter last)
      (loopFrom (count.eval Procedure.run) (runBlock Procedure.run .done body) done last) := by
  induction left : 2147483648 - done using Nat.strongRecOn generalizing counter done last with
  | ind n ih =>
    rw [loopFrom]
    refine .of_succ (e.bind fun limit => ?_)
    by_cases below : counter < limit
    · have more : (done : Int) < limit.toInt := counted ▸ Int32.lt_iff_toInt_lt.1 below
      simp only [if_pos below, dif_pos more]
      refine b.bind fun outcome => ?_
      cases outcome.isOutput with
      | true => exact ends_pure outcome
      | false =>
        have := limit.toInt_lt
        refine ih (2147483648 - (done + 1)) (by omega) ?_ outcome rfl
        rw [counter_succ below, counted]
        rfl
    · have enough : ¬ (done : Int) < limit.toInt :=
        fun more => below (Int32.lt_iff_toInt_lt.2 (counted ▸ more))
      simp only [if_neg below, dif_neg enough]
      exact ends_pure last

/-! ### Statements and procedures -/

mutual

theorem statement_ends (inner : BodiesEnd calls) : (s : Statement) →
    Ends calls (fun depth => (rules depth).statement s) (s.run Procedure.run)
  | .command c => by
    rw [Statement.run]
    exact .of_succ ((command_ends inner c).bind fun _ => ends_pure _)
  | .call c => by
    rw [Statement.run]
    exact .of_succ (call_ends inner c)
  | .output value => by
    rw [Statement.run]
    exact .of_succ ((expr_ends inner value).bind fun _ => ends_pure _)
  | .ifTrue c body => by
    rw [Statement.run]
    refine .of_succ ((condition_ends inner c).bind fun holds => ?_)
    cases holds with
    | true => exact block_ends inner .done body
    | false => exact ends_pure _
  | .loop count body => by
    rw [Statement.run]
    refine .of_succ ?_
    cases body with
    | nil => exact ends_pure _
    | cons s rest => exact loop_ends (expr_ends inner count) (block_ends inner .done _) rfl .done

theorem block_ends (inner : BodiesEnd calls) (last : Outcome) : (ss : List Statement) →
    Ends calls (fun depth => (rules depth).block last ss) (runBlock Procedure.run last ss)
  | [] => by
    rw [runBlock]
    exact .of_succ (ends_pure last)
  | s :: rest => by
    rw [runBlock]
    refine .of_succ ((statement_ends inner s).bind fun outcome => ?_)
    cases outcome.isOutput with
    | true => exact ends_pure outcome
    | false => exact block_ends inner outcome rest

end

/-- All procedures end, since each call leaves room for one less. -/
theorem bodies_end (calls : Nat) : BodiesEnd calls := by
  induction left : maxDepth - calls generalizing calls with
  | zero =>
    intro room
    omega
  | succ n ih => exact fun _ p => block_ends (ih (calls + 1) (by omega)) .done p.body

theorem item_ends (part : Item) : Ends calls (fun depth => item depth part) part.run := by
  cases part with
  | definition p =>
    exact (ends_modify (f := (·.define p)) fun _ => rfl).bind fun _ => ends_pure Outcome.done
  | statement s => exact statement_ends (bodies_end calls) s

theorem program_ends (parts : Program) :
    Ends calls (fun depth => program depth parts) parts.run := by
  induction parts with
  | nil => exact ends_pure ()
  | cons part parts ih =>
    exact ((item_ends part).bind fun _ => ends_pure ()).bind fun _ => ih

end Attempt

/-! ## Submitting -/

theorem Machine.attempt_eventually (m : Machine) (text : String) :
    ∀ᶠ depth in atTop, m.attempt depth text = some (m.submit text) := by
  rw [submit, read_eq]
  cases parsed : (parse m.procedures text).result with
  | error e =>
    filter_upwards [Search.parse_eventually m.procedures text] with depth read
    rw [attempt, read, Option.bind_eq_bind, Option.bind_some]
    simp only [parsed]
    rfl
  | ok program =>
    obtain ⟨ends, -⟩ := Attempt.program_ends program (m.accept (parse m.procedures text)) rfl
    filter_upwards [Search.parse_eventually m.procedures text, ends] with depth read goes
    rw [attempt, read, Option.bind_eq_bind, Option.bind_some]
    simp only [parsed, goes]
    cases ran : program.run (m.accept (parse m.procedures text)) with
    | ok _ m' =>
      rw [Attempt.of_ok ran]
      rfl
    | error e m' =>
      rw [Attempt.of_error ran]
      rfl

/-- `Rounds count body m n counter last m'`: one execution of a loop, which began in `m`, has run its
body `n` times, and none of them met an `output`. Its counter, a number of 32 bits, stands at
`counter` then, the body has ended as `last`, and the machine is `m'`. -/
inductive Rounds (count : Exec Int32) (body : Exec Outcome) (m : Machine) :
    Nat → Int32 → Outcome → Machine → Prop
  | start : Rounds count body m 0 0 .done m
  | next {n : Nat} {counter limit : Int32} {last outcome : Outcome} {m₁ m₂ m₃ : Machine} :
      Rounds count body m n counter last m₁ → count m₁ = .ok limit m₂ → counter < limit →
      body m₂ = .ok outcome m₃ → outcome.isOutput = false →
      Rounds count body m (n + 1) (counter + 1) outcome m₃

/-- After `n` rounds the counter of a loop stands at `n`, and the loop goes on from there. -/
theorem Rounds.counted {count : Exec Int32} {body : Exec Outcome} {m m' : Machine} {n : Nat}
    {counter : Int32} {last : Outcome} (rounds : Rounds count body m n counter last m') :
    counter.toInt = n ∧ loopFrom count body 0 .done m = loopFrom count body n last m' := by
  induction rounds with
  | start => exact ⟨rfl, rfl⟩
  | next _ counts below ran goes ih =>
    obtain ⟨stands, same⟩ := ih
    refine ⟨by rw [Attempt.counter_succ below, stands]; rfl, same.trans ?_⟩
    have more := stands ▸ Int32.lt_iff_toInt_lt.1 below
    rw [loopFrom, Exec.bind_of_ok counts, dif_pos more, Exec.bind_of_ok ran]
    simp only [goes]
    rfl

/-- Every submission ends, in whatever state it finds the machine: if the rules may go deep enough
into each other, lexing, parsing and running a text give what `Machine.submit` gives. And a loop
runs its body fewer than `2 ^ 31` times: the counter that it compares with the count stands at the
number of its rounds, and counting one more of them never wraps around. -/
theorem submit_ends :
    (∀ (m : Machine) (text : String), ∃ enough, ∀ depth, enough ≤ depth →
      m.attempt depth text = some (m.submit text)) ∧
    ∀ {count : Exec Int32} {body : Exec Outcome} {m m' : Machine} {n : Nat} {counter : Int32}
      {last : Outcome}, Rounds count body m n counter last m' →
      loopFrom count body 0 .done m = loopFrom count body n last m' ∧
      counter.toInt = n ∧
      ∀ {limit : Int32} {m'' : Machine}, count m' = .ok limit m'' → counter < limit →
        n + 1 ≤ 2 ^ 31 - 1 ∧ (counter + 1).toInt = counter.toInt + 1 := by
  refine ⟨fun m text => eventually_atTop.1 (m.attempt_eventually text), fun rounds => ?_⟩
  obtain ⟨stands, goes⟩ := rounds.counted
  refine ⟨goes, stands, fun {limit _} _ below => ⟨?_, Attempt.counter_succ below⟩⟩
  have := limit.toInt_lt
  have := Int32.lt_iff_toInt_lt.1 below
  omega

/-- After its first round, `repeat 2 [pu]` goes on to a second one. -/
theorem submit_ends_repeat :
    ∃ m', Rounds ((Expr.single false (.single (.number 2))).eval Procedure.run)
        (runBlock Procedure.run .done [.command .penUp]) (.initial (.scripted [])) 1 1 .done m' ∧
      1 + 1 ≤ 2 ^ 31 - 1 ∧ (1 + 1 : Int32).toInt = 2 := by
  have count (m : Machine) :
      (Expr.single false (.single (.number 2))).eval Procedure.run m = .ok 2 m := rfl
  have body (m : Machine) :
      runBlock Procedure.run .done [.command .penUp] m = .ok .done (m.setPen false) := rfl
  have first := Rounds.next .start (count (.initial (.scripted []))) (by decide) (body _) rfl
  exact ⟨_, first, (submit_ends.2 first).2.2 (count _) (by decide)⟩

end Logo
