import Mathlib
import Logo.Proofs.Steps
import Logo.Proofs.Writing

/-!
# What is read is what was written

A text that can be parsed is a writing of the program that comes of it: nothing of the text is lost,
and nothing comes from elsewhere. This is shown for one rule of the grammar after the other. What a
rule says is put together from steps, so what it takes is put together from what they take.

Results:
1. `Reader.Yields.andThen`, `Reader.Yields.branch`: what the steps take.
2. `expr_yields`, `condition_yields`, `statement_yields`, `block_yields`, `body_yields`: what the
   rules take writes what they give.
3. `reads_written`: what is read part by part is written part by part.
4. `parse_sound`: so it is for whole texts.
-/

namespace Logo

/-! ## Steps -/

namespace Reader

variable {α β : Type} {n : Nat} {P Q : α → List Token → Prop}

/-- From fewer than `n` tokens, a success takes some first tokens that are related to what it
gives. -/
def Yields (n : Nat) (Q : α → List Token → Prop) (r : Reader α) : Prop :=
  ∀ ⦃ts : List Token⦄ ⦃a : α⦄ ⦃rest : List Token⦄, ts.length < n → r ts = .ok (a, rest) →
    ∃ taken, ts = taken ++ rest ∧ Q a taken

theorem yields_zero {r : Reader α} : Yields 0 Q r :=
  fun _ _ _ short => absurd short (Nat.not_lt_zero _)

theorem yields_give {a : α} (given : Q a []) : Yields n Q (give a) := by
  intro ts a rest _ read
  cases read
  exact ⟨[], rfl, given⟩

theorem yields_fail (why : Option Lexeme → Failure.Cause) : Yields n Q (fail why) :=
  fun _ _ _ _ read => nomatch read

namespace Yields

theorem mono {m : Nat} {r : Reader α} (yields : Yields n Q r) (le : m ≤ n) : Yields m Q r :=
  fun _ _ _ short => yields (Nat.lt_of_lt_of_le short le)

theorem imp {r : Reader α} (yields : Yields n P r) (weaker : ∀ a taken, P a taken → Q a taken) :
    Yields n Q r := by
  intro ts a rest short read
  obtain ⟨taken, rfl, related⟩ := yields short read
  exact ⟨taken, rfl, weaker a taken related⟩

theorem andThen {Q : β → List Token → Prop} {r : Reader α} {more : α → Reader β}
    (first : Yields n P r)
    (second : ∀ a taken, P a taken → Yields n (fun b taken' => Q b (taken ++ taken')) (more a)) :
    Yields n Q (r.andThen more) := by
  intro ts b rest short read
  obtain ⟨a, between, begun, goes⟩ := andThen_eq_ok.1 read
  obtain ⟨taken, rfl, related⟩ := first short begun
  rw [List.length_append] at short
  obtain ⟨taken', rfl, related'⟩ := second a taken related (by omega) goes
  exact ⟨taken ++ taken', (List.append_assoc ..).symm, related'⟩

/-- What goes on after a reader that takes a token has one token less. -/
theorem andThen_takes {Q : β → List Token → Prop} {r : Reader α} {more : α → Reader β}
    (first : Yields (n + 1) P r) (takes : r.Takes)
    (second : ∀ a taken, P a taken → Yields n (fun b taken' => Q b (taken ++ taken')) (more a)) :
    Yields (n + 1) Q (r.andThen more) := by
  intro ts b rest short read
  obtain ⟨a, between, begun, goes⟩ := andThen_eq_ok.1 read
  have fewer : between.length < n := Nat.lt_of_lt_of_le (takes begun) (Nat.le_of_lt_succ short)
  obtain ⟨taken, rfl, related⟩ := first short begun
  obtain ⟨taken', rfl, related'⟩ := second a taken related fewer goes
  exact ⟨taken ++ taken', (List.append_assoc ..).symm, related'⟩

theorem map {Q : β → List Token → Prop} {r : Reader α} {f : α → β} (first : Yields n P r)
    (made : ∀ a taken, P a taken → Q (f a) taken) :
    Yields n Q (r.andThen fun a => give (f a)) := by
  refine first.andThen fun a taken related => yields_give ?_
  rw [List.append_nil]
  exact made a taken related

theorem branch {choose : Token → Option (Reader α)} {otherwise : Reader α}
    (chosen : ∀ t r, choose t = some r → Yields n (fun a taken => Q a (t :: taken)) r)
    (other : Yields (n + 1) Q otherwise) : Yields (n + 1) Q (branch choose otherwise) := by
  intro ts a rest short read
  cases ts with
  | nil => exact other short read
  | cons t ts =>
    cases choice : choose t with
    | none =>
      rw [branch_none choice] at read
      exact other short read
    | some r =>
      rw [branch_some choice] at read
      obtain ⟨taken, rfl, related⟩ := chosen t r choice (Nat.lt_of_succ_lt_succ short) read
      exact ⟨t :: taken, rfl, related⟩

theorem refuse {why : Option Lexeme → Option Failure.Cause} {r : Reader α} (yields : Yields n Q r) :
    Yields n Q (refuse why r) := by
  intro ts a rest short read
  unfold Reader.refuse at read
  split at read
  · cases read
  · exact yields short read

end Yields

end Reader

/-! ## Marks that fit -/

/-- The tokens write the marks, and the names fit. -/
structure Spells (sig : Signature) (marks : List Mark) (ts : List Token) : Prop where
  written : Written marks ts
  fits : ∀ mark ∈ marks, mark.Fits sig

namespace Spells

variable {sig : Signature} {marks marks' : List Mark} {ts ts' : List Token}

theorem nil : Spells sig [] [] := ⟨.nil, fun _ among => nomatch among⟩

theorem cons {mark : Mark} (stands : mark.Stands ts) (fits : mark.Fits sig)
    (rest : Spells sig marks ts') : Spells sig (mark :: marks) (ts ++ ts') :=
  ⟨.cons stands rest.written, List.forall_mem_cons.2 ⟨fits, rest.fits⟩⟩

theorem lexeme {l : Lexeme} {p : Position} (rest : Spells sig marks ts) :
    Spells sig (.lexeme l :: marks) (⟨l, p⟩ :: ts) :=
  cons .lexeme trivial rest

theorem single {mark : Mark} (stands : mark.Stands ts) (fits : mark.Fits sig) :
    Spells sig [mark] ts :=
  ⟨.single stands, fun _ among => List.mem_singleton.1 among ▸ fits⟩

theorem append (first : Spells sig marks ts) (second : Spells sig marks' ts') :
    Spells sig (marks ++ marks') (ts ++ ts') :=
  ⟨first.written.append second.written, List.forall_mem_append.2 ⟨first.fits, second.fits⟩⟩

end Spells

namespace Grammar

open Reader

variable {sig : Signature} {n : Nat}

theorem missing_yields {α : Type} {Q : α → List Token → Prop} (what : Expectation) :
    Yields n Q (missing what) := by
  rw [missing_eq]
  exact yields_fail _

theorem expect_yields (l : Lexeme) (what : Expectation) :
    Yields n (fun _ taken => ∃ p, taken = [⟨l, p⟩]) (expect l what) := by
  rw [expect_steps]
  refine (Yields.branch (fun t r choice => ?_) (missing_yields what)).mono n.le_succ
  split at choice
  · next same =>
    cases choice
    exact yields_give ⟨t.position, same ▸ rfl⟩
  · cases choice

/-- What stands between two lexemes is written between them. -/
theorem enclosed_yields {α β : Type} {marks : α → List Mark} {r : Reader α} {f : α → β}
    {l : Lexeme} {what : Expectation} (inner : Yields n (fun a taken => Spells sig (marks a) taken) r) :
    Yields n (fun b taken => ∃ a, b = f a ∧ Spells sig (marks a ++ [.lexeme l]) taken)
      (r.andThen fun a => (expect l what).andThen fun _ => give (f a)) := by
  refine inner.andThen fun a taken spells => ?_
  refine (expect_yields l what).map fun _ taken' ⟨p, close⟩ => ⟨a, rfl, ?_⟩
  exact spells.append (close ▸ .lexeme .nil)

/-! ## Expressions -/

section

variable (e : Yields n (fun e taken => Spells sig e.marks taken) (expr sig))

include e

theorem argumentsWith_yields (arity : Nat) :
    Yields n (fun es taken => es.length = arity ∧ Spells sig (marksOfAll es) taken)
      (argumentsWith (expr sig) arity) := by
  induction arity with
  | zero => exact yields_give ⟨rfl, .nil⟩
  | succ arity ih =>
    rw [argumentsWith_succ]
    refine e.andThen fun first taken spells => ih.map fun es taken' ⟨count, spells'⟩ => ?_
    exact ⟨congrArg (· + 1) count, spells.append spells'⟩

/-- A call that a lexeme makes is written with that lexeme and the inputs. -/
theorem call_yields {l : Lexeme} {callee : Callee} (called : callee? sig l = some callee)
    (p : Position) :
    Yields n (fun c taken => Spells sig c.marks (⟨l, p⟩ :: taken)) (call sig callee p) := by
  cases l with
  | keyword k => cases k <;> cases called <;> exact yields_give (.lexeme .nil)
  | word name =>
    obtain ⟨arity, known, rfl⟩ := Option.map_eq_some_iff.1 called
    rw [call_procedure]
    refine (argumentsWith_yields e arity).map fun es taken ⟨count, spells⟩ => ?_
    exact .cons .callee (known.trans (congrArg some count.symm)) spells
  | _ => cases called

theorem factor_yields :
    Yields (n + 1) (fun f taken => Spells sig f.marks taken) (factor sig) := by
  rw [factor_steps]
  refine .branch (fun ⟨l, p⟩ r choice => ?_) (missing_yields _)
  unfold factorAt at choice
  split at choice
  · next callee called =>
    cases choice
    exact (call_yields e called p).map fun c taken spells => spells
  · next called =>
    cases l with
    | number value =>
      cases choice
      exact yields_give (.lexeme .nil)
    | word w =>
      cases choice
      exact yields_give (.single .variable (Option.map_eq_none_iff.1 called))
    | parenOpen =>
      cases choice
      refine (enclosed_yields e).imp fun f taken ⟨inner, made, spells⟩ => ?_
      exact made ▸ .lexeme spells
    | _ => cases choice

end

theorem term_yields (f : Yields (n + 1) (fun f taken => Spells sig f.marks taken) (factor sig))
    (t : Yields n (fun t taken => Spells sig t.marks taken) (term sig)) :
    Yields (n + 1) (fun t taken => Spells sig t.marks taken) (term sig) := by
  rw [term_steps]
  refine f.andThen fun first taken spells => .branch (fun ⟨l, p⟩ r choice => ?_) ?_
  · cases l with
    | mulOp op =>
      cases choice
      exact t.map fun rest taken' spells' => spells.append (.lexeme spells')
    | _ => cases choice
  · exact yields_give (by rw [List.append_nil]; exact spells)

/-- A sum is written with its sign, and goes on after it. -/
theorem sum_yields (t : Yields (n + 1) (fun t taken => Spells sig t.marks taken) (term sig))
    (e : Yields n (fun e taken => Spells sig e.marks taken) (expr sig)) {negated : Bool}
    {sign : List Token} (stands : (Mark.sign negated).Stands sign) :
    Yields (n + 1) (fun e taken => Spells sig e.marks (sign ++ taken)) (sum sig negated) := by
  rw [sum_steps]
  refine t.andThen fun first taken spells => .branch (fun ⟨l, p⟩ r choice => ?_) ?_
  · cases l with
    | addOp op =>
      cases choice
      exact e.map fun rest taken' spells' =>
        .cons stands trivial (spells.append (.lexeme spells'))
    | _ => cases choice
  · exact yields_give (.cons stands trivial (by rw [List.append_nil]; exact spells))

theorem expr_step (t : Yields (n + 1) (fun t taken => Spells sig t.marks taken) (term sig))
    (e : Yields n (fun e taken => Spells sig e.marks taken) (expr sig)) :
    Yields (n + 1) (fun e taken => Spells sig e.marks taken) (expr sig) := by
  rw [expr_steps]
  refine .branch (fun ⟨l, p⟩ r choice => ?_) (sum_yields t e Mark.Stands.unsigned)
  cases l with
  | addOp op =>
    cases choice
    cases op with
    | plus => exact (sum_yields t e (.plus (p := p))).mono n.le_succ
    | minus => exact (sum_yields t e (.minus (p := p))).mono n.le_succ
  | _ => cases choice

/-- An expression is written with the tokens that it was read from. -/
theorem expr_yields (sig : Signature) (n : Nat) :
    Yields n (fun e taken => Spells sig e.marks taken) (expr sig) := by
  suffices both : Yields n (fun t taken => Spells sig t.marks taken) (term sig) ∧
      Yields n (fun e taken => Spells sig e.marks taken) (expr sig) from both.2
  induction n with
  | zero => exact ⟨yields_zero, yields_zero⟩
  | succ n ih =>
    have t := term_yields (factor_yields ih.2) ih.1
    exact ⟨t, expr_step t ih.2⟩

/-! ## Conditions -/

theorem comparison_yields (sig : Signature) (n : Nat) :
    Yields (n + 1) (fun c taken => Spells sig c.marks taken) (comparison sig) := by
  rw [comparison_steps]
  refine (expr_yields sig (n + 1)).andThen fun left taken spells =>
    .branch (fun ⟨l, p⟩ r choice => ?_) (missing_yields _)
  cases l with
  | comparison op =>
    cases choice
    exact (expr_yields sig n).map fun right taken' spells' => spells.append (.lexeme spells')
  | _ => cases choice

theorem clause_yields (c : Yields n (fun c taken => Spells sig c.marks taken) (condition sig)) :
    Yields (n + 1) (fun c taken => Spells sig c.marks taken) (clause sig) := by
  rw [clause_steps]
  refine .branch (fun ⟨l, p⟩ r choice => ?_) (comparison_yields sig n)
  cases l with
  | keyword k =>
    cases k with
    | truth | falsehood =>
      cases choice
      exact yields_give (.lexeme .nil)
    | not =>
      cases choice
      exact c.map fun inner taken spells => .lexeme spells
    | _ => cases choice
  | braceOpen =>
    cases choice
    refine (enclosed_yields c).imp fun clause taken ⟨inner, made, spells⟩ => ?_
    exact made ▸ .lexeme spells
  | _ => cases choice

theorem connective?_eq_some {l : Lexeme} {op : Connective} (joins : connective? l = some op) :
    l = .keyword op.keyword := by
  unfold connective? at joins
  split at joins <;> cases joins <;> rfl

/-- A condition is written with the tokens that it was read from. -/
theorem condition_yields (sig : Signature) (n : Nat) :
    Yields n (fun c taken => Spells sig c.marks taken) (condition sig) := by
  induction n with
  | zero => exact yields_zero
  | succ n ih =>
    rw [condition_steps]
    refine (clause_yields ih).andThen fun first taken spells =>
      .branch (fun ⟨l, p⟩ r choice => ?_) (yields_give (by rw [List.append_nil]; exact spells))
    obtain ⟨op, joins, rfl⟩ := Option.map_eq_some_iff.1 choice
    obtain rfl := connective?_eq_some joins
    exact ih.map fun rest taken' spells' => spells.append (.lexeme spells')

/-! ## Statements -/

theorem target_yields (sig : Signature) (n : Nat) :
    Yields n (fun name taken => Spells sig [.target name] taken) (target sig) := by
  rw [target_steps]
  refine (Yields.branch (fun ⟨l, p⟩ r choice => ?_) (yields_fail _)).mono n.le_succ
  cases l with
  | word name | quoted name =>
    simp only [targetAt] at choice
    split at choice
    · cases choice
    · next unbound =>
      cases choice
      have free : sig name = none := Option.not_isSome_iff_eq_none.1 unbound
      first
      | exact yields_give (.single .word free)
      | exact yields_give (.single .quoted free)
  | _ => cases choice

theorem operand_yields {α : Type} (make : Expr → α) :
    Yields n (fun a taken => ∃ e, a = make e ∧ Spells sig (marksOfAll [e]) taken)
      (operand sig make) := by
  rw [operand_eq]
  refine (expr_yields sig n).map fun e taken spells => ⟨e, rfl, ?_⟩
  rw [marksOfAll, marksOfAll, List.append_nil]
  exact spells

theorem operands₂_yields {α : Type} (make : Expr → Expr → α) :
    Yields n (fun a taken => ∃ e e', a = make e e' ∧ Spells sig (marksOfAll [e, e']) taken)
      (operands₂ sig make) := by
  rw [operands₂_eq]
  refine (expr_yields sig n).andThen fun e taken spells => ?_
  refine (operand_yields (make e)).imp fun a taken' ⟨e', made, spells'⟩ => ?_
  exact ⟨e, e', made, spells.append spells'⟩

theorem operands₃_yields {α : Type} (make : Expr → Expr → Expr → α) :
    Yields n
      (fun a taken => ∃ e e' e'', a = make e e' e'' ∧ Spells sig (marksOfAll [e, e', e'']) taken)
      (operands₃ sig make) := by
  rw [operands₃_eq]
  refine (expr_yields sig n).andThen fun e taken spells => ?_
  refine (operands₂_yields (make e)).imp fun a taken' ⟨e', e'', made, spells'⟩ => ?_
  exact ⟨e, e', e'', made, spells.append spells'⟩

theorem scan_yields (reach : Reach) :
    Yields n (fun c taken => ∃ target, c = .scan reach target ∧ Spells sig [.target target] taken)
      (scan sig reach) := by
  rw [scan_eq]
  exact (target_yields sig n).map fun target taken spells => ⟨target, rfl, spells⟩

theorem make_yields (reach : Reach) :
    Yields n (fun c taken => ∃ target value, c = .make reach target value ∧
      Spells sig (.target target :: marksOfAll [value]) taken) (make sig reach) := by
  rw [make_eq]
  refine (target_yields sig n).andThen fun target taken spells => ?_
  refine (operand_yields (Command.make reach target)).imp fun c taken' ⟨value, made, spells'⟩ => ?_
  exact ⟨target, value, made, spells.append spells'⟩

theorem localTo_yields (sig : Signature) (n : Nat) {p : Position} :
    Yields (n + 1) (fun c taken => Spells sig c.marks (⟨.keyword .localTo, p⟩ :: taken))
      (localTo sig) := by
  rw [localTo_steps]
  refine .branch (fun ⟨l, p⟩ r choice => ?_) (missing_yields _)
  cases l with
  | keyword k =>
    cases k with
    | make =>
      cases choice
      refine (make_yields .own).imp fun c taken ⟨target, value, made, spells⟩ => ?_
      exact made ▸ .lexeme (.lexeme spells)
    | scan =>
      cases choice
      refine (scan_yields .own).imp fun c taken ⟨target, made, spells⟩ => ?_
      exact made ▸ .lexeme (.lexeme spells)
    | _ => cases choice
  | _ => cases choice

theorem print_yields (sig : Signature) (n : Nat) {p : Position} :
    Yields (n + 1) (fun c taken => Spells sig c.marks (⟨.keyword .print, p⟩ :: taken))
      (print sig) := by
  rw [print_steps]
  refine .branch (fun ⟨l, p⟩ r choice => ?_) ?_
  · cases l with
    | quoted text =>
      cases choice
      exact yields_give (.lexeme (.lexeme .nil))
    | _ => cases choice
  · refine (operand_yields Command.printNumber).imp fun c taken ⟨e, made, spells⟩ => ?_
    exact made ▸ .lexeme spells

/-- A command is written with its reserved word and the tokens that it was read from after that. -/
theorem command?_yields {k : Keyword} {r : Reader Command} (begins : command? sig k = some r)
    {p : Position} :
    Yields (n + 1) (fun c taken => Spells sig c.marks (⟨.keyword k, p⟩ :: taken)) r := by
  cases k <;> cases begins
  case forward | back | right | left | head | sleep =>
    refine (operand_yields _).imp fun c taken ⟨e, made, spells⟩ => ?_
    exact made ▸ .lexeme spells
  case move | setXY =>
    refine (operands₂_yields _).imp fun c taken ⟨e, e', made, spells⟩ => ?_
    exact made ▸ .lexeme spells
  case setColor =>
    refine (operands₃_yields _).imp fun c taken ⟨e, e', e'', made, spells⟩ => ?_
    exact made ▸ .lexeme spells
  case home | clearScreen | penUp | penDown => exact yields_give (.lexeme .nil)
  case print => exact print_yields sig n
  case localTo => exact localTo_yields sig n
  case scan =>
    refine (scan_yields .shared).imp fun c taken ⟨target, made, spells⟩ => ?_
    exact made ▸ .lexeme spells
  case make =>
    refine (make_yields .shared).imp fun c taken ⟨target, value, made, spells⟩ => ?_
    exact made ▸ .lexeme spells

section

variable (b : Yields n (fun body taken => Spells sig (blockMarks body .bracketClose) taken)
  (block sig))

include b

theorem bracketed_yields :
    Yields n (fun body taken =>
      Spells sig (.lexeme .bracketOpen :: blockMarks body .bracketClose) taken) (bracketed sig) :=
  (expect_yields _ _).andThen fun _ _ ⟨_, opened⟩ =>
    b.imp fun _ _ spells => opened ▸ .lexeme spells

/-- A statement is written with the tokens that it was read from. -/
theorem statement_yields :
    Yields (n + 1) (fun s taken => Spells sig s.marks taken) (statement sig) := by
  rw [statement_steps]
  refine .branch (fun ⟨l, p⟩ r choice => ?_) (missing_yields _)
  unfold statementAt at choice
  split at choice
  · next callee called =>
    cases choice
    exact (call_yields (expr_yields sig n) called p).map fun c taken spells => spells
  · cases l with
    | keyword k =>
      obtain ⟨rfl, rfl⟩ | ⟨rfl, rfl⟩ | ⟨rfl, rfl⟩ | ⟨command, begins, rfl⟩ :=
        keywordStatement?_cases choice
      · refine (operand_yields Statement.output).imp fun s taken ⟨e, made, spells⟩ => ?_
        rw [marksOfAll, marksOfAll, List.append_nil] at spells
        exact made ▸ .lexeme spells
      · refine (condition_yields sig n).andThen fun c taken spells => ?_
        exact (bracketed_yields b).map fun body taken' spells' => .lexeme (spells.append spells')
      · refine (expr_yields sig n).andThen fun count taken spells => ?_
        exact (bracketed_yields b).map fun body taken' spells' => .lexeme (spells.append spells')
      · exact ((command?_yields begins).mono n.le_succ).map fun c taken spells => spells
    | _ => cases choice

end

/-- A block is written with the tokens that it was read from. -/
theorem block_yields (sig : Signature) (n : Nat) :
    Yields n (fun body taken => Spells sig (blockMarks body .bracketClose) taken) (block sig) := by
  induction n with
  | zero => exact yields_zero
  | succ n ih =>
    rw [block_steps]
    refine .branch (fun t r choice => ?_) (.refuse ?_)
    · unfold closeAt at choice
      split at choice
      · next close =>
        cases choice
        exact yields_give (close ▸ .lexeme .nil)
      · cases choice
    · exact (statement_yields ih).andThen_takes (statement_takes sig) fun s taken spells =>
        ih.map fun rest taken' spells' => spells.append spells'

/-- A body is written with the tokens that it was read from. -/
theorem body_yields (sig : Signature) (outer : String) (n : Nat) :
    Yields n (fun body taken => Spells sig (blockMarks body (.keyword .endDefine)) taken)
      (body sig outer) := by
  induction n with
  | zero => exact yields_zero
  | succ n ih =>
    rw [body_steps]
    refine .branch (fun t r choice => ?_) (.refuse ?_)
    · unfold closeAt at choice
      split at choice
      · next close =>
        cases choice
        exact yields_give (close ▸ .lexeme .nil)
      · cases choice
    · exact (statement_yields (block_yields sig n)).andThen_takes (statement_takes sig)
        fun s taken spells => ih.map fun rest taken' spells' => spells.append spells'

/-! ## Programs -/

/-- Parameters are written as words that mean no procedure. -/
theorem parameters_written (sig : Signature) (name : String) (ts : List Token) :
    ∃ taken, ts = taken ++ (parameters sig name ts).2 ∧
      Written ((parameters sig name ts).1.map (.lexeme ∘ .word)) taken ∧
      ∀ w ∈ (parameters sig name ts).1, w ≠ name ∧ sig w = none := by
  induction ts with
  | nil => exact ⟨[], rfl, .nil, fun _ among => nomatch among⟩
  | cons t ts ih =>
    obtain ⟨l, p⟩ := t
    have none_read : ∃ taken, (⟨l, p⟩ :: ts) = taken ++ (⟨l, p⟩ :: ts) ∧
        Written (([] : List String).map (Mark.lexeme ∘ .word)) taken ∧
        ∀ w ∈ ([] : List String), w ≠ name ∧ sig w = none :=
      ⟨[], rfl, .nil, fun _ among => nomatch among⟩
    cases l with
    | word w =>
      simp only [parameters]
      split
      · exact none_read
      · next new =>
        obtain ⟨taken, split, written, fits⟩ := ih
        rw [not_or, Bool.not_eq_true, Option.isSome_eq_false_iff, Option.isNone_iff_eq_none] at new
        refine ⟨⟨.word w, p⟩ :: taken, congrArg _ split, .cons .lexeme written, ?_⟩
        exact List.forall_mem_cons.2 ⟨new, fits⟩
    | _ => exact none_read

theorem header_written {ts rest : List Token} {h : Header} (read : header sig ts = .ok (h, rest)) :
    ∃ taken, ts = taken ++ rest ∧
      Written (.lexeme (.word h.name) :: h.parameters.map (.lexeme ∘ .word)) taken ∧
      ∀ w ∈ h.parameters, w ≠ h.name ∧ sig w = none := by
  cases ts with
  | nil => cases read
  | cons t ts =>
    obtain ⟨l, p⟩ := t
    cases l with
    | word name =>
      cases read
      obtain ⟨taken, split, written, fits⟩ := parameters_written sig name ts
      exact ⟨⟨.word name, p⟩ :: taken, congrArg _ split, .cons .lexeme written, fits⟩
    | _ => cases read

/-- What is read part by part is written part by part, and its names fit. -/
theorem reads_written {known : Procedures} {ts : List Token} {program : Program}
    (reads : Reads known ts program) : Written program.marks ts ∧ program.Fits known := by
  induction reads with
  | nil => exact ⟨.nil, trivial⟩
  | @definition known p ts rest rest' h body program headed bodied _ ih =>
    obtain ⟨taken, rfl, named, new⟩ := header_written headed
    obtain ⟨taken', rfl, spells⟩ :=
      body_yields (known.announce h).signature h.name (rest.length + 1) (Nat.lt_succ_self _) bodied
    rw [known.signature_announce h body] at spells
    refine ⟨?_, ⟨new, spells.fits⟩, ih.2⟩
    have definition : Written (Item.marks (.definition ⟨h.name, h.parameters, body⟩))
        (⟨.keyword .define, p⟩ :: (taken ++ taken')) :=
      .cons .lexeme (named.append spells.written)
    rw [← List.append_assoc]
    exact definition.append ih.1
  | @statement known ts rest s program stated _ ih =>
    obtain ⟨taken, rfl, spells⟩ :=
      statement_yields (block_yields known.signature _) (Nat.lt_succ_self ts.length) stated
    exact ⟨spells.written.append ih.1, spells.fits, ih.2⟩

end Grammar

/-- A text that can be parsed is a writing of the program that comes of it. Its tokens, up to the end
of the text, are those that the marks of the program stand for, one after the other: the names in
them have the positions that the program records, and only plus signs that belong to no operation are
left out. The names fit where they stand: each call has as many inputs as the procedure takes by the
latest header of its name, in the text or before it, and what is read or set is no procedure. -/
theorem parse_sound {known : Procedures} {text : String} {program : Program}
    (parsed : (parse known text).result = .ok program) :
    (∃ finish, (Scan.ofText text).stop = .endOfText finish) ∧
    Written program.marks (Scan.ofText text).tokens ∧
    program.Fits known := by
  refine ⟨?_, Grammar.reads_written (parse_reads parsed).1⟩
  unfold parse at parsed
  dsimp only at parsed
  split at parsed
  · cases parsed
  · split at parsed
    · next finish stops => exact ⟨finish, stops⟩
    · cases parsed

/-- A plus sign that the program does not record, and a variable between quotes. -/
theorem parse_sound_make :
    let program : Program :=
      [.definition ⟨"f", ["a"], []⟩,
        .statement (.command (.make .shared ⟨"x", ⟨16, 0, 16⟩⟩
          (.single false (.single (.call (.procedure ⟨"f", ⟨20, 0, 20⟩⟩
            [.single false (.single (.number 1))]))))))]
    (∃ finish, (Scan.ofText "to f a end make \"x\" f + 1").stop = .endOfText finish) ∧
    Written program.marks (Scan.ofText "to f a end make \"x\" f + 1").tokens ∧
    program.Fits ∅ :=
  parse_sound (show (parse ∅ "to f a end make \"x\" f + 1").result = _ by cbv)

end Logo
