import Mathlib
import Logo.Proofs.Conditions
import Logo.Proofs.Endings
import Logo.Proofs.Operands

/-!
# Every moment of a run

What is begun at a moment of a run is a `Task`: some part of the text, down to the operands of
products. A `Moment` is a task with the machine in which it is begun and the names of the procedures
that are running then, the innermost first.

Most parts of a task are begun while the same procedures are running (`Task.Begins`). The body of a
procedure is the only one that is not: there one more is running (`Moment.Leads`). So what is running
is known from how a moment is reached, and not from what the machine says.

That no part is missing shows where runs fail: whatever fails because a call is refused is that call,
or has a part that fails so.

Result: `Moment.blames`.
-/

namespace Logo

/-! ## Tasks -/

/-- A part of a text that is evaluated or run. A loop that goes on has been run `k` times, the last
time with the outcome `last`. -/
inductive Task where
  | factor (f : Factor)
  | call (c : Call)
  | inputs (es : List Expr)
  | term (t : Term)
  | expr (e : Expr)
  | clause (c : Clause)
  | condition (c : Condition)
  | statement (s : Statement)
  | block (last : Outcome) (ss : List Statement)
  | turns (count : Expr) (body : List Statement) (k : Nat) (last : Outcome)
  | program (p : Program)

/-- What a task gives. -/
def Task.Value : Task → Type
  | .factor _ | .term _ | .expr _ => Int32
  | .inputs _ => List Int32
  | .clause _ | .condition _ => Bool
  | .call _ | .statement _ | .block _ _ | .turns _ _ _ _ => Outcome
  | .program _ => Unit

/-- Evaluates or runs it. -/
def Task.run : (task : Task) → Exec task.Value
  | .factor f => f.eval Procedure.run
  | .call c => c.run Procedure.run
  | .inputs es => evalAll Procedure.run es
  | .term t => t.eval Procedure.run
  | .expr e => e.eval Procedure.run
  | .clause c => c.eval Procedure.run
  | .condition c => c.eval Procedure.run
  | .statement s => s.run Procedure.run
  | .block last ss => runBlock Procedure.run last ss
  | .turns count body k last =>
    loopFrom (count.eval Procedure.run) (runBlock Procedure.run .done body) k last
  | .program p => p.run

/-- `task.Begins m part m'`: while the task that was begun in `m` is carried out, `part` is begun in
`m'`, and no other procedures are running then. The operands of a command are `inputs`, too. -/
inductive Task.Begins : Task → Machine → Task → Machine → Prop
  | called {c m} : Begins (.factor (.call c)) m (.call c) m
  | grouped {e m} : Begins (.factor (.grouped e)) m (.expr e) m
  | inputs {name arguments p m} : m.procedures[name.text]? = some p →
      p.arity = arguments.length →
      Begins (.call (.procedure name arguments)) m (.inputs arguments) m
  | firstInput {e es m} : Begins (.inputs (e :: es)) m (.expr e) m
  | otherInputs {e es value m m'} : Expr.eval Procedure.run e m = .ok value m' →
      Begins (.inputs (e :: es)) m (.inputs es) m'
  | onlyFactor {f m} : Begins (.term (.single f)) m (.factor f) m
  | firstFactor {f op rest m} : Begins (.term (.chain f op rest)) m (.factor f) m
  | otherFactors {f op rest value m m'} : Factor.eval Procedure.run f m = .ok value m' →
      Begins (.term (.chain f op rest)) m (.term rest) m'
  | onlyTerm {negated t m} : Begins (.expr (.single negated t)) m (.term t) m
  | firstTerm {negated t op rest m} : Begins (.expr (.chain negated t op rest)) m (.term t) m
  | otherTerms {negated t op rest value m m'} : Term.eval Procedure.run t m = .ok value m' →
      Begins (.expr (.chain negated t op rest)) m (.expr rest) m'
  | negation {c m} : Begins (.clause (.negation c)) m (.condition c) m
  | braced {c m} : Begins (.clause (.braced c)) m (.condition c) m
  | leftSide {left op right m} : Begins (.clause (.compared left op right)) m (.expr left) m
  | rightSide {left op right value m m'} : Expr.eval Procedure.run left m = .ok value m' →
      Begins (.clause (.compared left op right)) m (.expr right) m'
  | onlyClause {c m} : Begins (.condition (.single c)) m (.clause c) m
  | firstClause {c op rest m} : Begins (.condition (.chain c op rest)) m (.clause c) m
  | otherClauses {c op rest value m m'} : Clause.eval Procedure.run c m = .ok value m' →
      op.settles value = false → Begins (.condition (.chain c op rest)) m (.condition rest) m'
  | operands {c m} : Begins (.statement (.command c)) m (.inputs c.operands) m
  | callStatement {c m} : Begins (.statement (.call c)) m (.call c) m
  | output {e m} : Begins (.statement (.output e)) m (.expr e) m
  | decision {c body m} : Begins (.statement (.ifTrue c body)) m (.condition c) m
  | taken {c body m m'} : Condition.eval Procedure.run c m = .ok true m' →
      Begins (.statement (.ifTrue c body)) m (.block .done body) m'
  | loop {count body m} : body ≠ [] →
      Begins (.statement (.loop count body)) m (.turns count body 0 .done) m
  | firstStatement {last s ss m} : Begins (.block last (s :: ss)) m (.statement s) m
  | otherStatements {last s ss outcome m m'} :
      Statement.run Procedure.run s m = .ok outcome m' → outcome.isOutput = false →
      Begins (.block last (s :: ss)) m (.block outcome ss) m'
  | count {count body k last m} : Begins (.turns count body k last) m (.expr count) m
  | turn {count body last limit m m'} {k : Nat} :
      Expr.eval Procedure.run count m = .ok limit m' → (k : Int) < limit.toInt →
      Begins (.turns count body k last) m (.block .done body) m'
  | otherTurns {count body last limit outcome m m₁ m'} {k : Nat} :
      Expr.eval Procedure.run count m = .ok limit m₁ → (k : Int) < limit.toInt →
      runBlock Procedure.run .done body m₁ = .ok outcome m' → outcome.isOutput = false →
      Begins (.turns count body k last) m (.turns count body (k + 1) outcome) m'
  | firstItem {s p m} : Begins (.program (.statement s :: p)) m (.statement s) m
  | otherItems {item p outcome m m'} : Item.run item m = .ok outcome m' →
      Begins (.program (item :: p)) m (.program p) m'

/-- A task that is begun, with the procedures that are running then, the innermost first. -/
structure Moment where
  active : List String
  task : Task
  machine : Machine

/-- What the task at a moment leads to. The body of a procedure is begun in the procedure, once its
inputs are there, if fewer procedures are running than can be. -/
inductive Moment.Leads : Moment → Moment → Prop
  | part {active task m part m'} : task.Begins m part m' →
      Leads ⟨active, task, m⟩ ⟨active, part, m'⟩
  | body {active name arguments p inputs m m₁} : m.procedures[name.text]? = some p →
      p.arity = arguments.length → evalAll Procedure.run arguments m = .ok inputs m₁ →
      m₁.calls < maxDepth →
      Leads ⟨active, .call (.procedure name arguments), m⟩
        ⟨name.text :: active, .block .done p.body, m₁.enter (p.locals inputs)⟩

/-- The moment comes when the text is submitted. -/
def Machine.Visits (m : Machine) (text : String) (now : Moment) : Prop :=
  ∃ program m₀, m.read text = (.ok program, m₀) ∧
    Relation.ReflTransGen Moment.Leads ⟨[], .program program, m₀⟩ now

/-! ## Where runs overflow -/

/-- The computation fails because a call of this procedure is refused. -/
def Exec.Overflows {α : Type} (x : Exec α) (m : Machine) (called : String) : Prop :=
  ∃ m', x m = .error (.stackOverflow called) m'

instance Exec.decidableOverflows {α : Type} (x : Exec α) (m : Machine) (called : String) :
    Decidable (x.Overflows m called) :=
  match ran : x m with
  | .ok _ _ => isFalse fun ⟨_, failed⟩ => nomatch ran.symm.trans failed
  | .error e m' => decidable_of_iff (e = .stackOverflow called)
      ⟨fun same => ⟨m', same ▸ ran⟩, fun ⟨_, failed⟩ =>
        (EStateM.Result.error.inj (ran.symm.trans failed)).1⟩

/-- The task at this moment is a call of this procedure that is refused: all is in order but that
there is no room for one more. -/
def Moment.Refuses (now : Moment) (called : String) : Prop :=
  ∃ name arguments p inputs m₁, now.task = .call (.procedure name arguments) ∧ name.text = called ∧
    now.machine.procedures[name.text]? = some p ∧ p.arity = arguments.length ∧
    evalAll Procedure.run arguments now.machine = .ok inputs m₁ ∧ maxDepth ≤ m₁.calls

section

variable {α β : Type} {x : Exec α} {f : α → Exec β} {m : Machine} {called : String}

theorem Exec.bind_overflows : (x >>= f).Overflows m called ↔
    x.Overflows m called ∨ ∃ a m₁, x m = .ok a m₁ ∧ (f a).Overflows m₁ called := by
  constructor
  · rintro ⟨m', failed⟩
    rcases Exec.bind_eq_error.1 failed with failed | ⟨a, m₁, ran, failed⟩
    · exact .inl ⟨m', failed⟩
    · exact .inr ⟨a, m₁, ran, m', failed⟩
  · rintro (⟨m', failed⟩ | ⟨a, m₁, ran, m', failed⟩)
    · exact ⟨m', Exec.bind_eq_error.2 (.inl failed)⟩
    · exact ⟨m', Exec.bind_eq_error.2 (.inr ⟨a, m₁, ran, failed⟩)⟩

theorem Exec.not_pure_overflows (a : α) : ¬ (pure a : Exec α).Overflows m called := nofun

theorem Exec.bind_pure_overflows {g : α → β} :
    (x >>= fun a => pure (g a)).Overflows m called ↔ x.Overflows m called := by
  rw [bind_overflows, or_iff_left]
  rintro ⟨a, m₁, -, fails⟩
  exact not_pure_overflows _ fails

theorem Exec.not_lookup_overflows (name : Name) : ¬ (Exec.lookup name).Overflows m called := by
  rintro ⟨m', failed⟩
  rcases Exec.bind_eq_error.1 failed with ⟨⟨⟩⟩ | ⟨_, _, ⟨⟩, failed⟩
  cases found : m.scopes.get? name.text <;>
    · rw [found] at failed
      cases failed

theorem Exec.not_procedure_overflows (name : Name) (inputs : Nat) :
    ¬ (Exec.procedure name inputs).Overflows m called := by
  rintro ⟨m', failed⟩
  rcases Exec.bind_eq_error.1 failed with ⟨⟨⟩⟩ | ⟨_, _, ⟨⟩, failed⟩
  cases found : m.procedures[name.text]? with
  | none =>
    rw [found] at failed
    cases failed
  | some p =>
    rw [found] at failed
    by_cases arity : p.arity = inputs
    · cases (congrFun (if_neg (not_not.2 arity)) m).symm.trans failed
    · cases (congrFun (if_pos arity) m).symm.trans failed

theorem Exec.withScope_overflows {locals : Bindings Int32} :
    (Exec.withScope locals x).Overflows m called ↔ x.Overflows (m.enter locals) called := by
  unfold Exec.Overflows Exec.withScope
  cases x (m.enter locals) with
  | ok a m' => exact ⟨nofun, nofun⟩
  | error e m' =>
    constructor
    · rintro ⟨_, ⟨⟩⟩
      exact ⟨m', rfl⟩
    · rintro ⟨_, ⟨⟩⟩
      exact ⟨m'.leave, rfl⟩

end

variable {active : List String} {m : Machine} {called : String}

/-- The call that is refused is the task at this moment, or it is made by a part of that. -/
def Moment.Blames (now : Moment) (called : String) : Prop :=
  now.Refuses called ∨ ∃ next, now.Leads next ∧ next.task.run.Overflows next.machine called

theorem Task.Begins.blames {task part : Task} {m' : Machine} (begins : task.Begins m part m')
    (fails : part.run.Overflows m' called) : Moment.Blames ⟨active, task, m⟩ called :=
  .inr ⟨_, .part begins, fails⟩

-- One lemma for each kind of task follows. Their cases are those of what runs the task: each place
-- where that can fail is begun by a rule, or fails for another reason.

theorem MulOp.not_overflows (op : MulOp) (a b : Int32) :
    ¬ (MonadExcept.ofExcept (op.exact a b) : Exec Int32).Overflows m called := by
  rintro ⟨m', failed⟩
  cases op with
  | times => cases failed
  | «over» =>
    rw [MulOp.exact] at failed
    split at failed <;> cases failed

theorem Factor.blames {f : Factor} (fails : (f.eval Procedure.run).Overflows m called) :
    Moment.Blames ⟨active, .factor f, m⟩ called := by
  cases f with
  | number n =>
    rw [Factor.eval] at fails
    exact absurd fails (Exec.not_pure_overflows _)
  | «variable» name =>
    rw [Factor.eval] at fails
    exact absurd fails (Exec.not_lookup_overflows name)
  | call c =>
    rw [Factor.eval, Exec.bind_overflows] at fails
    rcases fails with fails | ⟨outcome, m₁, -, m', failed⟩
    · exact Task.Begins.blames .called fails
    · cases value : outcome.value? with
      | none =>
        rw [value] at failed
        cases failed
      | some v =>
        rw [value] at failed
        cases failed
  | grouped e =>
    rw [Factor.eval] at fails
    exact Task.Begins.blames .grouped fails

theorem Call.blames {c : Call} (fails : (c.run Procedure.run).Overflows m called) :
    Moment.Blames ⟨active, .call c, m⟩ called := by
  cases c with
  | reporter what =>
    rw [Call.run] at fails
    cases fails with | intro _ failed => cases failed
  | procedure name arguments =>
    rw [Call.run, Exec.bind_overflows] at fails
    rcases fails with fails | ⟨p, m', meant, fails⟩
    · exact absurd fails (Exec.not_procedure_overflows name _)
    · obtain ⟨found, arity, rfl⟩ := Exec.procedure_eq_ok.1 meant
      rw [Exec.bind_overflows] at fails
      rcases fails with fails | ⟨inputs, m₁, given, m', failed⟩
      · exact Task.Begins.blames (.inputs found arity) fails
      · rw [Procedure.run_eq] at failed
        by_cases full : maxDepth ≤ m₁.calls
        · rw [Exec.within_full full] at failed
          cases failed
          exact .inl ⟨name, arguments, p, inputs, m₁, rfl, rfl, found, arity, given, full⟩
        · rw [Exec.within_room full] at failed
          have inside := Exec.withScope_overflows.1 ⟨m', failed⟩
          exact .inr ⟨_, .body found arity given (not_le.1 full), inside⟩

theorem evalAll_blames {es : List Expr} (fails : (evalAll Procedure.run es).Overflows m called) :
    Moment.Blames ⟨active, .inputs es, m⟩ called := by
  cases es with
  | nil => exact absurd fails (Exec.not_pure_overflows _)
  | cons e es =>
    rw [evalAll, Exec.bind_overflows] at fails
    rcases fails with fails | ⟨value, m₁, ran, fails⟩
    · exact Task.Begins.blames .firstInput fails
    · exact Task.Begins.blames (.otherInputs ran) (Exec.bind_pure_overflows.1 fails)

theorem Term.blames {t : Term} (fails : (t.eval Procedure.run).Overflows m called) :
    Moment.Blames ⟨active, .term t, m⟩ called := by
  cases t with
  | single f =>
    rw [Term.eval] at fails
    exact Task.Begins.blames .onlyFactor fails
  | chain f op rest =>
    rw [Term.eval_chain, Exec.bind_overflows] at fails
    rcases fails with fails | ⟨left, m₁, ran, fails⟩
    · exact Task.Begins.blames .firstFactor fails
    · rw [Exec.bind_overflows] at fails
      rcases fails with fails | ⟨right, m₂, -, fails⟩
      · exact Task.Begins.blames (.otherFactors ran) fails
      · exact absurd fails (op.not_overflows left right)

theorem Expr.blames {e : Expr} (fails : (e.eval Procedure.run).Overflows m called) :
    Moment.Blames ⟨active, .expr e, m⟩ called := by
  cases e with
  | single negated t =>
    rw [Expr.eval, Exec.bind_pure_overflows] at fails
    exact Task.Begins.blames .onlyTerm fails
  | chain negated t op rest =>
    rw [Expr.eval, Exec.bind_overflows] at fails
    rcases fails with fails | ⟨left, m₁, ran, fails⟩
    · exact Task.Begins.blames .firstTerm fails
    · exact Task.Begins.blames (.otherTerms ran) (Exec.bind_pure_overflows.1 fails)

theorem Clause.blames {c : Clause} (fails : (c.eval Procedure.run).Overflows m called) :
    Moment.Blames ⟨active, .clause c, m⟩ called := by
  cases c with
  | constant value =>
    rw [Clause.eval] at fails
    exact absurd fails (Exec.not_pure_overflows _)
  | negation c =>
    rw [Clause.eval, Exec.bind_pure_overflows] at fails
    exact Task.Begins.blames .negation fails
  | braced c =>
    rw [Clause.eval] at fails
    exact Task.Begins.blames .braced fails
  | compared left op right =>
    rw [Clause.eval, Exec.bind_overflows] at fails
    rcases fails with fails | ⟨value, m₁, ran, fails⟩
    · exact Task.Begins.blames .leftSide fails
    · exact Task.Begins.blames (.rightSide ran) (Exec.bind_pure_overflows.1 fails)

theorem Condition.blames {c : Condition} (fails : (c.eval Procedure.run).Overflows m called) :
    Moment.Blames ⟨active, .condition c, m⟩ called := by
  cases c with
  | single c =>
    rw [Condition.eval] at fails
    exact Task.Begins.blames .onlyClause fails
  | chain c op rest =>
    rw [Condition.eval_chain, Exec.bind_overflows] at fails
    rcases fails with fails | ⟨value, m₁, ran, fails⟩
    · exact Task.Begins.blames .firstClause fails
    · cases settled : op.settles value with
      | true =>
        rw [settled] at fails
        exact absurd fails (Exec.not_pure_overflows _)
      | false =>
        rw [settled] at fails
        exact Task.Begins.blames (.otherClauses ran settled) (Exec.bind_pure_overflows.1 fails)

theorem Statement.blames {s : Statement} (fails : (s.run Procedure.run).Overflows m called) :
    Moment.Blames ⟨active, .statement s, m⟩ called := by
  cases s with
  | command c =>
    rw [Statement.run, Exec.bind_pure_overflows, Command.run_eq, Exec.bind_overflows] at fails
    rcases fails with fails | ⟨values, m₁, -, m', failed⟩
    · exact Task.Begins.blames .operands fails
    · rcases Command.act_failed failed with ⟨_, _, _, _, _, ⟨⟩, _⟩ | ⟨reach, target, -, -, failed⟩
      rw [Exec.prompt_eq] at failed
      split at failed <;> cases failed
  | call c =>
    rw [Statement.run] at fails
    exact Task.Begins.blames .callStatement fails
  | output e =>
    rw [Statement.run, Exec.bind_pure_overflows] at fails
    exact Task.Begins.blames .output fails
  | ifTrue c body =>
    rw [Statement.run, Exec.bind_overflows] at fails
    rcases fails with fails | ⟨holds, m₁, ran, fails⟩
    · exact Task.Begins.blames .decision fails
    · cases holds with
      | false => exact absurd fails (Exec.not_pure_overflows _)
      | true => exact Task.Begins.blames (.taken ran) fails
  | loop count body =>
    cases body with
    | nil =>
      obtain ⟨m', failed⟩ := fails
      rw [Statement.run_loop_nil] at failed
      cases failed
    | cons s ss =>
      rw [Statement.run_loop_of_ne_nil (List.cons_ne_nil s ss)] at fails
      exact Task.Begins.blames (.loop (List.cons_ne_nil s ss)) fails

theorem Block.blames {last : Outcome} {ss : List Statement}
    (fails : (runBlock Procedure.run last ss).Overflows m called) :
    Moment.Blames ⟨active, .block last ss, m⟩ called := by
  cases ss with
  | nil =>
    rw [runBlock] at fails
    exact absurd fails (Exec.not_pure_overflows _)
  | cons s ss =>
    rw [runBlock, Exec.bind_overflows] at fails
    rcases fails with fails | ⟨outcome, m₁, ran, fails⟩
    · exact Task.Begins.blames .firstStatement fails
    · cases stops : outcome.isOutput with
      | true =>
        rw [stops] at fails
        exact absurd fails (Exec.not_pure_overflows _)
      | false =>
        rw [stops] at fails
        exact Task.Begins.blames (.otherStatements ran stops) fails

theorem Turns.blames {count : Expr} {body : List Statement} {k : Nat} {last : Outcome}
    (fails : (loopFrom (count.eval Procedure.run) (runBlock Procedure.run .done body) k
      last).Overflows m called) :
    Moment.Blames ⟨active, .turns count body k last, m⟩ called := by
  rw [loopFrom, Exec.bind_overflows] at fails
  rcases fails with fails | ⟨limit, m₁, counted, fails⟩
  · exact Task.Begins.blames .count fails
  · split at fails
    · next below =>
      rw [Exec.bind_overflows] at fails
      rcases fails with fails | ⟨outcome, m₂, ran, fails⟩
      · exact Task.Begins.blames (.turn counted below) fails
      · cases stops : outcome.isOutput with
        | true =>
          rw [stops] at fails
          exact absurd fails (Exec.not_pure_overflows _)
        | false =>
          rw [stops] at fails
          exact Task.Begins.blames (.otherTurns counted below ran stops) fails
    · exact absurd fails (Exec.not_pure_overflows _)

theorem Program.blames {p : Program} (fails : (Program.run p).Overflows m called) :
    Moment.Blames ⟨active, .program p, m⟩ called := by
  cases p with
  | nil => exact absurd fails (Exec.not_pure_overflows _)
  | cons item p =>
    rw [Program.run_cons, Exec.bind_overflows] at fails
    rcases fails with fails | ⟨outcome, m₁, ran, fails⟩
    · cases item with
      | definition p => cases fails with | intro _ failed => cases failed
      | statement s => exact Task.Begins.blames .firstItem fails
    · exact Task.Begins.blames (.otherItems ran) fails

/-- What a moment that fails leads to, or is. -/
theorem Moment.blames (now : Moment) (fails : now.task.run.Overflows now.machine called) :
    now.Blames called := by
  obtain ⟨active, task, m⟩ := now
  cases task with
  | factor f => exact Factor.blames fails
  | call c => exact Call.blames fails
  | inputs es => exact evalAll_blames fails
  | term t => exact Term.blames fails
  | expr e => exact Expr.blames fails
  | clause c => exact Clause.blames fails
  | condition c => exact Condition.blames fails
  | statement s => exact Statement.blames fails
  | block last ss => exact Block.blames fails
  | turns count body k last => exact Turns.blames fails
  | program p => exact Program.blames fails

end Logo
