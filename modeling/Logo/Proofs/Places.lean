import Mathlib
import Logo.Proofs.Frame
import Logo.Proofs.Lookahead
import Logo.Proofs.Session

/-!
# Places make no difference

Programs that differ in the places of their names only (`bare`) do the same, and if they fail then
with errors that differ in their place only. The machines need not be the same either. One of them may
have printed something before, and it may know more procedures: then this makes a difference only where
the other one fails because it does not know one.

Results:
1. `Expr.eval_like`, `Condition.eval_like`, `Statement.run_like`: what is evaluated or run is so if
   procedures are.
2. `Procedure.run_like`: procedures are.
3. `Program.run_like`: so are programs.
-/

namespace Logo

/-- The error, without the place that it is tied to. -/
def RuntimeError.bare : RuntimeError → RuntimeError
  | .unknownVariable name => .unknownVariable name.bare
  | .unknownProcedure name => .unknownProcedure name.bare
  | .wrongArity name expected found => .wrongArity name.bare expected found
  | .noInput name => .noInput name.bare
  | .divisionByZero => .divisionByZero
  | .negativeSleep milliseconds => .negativeSleep milliseconds
  | .noOutput procedure => .noOutput procedure
  | .stackOverflow procedure => .stackOverflow procedure

theorem Call.name_bare (call : Call) : call.bare.name = call.name := by
  cases call <;> simp only [bare, name, Name.bare]

theorem Entry.body_bare (e : Entry) : e.bare.body = bareBlock e.body := by
  obtain ⟨name, parameters, _ | body⟩ := e
  · simp only [bare, body, Option.map_none, Option.getD_none, bareBlock]
  · rfl

theorem length_bareAll (es : List Expr) : (bareAll es).length = es.length := by
  induction es with
  | nil => simp only [bareAll]
  | cons e es ih => rw [bareAll, List.length_cons, List.length_cons, ih]

theorem isEmpty_bareBlock (ss : List Statement) : (bareBlock ss).isEmpty = ss.isEmpty := by
  cases ss <;> simp only [bareBlock, List.isEmpty_nil, List.isEmpty_cons]

/-- The error of an operator is not tied to a place. -/
theorem MulOp.apply_bare (op : MulOp) {a b : Int32} {e : RuntimeError}
    (failed : op.apply a b = .error e) : e.bare = e := by
  unfold apply at failed
  split at failed
  · cases failed
  · split at failed <;> cases failed
    rfl

/-! ## Machines that are alike -/

/-- How two machines are compared. -/
structure Likeness where
  /-- The names of the procedures that the first machine may know. -/
  common : String → Prop
  /-- What only the second machine was going to hand out before. -/
  before : Reply

namespace Likeness

variable {like : Likeness} {α β : Type} {m n : Machine}

/-- The second machine is the first one, but for what it was going to hand out before, for the journal
and for procedures. It knows those of the first machine without their places, and maybe others. -/
structure Machines (like : Likeness) (m n : Machine) : Prop where
  turtle : n.turtle = m.turtle
  scopes : n.scopes = m.scopes
  calls : n.calls = m.calls
  canvas : n.canvas = m.canvas
  log : n.log = like.before.log ++ m.log
  errors : n.errors = like.before.errors ++ m.errors
  procedures : ∀ {name}, like.common name →
    n.procedures[name]? = m.procedures[name]?.map Entry.bare
  unknown : ∀ {name}, ¬ like.common name → m.procedures[name]? = none

/-- The same came of two computations, but for places, or the first one did not know a procedure that
the second one may know. -/
inductive Results (like : Likeness) :
    EStateM.Result RuntimeError Machine α → EStateM.Result RuntimeError Machine α → Prop
  | ok {a : α} {m n : Machine} : like.Machines m n → Results like (.ok a m) (.ok a n)
  | error {e : RuntimeError} {m n : Machine} : like.Machines m n →
      Results like (.error e m) (.error e.bare n)
  | unknown {name : Name} {m : Machine} {r : EStateM.Result RuntimeError Machine α} :
      ¬ like.common name.text → Results like (.error (.unknownProcedure name) m) r

/-- On machines that are alike the same comes of two computations. -/
def Runs (like : Likeness) (x y : Exec α) : Prop :=
  ∀ ⦃m n : Machine⦄, like.Machines m n → like.Results (x m) (y n)

/-- The change does not depend on what may differ between machines that are alike, and lets the
procedures alone. -/
structure Blind (f : Machine → Machine) : Prop where
  same : ∀ (m : Machine) (known : Procedures) (before : Reply) (journal : Array Event),
    ∃ journal', f { m with
        procedures := known, log := before.log ++ m.log, errors := before.errors ++ m.errors, journal } =
      { f m with
        procedures := known, log := before.log ++ (f m).log, errors := before.errors ++ (f m).errors,
        journal := journal' } := by
    exact fun _ _ _ _ => ⟨_, rfl⟩
  procedures : ∀ m, (f m).procedures = m.procedures := by exact fun _ => rfl

theorem Machines.eq (same : like.Machines m n) :
    n = { m with
      procedures := n.procedures
      log := like.before.log ++ m.log
      errors := like.before.errors ++ m.errors
      journal := n.journal } := by
  obtain ⟨turtle, scopes, calls, canvas, log, errors, -, -⟩ := same
  cases n
  simp_all

theorem Blind.machines {f : Machine → Machine} (blind : Blind f) (same : like.Machines m n) :
    like.Machines (f m) (f n) := by
  obtain ⟨journal, changed⟩ := blind.same m n.procedures like.before n.journal
  rw [same.eq, changed]
  refine ⟨rfl, rfl, rfl, rfl, rfl, rfl, ?_, ?_⟩
  · rw [blind.procedures]
    exact same.procedures
  · rw [blind.procedures]
    exact same.unknown

theorem Blind.print (text : String) : Blind (·.print text) where
  same m known before journal := by
    refine ⟨journal, ?_⟩
    simp only [Machine.print, String.append_assoc]

namespace Runs

/-! ### Composing -/

theorem pure (a : α) : like.Runs (pure a) (pure a) := fun _ _ same => .ok same

theorem throw (e : RuntimeError) : like.Runs (throw e : Exec α) (throw e.bare) :=
  fun _ _ same => .error same

/-- After an error it does not matter how the computations would have gone on. -/
theorem throw_bind (e : RuntimeError) {f g : α → Exec β} :
    like.Runs ((MonadExcept.throw e : Exec α) >>= f) (MonadExcept.throw e.bare >>= g) :=
  fun _ _ same => .error same

theorem modify {f : Machine → Machine} (blind : Blind f) :
    like.Runs (modify f) (modify f) :=
  fun _ _ same => .ok (blind.machines same)

theorem bind {x y : Exec α} {f g : α → Exec β} (begin : like.Runs x y)
    (next : ∀ a, like.Runs (f a) (g a)) : like.Runs (x >>= f) (y >>= g) := by
  intro m n same
  show like.Results (EStateM.bind x f m) (EStateM.bind y g n)
  have results := begin same
  unfold EStateM.bind
  generalize x m = r, y n = s at results
  cases results with
  | ok same => exact next _ same
  | error same => exact .error same
  | unknown new => exact .unknown new

/-- The machine in which a computation begins may decide what it is. -/
theorem get_bind {f g : Machine → Exec α}
    (next : ∀ m n, like.Machines m n → like.Runs (f m) (g n)) :
    like.Runs (get >>= f) (get >>= g) :=
  fun m n same => next m n same same

/-- What is alike in a procedure that has been entered is alike for who enters and leaves it. -/
theorem within {x y : Exec α} (runs : like.Runs x y) (name : String) (locals : Bindings Int32) :
    like.Runs (Exec.within name locals x) (Exec.within name locals y) := by
  unfold Exec.within
  refine .get_bind fun m n same => ?_
  rw [same.calls]
  split
  · exact .throw (.stackOverflow name)
  · intro m n same
    have results := runs (Blind.machines (f := (·.enter locals)) {} same)
    unfold Exec.withScope
    generalize x (m.enter locals) = r, y (n.enter locals) = s at results
    cases results with
    | ok same => exact .ok (Blind.machines (f := (·.leave)) {} same)
    | error same => exact .error (Blind.machines (f := (·.leave)) {} same)
    | unknown new => exact .unknown new

theorem lookup (name : Name) : like.Runs (Exec.lookup name) (Exec.lookup name.bare) := by
  unfold Exec.lookup
  refine .get_bind fun m n same => ?_
  rw [same.scopes, show name.bare.text = name.text from rfl]
  cases m.scopes.get? name.text with
  | some value => exact .pure _
  | none => exact .throw (.unknownVariable name)

theorem prompt (name : Name) : like.Runs (Exec.prompt name) (Exec.prompt name.bare) := by
  intro m n same
  have asked := Blind.machines (f := (·.asked name.text)) {} same
  rw [Exec.prompt_eq, Exec.prompt_eq, same.canvas, show name.bare.text = name.text from rfl]
  cases (m.canvas.ask name.text).1 with
  | some value => exact .ok asked
  | none => exact .error asked

/-- The procedure that a call means is found in both machines, or it is not found in the first one. -/
theorem procedure_bind {name : Name} {inputs : Nat} {f g : Entry → Exec α}
    (next : ∀ e : Entry, like.Runs (f e) (g e.bare)) :
    like.Runs (Exec.procedure name inputs >>= f) (Exec.procedure name.bare inputs >>= g) := by
  unfold Exec.procedure
  simp only [bind_assoc]
  refine .get_bind fun m n same => ?_
  by_cases common : like.common name.text
  · have meant : n.procedures[name.bare.text]? = m.procedures[name.text]?.map Entry.bare :=
      same.procedures common
    rw [meant]
    cases m.procedures[name.text]? with
    | none => exact .throw_bind (.unknownProcedure name)
    | some e =>
      simp only [Option.map_some, show e.bare.arity = e.arity from rfl]
      split
      · exact .throw_bind (.wrongArity name e.arity inputs)
      · exact next e
  · -- the second machine may find a procedure, but nothing is asked of it then
    rw [same.unknown common]
    exact fun _ _ _ => .unknown common

end Runs

/-- Procedures are run alike. -/
def Runners (like : Likeness) (run run' : Runner) : Prop :=
  ∀ (name : String) (e : Entry) (inputs : List Int32),
    like.Runs (run name e inputs) (run' name e.bare inputs)

end Likeness

variable {like : Likeness} {run run' : Runner}

/-! ## Expressions -/

mutual

theorem Factor.eval_like (runners : like.Runners run run') : (f : Factor) →
    like.Runs (f.eval run) (f.bare.eval run')
  | .number n => by
    simp only [Factor.bare, Factor.eval]
    exact .pure _
  | .variable name => by
    simp only [Factor.bare, Factor.eval]
    exact .lookup name
  | .call call => by
    simp only [Factor.bare, Factor.eval]
    refine .bind (call.run_like runners) fun outcome => ?_
    cases outcome.value? with
    | some value => exact .pure _
    | none =>
      rw [call.name_bare]
      exact .throw (.noOutput call.name)
  | .grouped e => by
    simp only [Factor.bare, Factor.eval]
    exact e.eval_like runners

theorem Call.run_like (runners : like.Runners run run') : (call : Call) →
    like.Runs (call.run run) (call.bare.run run')
  | .reporter what => by
    simp only [Call.bare, Call.run]
    refine .get_bind fun m n same => ?_
    rw [same.turtle]
    exact .pure _
  | .procedure name arguments => by
    simp only [Call.bare, Call.run, length_bareAll]
    refine .procedure_bind fun e => ?_
    refine .bind (evalAll_like runners arguments) fun inputs => ?_
    exact runners name.text e inputs

theorem evalAll_like (runners : like.Runners run run') : (es : List Expr) →
    like.Runs (evalAll run es) (evalAll run' (bareAll es))
  | [] => by
    simp only [bareAll, evalAll]
    exact .pure _
  | e :: es => by
    simp only [bareAll, evalAll]
    refine .bind (e.eval_like runners) fun value => ?_
    exact .bind (evalAll_like runners es) fun values => .pure _

theorem Term.eval_like (runners : like.Runners run run') : (t : Term) →
    like.Runs (t.eval run) (t.bare.eval run')
  | .single f => by
    simp only [Term.bare, Term.eval]
    exact f.eval_like runners
  | .chain f op rest => by
    simp only [Term.bare, Term.eval]
    refine .bind (f.eval_like runners) fun left => ?_
    refine .bind (rest.eval_like runners) fun right => ?_
    cases applied : op.apply left right with
    | ok value => exact .pure _
    | error e =>
      -- both sides throw `e` itself, which is its own `bare`
      have throws : like.Runs (throw e : Exec Int32) (throw e.bare) := .throw e
      rw [op.apply_bare applied] at throws
      exact throws

theorem Expr.eval_like (runners : like.Runners run run') : (e : Expr) →
    like.Runs (e.eval run) (e.bare.eval run')
  | .single negated t => by
    simp only [Expr.bare, Expr.eval]
    exact .bind (t.eval_like runners) fun value => .pure _
  | .chain negated t op rest => by
    simp only [Expr.bare, Expr.eval]
    refine .bind (t.eval_like runners) fun left => ?_
    exact .bind (rest.eval_like runners) fun right => .pure _

end

/-! ## Conditions -/

mutual

theorem Clause.eval_like (runners : like.Runners run run') : (c : Clause) →
    like.Runs (c.eval run) (c.bare.eval run')
  | .constant value => by
    simp only [Clause.bare, Clause.eval]
    exact .pure _
  | .negation c => by
    simp only [Clause.bare, Clause.eval]
    exact .bind (c.eval_like runners) fun value => .pure _
  | .braced c => by
    simp only [Clause.bare, Clause.eval]
    exact c.eval_like runners
  | .compared left op right => by
    simp only [Clause.bare, Clause.eval]
    refine .bind (left.eval_like runners) fun left => ?_
    exact .bind (right.eval_like runners) fun right => .pure _

theorem Condition.eval_like (runners : like.Runners run run') : (c : Condition) →
    like.Runs (c.eval run) (c.bare.eval run')
  | .single c => by
    simp only [Condition.bare, Condition.eval]
    exact c.eval_like runners
  | .chain c op rest => by
    simp only [Condition.bare, Condition.eval]
    refine .bind (c.eval_like runners) fun left => ?_
    have right := rest.eval_like runners
    cases op with
    | and => cases left with
      | true => exact right
      | false => exact .pure _
    | or => cases left with
      | true => exact .pure _
      | false => exact right
    | xor => exact .bind right fun value => .pure _

end

/-! ## Statements -/

theorem Command.run_like (runners : like.Runners run run') (command : Command) :
    like.Runs (command.run run) (command.bare.run run') := by
  have operand (e : Expr) : like.Runs (e.eval run) (e.bare.eval run') := e.eval_like runners
  cases command <;> simp only [Command.bare, Command.run]
  case forward length => exact .bind (operand length) fun _ => .modify {}
  case back length => exact .bind (operand length) fun _ => .modify {}
  case right angle => exact .bind (operand angle) fun _ => .modify {}
  case left angle => exact .bind (operand angle) fun _ => .modify {}
  case moveBy dx dy => exact .bind (operand dx) fun _ => .bind (operand dy) fun _ => .modify {}
  case moveTo x y => exact .bind (operand x) fun _ => .bind (operand y) fun _ => .modify {}
  case setHeading heading => exact .bind (operand heading) fun _ => .modify {}
  case home | clearScreen | penUp | penDown => exact .modify {}
  case setColor red green blue =>
    exact .bind (operand red) fun _ => .bind (operand green) fun _ => .bind (operand blue) fun _ =>
      .modify {}
  case printText text => exact .modify (.print _)
  case printNumber value => exact .bind (operand value) fun _ => .modify (.print _)
  case scan reach target => exact .bind (.prompt target) fun _ => .modify {}
  case make reach target value => exact .bind (operand value) fun _ => .modify {}
  case sleep milliseconds =>
    refine .bind (operand milliseconds) fun ms => ?_
    split
    · exact .throw (.negativeSleep ms)
    · exact .modify {}

/-- Loops are alike if their counts and their bodies are. -/
theorem loopFrom_like {count count' : Exec Int32} {body body' : Exec Outcome}
    (counts : like.Runs count count') (bodies : like.Runs body body') (done : Nat)
    (last : Outcome) :
    like.Runs (loopFrom count body done last) (loopFrom count' body' done last) := by
  induction left : 2147483648 - done using Nat.strongRecOn generalizing done last with
  | ind n ih =>
    unfold loopFrom
    refine .bind counts fun n => ?_
    split
    · refine .bind bodies fun outcome => ?_
      split
      · exact .pure _
      · -- the count has 32 bits, so there is one round less left
        have := n.toInt_lt
        exact ih _ (by omega) _ _ rfl
    · exact .pure _

mutual

theorem Statement.run_like (runners : like.Runners run run') : (s : Statement) →
    like.Runs (s.run run) (s.bare.run run')
  | .command command => by
    simp only [Statement.bare, Statement.run]
    exact .bind (command.run_like runners) fun _ => .pure _
  | .call call => by
    simp only [Statement.bare, Statement.run]
    exact call.run_like runners
  | .output value => by
    simp only [Statement.bare, Statement.run]
    exact .bind (value.eval_like runners) fun _ => .pure _
  | .ifTrue condition body => by
    simp only [Statement.bare, Statement.run]
    refine .bind (condition.eval_like runners) fun holds => ?_
    cases holds with
    | true => exact runBlock_like runners body
    | false => exact .pure _
  | .loop count body => by
    simp only [Statement.bare, Statement.run, isEmpty_bareBlock]
    split
    · exact .pure _
    · exact loopFrom_like (count.eval_like runners) (runBlock_like runners body) _ _

theorem runBlock_like (runners : like.Runners run run') : {last : Outcome} → (ss : List Statement) →
    like.Runs (runBlock run last ss) (runBlock run' last (bareBlock ss))
  | _, [] => by
    simp only [bareBlock, runBlock]
    exact .pure _
  | _, s :: rest => by
    simp only [bareBlock, runBlock]
    refine .bind (s.run_like runners) fun outcome => ?_
    split
    · exact .pure _
    · exact runBlock_like runners rest

end

/-! ## Procedures -/

theorem Procedure.runWithin_like (like : Likeness) (room : Nat) :
    like.Runners (Procedure.runWithin room) (Procedure.runWithin room) := by
  induction room with
  | zero => exact fun name _ _ => .throw (.stackOverflow name)
  | succ room ih =>
    intro name e inputs
    rw [Procedure.runWithin, Procedure.runWithin, e.body_bare]
    exact .within (runBlock_like ih e.body) name (e.locals inputs)

theorem Procedure.run_like (like : Likeness) : like.Runners Procedure.run Procedure.run := by
  intro name e inputs
  refine .get_bind fun m n same => ?_
  rw [Machine.room, Machine.room, same.calls]
  exact Procedure.runWithin_like like _ name e inputs

/-! ## Programs -/

/-- The procedure, without the places of the names in its body. -/
def Procedure.bare (p : Procedure) : Procedure := ⟨p.name, p.parameters, bareBlock p.body⟩

theorem Procedure.entry_bare (p : Procedure) : p.bare.entry = p.entry.bare := rfl

/-- Binding a procedure does not depend on places. -/
theorem Procedures.getElem?_define_bare {known known' : Procedures} {p : Procedure} {name : String}
    (same : known'[name]? = known[name]?.map Entry.bare) :
    (known'.define p.bare)[name]? = (known.define p)[name]?.map Entry.bare := by
  simp only [getElem?_define]
  by_cases named : p.name = name
  · have named' : p.bare.name = name := named
    rw [if_pos named, if_pos named', p.entry_bare, Option.map_some]
  · have named' : ¬ p.bare.name = name := named
    rw [if_neg named, if_neg named', same]

/-- Machines that are alike can bind the same procedure, if both may know it. -/
theorem Likeness.Machines.define {m n : Machine} (same : like.Machines m n) {p : Procedure}
    (common : like.common p.name) : like.Machines (m.define p) (n.define p.bare) where
  turtle := same.turtle
  scopes := same.scopes
  calls := same.calls
  canvas := same.canvas
  log := same.log
  errors := same.errors
  procedures known := Procedures.getElem?_define_bare (same.procedures known)
  unknown {name} new := by
    have other : p.name ≠ name := fun named => new (named ▸ common)
    rw [Machine.define, Procedures.getElem?_define, if_neg other]
    exact same.unknown new

theorem Program.run_like (program : Program)
    (common : ∀ p ∈ program.definitions, like.common p.name) :
    like.Runs program.run program.bare.run := by
  induction program with
  | nil => exact .pure _
  | cons item rest ih =>
    rw [show Program.bare (item :: rest) = item.bare :: Program.bare rest from rfl,
      Program.run_cons, Program.run_cons]
    cases item with
    | definition p =>
      obtain ⟨first, others⟩ := List.forall_mem_cons.1 common
      have binds : like.Runs (modify (·.define p)) (modify (·.define p.bare)) :=
        fun _ _ same => .ok (same.define first)
      exact .bind (.bind binds fun _ => .pure _) fun _ => ih others
    | statement s => exact .bind (s.run_like (Procedure.run_like like)) fun _ => ih common

end Logo
