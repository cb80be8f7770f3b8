import Mathlib
import Logo.Proofs.Moments

/-!
# How deep calls are

The machine counts the procedures that are running, and it keeps a set of variables for each of them.
Which procedures are running is known at every moment of a run (`Moment.active`), and the machine is
right about them at all of these moments (`Machine.Counts`): no task leaves more or fewer running than
there were, and only the body of a procedure is begun with one more.

So a call is refused just where 512 are running. Whatever fails because a call is refused has come to
such a call: a task that fails so is the call or leads to one that fails so, and what a moment leads
to has less room, is smaller, or has fewer turns left.

Results:
1. `Task.run_sameDepth`: what tasks leave.
2. `Moment.Leads.counts`: what a moment leads to is counted right, if the moment is.
3. `Moment.leads_to_refused`: a task that fails because a call is refused leads to that call.
4. `depth_exact`: the counts at every moment, what becomes of a call, and what is left between texts.
-/

namespace Logo

/-! ## What tasks leave -/

namespace Machine

/-- As many procedures are running, with as many sets of variables. -/
structure SameDepth (m m' : Machine) : Prop where
  calls : m'.calls = m.calls
  depth : m'.scopes.depth = m.scopes.depth

/-- So many procedures are running as the machine says, with a set of variables for each besides the
shared ones, and no more than there can be. -/
structure Counts (m : Machine) (active : List String) : Prop where
  calls : m.calls = active.length
  depth : m.scopes.depth = active.length + 1
  bounded : active.length ≤ 512

variable {m m' : Machine}

theorem SameDepth.refl (m : Machine) : m.SameDepth m := ⟨rfl, rfl⟩

theorem SameDepth.trans {m'' : Machine} (first : m.SameDepth m') (second : m'.SameDepth m'') :
    m.SameDepth m'' :=
  ⟨second.calls.trans first.calls, second.depth.trans first.depth⟩

theorem SameOutside.sameDepth (same : m.SameOutside m') : m.SameDepth m' := ⟨same.calls, same.depth⟩

theorem SameOwn.sameDepth (same : m.SameOwn m') : m.SameDepth m' := same.outside.sameDepth

theorem SameDepth.of_ok {α : Type} {x : Exec α} {a : α} (kept : m.SameDepth (x.after m))
    (ran : x m = .ok a m') : m.SameDepth m' := by
  rwa [Exec.after_of_ok ran] at kept

theorem Counts.of_sameDepth {active : List String} (counts : m.Counts active)
    (same : m.SameDepth m') : m'.Counts active :=
  ⟨same.calls.trans counts.calls, same.depth.trans counts.depth, counts.bounded⟩

end Machine

theorem Item.run_sameDepth (item : Item) (m : Machine) : m.SameDepth (item.run.after m) := by
  cases item with
  | definition p => exact ⟨rfl, rfl⟩
  | statement s => exact (s.run_sameOutside m).sameDepth

theorem Exec.after_bind_of_ok {α β : Type} {x : Exec α} {f : α → Exec β} {a : α} {m m' : Machine}
    (ran : x m = .ok a m') : (x >>= f).after m = (f a).after m' := by
  rw [Exec.after, Exec.bind_of_ok ran, Exec.after]

theorem Program.run_sameDepth (p : Program) (m : Machine) : m.SameDepth (p.run.after m) := by
  induction p generalizing m with
  | nil => exact .refl m
  | cons item p ih =>
    have first := item.run_sameDepth m
    rw [Program.run_cons]
    cases ran : item.run m with
    | ok outcome m₁ =>
      rw [Exec.after_of_ok ran] at first
      rw [Exec.after_bind_of_ok ran]
      exact first.trans (ih m₁)
    | error e m₁ =>
      rw [Exec.after_of_error ran] at first
      rwa [Exec.after_of_error (Exec.bind_of_error ran)]

/-- Whatever a task does, no more and no fewer procedures are running after it. -/
theorem Task.run_sameDepth (task : Task) (m : Machine) : m.SameDepth (task.run.after m) := by
  cases task with
  | factor f => exact (f.eval_sameOwn m).sameDepth
  | call c => exact (c.run_sameOwn m).sameDepth
  | inputs es => exact (evalAll_sameOwn es m).sameDepth
  | term t => exact (t.eval_sameOwn m).sameDepth
  | expr e => exact (e.eval_sameOwn m).sameDepth
  | clause c => exact (c.eval_sameOwn m).sameDepth
  | condition c => exact (c.eval_sameOwn m).sameDepth
  | statement s => exact (s.run_sameOutside m).sameDepth
  | block last ss => exact (runBlock_sameOutside last ss m).sameDepth
  | turns count body k last => exact (loopFrom_sameOutside count body k last m).sameDepth
  | program p => exact p.run_sameDepth m

/-! ## From moment to moment -/

theorem Task.Begins.sameDepth {task part : Task} {m m' : Machine} (begins : task.Begins m part m') :
    m.SameDepth m' := by
  cases begins with
  | otherInputs ran => exact .of_ok (Expr.eval_sameOwn _ m).sameDepth ran
  | otherFactors ran => exact .of_ok (Factor.eval_sameOwn _ m).sameDepth ran
  | otherTerms ran => exact .of_ok (Term.eval_sameOwn _ m).sameDepth ran
  | rightSide ran => exact .of_ok (Expr.eval_sameOwn _ m).sameDepth ran
  | otherClauses ran _ => exact .of_ok (Clause.eval_sameOwn _ m).sameDepth ran
  | taken ran => exact .of_ok (Condition.eval_sameOwn _ m).sameDepth ran
  | otherStatements ran _ => exact .of_ok (Statement.run_sameOutside _ m).sameDepth ran
  | turn ran _ => exact .of_ok (Expr.eval_sameOwn _ m).sameDepth ran
  | @otherTurns _ _ _ _ _ _ m₁ _ _ counted _ ran _ =>
    have first : m.SameDepth m₁ := .of_ok (Expr.eval_sameOwn _ m).sameDepth counted
    exact first.trans (.of_ok (runBlock_sameOutside _ _ m₁).sameDepth ran)
  | otherItems ran => exact .of_ok (Item.run_sameDepth _ m) ran
  | _ => exact .refl m

/-- What a moment leads to is counted right, if the moment is. -/
theorem Moment.Leads.counts {now next : Moment} (leads : now.Leads next)
    (counts : now.machine.Counts now.active) : next.machine.Counts next.active := by
  cases leads with
  | part begins => exact counts.of_sameDepth begins.sameDepth
  | @body _ _ _ _ _ m m₁ _ _ given room =>
    have counts : m₁.Counts _ :=
      counts.of_sameDepth (.of_ok (evalAll_sameOwn _ m).sameDepth given)
    have bounded : m₁.calls < 512 := room
    refine ⟨congrArg (· + 1) counts.calls, congrArg (· + 1) counts.depth, ?_⟩
    rw [List.length_cons, ← counts.calls]
    exact bounded

theorem Machine.learn_counts {m : Machine} (counts : m.Counts []) (text : String)
    (program : Program) : (m.learn text program).Counts [] := { counts with }

theorem Machine.Visits.counts {m : Machine} {text : String} {now : Moment}
    (visits : m.Visits text now) (counts : m.Counts []) : now.machine.Counts now.active := by
  obtain ⟨program, m₀, read, reach⟩ := visits
  obtain ⟨-, rfl⟩ := read_eq_ok read
  induction reach with
  | refl => exact learn_counts counts text program
  | tail _ leads ih => exact leads.counts ih

theorem Machine.submit_counts {m : Machine} (counts : m.Counts []) (text : String) :
    (m.submit text).2.Counts [] := by
  cases parsed : (parse m.procedures text).result with
  | error e =>
    rw [submit_eq_of_error parsed]
    exact { counts with }
  | ok program =>
    have after := (learn_counts counts text program).of_sameDepth (program.run_sameDepth _)
    rw [submit_eq_of_ok parsed]
    cases ran : program.run (m.learn text program) with
    | ok u m' =>
      rw [Exec.after_of_ok ran] at after
      exact { after with }
    | error e m' =>
      rw [Exec.after_of_error ran] at after
      exact { after with }

theorem Machine.submitAll_counts (answers : Answers) (texts : List String) :
    ((Machine.initial answers).submitAll texts).Counts [] :=
  have initial : (Machine.initial answers).Counts [] := ⟨rfl, rfl, Nat.zero_le _⟩
  submitAll_induction (I := fun m => m.Counts []) initial
    (fun _ text counts => submit_counts counts text) texts

/-! ## Back to the call that was refused -/

/-- How large a task is. Statements count for more, since operands are put into a list. -/
noncomputable def Task.size : Task → Nat
  | .factor f => sizeOf f
  | .call c => sizeOf c
  | .inputs es => sizeOf es
  | .term t => sizeOf t
  | .expr e => sizeOf e
  | .clause c => sizeOf c
  | .condition c => sizeOf c
  | .statement s => 3 * sizeOf s
  | .block _ ss => 3 * sizeOf ss
  | .turns count body _ _ => 3 * (sizeOf count + sizeOf body)
  | .program p => 3 * sizeOf p

/-- How often a loop can go on at most, since a count has 32 bits. -/
def Task.left : Task → Nat
  | .turns _ _ k _ => 2147483648 - k
  | _ => 0

theorem Command.size_operands (c : Command) :
    sizeOf c.operands < 3 * sizeOf (Statement.command c) := by
  cases c <;> simp +arith [Command.operands]

theorem Expr.size_pos (e : Expr) : 0 < sizeOf e := by
  cases e <;> simp +arith

/-- A part is smaller, or a loop that goes on has fewer turns left. -/
theorem Task.Begins.lt {task part : Task} {m m' : Machine} (begins : task.Begins m part m') :
    part.size < task.size ∨ part.size = task.size ∧ part.left < task.left := by
  cases begins with
  | @otherTurns count body _ limit _ _ _ _ k _ below _ _ =>
    have bounded := limit.toInt_lt
    refine .inr ⟨rfl, ?_⟩
    show 2147483648 - (k + 1) < 2147483648 - k
    omega
  | operands => exact .inl (Command.size_operands _)
  | @count count _ _ _ =>
    have positive := count.size_pos
    refine .inl ?_
    show sizeOf count < 3 * (sizeOf count + _)
    omega
  | @turn count _ _ _ _ _ _ _ _ =>
    have positive := count.size_pos
    refine .inl ?_
    show 3 * _ < 3 * (sizeOf count + _)
    omega
  | _ => exact .inl (by simp +arith [Task.size])

/-- What a moment leads to has less room, or is smaller, or has fewer turns left. -/
theorem Moment.Leads.lt {now next : Moment} (leads : now.Leads next) :
    next.machine.room < now.machine.room ∨
      next.machine.room = now.machine.room ∧
        (next.task.size < now.task.size ∨
          next.task.size = now.task.size ∧ next.task.left < now.task.left) := by
  cases leads with
  | part begins =>
    refine .inr ⟨?_, begins.lt⟩
    rw [Machine.room, Machine.room, begins.sameDepth.calls]
  | @body _ _ _ _ _ m m₁ _ _ given room =>
    have same : m.SameDepth m₁ := .of_ok (evalAll_sameOwn _ m).sameDepth given
    refine .inl ?_
    show maxDepth - (m₁.calls + 1) < maxDepth - m.calls
    rw [← same.calls]
    omega

/-- A task that fails because a call is refused leads to that call. -/
theorem Moment.leads_to_refused (now : Moment) {called : String}
    (fails : now.task.run.Overflows now.machine called) :
    ∃ refused, Relation.ReflTransGen Leads now refused ∧ refused.Refuses called := by
  rcases now.blames fails with refuses | ⟨next, leads, fails⟩
  · exact ⟨now, .refl, refuses⟩
  · have less := leads.lt
    obtain ⟨refused, reach, refuses⟩ := next.leads_to_refused fails
    exact ⟨refused, .head leads reach, refuses⟩
termination_by (now.machine.room, now.task.size, now.task.left)
decreasing_by
  rcases less with fewer | ⟨room, smaller | ⟨size, fewer⟩⟩
  · exact .left _ _ fewer
  · rw [room]
    exact .right _ (.left _ _ smaller)
  · rw [room, size]
    exact .right _ (.right _ fewer)

/-! ## Calls -/

/-- The body of the procedure that is called is begun just if there is room for one more. -/
theorem Moment.leads_body_iff {active : List String} {name : Name} {arguments : List Expr}
    {p : Entry} {inputs : List Int32} {m m₁ : Machine}
    (found : m.procedures[name.text]? = some p) (arity : p.arity = arguments.length)
    (given : evalAll Procedure.run arguments m = .ok inputs m₁) :
    Leads ⟨active, .call (.procedure name arguments), m⟩
        ⟨name.text :: active, .block .done p.body, m₁.enter (p.locals inputs)⟩ ↔
      m₁.calls < maxDepth := by
  refine ⟨fun leads => ?_, .body found arity given⟩
  generalize same : (⟨name.text :: active, .block .done p.body, m₁.enter (p.locals inputs)⟩ :
    Moment) = next at leads
  cases leads with
  | part begins => exact absurd (congrArg Moment.active same) (List.cons_ne_self _ _)
  | body found' _ given' room =>
    cases found.symm.trans found'
    cases given.symm.trans given'
    exact room

/-- A call is refused just where 512 procedures are running. -/
theorem Moment.Refuses.full {now : Moment} {called : String} (refuses : now.Refuses called)
    (counts : now.machine.Counts now.active) : now.active.length = 512 := by
  obtain ⟨name, arguments, p, inputs, m₁, -, -, -, -, given, full⟩ := refuses
  have counts : m₁.Counts now.active :=
    counts.of_sameDepth (.of_ok (evalAll_sameOwn arguments _).sameDepth given)
  rw [counts.calls] at full
  exact Nat.le_antisymm counts.bounded full

/-- At every moment of every text of a session, and after all that is begun at it, the machine says
how many procedures are running, and has a set of variables for each besides the shared ones. They
are 512 at most: a call that is in order is refused just if so many are running, and then nothing
has happened but what its inputs did. A text that fails for that reason has come to such a call.
After a text nothing is running, however the text ended. -/
theorem depth_exact (answers : Answers) (texts : List String) :
    let m := (Machine.initial answers).submitAll texts
    (m.calls = 0 ∧ m.scopes.own = []) ∧
    (∀ text now, m.Visits text now →
      now.machine.Counts now.active ∧ (now.task.run.after now.machine).Counts now.active ∧
      ∀ name arguments p inputs m₁, now.task = .call (.procedure name arguments) →
        now.machine.procedures[name.text]? = some p → p.arity = arguments.length →
        evalAll Procedure.run arguments now.machine = .ok inputs m₁ →
        (now.Leads ⟨name.text :: now.active, .block .done p.body, m₁.enter (p.locals inputs)⟩ ↔
          now.active.length ≠ 512) ∧
        Call.run Procedure.run (.procedure name arguments) now.machine =
          if now.active.length = 512 then .error (.stackOverflow name.text) m₁
          else Exec.withScope (p.locals inputs) (runBlock Procedure.run .done p.body) m₁) ∧
    ∀ text program m₀ called m', m.read text = (.ok program, m₀) →
      program.run m₀ = .error (.stackOverflow called) m' →
      ∃ now, m.Visits text now ∧ now.Refuses called ∧ now.active.length = 512 := by
  intro m
  have between : m.Counts [] := Machine.submitAll_counts answers texts
  refine ⟨⟨between.calls, List.length_eq_zero_iff.1 (Nat.succ_inj.1 between.depth)⟩,
    fun text now visits => ?_, fun text program m₀ called m' read failed => ?_⟩
  · have counts := visits.counts between
    refine ⟨counts, counts.of_sameDepth (now.task.run_sameDepth _), ?_⟩
    rintro name arguments p inputs m₁ called found arity given
    have counts : m₁.Counts now.active :=
      counts.of_sameDepth (.of_ok (evalAll_sameOwn arguments _).sameDepth given)
    have bounded : now.active.length ≤ 512 := counts.bounded
    have room : m₁.calls < maxDepth ↔ now.active.length ≠ 512 := by
      rw [counts.calls, maxDepth]
      omega
    obtain ⟨active, task, machine⟩ := now
    cases called
    refine ⟨(Moment.leads_body_iff found arity given).trans room, ?_⟩
    rw [Call.run_of_inputs found arity given]
    split
    · next full => exact Exec.within_full (not_lt.1 fun less => room.1 less full)
    · next other => exact Exec.within_room (not_le.2 (room.2 other))
  · obtain ⟨now, reach, refuses⟩ :=
      Moment.leads_to_refused ⟨[], .program program, m₀⟩ ⟨m', failed⟩
    have visits : m.Visits text now := ⟨program, m₀, read, reach⟩
    exact ⟨now, visits, refuses, refuses.full (visits.counts between)⟩

/-- A procedure that does nothing but call itself is begun at first, and it is refused where 512 calls
of it are running. -/
theorem depth_exact_runaway :
    let m := (Machine.initial (.scripted [])).submitAll ["to f f end"]
    let called : Call := .procedure ⟨"f", .start⟩ []
    let m₀ := m.learn "f" [.statement (.call called)]
    let p : Entry := ⟨"f", [], some [.call (.procedure ⟨"f", ⟨5, 0, 5⟩⟩ [])]⟩
    m.Visits "f" ⟨[], .call called, m₀⟩ ∧ m₀.procedures["f"]? = some p ∧
    evalAll Procedure.run [] m₀ = .ok [] m₀ ∧ m₀.calls = 0 ∧
    Moment.Leads ⟨[], .call called, m₀⟩ ⟨["f"], .block .done p.body, m₀.enter (p.locals [])⟩ ∧
    ∃ now, m.Visits "f" now ∧ now.Refuses "f" ∧ now.active.length = 512 := by
  have parsed : (parse ((Machine.initial (.scripted [])).submitAll ["to f f end"]).procedures
      "f").result = .ok [.statement (.call (.procedure ⟨"f", .start⟩ []))] := by cbv
  have found : ((Machine.initial (.scripted [])).submitAll ["to f f end"]).procedures["f"]? =
      some ⟨"f", [], some [.call (.procedure ⟨"f", ⟨5, 0, 5⟩⟩ [])]⟩ := by cbv
  have overflows : (Program.run [.statement (.call (.procedure ⟨"f", .start⟩ []))]).Overflows
      (((Machine.initial (.scripted [])).submitAll ["to f f end"]).learn "f"
        [.statement (.call (.procedure ⟨"f", .start⟩ []))]) "f" := by decide +kernel
  intro m called m₀ p
  have read : m.read "f" = (.ok _, m₀) := Machine.read_of_ok parsed
  have visits : m.Visits "f" ⟨[], .call called, m₀⟩ :=
    ⟨_, m₀, read, .head (.part .firstItem) (.single (.part .callStatement))⟩
  obtain ⟨-, visited, overflowed⟩ := depth_exact (.scripted []) ["to f f end"]
  obtain ⟨counts, -, calls⟩ := visited "f" _ visits
  have begins := (calls ⟨"f", .start⟩ [] p [] m₀ rfl found rfl rfl).1
  obtain ⟨m', failed⟩ := overflows
  exact ⟨visits, found, rfl, counts.calls, begins.2 (by decide),
    overflowed "f" _ m₀ _ m' read failed⟩

end Logo
