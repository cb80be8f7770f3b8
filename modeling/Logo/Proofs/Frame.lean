import Logo.Proofs.Contract

/-!
# What statements leave as it was

A running procedure can set its own variables and the shared ones, and no others: when it is left
its variables are gone, and those of the procedures that led to it are untouched. This holds
however a statement ends.

How many procedures can still be run inside each other (`Procedure.runWithin`) follows from how
many are running, so it never has to be said: calls in a body are run as all calls are.

Results:
1. `Procedure.runWithin_alike`: procedures keep these contracts by any runner that has room enough.
2. `Procedure.run_eq`: what running a procedure comes to, without counting down.
3. `scopes_kept`: what statements, expressions, conditions and calls leave as it was.
-/

namespace Logo

/-- The machine after a computation, whether or not that failed. -/
def Exec.after {α : Type} (x : Exec α) (m : Machine) : Machine :=
  match x m with
  | .ok _ m' => m'
  | .error _ m' => m'

theorem Exec.after_of_ok {α : Type} {x : Exec α} {a : α} {m m' : Machine}
    (ran : x m = .ok a m') : x.after m = m' := by
  rw [Exec.after, ran]

theorem Exec.after_of_error {α : Type} {x : Exec α} {e : RuntimeError} {m m' : Machine}
    (failed : x m = .error e m') : x.after m = m' := by
  rw [Exec.after, failed]

namespace Machine

variable {a b m m' : Machine}

/-- The procedures are the same, and of the variables only shared ones may differ. -/
structure SameOwn (m m' : Machine) : Prop where
  procedures : m'.procedures = m.procedures
  calls : m'.calls = m.calls
  own : m'.scopes.own = m.scopes.own

/-- The procedures are the same, and of the variables only shared ones and those of the innermost
procedure may differ. -/
structure SameOutside (m m' : Machine) : Prop where
  procedures : m'.procedures = m.procedures
  calls : m'.calls = m.calls
  depth : m'.scopes.depth = m.scopes.depth
  outer : m'.scopes.own.tail = m.scopes.own.tail

theorem calls_add_room (m : Machine) : maxDepth ≤ m.calls + m.room := by
  rw [room]
  omega

theorem SameOwn.refl (m : Machine) : m.SameOwn m := ⟨rfl, rfl, rfl⟩

theorem SameOwn.trans (first : m.SameOwn a) (second : a.SameOwn b) : m.SameOwn b where
  procedures := second.procedures.trans first.procedures
  calls := second.calls.trans first.calls
  own := second.own.trans first.own

theorem SameOutside.refl (m : Machine) : m.SameOutside m := ⟨rfl, rfl, rfl, rfl⟩

theorem SameOutside.trans (first : m.SameOutside a) (second : a.SameOutside b) :
    m.SameOutside b where
  procedures := second.procedures.trans first.procedures
  calls := second.calls.trans first.calls
  depth := second.depth.trans first.depth
  outer := second.outer.trans first.outer

theorem SameOwn.outside (same : m.SameOwn m') : m.SameOutside m' where
  procedures := same.procedures
  calls := same.calls
  depth := by rw [Scopes.depth, Scopes.depth, same.own]
  outer := by rw [same.own]

/-- What happens to the variables of a procedure does not matter once it has been left. -/
theorem SameOutside.leave {locals : Bindings Int32} (same : (m.enter locals).SameOutside m') :
    m.SameOwn m'.leave where
  procedures := same.procedures
  calls := by
    show m'.calls - 1 = m.calls
    rw [same.calls]
    rfl
  own := same.outer

/-- Setting a variable leaves the outer procedures' variables as they were. -/
theorem assign_sameOutside (reach : Reach) (name : String) (value : Int32) (m : Machine) :
    m.SameOutside (m.assign reach name value) := by
  cases reach with
  | shared => exact ⟨rfl, rfl, rfl, rfl⟩
  | own =>
    refine ⟨rfl, rfl, ?_, ?_⟩ <;> rcases scopes : m.scopes with ⟨shared, _ | ⟨inner, outer⟩⟩ <;>
      simp only [assign, Scopes.set, Scopes.setOwn, Scopes.setShared, Scopes.depth, scopes,
        List.length_cons, List.tail_cons]

end Machine

/-! ## The contracts -/

namespace Contract

variable (known : Procedures) (calls : Nat) (allowed : RuntimeError → Prop)

/-- What is promised of evaluating something while so many procedures are running. Which errors of
calls may occur is left open. -/
def evaluating : Contract where
  Before m := m.procedures = known ∧ m.calls = calls
  Leads := Machine.SameOwn
  Fails e := e.OfLookup → allowed e
  refl := Machine.SameOwn.refl
  trans := Machine.SameOwn.trans
  keeps before same := ⟨same.procedures.trans before.1, same.calls.trans before.2⟩
  ordinary other lookup := absurd lookup other

/-- What is promised of running a statement while so many procedures are running. -/
def executing : Contract where
  Before m := m.procedures = known ∧ m.calls = calls
  Leads := Machine.SameOutside
  Fails e := e.OfLookup → allowed e
  refl := Machine.SameOutside.refl
  trans := Machine.SameOutside.trans
  keeps before same := ⟨same.procedures.trans before.1, same.calls.trans before.2⟩
  ordinary other lookup := absurd lookup other

variable {known calls allowed}

/-- Evaluating promises more than running a statement does. -/
theorem Alike.executing {α : Type} {x y : Exec α}
    (alike : (evaluating known calls allowed).Alike x y) :
    (executing known calls allowed).Alike x y :=
  alike.weaken (fun _ before => before) (fun _ _ same => same.outside) fun _ fails => fails

theorem executing_permits : (executing known calls allowed).Permits where
  forward _ _ := ⟨rfl, rfl, rfl, rfl⟩
  turn _ _ := ⟨rfl, rfl, rfl, rfl⟩
  moveBy _ _ _ := ⟨rfl, rfl, rfl, rfl⟩
  moveTo _ _ := ⟨rfl, rfl, rfl, rfl⟩
  setHeading _ _ := ⟨rfl, rfl, rfl, rfl⟩
  home _ := ⟨rfl, rfl, rfl, rfl⟩
  clear _ := ⟨rfl, rfl, rfl, rfl⟩
  setPen _ _ := ⟨rfl, rfl, rfl, rfl⟩
  setColour _ _ _ _ := ⟨rfl, rfl, rfl, rfl⟩
  print _ _ := ⟨rfl, rfl, rfl, rfl⟩
  assign := Machine.assign_sameOutside
  ask _ _ := ⟨rfl, rfl, rfl, rfl⟩
  tell _ _ := ⟨rfl, rfl, rfl, rfl⟩

end Contract

/-! ## Procedures -/

theorem Exec.within_full {α : Type} {name : String} {locals : Bindings Int32} {x : Exec α}
    {m : Machine} (full : maxDepth ≤ m.calls) :
    Exec.within name locals x m = .error (.stackOverflow name) m := by
  show (if maxDepth ≤ m.calls then throw (.stackOverflow name) else _ : Exec α) m = _
  rw [if_pos full]
  rfl

theorem Exec.within_room {α : Type} {name : String} {locals : Bindings Int32} {x : Exec α}
    {m : Machine} (room : ¬ maxDepth ≤ m.calls) :
    Exec.within name locals x m = Exec.withScope locals x m := by
  show (if maxDepth ≤ m.calls then _ else Exec.withScope locals x : Exec α) m = _
  rw [if_neg room]

/-- What is alike in a procedure that has been entered is alike for who calls the procedure. -/
theorem Contract.Alike.within {known : Procedures} {calls : Nat} {allowed : RuntimeError → Prop}
    {α : Type} {x y : Exec α}
    (alike : (Contract.executing known (calls + 1) allowed).Alike x y) (name : String)
    (locals : Bindings Int32) :
    (Contract.evaluating known calls allowed).Alike (Exec.within name locals x)
      (Exec.within name locals y) := by
  unfold Exec.within
  refine .get_bind fun m _ => ?_
  split
  · exact .throw False.elim
  · refine alike.inScope (fun m before => ?_) (fun m m' => Machine.SameOutside.leave) fun _ => id
    exact ⟨before.1, congrArg (· + 1) before.2⟩

/-- Runs a procedure as `Procedure.runWithin` does, and lets `watch` see each procedure that is
entered. -/
def Procedure.watchedWithin (watch : String → Entry → Exec Unit) : (room : Nat) → Runner
  | 0, name, _, _ => throw (.stackOverflow name)
  | room + 1, name, p, inputs =>
    Exec.within name (p.locals inputs) do
      watch name p
      runBlock (Procedure.watchedWithin watch room) .done p.body

/-- Runs a procedure, and lets `watch` see each procedure that is entered. -/
def Procedure.watched (watch : String → Entry → Exec Unit) : Runner := fun name p inputs => do
  Procedure.watchedWithin watch (← get).room name p inputs

/-- The call is of a name in `reached`, and it means a procedure that takes so many inputs, or is
allowed to fail. -/
structure CallSite.Resolved (known : Procedures) (allowed : RuntimeError → Prop)
    (reached : String → Prop) (site : CallSite) : Prop where
  reached : reached site.name.text
  unknown : known[site.name.text]? = none → allowed (.unknownProcedure site.name)
  arity : ∀ {p}, known[site.name.text]? = some p → p.arity ≠ site.inputs →
    allowed (.wrongArity site.name p.arity site.inputs)

/-- The calls in the procedures of these names are resolved, and do not lead to other names. -/
def Procedures.Resolved (known : Procedures) (allowed : RuntimeError → Prop)
    (reached : String → Prop) : Prop :=
  ∀ {name : String} {p : Entry}, reached name → known[name]? = some p →
    ∀ site ∈ blockCalls p.body, site.Resolved known allowed reached

/-- `watch` does nothing when it sees the procedure that is known by one of these names. -/
def Procedures.Unseen (known : Procedures) (watch : String → Entry → Exec Unit)
    (reached : String → Prop) : Prop :=
  ∀ {name : String} {p : Entry}, reached name → known[name]? = some p → watch name p = pure ()

/-- If any call may be made and may fail, all calls are fine. -/
theorem CallSite.resolved_of_any (known : Procedures) (site : CallSite) :
    site.Resolved known (fun _ => True) fun _ => True :=
  ⟨trivial, fun _ => trivial, fun _ _ => trivial⟩

theorem Procedures.resolved_of_any (known : Procedures) :
    known.Resolved (fun _ => True) fun _ => True :=
  fun _ _ site _ => site.resolved_of_any known

namespace Contract

variable {known : Procedures} {calls : Nat} {allowed : RuntimeError → Prop}
  {reached : String → Prop} {run run' : Runner} {site : CallSite}

/-- What a call means is served if the procedure that it means is run alike. -/
theorem resolved_serves (meant : site.Resolved known allowed reached)
    (alike : ∀ {p}, known[site.name.text]? = some p → ∀ inputs,
      (evaluating known calls allowed).Alike (run site.name.text p inputs)
        (run' site.name.text p inputs)) :
    (evaluating known calls allowed).Serves run run' site where
  unknown := by
    rintro m ⟨rfl, -⟩ missing -
    exact meant.unknown missing
  arity := by
    rintro m p ⟨rfl, -⟩ found differ -
    exact meant.arity found differ
  run := by
    rintro m p ⟨rfl, -⟩ found inputs
    exact alike found inputs

theorem Serves.executing (serves : (evaluating known calls allowed).Serves run run' site) :
    (executing known calls allowed).Serves run run' site where
  unknown := serves.unknown
  arity := serves.arity
  run before found inputs := (serves.run before found inputs).executing

end Contract

namespace Procedure

variable {known : Procedures} {calls room : Nat} {allowed : RuntimeError → Prop}
  {reached : String → Prop} {watch : String → Entry → Exec Unit} {name : String} {p : Entry}
  {inputs : List Int32}

/-- Where nothing is to be seen, watching changes nothing. -/
theorem watchedWithin_nothing (room : Nat) :
    watchedWithin (fun _ _ => pure ()) room = runWithin room := by
  induction room with
  | zero => rfl
  | succ room ih =>
    funext name p inputs
    simp only [watchedWithin, runWithin, ih, pure_bind]

theorem watched_nothing : watched (fun _ _ => pure ()) = run := by
  unfold watched run
  simp only [watchedWithin_nothing]

/-- A call is refused if too many procedures are running, whatever room is left for it. -/
theorem watchedWithin_full {m : Machine} (full : maxDepth ≤ m.calls) :
    watchedWithin watch room name p inputs m = .error (.stackOverflow name) m := by
  cases room with
  | zero => rfl
  | succ room => rw [watchedWithin, Exec.within_full full]

/-- A procedure keeps the contract by any runner that has room enough, and it does not matter which
room that is and whether it is watched, as long as nothing is to be seen. -/
theorem runWithin_alike {room' : Nat} (resolved : known.Resolved allowed reached)
    (unseen : known.Unseen watch reached) (enough : maxDepth ≤ calls + room)
    (enough' : maxDepth ≤ calls + room') (among : reached name) (bound : known[name]? = some p) :
    (Contract.evaluating known calls allowed).Alike (runWithin room name p inputs)
      (watchedWithin watch room' name p inputs) := by
  rw [← watchedWithin_nothing]
  -- each call takes one room and adds one running procedure, so what is enough stays enough
  induction room generalizing calls room' name p inputs with
  | zero =>
    -- no room is left only if too many are running, and then the other runner refuses as well
    rintro m ⟨-, count⟩
    rw [watchedWithin_full (by omega)]
    exact ⟨rfl, .refl m, False.elim⟩
  | succ room ih =>
    cases room' with
    | zero =>
      rintro m ⟨-, count⟩
      rw [watchedWithin_full (by omega), watchedWithin_full (by omega)]
      exact ⟨rfl, .refl m, False.elim⟩
    | succ room' =>
      have body : (Contract.executing known (calls + 1) allowed).Alike
          (runBlock (watchedWithin (fun _ _ => pure ()) room) .done p.body)
          (runBlock (watchedWithin watch room') .done p.body) :=
        runBlock_alike Contract.executing_permits p.body fun site inside =>
          have meant := resolved among bound site inside
          Contract.Serves.executing (Contract.resolved_serves meant
            fun found _ => ih (by omega) (by omega) meant.reached found)
      simp only [watchedWithin, unseen among bound, pure_bind]
      exact body.within _ _

theorem runWithin_alike_watched (resolved : known.Resolved allowed reached)
    (unseen : known.Unseen watch reached) (enough : maxDepth ≤ calls + room) (among : reached name)
    (bound : known[name]? = some p) :
    (Contract.evaluating known calls allowed).Alike (runWithin room name p inputs)
      (watched watch name p inputs) := by
  rintro m ⟨same, rfl⟩
  exact runWithin_alike resolved unseen enough m.calls_add_room among bound m ⟨same, rfl⟩

/-- Whatever is called keeps the contract, whether or not it is watched. -/
theorem run_serves {site : CallSite} (resolved : known.Resolved allowed reached)
    (unseen : known.Unseen watch reached) (meant : site.Resolved known allowed reached) :
    (Contract.evaluating known calls allowed).Serves run (watched watch) site := by
  refine Contract.resolved_serves meant fun bound inputs => ?_
  rintro m ⟨same, rfl⟩
  exact runWithin_alike_watched resolved unseen m.calls_add_room meant.reached bound m
    ⟨same, rfl⟩

/-- What running a procedure comes to: if there is room for one more, its body is run with
variables of its own, and calls in it are run as this one is. -/
theorem run_eq (name : String) (p : Entry) (inputs : List Int32) :
    run name p inputs =
      Exec.within name (p.locals inputs) (runBlock run .done p.body) := by
  funext m
  show runWithin m.room name p inputs m = _
  by_cases full : maxDepth ≤ m.calls
  · rw [← watchedWithin_nothing, watchedWithin_full full, Exec.within_full full]
  · obtain ⟨room, left⟩ : ∃ room, m.room = room + 1 := ⟨m.room - 1, by rw [Machine.room]; omega⟩
    have body : (Contract.executing m.procedures (m.calls + 1) fun _ => True).Alike
        (runBlock (runWithin room) .done p.body) (runBlock run .done p.body) := by
      rw [← watched_nothing]
      refine runBlock_alike Contract.executing_permits p.body fun site _ => .executing ?_
      refine Contract.resolved_serves (site.resolved_of_any m.procedures) fun bound _ => ?_
      have := m.calls_add_room
      exact runWithin_alike_watched (Procedures.resolved_of_any _) (fun _ _ => rfl) (by omega)
        trivial bound
    rw [left, runWithin, Exec.within_room full, Exec.within_room full]
    unfold Exec.withScope
    rw [(body (m.enter (p.locals inputs)) ⟨rfl, rfl⟩).1]

theorem run_serves_run {site : CallSite} (resolved : known.Resolved allowed reached)
    (meant : site.Resolved known allowed reached) :
    (Contract.evaluating known calls allowed).Serves run run site := by
  have serves : (Contract.evaluating known calls allowed).Serves run
      (watched fun _ _ => pure ()) site := run_serves resolved (fun _ _ => rfl) meant
  rwa [watched_nothing] at serves

end Procedure

/-! ## What is left as it was -/

theorem Contract.Kept.leads_after {c : Contract} {α : Type} {x : Exec α} {m : Machine}
    (kept : c.Kept m (x m)) : c.Leads m (x.after m) := by
  unfold Exec.after
  cases ran : x m with
  | ok a m' =>
    rw [ran] at kept
    exact kept
  | error e m' =>
    rw [ran] at kept
    exact kept.1

theorem Procedure.run_serves_any (m : Machine) (site : CallSite) :
    (Contract.evaluating m.procedures m.calls fun _ => True).Serves Procedure.run Procedure.run
      site :=
  Procedure.run_serves_run m.procedures.resolved_of_any (site.resolved_of_any m.procedures)

theorem Statement.run_sameOutside (s : Statement) (m : Machine) :
    m.SameOutside ((s.run Procedure.run).after m) := by
  have alike := s.run_alike Contract.executing_permits fun site _ =>
    (Procedure.run_serves_any m site).executing
  exact (alike m ⟨rfl, rfl⟩).2.leads_after

theorem runBlock_sameOutside (last : Outcome) (ss : List Statement) (m : Machine) :
    m.SameOutside ((runBlock Procedure.run last ss).after m) := by
  have alike : (Contract.executing m.procedures m.calls fun _ => True).Alike
      (runBlock Procedure.run last ss) (runBlock Procedure.run last ss) :=
    runBlock_alike Contract.executing_permits ss fun site _ =>
      (Procedure.run_serves_any m site).executing
  exact (alike m ⟨rfl, rfl⟩).2.leads_after

theorem loopFrom_sameOutside (count : Expr) (body : List Statement) (done : Nat) (last : Outcome)
    (m : Machine) :
    m.SameOutside
      ((loopFrom (count.eval Procedure.run) (runBlock Procedure.run .done body) done last).after m) := by
  have counts : (Contract.executing m.procedures m.calls fun _ => True).Alike
      (count.eval Procedure.run) (count.eval Procedure.run) :=
    (count.eval_alike fun site _ => Procedure.run_serves_any m site).executing
  have bodies : (Contract.executing m.procedures m.calls fun _ => True).Alike
      (runBlock Procedure.run .done body) (runBlock Procedure.run .done body) :=
    runBlock_alike Contract.executing_permits body fun site _ =>
      (Procedure.run_serves_any m site).executing
  exact (loopFrom_alike counts bodies done last m ⟨rfl, rfl⟩).2.leads_after

theorem Factor.eval_sameOwn (f : Factor) (m : Machine) :
    m.SameOwn ((f.eval Procedure.run).after m) := by
  have alike := f.eval_alike fun site _ => Procedure.run_serves_any m site
  exact (alike m ⟨rfl, rfl⟩).2.leads_after

theorem Term.eval_sameOwn (t : Term) (m : Machine) :
    m.SameOwn ((t.eval Procedure.run).after m) := by
  have alike := t.eval_alike fun site _ => Procedure.run_serves_any m site
  exact (alike m ⟨rfl, rfl⟩).2.leads_after

theorem Expr.eval_sameOwn (e : Expr) (m : Machine) :
    m.SameOwn ((e.eval Procedure.run).after m) := by
  have alike := e.eval_alike fun site _ => Procedure.run_serves_any m site
  exact (alike m ⟨rfl, rfl⟩).2.leads_after

theorem evalAll_sameOwn (es : List Expr) (m : Machine) :
    m.SameOwn ((evalAll Procedure.run es).after m) := by
  have alike := evalAll_alike es fun site _ => Procedure.run_serves_any m site
  exact (alike m ⟨rfl, rfl⟩).2.leads_after

theorem Clause.eval_sameOwn (clause : Clause) (m : Machine) :
    m.SameOwn ((clause.eval Procedure.run).after m) := by
  have alike := clause.eval_alike fun site _ => Procedure.run_serves_any m site
  exact (alike m ⟨rfl, rfl⟩).2.leads_after

theorem Condition.eval_sameOwn (condition : Condition) (m : Machine) :
    m.SameOwn ((condition.eval Procedure.run).after m) := by
  have alike := condition.eval_alike fun site _ => Procedure.run_serves_any m site
  exact (alike m ⟨rfl, rfl⟩).2.leads_after

theorem Call.run_sameOwn (call : Call) (m : Machine) :
    m.SameOwn ((call.run Procedure.run).after m) := by
  have alike := call.run_alike fun site _ => Procedure.run_serves_any m site
  exact (alike m ⟨rfl, rfl⟩).2.leads_after

/-- However it ends, a statement leaves as many sets of variables and as many running procedures as
there were, the procedures as they were known, and the variables of all procedures but the
innermost. What is evaluated, inputs of calls included, sets nothing but shared variables. -/
theorem scopes_kept (m : Machine) :
    (∀ s : Statement, m.SameOutside ((s.run Procedure.run).after m)) ∧
    (∀ e : Expr, m.SameOwn ((e.eval Procedure.run).after m)) ∧
    (∀ condition : Condition, m.SameOwn ((condition.eval Procedure.run).after m)) ∧
    ∀ call : Call, m.SameOwn ((call.run Procedure.run).after m) :=
  ⟨fun s => s.run_sameOutside m, fun e => e.eval_sameOwn m,
    fun condition => condition.eval_sameOwn m, fun call => call.run_sameOwn m⟩

end Logo
