import Logo.Execution
import Logo.Proofs.Calls

/-!
# Contracts

A contract says where it applies, which machines may come of a machine, and which errors may
occur. Two computations are alike under a contract if they do the same wherever it applies, and
what they do is allowed. Statements and expressions are built in such a way that all they do comes
from a few changes to the machine and from the procedures that they call. So if the changes are
permitted, and the procedures run alike by one runner and by another, then whole statements do.

With the same runner on both sides this tells what a statement can do; with two runners it also
tells that they are interchangeable.

Results:
1. `Contract.Alike.bind`, `Contract.Alike.inScope`: contracts compose.
2. `Expr.eval_alike`, `Condition.eval_alike`, `Call.run_alike`: what is evaluated keeps a contract
   that the called procedures keep.
3. `Statement.run_alike`, `runBlock_alike`: so do statements, if the contract permits the changes
   that commands make.
-/

namespace Logo

/-- The error is about which procedure a call means. -/
def RuntimeError.OfLookup : RuntimeError → Prop
  | .unknownProcedure _ => True
  | .wrongArity _ _ _ => True
  | _ => False

/-- What is promised of computations that begin where `Before` holds. -/
structure Contract where
  Before : Machine → Prop
  /-- What the machine may become. -/
  Leads : Machine → Machine → Prop
  /-- Which errors may occur. -/
  Fails : RuntimeError → Prop
  refl : ∀ m, Leads m m
  trans : ∀ {a b c}, Leads a b → Leads b c → Leads a c
  keeps : ∀ {a b}, Before a → Leads a b → Before b
  /-- Only what calls mean can be restricted. -/
  ordinary : ∀ {e : RuntimeError}, ¬ e.OfLookup → Fails e

namespace Contract

variable {c c' : Contract} {α β : Type}

/-- What came of a computation that began in `m` is as promised. -/
def Kept (c : Contract) (m : Machine) : EStateM.Result RuntimeError Machine α → Prop
  | .ok _ m' => c.Leads m m'
  | .error e m' => c.Leads m m' ∧ c.Fails e

/-- Where the contract applies, two computations do the same, and that is as promised. -/
def Alike (c : Contract) (x y : Exec α) : Prop :=
  ∀ m, c.Before m → y m = x m ∧ c.Kept m (x m)

theorem Kept.after {m m' : Machine} {r : EStateM.Result RuntimeError Machine α}
    (leads : c.Leads m m') (kept : c.Kept m' r) : c.Kept m r := by
  cases r with
  | ok a m'' => exact c.trans leads kept
  | error e m'' => exact ⟨c.trans leads kept.1, kept.2⟩

theorem Kept.mono {m : Machine} {r : EStateM.Result RuntimeError Machine α} (kept : c.Kept m r)
    (leads : ∀ m', c.Leads m m' → c'.Leads m m') (fails : ∀ e, c.Fails e → c'.Fails e) :
    c'.Kept m r := by
  cases r with
  | ok a m' => exact leads m' kept
  | error e m' => exact ⟨leads m' kept.1, fails e kept.2⟩

namespace Alike

/-! ## Composing -/

/-- A computation that does what is promised is like itself. -/
theorem of_kept {x : Exec α} (kept : ∀ m, c.Before m → c.Kept m (x m)) : c.Alike x x :=
  fun m before => ⟨rfl, kept m before⟩

theorem pure (a : α) : c.Alike (pure a) (pure a) := of_kept fun m _ => c.refl m

theorem throw {e : RuntimeError} (fails : c.Fails e) :
    c.Alike (throw e : Exec α) (throw e) :=
  of_kept fun m _ => ⟨c.refl m, fails⟩

/-- After an error it does not matter how the computations would have gone on. -/
theorem throw_bind {e : RuntimeError} {f g : α → Exec β} (fails : c.Fails e) :
    c.Alike ((MonadExcept.throw e : Exec α) >>= f) (MonadExcept.throw e >>= g) :=
  fun m _ => ⟨rfl, c.refl m, fails⟩

theorem modify {f : Machine → Machine} (leads : ∀ m, c.Leads m (f m)) :
    c.Alike (modify f) (modify f) :=
  of_kept fun m _ => leads m

/-- Computations that begin alike and go on alike are alike. -/
theorem bind {x y : Exec α} {f g : α → Exec β} (begin : c.Alike x y)
    (next : ∀ a, c.Alike (f a) (g a)) : c.Alike (x >>= f) (y >>= g) := by
  intro m before
  obtain ⟨same, kept⟩ := begin m before
  show EStateM.bind y g m = EStateM.bind x f m ∧ c.Kept m (EStateM.bind x f m)
  unfold EStateM.bind
  rw [same]
  cases ran : x m with
  | ok a m' =>
    rw [ran] at kept
    obtain ⟨same', kept'⟩ := next a m' (c.keeps before kept)
    exact ⟨same', kept'.after kept⟩
  | error e m' =>
    rw [ran] at kept
    exact ⟨rfl, kept⟩

/-- The machine in which a computation begins may decide what it is. -/
theorem get_bind {f g : Machine → Exec α} (next : ∀ m, c.Before m → c.Alike (f m) (g m)) :
    c.Alike (get >>= f) (get >>= g) :=
  fun m before => next m before m before

/-- A contract that promises less and applies where the other does is kept as well. -/
theorem weaken {x y : Exec α} (alike : c.Alike x y) (before : ∀ m, c'.Before m → c.Before m)
    (leads : ∀ a b, c.Leads a b → c'.Leads a b) (fails : ∀ e, c.Fails e → c'.Fails e) :
    c'.Alike x y := by
  intro m before'
  obtain ⟨same, kept⟩ := alike m (before m before')
  exact ⟨same, kept.mono (leads m) fails⟩

/-- What is alike in a procedure that is entered here is alike for who enters and leaves it. -/
theorem inScope_at {locals : Bindings Int32} {x y : Exec α} {m : Machine}
    (inside : y (m.enter locals) = x (m.enter locals) ∧
      c.Kept (m.enter locals) (x (m.enter locals)))
    (leave : ∀ m', c.Leads (m.enter locals) m' → c'.Leads m m'.leave)
    (fails : ∀ e, c.Fails e → c'.Fails e) :
    Exec.withScope locals y m = Exec.withScope locals x m ∧
      c'.Kept m (Exec.withScope locals x m) := by
  obtain ⟨same, kept⟩ := inside
  unfold Exec.withScope
  rw [same]
  cases ran : x (m.enter locals) with
  | ok a m' =>
    rw [ran] at kept
    exact ⟨rfl, leave m' kept⟩
  | error e m' =>
    rw [ran] at kept
    exact ⟨rfl, leave m' kept.1, fails e kept.2⟩

/-- What is alike in a procedure that has been entered is alike for who enters and leaves it. -/
theorem inScope {locals : Bindings Int32} {x y : Exec α} (alike : c.Alike x y)
    (enter : ∀ m, c'.Before m → c.Before (m.enter locals))
    (leave : ∀ m m', c.Leads (m.enter locals) m' → c'.Leads m m'.leave)
    (fails : ∀ e, c.Fails e → c'.Fails e) :
    c'.Alike (Exec.withScope locals x) (Exec.withScope locals y) :=
  fun m before => inScope_at (alike _ (enter m before)) (leave m) fails

end Alike

/-! ## Calls -/

/-- Where the contract applies, a call may fail to find a procedure only if the contract says so,
and the procedure that it finds is run alike by two runners. -/
structure Serves (c : Contract) (run run' : Runner) (site : CallSite) : Prop where
  unknown : ∀ {m}, c.Before m → m.procedures[site.name.text]? = none →
    c.Fails (.unknownProcedure site.name)
  arity : ∀ {m p}, c.Before m → m.procedures[site.name.text]? = some p → p.arity ≠ site.inputs →
    c.Fails (.wrongArity site.name p.arity site.inputs)
  run : ∀ {m p}, c.Before m → m.procedures[site.name.text]? = some p →
    ∀ inputs, c.Alike (run site.name.text p inputs) (run' site.name.text p inputs)

end Contract

theorem MulOp.apply_not_ofLookup (op : MulOp) {a b : Int32} {e : RuntimeError}
    (failed : op.apply a b = .error e) : ¬ e.OfLookup := by
  unfold apply at failed
  split at failed
  · cases failed
  · split at failed <;> cases failed
    exact id

variable {c : Contract} {run run' : Runner}

/-- Looking for the procedure that a call means; what is found is run alike afterwards. -/
theorem Contract.Serves.procedure_bind {α : Type} {site : CallSite} {f g : Entry → Exec α}
    (serves : c.Serves run run' site)
    (next : ∀ p, (∀ inputs, c.Alike (run site.name.text p inputs) (run' site.name.text p inputs)) →
      c.Alike (f p) (g p)) :
    c.Alike (Exec.procedure site.name site.inputs >>= f)
      (Exec.procedure site.name site.inputs >>= g) := by
  unfold Exec.procedure
  simp only [bind_assoc]
  refine .get_bind fun m before => ?_
  split
  · next missing => exact .throw_bind (serves.unknown before missing)
  · next p found =>
    split
    · next differ => exact .throw_bind (serves.arity before found differ)
    · exact next p (serves.run before found)

/-! ## Expressions -/

theorem Exec.lookup_alike (name : Name) : c.Alike (Exec.lookup name) (Exec.lookup name) := by
  unfold Exec.lookup
  refine .get_bind fun m _ => ?_
  split
  · exact .pure _
  · exact .throw (c.ordinary id)

mutual

theorem Factor.eval_alike : (f : Factor) → (∀ site ∈ f.calls, c.Serves run run' site) →
    c.Alike (f.eval run) (f.eval run')
  | .number n, _ => by
    simp only [Factor.eval]
    exact .pure _
  | .variable name, _ => by
    simp only [Factor.eval]
    exact Exec.lookup_alike name
  | .call call, serves => by
    simp only [Factor.calls] at serves
    simp only [Factor.eval]
    refine .bind (call.run_alike serves) fun outcome => ?_
    cases outcome.value? with
    | some value => exact .pure _
    | none => exact .throw (c.ordinary id)
  | .grouped e, serves => by
    simp only [Factor.calls] at serves
    simp only [Factor.eval]
    exact e.eval_alike serves

/-- Calls keep a contract that the called procedures keep. -/
theorem Call.run_alike : (call : Call) → (∀ site ∈ call.calls, c.Serves run run' site) →
    c.Alike (call.run run) (call.run run')
  | .reporter what, _ => by
    simp only [Call.run]
    exact .get_bind fun m _ => .pure _
  | .procedure name arguments, serves => by
    simp only [Call.calls, List.forall_mem_cons] at serves
    simp only [Call.run]
    refine serves.1.procedure_bind fun p alike => ?_
    exact .bind (evalAll_alike arguments serves.2) alike

theorem evalAll_alike : (es : List Expr) → (∀ site ∈ callsInAll es, c.Serves run run' site) →
    c.Alike (evalAll run es) (evalAll run' es)
  | [], _ => by
    simp only [evalAll]
    exact .pure _
  | e :: es, serves => by
    simp only [callsInAll, List.forall_mem_append] at serves
    simp only [evalAll]
    refine .bind (e.eval_alike serves.1) fun value => ?_
    exact .bind (evalAll_alike es serves.2) fun values => .pure _

theorem Term.eval_alike : (t : Term) → (∀ site ∈ t.calls, c.Serves run run' site) →
    c.Alike (t.eval run) (t.eval run')
  | .single f, serves => by
    simp only [Term.calls] at serves
    simp only [Term.eval]
    exact f.eval_alike serves
  | .chain f op rest, serves => by
    simp only [Term.calls, List.forall_mem_append] at serves
    simp only [Term.eval]
    refine .bind (f.eval_alike serves.1) fun left => ?_
    refine .bind (rest.eval_alike serves.2) fun right => ?_
    cases applied : op.apply left right with
    | ok value => exact .pure _
    | error e => exact .throw (c.ordinary (op.apply_not_ofLookup applied))

/-- Sums keep a contract that the called procedures keep. -/
theorem Expr.eval_alike : (e : Expr) → (∀ site ∈ e.calls, c.Serves run run' site) →
    c.Alike (e.eval run) (e.eval run')
  | .single negated t, serves => by
    simp only [Expr.calls] at serves
    simp only [Expr.eval]
    exact .bind (t.eval_alike serves) fun value => .pure _
  | .chain negated t op rest, serves => by
    simp only [Expr.calls, List.forall_mem_append] at serves
    simp only [Expr.eval]
    refine .bind (t.eval_alike serves.1) fun left => ?_
    exact .bind (rest.eval_alike serves.2) fun right => .pure _

end

/-! ## Conditions -/

mutual

theorem Clause.eval_alike : (clause : Clause) →
    (∀ site ∈ clause.calls, c.Serves run run' site) →
    c.Alike (clause.eval run) (clause.eval run')
  | .constant value, _ => by
    simp only [Clause.eval]
    exact .pure _
  | .negation inner, serves => by
    simp only [Clause.calls] at serves
    simp only [Clause.eval]
    exact .bind (inner.eval_alike serves) fun value => .pure _
  | .braced inner, serves => by
    simp only [Clause.calls] at serves
    simp only [Clause.eval]
    exact inner.eval_alike serves
  | .compared left op right, serves => by
    simp only [Clause.calls, List.forall_mem_append] at serves
    simp only [Clause.eval]
    refine .bind (left.eval_alike serves.1) fun left => ?_
    exact .bind (right.eval_alike serves.2) fun right => .pure _

/-- Conditions keep a contract that the called procedures keep, whether or not all of the
condition is evaluated. -/
theorem Condition.eval_alike : (condition : Condition) →
    (∀ site ∈ condition.calls, c.Serves run run' site) →
    c.Alike (condition.eval run) (condition.eval run')
  | .single clause, serves => by
    simp only [Condition.calls] at serves
    simp only [Condition.eval]
    exact clause.eval_alike serves
  | .chain clause op rest, serves => by
    simp only [Condition.calls, List.forall_mem_append] at serves
    simp only [Condition.eval]
    refine .bind (clause.eval_alike serves.1) fun left => ?_
    have right := rest.eval_alike serves.2
    cases op with
    | and => cases left with
      | true => exact right
      | false => exact .pure _
    | or => cases left with
      | true => exact .pure _
      | false => exact right
    | xor => exact .bind right fun value => .pure _

end

/-! ## Statements -/

/-- The machine after a question, whether or not it was answered. -/
def Machine.asked (m : Machine) (label : String) : Machine :=
  { m with
    canvas := (m.canvas.ask label).2.1
    journal := m.journal ++ (m.canvas.ask label).2.2 }

theorem Exec.prompt_eq (name : Name) (m : Machine) :
    Exec.prompt name m =
      match (m.canvas.ask name.text).1 with
      | some value => .ok value (m.asked name.text)
      | none => .error (.noInput name) (m.asked name.text) := by
  unfold Exec.prompt Machine.asked
  simp only [bind, EStateM.bind, get, getThe, MonadStateOf.get, EStateM.get]
  rcases m.canvas.ask name.text with ⟨_ | value, canvas, events⟩ <;> rfl

/-- The contract allows the changes that commands make. -/
structure Contract.Permits (c : Contract) : Prop where
  forward : ∀ length m, c.Leads m (m.forward length)
  turn : ∀ angle m, c.Leads m (m.turn angle)
  moveBy : ∀ dx dy m, c.Leads m (m.moveBy dx dy)
  moveTo : ∀ target m, c.Leads m (m.moveTo target)
  setHeading : ∀ heading m, c.Leads m (m.setHeading heading)
  home : ∀ m, c.Leads m m.home
  clear : ∀ m, c.Leads m m.clear
  setPen : ∀ down m, c.Leads m (m.setPen down)
  setColour : ∀ red green blue m, c.Leads m (m.setColour red green blue)
  print : ∀ text m, c.Leads m (m.print text)
  assign : ∀ reach name value m, c.Leads m (m.assign reach name value)
  ask : ∀ label m, c.Leads m (m.asked label)
  tell : ∀ e m, c.Leads m (m.tell e)

theorem Exec.prompt_alike (permits : c.Permits) (name : Name) :
    c.Alike (Exec.prompt name) (Exec.prompt name) := by
  refine .of_kept fun m _ => ?_
  rw [Exec.prompt_eq]
  split
  · exact permits.ask _ m
  · exact ⟨permits.ask _ m, c.ordinary id⟩

theorem Command.run_alike (permits : c.Permits) (command : Command)
    (serves : ∀ site ∈ command.calls, c.Serves run run' site) :
    c.Alike (command.run run) (command.run run') := by
  have operand : ∀ e ∈ command.operands, c.Alike (e.eval run) (e.eval run') := by
    intro e among
    refine e.eval_alike fun site inside => serves site ?_
    exact mem_callsInAll.2 ⟨e, among, inside⟩
  cases command <;>
    simp only [Command.operands, List.forall_mem_cons, List.not_mem_nil, false_implies,
      implies_true, and_true] at operand <;>
    simp only [Command.run]
  case forward length => exact .bind operand fun _ => .modify (permits.forward _)
  case back length => exact .bind operand fun _ => .modify (permits.forward _)
  case right angle => exact .bind operand fun _ => .modify (permits.turn _)
  case left angle => exact .bind operand fun _ => .modify (permits.turn _)
  case moveBy dx dy =>
    exact .bind operand.1 fun _ => .bind operand.2 fun _ => .modify (permits.moveBy _ _)
  case moveTo x y =>
    exact .bind operand.1 fun _ => .bind operand.2 fun _ => .modify (permits.moveTo _)
  case setHeading heading => exact .bind operand fun _ => .modify (permits.setHeading _)
  case home => exact .modify permits.home
  case clearScreen => exact .modify permits.clear
  case penUp => exact .modify (permits.setPen _)
  case penDown => exact .modify (permits.setPen _)
  case setColor red green blue =>
    exact .bind operand.1 fun _ => .bind operand.2.1 fun _ => .bind operand.2.2 fun _ =>
      .modify (permits.setColour _ _ _)
  case printText text => exact .modify (permits.print _)
  case printNumber value => exact .bind operand fun _ => .modify (permits.print _)
  case scan reach target =>
    exact .bind (Exec.prompt_alike permits target) fun _ => .modify (permits.assign _ _ _)
  case make reach target value => exact .bind operand fun _ => .modify (permits.assign _ _ _)
  case sleep milliseconds =>
    refine .bind operand fun ms => ?_
    split
    · exact .throw (c.ordinary id)
    · exact .modify (permits.tell _)

/-- Loops are alike if their counts and their bodies are. -/
theorem loopFrom_alike {count count' : Exec Int32} {body body' : Exec Outcome}
    (counts : c.Alike count count') (bodies : c.Alike body body') (done : Nat) (last : Outcome) :
    c.Alike (loopFrom count body done last) (loopFrom count' body' done last) := by
  induction left : 2147483648 - done using Nat.strongRecOn generalizing done last with
  | ind n ih =>
    unfold loopFrom
    refine .bind counts fun n => ?_
    split
    · refine .bind bodies fun outcome => ?_
      split
      · exact .pure _
      · -- the count has 32 bits, so there is one round less left
        have := n.toInt_lt
        exact ih _ (by omega) _ _ rfl
    · exact .pure _

mutual

/-- Statements keep a contract that permits what commands do and that the called procedures
keep. -/
theorem Statement.run_alike (permits : c.Permits) : (s : Statement) →
    (∀ site ∈ s.calls, c.Serves run run' site) → c.Alike (s.run run) (s.run run')
  | .command command, serves => by
    simp only [Statement.calls] at serves
    simp only [Statement.run]
    exact .bind (command.run_alike permits serves) fun _ => .pure _
  | .call call, serves => by
    simp only [Statement.calls] at serves
    simp only [Statement.run]
    exact call.run_alike serves
  | .output value, serves => by
    simp only [Statement.calls] at serves
    simp only [Statement.run]
    exact .bind (value.eval_alike serves) fun _ => .pure _
  | .ifTrue condition body, serves => by
    simp only [Statement.calls, List.forall_mem_append] at serves
    simp only [Statement.run]
    refine .bind (condition.eval_alike serves.1) fun holds => ?_
    cases holds with
    | true => exact runBlock_alike permits body serves.2
    | false => exact .pure _
  | .loop count body, serves => by
    simp only [Statement.calls, List.forall_mem_append] at serves
    simp only [Statement.run]
    split
    · exact .pure _
    · exact loopFrom_alike (count.eval_alike serves.1) (runBlock_alike permits body serves.2) _ _

/-- So do lists of statements, whatever came before them. -/
theorem runBlock_alike (permits : c.Permits) : {last : Outcome} → (ss : List Statement) →
    (∀ site ∈ blockCalls ss, c.Serves run run' site) →
    c.Alike (runBlock run last ss) (runBlock run' last ss)
  | _, [], _ => by
    simp only [runBlock]
    exact .pure _
  | _, s :: rest, serves => by
    simp only [blockCalls, List.forall_mem_append] at serves
    simp only [runBlock]
    refine .bind (s.run_alike permits serves.1) fun outcome => ?_
    split
    · exact .pure _
    · exact runBlock_alike permits rest serves.2

end

end Logo
