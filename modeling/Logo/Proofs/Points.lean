import Mathlib
import Logo.Proofs.Session

/-!
# Every point of a run

A contract compares the machine before and after a computation. What lies between cannot be read off
the result, so it is said by looking on: `Statement.observed` runs a statement as `Statement.run` does,
and lets somebody look before and after each statement that is run on the way, at any depth of calls.
If nothing comes of looking, whatever the one who looks would do where some property fails, then the
property holds at each of these points.

A contract that permits all changes to the machine is kept by all that can run, and it applies at all
of these points if it applies at the beginning.

Result: `Program.observed_alike`.
-/

namespace Logo

/-! ## Looking on -/

mutual

/-- Runs a statement, and looks before and after each statement inside. -/
def Statement.observed (look : Exec Unit) (run : Runner) : Statement → Exec Outcome
  | .command c => (Statement.command c).run run
  | .call c => (Statement.call c).run run
  | .output value => (Statement.output value).run run
  | .ifTrue condition body => do
    if ← condition.eval run then observedBlock look run .done body else return .done
  | .loop count body =>
    if body.isEmpty then return .done
    else loopFrom (count.eval run) (observedBlock look run .done body) 0 .done

/-- Runs statements after one that ended as `last`, and looks before and after each of them. -/
def observedBlock (look : Exec Unit) (run : Runner) (last : Outcome) :
    List Statement → Exec Outcome
  | [] => return last
  | s :: rest => do
    look
    let outcome ← s.observed look run
    look
    if outcome.isOutput then return outcome else observedBlock look run outcome rest

end

/-- Runs a procedure as `Procedure.runWithin` does, and looks before and after each statement. -/
def Procedure.observedWithin (look : Exec Unit) : (room : Nat) → Runner
  | 0, name, _, _ => throw (.stackOverflow name)
  | room + 1, name, p, inputs =>
    Exec.within name (p.locals inputs)
      (observedBlock look (Procedure.observedWithin look room) .done p.body)

/-- Runs a procedure, and looks before and after each statement. -/
def Procedure.observed (look : Exec Unit) : Runner := fun name p inputs => do
  Procedure.observedWithin look (← get).room name p inputs

/-- Runs a part of a program, and looks before and after each statement inside. -/
def Item.observed (look : Exec Unit) : Item → Exec Outcome
  | .definition p => (Item.definition p).run
  | .statement s => s.observed look (Procedure.observed look)

/-- Runs a program, and looks before and after each of its parts and each statement inside. -/
def Program.observed (look : Exec Unit) (program : Program) : Exec Unit :=
  program.forM fun item => do
    look
    discard (item.observed look)
    look

/-! ## What is kept everywhere -/

/-- The contract allows all that can happen to the machine, and forbids no error. -/
structure Contract.Pervades (c : Contract) : Prop where
  permits : c.Permits
  define : ∀ p m, c.Leads m (m.define p)
  enter : ∀ {m locals}, m.calls < maxDepth → c.Before m → c.Before (m.enter locals)
  leave : ∀ {m m' locals}, c.Leads (m.enter locals) m' → c.Leads m m'.leave
  fails : ∀ e, c.Fails e

/-- Nothing comes of looking where the contract applies. -/
def Contract.Unseen (c : Contract) (look : Exec Unit) : Prop := ∀ m, c.Before m → look m = .ok () m

section

variable {c : Contract} {look : Exec Unit} {run run' : Runner}

/-- Looking changes nothing before and after something that keeps the contract. -/
theorem Contract.Alike.look_bind {α : Type} {x y : Exec α} (unseen : c.Unseen look)
    (alike : c.Alike x y) : c.Alike x (look >>= fun _ => y) := by
  intro m before
  have seen : (look >>= fun _ => y) m = y m := by
    show EStateM.bind look (fun _ => y) m = y m
    rw [EStateM.bind, unseen m before]
  rw [seen]
  exact alike m before

mutual

/-- Statements are observed as they run, if that is so for the procedures that they call. -/
theorem Statement.observed_alike (permits : c.Permits) (unseen : c.Unseen look) : (s : Statement) →
    (∀ site ∈ s.calls, c.Serves run run' site) → c.Alike (s.run run) (s.observed look run')
  | .command command, serves => by
    simp only [Statement.observed]
    exact Statement.run_alike permits _ serves
  | .call call, serves => by
    simp only [Statement.observed]
    exact Statement.run_alike permits _ serves
  | .output value, serves => by
    simp only [Statement.observed]
    exact Statement.run_alike permits _ serves
  | .ifTrue condition body, serves => by
    simp only [Statement.calls, List.forall_mem_append] at serves
    simp only [Statement.run, Statement.observed]
    refine .bind (condition.eval_alike serves.1) fun holds => ?_
    cases holds with
    | true => exact observedBlock_alike permits unseen body serves.2
    | false => exact .pure _
  | .loop count body, serves => by
    simp only [Statement.calls, List.forall_mem_append] at serves
    simp only [Statement.run, Statement.observed]
    split
    · exact .pure _
    · exact loopFrom_alike (count.eval_alike serves.1)
        (observedBlock_alike permits unseen body serves.2) _ _

theorem observedBlock_alike (permits : c.Permits) (unseen : c.Unseen look) :
    {last : Outcome} → (ss : List Statement) → (∀ site ∈ blockCalls ss, c.Serves run run' site) →
    c.Alike (runBlock run last ss) (observedBlock look run' last ss)
  | _, [], _ => by
    simp only [runBlock, observedBlock]
    exact .pure _
  | _, s :: rest, serves => by
    simp only [blockCalls, List.forall_mem_append] at serves
    simp only [runBlock, observedBlock]
    refine .look_bind unseen (.bind (s.observed_alike permits unseen serves.1) fun outcome => ?_)
    refine .look_bind unseen ?_
    split
    · exact .pure _
    · exact observedBlock_alike permits unseen rest serves.2

end

theorem Contract.Pervades.within (pervades : c.Pervades) {α : Type} {x y : Exec α}
    (alike : c.Alike x y) (name : String) (locals : Bindings Int32) :
    c.Alike (Exec.within name locals x) (Exec.within name locals y) := by
  intro m before
  by_cases full : maxDepth ≤ m.calls
  · rw [Exec.within_full full, Exec.within_full full]
    exact ⟨rfl, c.refl m, pervades.fails _⟩
  · rw [Exec.within_room full, Exec.within_room full]
    have entered := alike (m.enter locals) (pervades.enter (Nat.lt_of_not_le full) before)
    exact Contract.Alike.inScope_at entered (fun m' => pervades.leave) fun _ => id

theorem Contract.Pervades.serves (pervades : c.Pervades)
    (alike : ∀ name p inputs, c.Alike (run name p inputs) (run' name p inputs)) (site : CallSite) :
    c.Serves run run' site where
  unknown _ _ := pervades.fails _
  arity _ _ _ := pervades.fails _
  run _ _ inputs := alike _ _ inputs

theorem Procedure.observedWithin_alike (pervades : c.Pervades) (unseen : c.Unseen look)
    (room : Nat) (name : String) (p : Entry) (inputs : List Int32) :
    c.Alike (runWithin room name p inputs) (observedWithin look room name p inputs) := by
  induction room generalizing name p inputs with
  | zero => exact .throw (pervades.fails _)
  | succ room ih =>
    have body : c.Alike (runBlock (runWithin room) .done p.body) _ :=
      observedBlock_alike pervades.permits unseen p.body fun site _ => pervades.serves ih site
    exact pervades.within body name _

theorem Procedure.observed_alike (pervades : c.Pervades) (unseen : c.Unseen look) (name : String)
    (p : Entry) (inputs : List Int32) :
    c.Alike (Procedure.run name p inputs) (observed look name p inputs) := by
  unfold Procedure.run Procedure.observed
  exact .get_bind fun m _ => observedWithin_alike pervades unseen m.room name p inputs

theorem Item.observed_alike (pervades : c.Pervades) (unseen : c.Unseen look) (item : Item) :
    c.Alike item.run (item.observed look) := by
  cases item with
  | definition p => exact .of_kept fun m _ => pervades.define p m
  | statement s =>
    exact s.observed_alike pervades.permits unseen fun site _ =>
      pervades.serves (Procedure.observed_alike pervades unseen) site

theorem Program.observed_cons (look : Exec Unit) (item : Item) (rest : Program) :
    Program.observed look (item :: rest) = look >>= fun _ => item.observed look >>= fun _ =>
      look >>= fun _ => Program.observed look rest := by
  unfold Program.observed
  rw [List.forM_eq_forM, List.forM_cons, bind_assoc, Functor.discard, map_const]
  refine congrArg _ (funext fun _ => ?_)
  rw [bind_assoc]
  exact bind_map_left _ _ _

/-- A contract that allows all that can happen is kept by every program, and if it applies at the
beginning, then it applies before and after each statement that is run. -/
theorem Program.observed_alike (pervades : c.Pervades) (unseen : c.Unseen look) (program : Program) :
    c.Alike program.run (program.observed look) := by
  induction program with
  | nil => exact .pure _
  | cons item rest ih =>
    rw [Program.run_cons, Program.observed_cons]
    refine .look_bind unseen (.bind (item.observed_alike pervades unseen) fun _ => ?_)
    exact .look_bind unseen ih

end

end Logo
