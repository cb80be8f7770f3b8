import Mathlib
import Logo.Proofs.Resolution

/-!
# An output raises its value

A statement that meets an `output` says so in its outcome, and every construct that runs statements
has to look at that and to hand it on. This module says what is meant by it. In the other way of
running programs that is defined here an `output` raises its value, as one raises an exception, and
nothing looks at outcomes: what is raised ends all the statements around it and all calls that are
statements, up to the call whose value an expression asks for, or up to the top of the program. A call
of which nothing came up leaves no value.

The two ways differ in one place. A reporter can stand as a statement, and then the value that it
leaves is taken for the value of the procedure that ends with it. Where no reporter stands as a
statement, they do the same.

Results:
1. `Raising.caught_seq`: handing on an outcome is what a raised value does by itself.
2. `Statement.run_caught`: so it is for statements, if it is so for the procedures that they call.
3. `Program.run_alike_perform`: so it is for programs.
4. `session_raising`: so it is for sessions.
-/

namespace Logo

/-! ## Raising values -/

/-- A computation in which a value can be raised. -/
abbrev Raising := ExceptT Int32 Exec

/-- Runs the procedure that was called by a name on its inputs, up to a value that is raised in it. -/
abbrev Raiser := String → Entry → List Int32 → Raising Unit

/-- The outcome of something that ended, or that a value was raised in. -/
def Outcome.ofRaised : Except Int32 Unit → Outcome
  | .ok () => .done
  | .error value => .output value

/-- Lets nothing that is raised pass. -/
def Raising.caught (x : Raising Unit) : Exec Outcome := Outcome.ofRaised <$> x.run

/-- What a call in an expression comes to: a value that is raised is its value. -/
def Raiser.caught (raiser : Raiser) : Runner := fun name p inputs => (raiser name p inputs).caught

/-- Runs `body` as long as the number of times it was run is below `count`, which is evaluated
before each time. -/
def repeatFrom (count : Exec Int32) (body : Raising Unit) (done : Nat) : Raising Unit := do
  let n ← count
  if h : (done : Int) < n.toInt then
    body
    repeatFrom count body (done + 1)
termination_by 2147483648 - done
decreasing_by
  have := n.toInt_lt
  omega

mutual

/-- Runs a statement; an `output` raises its value. -/
def Statement.perform (raiser : Raiser) : Statement → Raising Unit
  | .command c => c.run raiser.caught
  | .call (.reporter _) => return
  | .call (.procedure name arguments) => do
    let p ← Exec.procedure name arguments.length
    let inputs ← evalAll raiser.caught arguments
    raiser name.text p inputs
  | .output value => do
    let v ← value.eval raiser.caught
    throw v
  | .ifTrue condition body => do
    let holds ← condition.eval raiser.caught
    if holds then performAll raiser body
  | .loop count body =>
    if body.isEmpty then return else repeatFrom (count.eval raiser.caught) (performAll raiser body) 0

/-- Runs statements one after the other. -/
def performAll (raiser : Raiser) : List Statement → Raising Unit
  | [] => return
  | s :: rest => do
    s.perform raiser
    performAll raiser rest

end

/-- Runs a procedure on its inputs, where no more than `room` procedures can be run inside each
other. What is raised passes, and the procedure is left on the way. -/
def Procedure.performWithin : (room : Nat) → Raiser
  | 0, name, _, _ => ExceptT.lift (throw (.stackOverflow name))
  | room + 1, name, p, inputs => ExceptT.mk <|
    Exec.within name (p.locals inputs) (performAll (Procedure.performWithin room) p.body).run

/-- Runs a procedure on its inputs. -/
def Procedure.perform : Raiser := fun name p inputs => do
  Procedure.performWithin (← get).room name p inputs

/-- Runs a part of a program. -/
def Item.perform : Item → Raising Unit
  | .definition p => modify (·.define p)
  | .statement s => s.perform Procedure.perform

/-- Runs a program. What is raised at its top stops only the statement that it is raised in. -/
def Program.perform (program : Program) : Exec Unit :=
  program.forM fun item => discard item.perform.run

/-- Parses a text and runs it. -/
def Machine.submitRaising (m : Machine) (text : String) : Reply × Machine :=
  match m.read text with
  | (.error e, m) => m.reply (e.message ++ "\n")
  | (.ok program, m) =>
    match program.perform m with
    | .ok _ m => m.reply ""
    | .error e m => (m.tell (.failed e.message)).reply (e.message ++ "\n")

namespace Raising

/-! ## Catching -/

theorem caught_throw (value : Int32) : caught (throw value) = pure (.output value) := rfl

/-- What is computed first raises nothing. -/
theorem caught_bind {α : Type} (x : Exec α) (f : α → Raising Unit) :
    caught (liftM x >>= f) = x >>= fun a => caught (f a) := by
  have lifted : (liftM x >>= f : Raising Unit).run = x >>= fun a => (f a).run :=
    ExceptT.run_bind_lift x f
  rw [caught, lifted, map_bind]
  rfl

theorem caught_liftM (x : Exec Unit) : caught (liftM x) = x >>= fun _ => pure .done := by
  rw [← bind_pure (liftM x : Raising Unit), caught_bind]
  rfl

/-- Where an outcome is handed on, a raised value passes. -/
theorem caught_seq {x y : Raising Unit} {f : Outcome → Exec Outcome} (next : f .done = caught y) :
    (caught x >>= fun outcome => if outcome.isOutput then pure outcome else f outcome) =
      caught (x >>= fun _ => y) := by
  rw [caught, caught, ExceptT.run_bind, map_bind, bind_map_left]
  refine congrArg _ (funext fun raised => ?_)
  cases raised with
  | error value => exact (map_pure _ _).symm
  | ok _ => exact next

theorem caught_repeatFrom {count : Exec Int32} {body : Raising Unit} (done : Nat) :
    loopFrom count body.caught done .done = (repeatFrom count body done).caught := by
  induction left : 2147483648 - done using Nat.strongRecOn generalizing done with
  | ind n ih =>
    unfold loopFrom repeatFrom
    rw [caught_bind]
    refine congrArg _ (funext fun n => ?_)
    split
    · -- the count has 32 bits, so there is one round less left
      have := n.toInt_lt
      exact caught_seq (ih _ (by omega) _ rfl)
    · rfl

end Raising

/-! ## Statements -/

mutual

/-- No reporter stands as a statement in the statement. -/
def Statement.plain : Statement → Bool
  | .call (.reporter _) => false
  | .command _ | .call (.procedure _ _) | .output _ => true
  | .ifTrue _ body | .loop _ body => plainBlock body

def plainBlock : List Statement → Bool
  | [] => true
  | s :: rest => s.plain && plainBlock rest

end

mutual

/-- If what is raised in procedures is caught where they are called, what is raised in a plain
statement can be caught instead of handing on outcomes. -/
theorem Statement.run_caught (raiser : Raiser) : (s : Statement) → s.plain = true →
    s.run raiser.caught = (s.perform raiser).caught
  | .command c, _ => by
    simp only [Statement.run, Statement.perform, Raising.caught_liftM]
  | .call (.reporter _), plain => nomatch plain
  | .call (.procedure name arguments), _ => by
    simp only [Statement.run, Call.run, Statement.perform, Raising.caught_bind, Raiser.caught]
  | .output value, _ => by
    simp only [Statement.run, Statement.perform, Raising.caught_bind, Raising.caught_throw]
  | .ifTrue condition body, plain => by
    simp only [Statement.run, Statement.perform, Raising.caught_bind]
    refine congrArg _ (funext fun holds => ?_)
    cases holds with
    | true => exact runBlock_caught raiser body plain
    | false => rfl
  | .loop count body, plain => by
    simp only [Statement.run, Statement.perform]
    split
    · rfl
    · rw [runBlock_caught raiser body plain, Raising.caught_repeatFrom]

theorem runBlock_caught (raiser : Raiser) : (ss : List Statement) → plainBlock ss = true →
    runBlock raiser.caught .done ss = (performAll raiser ss).caught
  | [], _ => by
    simp only [runBlock, performAll]
    rfl
  | s :: rest, plain => by
    obtain ⟨first, others⟩ := Bool.and_eq_true_iff.1 plain
    simp only [runBlock, performAll, s.run_caught raiser first]
    exact Raising.caught_seq (runBlock_caught raiser rest others)

end

/-! ## Procedures -/

/-- All procedures that are known have plain bodies. -/
def Procedures.Plain (known : Procedures) : Prop :=
  ∀ {name : String} {e : Entry}, known[name]? = some e → plainBlock e.body = true

theorem Procedures.Plain.define {known : Procedures} {p : Procedure} (plain : known.Plain)
    (body : plainBlock p.body = true) : (known.define p).Plain := by
  intro name e found
  rw [getElem?_define] at found
  split at found
  · cases found
    exact body
  · exact plain found

theorem Procedures.Plain.defineAll {known : Procedures} {ps : List Procedure} (plain : known.Plain)
    (bodies : ∀ p ∈ ps, plainBlock p.body = true) : (known.defineAll ps).Plain := by
  induction ps generalizing known with
  | nil => exact plain
  | cons p ps ih =>
    obtain ⟨first, others⟩ := List.forall_mem_cons.1 bodies
    exact ih (plain.define first) others

/-- What is made of the value in the end can be made of it in the procedure. -/
theorem Exec.within_map {α β : Type} (f : α → β) (name : String) (locals : Bindings Int32)
    (x : Exec α) : Exec.within name locals (f <$> x) = f <$> Exec.within name locals x := by
  funext m
  show _ = EStateM.map f (Exec.within name locals x) m
  unfold EStateM.map
  by_cases full : maxDepth ≤ m.calls
  · rw [Exec.within_full full, Exec.within_full full]
  · rw [Exec.within_room full, Exec.within_room full]
    unfold Exec.withScope
    rw [show (f <$> x) (m.enter locals) = EStateM.map f x (m.enter locals) from rfl]
    unfold EStateM.map
    cases x (m.enter locals) <;> rfl

theorem Procedure.runWithin_alike_perform {known : Procedures} (plain : known.Plain) {calls : Nat}
    (room : Nat) {name : String} {p : Entry} {inputs : List Int32}
    (body : plainBlock p.body = true) :
    (Contract.evaluating known calls fun _ => True).Alike (runWithin room name p inputs)
      ((performWithin room).caught name p inputs) := by
  induction room generalizing calls name p inputs with
  | zero => exact .throw fun _ => trivial
  | succ room ih =>
    have bodies : (Contract.executing known (calls + 1) fun _ => True).Alike
        (runBlock (runWithin room) .done p.body)
        (runBlock (performWithin room).caught .done p.body) :=
      runBlock_alike Contract.executing_permits p.body fun site _ =>
        Contract.Serves.executing <| Contract.resolved_serves (site.resolved_of_any known)
          fun found _ => ih (plain found)
    rw [runBlock_caught _ _ body] at bodies
    rw [Raiser.caught, runWithin, performWithin]
    have whole := bodies.within name (p.locals inputs)
    rw [Raising.caught, Exec.within_map] at whole
    exact whole

theorem Procedure.run_alike_perform {known : Procedures} (plain : known.Plain) {calls : Nat}
    {name : String} {p : Entry} {inputs : List Int32} (body : plainBlock p.body = true) :
    (Contract.evaluating known calls fun _ => True).Alike (run name p inputs)
      (perform.caught name p inputs) := by
  have entered : perform.caught name p inputs =
      get >>= fun m => (performWithin m.room).caught name p inputs := Raising.caught_bind get _
  rw [entered]
  exact .get_bind fun m _ => runWithin_alike_perform plain m.room body

/-! ## Programs -/

/-- No reporter stands as a statement in a part of a program. -/
def Item.plain : Item → Bool
  | .definition p => plainBlock p.body
  | .statement s => s.plain

/-- No reporter stands as a statement in a program. -/
def Program.plain (program : Program) : Bool := program.all Item.plain

theorem Program.plain_definitions {program : Program} (plain : program.plain = true) :
    ∀ p ∈ program.definitions, plainBlock p.body = true := by
  intro p among
  obtain ⟨item, inside, defines⟩ := List.mem_filterMap.1 among
  have here := List.all_eq_true.1 plain item inside
  cases item with
  | definition q =>
    cases defines
    exact here
  | statement s => cases defines

/-- What is promised of running a plain program: that the procedures stay plain. -/
def Contract.plain : Contract where
  Before m := m.procedures.Plain
  Leads m m' := m.procedures.Plain → m'.procedures.Plain
  Fails _ := True
  refl _ := id
  trans first second := second ∘ first
  keeps before leads := leads before
  ordinary _ := trivial

theorem Item.run_alike_perform {item : Item} (plain : item.plain = true) :
    Contract.plain.Alike item.run item.perform.caught := by
  cases item with
  | definition p => exact .of_kept fun m _ known => known.define plain
  | statement s =>
    intro m known
    have alike : (Contract.executing m.procedures m.calls fun _ => True).Alike (s.run Procedure.run)
        (s.run Procedure.perform.caught) :=
      s.run_alike Contract.executing_permits fun site _ =>
        Contract.Serves.executing <| Contract.resolved_serves (site.resolved_of_any m.procedures)
          fun found _ => Procedure.run_alike_perform known (known found)
    rw [s.run_caught _ plain] at alike
    obtain ⟨same, kept⟩ := alike m ⟨rfl, rfl⟩
    refine ⟨same, kept.mono (fun m' outside known' => ?_) fun _ _ => trivial⟩
    rw [outside.procedures]
    exact known'

theorem Program.perform_cons (item : Item) (rest : Program) :
    Program.perform (item :: rest) = item.perform.caught >>= fun _ => Program.perform rest := by
  unfold Program.perform
  rw [List.forM_eq_forM, List.forM_cons, Functor.discard, map_const, Raising.caught]
  exact (bind_map_left _ _ _).trans (bind_map_left _ _ (fun _ => Program.perform rest)).symm

/-- A plain program does the same in both ways. -/
theorem Program.run_alike_perform {program : Program} (plain : program.plain = true) :
    Contract.plain.Alike program.run program.perform := by
  induction program with
  | nil => exact .pure _
  | cons item rest ih =>
    obtain ⟨first, others⟩ := Bool.and_eq_true_iff.1 plain
    rw [Program.run_cons, Program.perform_cons]
    exact .bind (Item.run_alike_perform first) fun _ => ih others

/-! ## Sessions -/

/-- The replies to some texts, and the machine after them, where `submit` says what comes of a text. -/
def session (submit : Machine → String → Reply × Machine) (m : Machine) :
    List String → List Reply × Machine
  | [] => ([], m)
  | text :: texts =>
    let (replies, after) := session submit (submit m text).2 texts
    ((submit m text).1 :: replies, after)

namespace Machine

/-- No reporter stands as a statement in the text, if it can be parsed. -/
def plain (m : Machine) (text : String) : Bool :=
  match (parse m.procedures text).result with
  | .ok program => program.plain
  | .error _ => true

/-- No reporter stands as a statement in those of some texts that can be parsed when their turn
comes. -/
def plainAll (m : Machine) : List String → Bool
  | [] => true
  | text :: texts => m.plain text && (m.submit text).2.plainAll texts

/-- A plain text does the same in both ways, and the procedures stay plain. -/
theorem submit_raising {m : Machine} {text : String} (known : m.procedures.Plain)
    (plain : m.plain text = true) :
    m.submitRaising text = m.submit text ∧ (m.submit text).2.procedures.Plain := by
  cases parsed : (parse m.procedures text).result with
  | error e =>
    rw [submit_eq_of_error parsed, submitRaising, read_of_error parsed]
    exact ⟨rfl, known⟩
  | ok program =>
    have whole : program.plain = true := by rwa [Machine.plain, parsed] at plain
    have before : (m.learn text program).procedures.Plain :=
      known.defineAll (Program.plain_definitions whole)
    obtain ⟨same, kept⟩ := Program.run_alike_perform whole _ before
    rw [submit_eq_of_ok parsed, submitRaising, read_of_ok parsed]
    dsimp only
    rw [same]
    cases ran : program.run (m.learn text program) with
    | ok u m' =>
      rw [ran] at kept
      exact ⟨rfl, kept before⟩
    | error e m' =>
      rw [ran] at kept
      exact ⟨rfl, kept.1 before⟩

theorem session_raising_of_plain {m : Machine} {texts : List String} (known : m.procedures.Plain)
    (plain : m.plainAll texts = true) : session submit m texts = session submitRaising m texts := by
  induction texts generalizing m with
  | nil => rfl
  | cons text texts ih =>
    obtain ⟨first, others⟩ := Bool.and_eq_true_iff.1 plain
    obtain ⟨same, after⟩ := submit_raising known first
    rw [session, session, same, ih after others]

end Machine

/-- Where no reporter stands as a statement, a session does the same whether an `output` is handed on
with the outcomes of statements, or raises its value: each text gets the same reply, and the turtle,
the variables, the procedures, the canvas and the answers that are left are the same after it. -/
theorem session_raising (answers : Answers) {texts : List String}
    (plain : (Machine.initial answers).plainAll texts = true) :
    session Machine.submit (Machine.initial answers) texts =
      session Machine.submitRaising (Machine.initial answers) texts := by
  refine Machine.session_raising_of_plain (fun found => ?_) plain
  rw [Machine.initial, Std.ExtTreeMap.getElem?_empty] at found
  cases found

/-- An `output` in a loop in a procedure that is called as a statement. -/
theorem session_raising_loop :
    let m := Machine.initial (.scripted [])
    let texts := ["to g repeat 3 [ print 1 if getx = 250 [ output 5 ] print 2 ] end",
      "to f g print 3 end print f output 4 print f"]
    m.plainAll texts = true ∧
      session Machine.submit m texts = session Machine.submitRaising m texts :=
  ⟨by decide +kernel, session_raising _ (by decide +kernel)⟩

/-- A value that a reporter leaves at the end of a procedure is not raised. -/
example :
    let m := Machine.initial (.scripted [])
    (session Machine.submit m ["to f getx end print f"]).1 = [⟨"250\n", ""⟩] ∧
    (session Machine.submitRaising m ["to f getx end print f"]).1 =
      [⟨"", "f didn't output a value\n"⟩] := by
  decide +kernel

end Logo
