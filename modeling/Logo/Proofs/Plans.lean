import Mathlib
import Logo.Proofs.Session

/-!
# What programs do, one thing after the other

A running program sees the turtle, the variables, the procedures and how many of them are running
(`Machine.View`); it makes a few changes (`Machine.Change`), asks questions, and runs procedures. How a
computation is put together of these is its `Exec.Plan`, and every program has one (`Program.plan`).

A computation is a function, so what it does on its way cannot be read off it; but its plan tells. The
`Plan.deeds` are all that is done to the machine, in order, inside the procedures that are called too, and
up to the error if there is one. What comes of a computation is what comes of its deeds, so the machines at
all points of a run are known (`Machine.along`).

Also, two machines may differ in what a program does not see, and if they answer its questions alike, then
the same comes of it on both.

Results:
1. `Statement.plan`, `Procedure.plan`, `Program.plan`: what runs has a plan.
2. `Exec.Plan.foldl_deeds`: what comes of a computation is what comes of its deeds.
3. `Machine.pairwise_along`: where each deed leads on, each point leads to all that come later.
4. `Exec.Plan.related`: on machines that cannot be told apart, the same comes of a computation.
-/

namespace Logo

/-! ## What is seen and done -/

/-- What a program sees of the machine. -/
structure Machine.View where
  turtle : Turtle
  scopes : Scopes
  procedures : Procedures
  calls : Nat

def Machine.view (m : Machine) : View := ⟨m.turtle, m.scopes, m.procedures, m.calls⟩

/-- The changes that commands and definitions make. -/
inductive Machine.Change : (Machine → Machine) → Prop
  | forward (length : Int32) : Change (·.forward length)
  | turn (angle : Int32) : Change (·.turn angle)
  | moveBy (dx dy : Int32) : Change (·.moveBy dx dy)
  | moveTo (target : Point) : Change (·.moveTo target)
  | setHeading (heading : Int32) : Change (·.setHeading heading)
  | home : Change (·.home)
  | clear : Change (·.clear)
  | setPen (down : Bool) : Change (·.setPen down)
  | setColour (red green blue : Int32) : Change (·.setColour red green blue)
  | print (text : String) : Change (·.print text)
  | assign (reach : Reach) (name : String) (value : Int32) : Change (·.assign reach name value)
  | tell (e : Event) : Change (·.tell e)
  | define (p : Procedure) : Change (·.define p)

/-- One thing that is done to the machine while something runs. -/
inductive Deed where
  | change (f : Machine → Machine) (changes : Machine.Change f)
  | prompt (name : Name)
  | enter (locals : Bindings Int32)
  | leave

/-- The machine after a deed. -/
def Machine.undergo (m : Machine) : Deed → Machine
  | .change f _ => f m
  | .prompt name => (Exec.prompt name).after m
  | .enter locals => m.enter locals
  | .leave => m.leave

theorem Machine.undergo_prompt (m : Machine) (name : Name) :
    m.undergo (.prompt name) = m.asked name.text := by
  show (Exec.prompt name).after m = _
  rw [Exec.after, Exec.prompt_eq]
  cases (m.canvas.ask name.text).1 <;> rfl

/-! ## Plans -/

namespace Exec

/-- How a computation is put together. -/
inductive Plan : {α : Type} → Exec α → Type 1
  | pure {α : Type} (a : α) : Plan (pure a)
  | throw {α : Type} (e : RuntimeError) : Plan (throw e : Exec α)
  | bind {α β : Type} {x : Exec α} {f : α → Exec β} :
      Plan x → (∀ a, Plan (f a)) → Plan (x >>= f)
  | look {α : Type} {f : Machine → Exec α} :
      (∀ m n, n.view = m.view → f n = f m) → (∀ m, Plan (f m)) → Plan (get >>= f)
  | change {f : Machine → Machine} : Machine.Change f → Plan (modify f)
  | prompt (name : Name) : Plan (Exec.prompt name)
  | withScope {α : Type} {x : Exec α} (locals : Bindings Int32) :
      Plan x → Plan (Exec.withScope locals x)
  /-- The same computation, put in other words. -/
  | same {α : Type} {x y : Exec α} : x = y → Plan y → Plan x

namespace Plan

/-- What a computation does when it begins in a machine, in order. What comes after an error is not
done, but a procedure is left all the same. -/
def deeds : {α : Type} → {x : Exec α} → Plan x → Machine → List Deed
  | _, _, .pure _, _ => []
  | _, _, .throw _, _ => []
  | _, _, .bind (x := x) first next, m =>
    first.deeds m ++
      match x m with
      | .ok a m' => (next a).deeds m'
      | .error _ _ => []
  | _, _, .look _ next, m => (next m).deeds m
  | _, _, .change changes, _ => [.change _ changes]
  | _, _, .prompt name, _ => [.prompt name]
  | _, _, .withScope locals inside, m =>
    .enter locals :: (inside.deeds (m.enter locals) ++ [.leave])
  | _, _, .same _ plan, m => plan.deeds m

/-- What comes of a computation, whether or not it fails, is what comes of its deeds one after the
other. -/
theorem foldl_deeds {α : Type} {x : Exec α} (plan : Plan x) (m : Machine) :
    (plan.deeds m).foldl Machine.undergo m = x.after m := by
  induction plan generalizing m with
  | pure | throw | change | prompt => rfl
  | @bind α β x f first next before after =>
    rw [deeds, List.foldl_append, before]
    cases ran : x m with
    | ok a m' =>
      rw [Exec.after_of_ok ran]
      show ((next a).deeds m').foldl Machine.undergo m' = _
      rw [after, Exec.after, Exec.after, Exec.bind_of_ok ran]
    | error e m' =>
      rw [Exec.after_of_error ran, Exec.after_of_error (Exec.bind_of_error ran)]
      rfl
  | look _ _ after => exact after m m
  | @withScope α x locals inside after =>
    rw [deeds, List.foldl_cons, List.foldl_append, Machine.undergo, after]
    show (x.after (m.enter locals)).leave = _
    unfold Exec.after Exec.withScope
    cases x (m.enter locals) <;> rfl
  | same equal _ after =>
    subst equal
    exact after m

/-! ## What has a plan -/

def lookup (name : Name) : Plan (Exec.lookup name) := by
  unfold Exec.lookup
  refine .look (fun m n same => ?_) fun m => ?_
  · rw [show n.scopes = m.scopes from congrArg Machine.View.scopes same]
  · split
    · exact .pure _
    · exact .throw _

def procedure (name : Name) (inputs : Nat) : Plan (Exec.procedure name inputs) := by
  unfold Exec.procedure
  refine .look (fun m n same => ?_) fun m => ?_
  · rw [show n.procedures = m.procedures from congrArg Machine.View.procedures same]
  · split
    · exact .throw _
    · split
      · exact .throw _
      · exact .pure _

def within {α : Type} {x : Exec α} (plan : Plan x) (name : String) (locals : Bindings Int32) :
    Plan (Exec.within name locals x) := by
  unfold Exec.within
  refine .look (fun m n same => ?_) fun m => ?_
  · rw [show n.calls = m.calls from congrArg Machine.View.calls same]
  · split
    · exact .throw _
    · exact .withScope locals plan

end Plan

end Exec

open Exec (Plan)

/-! ## Expressions and conditions -/

/-- A plan for each procedure. -/
abbrev Runner.Planned (run : Runner) : Type 1 := ∀ name p inputs, Plan (run name p inputs)

variable {run : Runner}

mutual

/-- How an operand of a product is evaluated. -/
def Factor.plan (runner : Runner.Planned run) : (f : Factor) → Plan (f.eval run)
  | .number _ => .pure _
  | .variable name => .lookup name
  | .call call =>
    .bind (call.plan runner) fun outcome =>
      match outcome.value? with
      | some _ => .pure _
      | none => .throw _
  | .grouped e => e.plan runner

/-- How a call is run. -/
def Call.plan (runner : Runner.Planned run) : (call : Call) → Plan (call.run run)
  | .reporter _ =>
    .look (fun m n same => by rw [show n.turtle = m.turtle from congrArg Machine.View.turtle same])
      fun _ => .pure _
  | .procedure name arguments =>
    .bind (.procedure name _) fun p =>
      .bind (planAll runner arguments) fun inputs => runner name.text p inputs

/-- How some expressions are evaluated. -/
def planAll (runner : Runner.Planned run) : (es : List Expr) → Plan (evalAll run es)
  | [] => .pure _
  | e :: es => .bind (e.plan runner) fun _ => .bind (planAll runner es) fun _ => .pure _

/-- How a product is evaluated. -/
def Term.plan (runner : Runner.Planned run) : (t : Term) → Plan (t.eval run)
  | .single f => f.plan runner
  | .chain f op rest =>
    .bind (f.plan runner) fun left => .bind (rest.plan runner) fun right =>
      match op.apply left right with
      | .ok _ => .pure _
      | .error _ => .throw _

/-- How a sum is evaluated. -/
def Expr.plan (runner : Runner.Planned run) : (e : Expr) → Plan (e.eval run)
  | .single _ t => .bind (t.plan runner) fun _ => .pure _
  | .chain _ t _ rest => .bind (t.plan runner) fun _ => .bind (rest.plan runner) fun _ => .pure _

end

mutual

/-- How an operand of a condition is evaluated. -/
def Clause.plan (runner : Runner.Planned run) : (c : Clause) → Plan (c.eval run)
  | .constant _ => .pure _
  | .negation c => .bind (c.plan runner) fun _ => .pure _
  | .braced c => c.plan runner
  | .compared left _ right =>
    .bind (left.plan runner) fun _ => .bind (right.plan runner) fun _ => .pure _

/-- How a condition is evaluated. -/
def Condition.plan (runner : Runner.Planned run) : (c : Condition) → Plan (c.eval run)
  | .single c => c.plan runner
  | .chain c op rest =>
    .bind (c.plan runner) fun left =>
      match op, left with
      | .and, false => .pure _
      | .and, true => rest.plan runner
      | .or, true => .pure _
      | .or, false => rest.plan runner
      | .xor, _ => .bind (rest.plan runner) fun _ => .pure _

end

/-! ## Statements and programs -/

/-- How a command is run. -/
def Command.plan (runner : Runner.Planned run) : (c : Command) → Plan (c.run run)
  | .forward length => .bind (length.plan runner) fun _ => .change (.forward _)
  | .back length => .bind (length.plan runner) fun _ => .change (.forward _)
  | .right angle => .bind (angle.plan runner) fun _ => .change (.turn _)
  | .left angle => .bind (angle.plan runner) fun _ => .change (.turn _)
  | .moveBy dx dy =>
    .bind (dx.plan runner) fun _ => .bind (dy.plan runner) fun _ => .change (.moveBy _ _)
  | .moveTo x y =>
    .bind (x.plan runner) fun _ => .bind (y.plan runner) fun _ => .change (.moveTo _)
  | .setHeading heading => .bind (heading.plan runner) fun _ => .change (.setHeading _)
  | .home => .change .home
  | .clearScreen => .change .clear
  | .penUp => .change (.setPen _)
  | .penDown => .change (.setPen _)
  | .setColor red green blue =>
    .bind (red.plan runner) fun _ => .bind (green.plan runner) fun _ =>
      .bind (blue.plan runner) fun _ => .change (.setColour _ _ _)
  | .printText _ => .change (.print _)
  | .printNumber value => .bind (value.plan runner) fun _ => .change (.print _)
  | .scan _ target => .bind (.prompt target) fun _ => .change (.assign _ _ _)
  | .make _ _ value => .bind (value.plan runner) fun _ => .change (.assign _ _ _)
  | .sleep milliseconds =>
    .bind (milliseconds.plan runner) fun ms => by
      split
      · exact .throw _
      · exact .change (.tell _)

/-- How a loop is run that has been run `done` times. -/
def loopPlan {count : Exec Int32} {body : Exec Outcome} (counts : Plan count) (bodies : Plan body)
    (done : Nat) (last : Outcome) : Plan (loopFrom count body done last) := by
  refine .same (loopFrom.eq_def ..) (.bind counts fun n => ?_)
  split
  · refine .bind bodies fun outcome => ?_
    split
    · exact .pure _
    · exact loopPlan counts bodies (done + 1) outcome
  · exact .pure _
termination_by 2147483648 - done
decreasing_by
  -- the count has 32 bits, so there is one round less left
  have := n.toInt_lt
  omega

mutual

/-- How a statement is run. -/
def Statement.plan (runner : Runner.Planned run) : (s : Statement) → Plan (s.run run)
  | .command c => .bind (c.plan runner) fun _ => .pure _
  | .call c => c.plan runner
  | .output value => .bind (value.plan runner) fun _ => .pure _
  | .ifTrue condition body =>
    .bind (condition.plan runner) fun holds =>
      match holds with
      | true => blockPlan runner .done body
      | false => .pure _
  | .loop count body => by
    unfold Statement.run
    split
    · exact .pure _
    · exact loopPlan (count.plan runner) (blockPlan runner .done body) 0 .done

/-- How some statements are run. -/
def blockPlan (runner : Runner.Planned run) (last : Outcome) :
    (ss : List Statement) → Plan (runBlock run last ss)
  | [] => .pure _
  | s :: rest =>
    .bind (s.plan runner) fun outcome => by
      split
      · exact .pure _
      · exact blockPlan runner outcome rest

end

def Procedure.planWithin : (room : Nat) → Runner.Planned (Procedure.runWithin room)
  | 0 => fun name _ _ => .throw (.stackOverflow name)
  | room + 1 => fun name p inputs =>
    .within (blockPlan (Procedure.planWithin room) .done p.body) name (p.locals inputs)

/-- How a procedure is run. -/
def Procedure.plan : Runner.Planned Procedure.run := fun name p inputs =>
  .look (fun m n same => by
      rw [Machine.room, Machine.room, show n.calls = m.calls from congrArg Machine.View.calls same])
    fun m => Procedure.planWithin m.room name p inputs

/-- How a part of a program is run. -/
def Item.plan : (item : Item) → Plan item.run
  | .definition p => .bind (.change (.define p)) fun _ => .pure _
  | .statement s => s.plan Procedure.plan

/-- How a program is run. -/
def Program.plan : (program : Program) → Plan program.run
  | [] => .pure _
  | item :: rest => .same (Program.run_cons item rest) (.bind item.plan fun _ => Program.plan rest)

/-! ## Texts -/

namespace Machine

/-- What is done when a text is submitted, from when it has been read on. -/
def deeds (m : Machine) (text : String) : List Deed :=
  match m.read text with
  | (.ok program, m₀) => program.plan.deeds m₀
  | (.error _, _) => []

/-- Reading a text does nothing to the turtle or the canvas. -/
theorem read_still (m : Machine) (text : String) :
    (m.read text).2.turtle = m.turtle ∧ (m.read text).2.canvas = m.canvas := ⟨rfl, rfl⟩

/-- A text leaves the turtle and the canvas as its deeds do. -/
theorem submit_deeds (m : Machine) (text : String) :
    (m.submit text).2.turtle = ((m.deeds text).foldl undergo (m.read text).2).turtle ∧
      (m.submit text).2.canvas = ((m.deeds text).foldl undergo (m.read text).2).canvas := by
  unfold deeds submit
  rcases m.read text with ⟨e | program, m₀⟩
  · exact ⟨rfl, rfl⟩
  · dsimp only
    rw [program.plan.foldl_deeds, Exec.after]
    cases program.run m₀ <;> exact ⟨rfl, rfl⟩

/-- The machines at the points of what is done: at the beginning, and after each deed. -/
def along (m : Machine) (deeds : List Deed) : List Machine := deeds.scanl undergo m

theorem along_cons (m : Machine) (d : Deed) (deeds : List Deed) :
    m.along (d :: deeds) = m :: (m.undergo d).along deeds := List.scanl_cons

theorem self_mem_along (m : Machine) (deeds : List Deed) : m ∈ m.along deeds := by
  cases deeds with
  | nil => exact List.mem_singleton_self m
  | cons d deeds =>
    rw [along_cons]
    exact List.mem_cons_self

/-- Where each deed leads on, each point leads to all that come later, and to the end. -/
theorem pairwise_along {R : Machine → Machine → Prop} (refl : ∀ m, R m m)
    (trans : ∀ {m m' m''}, R m m' → R m' m'' → R m m'') (leads : ∀ m d, R m (m.undergo d))
    (m : Machine) (deeds : List Deed) :
    (m.along deeds).Pairwise R ∧ ∀ between ∈ m.along deeds,
      R m between ∧ R between (deeds.foldl undergo m) := by
  induction deeds generalizing m with
  | nil => exact ⟨List.pairwise_singleton _ _, List.forall_mem_singleton.2 ⟨refl m, refl m⟩⟩
  | cons d deeds ih =>
    obtain ⟨later, ends⟩ := ih (m.undergo d)
    have onwards : ∀ between ∈ (m.undergo d).along deeds, R m between :=
      fun between among => trans (leads m d) (ends between among).1
    have toEnd : R m (deeds.foldl undergo (m.undergo d)) :=
      trans (leads m d) (ends _ (self_mem_along _ deeds)).2
    rw [along_cons]
    refine ⟨List.pairwise_cons.2 ⟨onwards, later⟩, List.forall_mem_cons.2 ⟨⟨refl m, toEnd⟩, ?_⟩⟩
    exact fun between among => ⟨onwards between among, (ends between among).2⟩

end Machine

/-! ## What cannot be told apart -/

/-- Machines that are related look the same to programs, answer alike, and stay related. -/
structure Machine.Indistinct (R : Machine → Machine → Prop) : Prop where
  view : ∀ {m n}, R m n → n.view = m.view
  change : ∀ {f m n}, Machine.Change f → R m n → R (f m) (f n)
  ask : ∀ {m n} (label : String), R m n →
    (n.canvas.ask label).1 = (m.canvas.ask label).1 ∧ R (m.asked label) (n.asked label)
  enter : ∀ {m n} (locals : Bindings Int32), R m n → R (m.enter locals) (n.enter locals)
  leave : ∀ {m n}, R m n → R m.leave n.leave

/-- The same came of two computations, on machines that are related. -/
inductive Exec.Matching {α : Type} (R : Machine → Machine → Prop) :
    EStateM.Result RuntimeError Machine α → EStateM.Result RuntimeError Machine α → Prop
  | ok {a : α} {m n : Machine} : R m n → Matching R (.ok a m) (.ok a n)
  | error {e : RuntimeError} {m n : Machine} : R m n → Matching R (.error e m) (.error e n)

/-- On machines that cannot be told apart, the same comes of a computation. -/
theorem Exec.Plan.related {R : Machine → Machine → Prop} (indistinct : Machine.Indistinct R)
    {α : Type} {x : Exec α} (plan : Plan x) {m n : Machine} (same : R m n) :
    Exec.Matching R (x m) (x n) := by
  induction plan generalizing m n with
  | pure a => exact .ok same
  | throw e => exact .error same
  | @bind α β x f _ _ first next =>
    show Exec.Matching R (EStateM.bind x f m) (EStateM.bind x f n)
    have results := first same
    unfold EStateM.bind
    generalize x m = r, x n = s at results
    cases results with
    | ok same => exact next _ same
    | error same => exact .error same
  | @look α f blind _ next =>
    show Exec.Matching R (f m m) (f n n)
    rw [blind m n (indistinct.view same)]
    exact next m same
  | change changes => exact .ok (indistinct.change changes same)
  | prompt name =>
    obtain ⟨answers, asked⟩ := indistinct.ask name.text same
    rw [Exec.prompt_eq, Exec.prompt_eq, answers]
    cases (m.canvas.ask name.text).1 with
    | some value => exact .ok asked
    | none => exact .error asked
  | @withScope α x locals _ inside =>
    have results := inside (indistinct.enter locals same)
    unfold Exec.withScope
    generalize x (m.enter locals) = r, x (n.enter locals) = s at results
    cases results with
    | ok same => exact .ok (indistinct.leave same)
    | error same => exact .error (indistinct.leave same)
  | same equal _ ih =>
    subst equal
    exact ih same

end Logo
