import Logo.Evaluation

/-!
# What statements mean

A statement ends, with or without a value, or meets an `output`. A list of statements ends as the
last statement that was run; an `output` stops it.

A procedure runs with variables of its own. How many procedures can be running is bounded, and
`Procedure.runWithin` counts down how many more can be.
-/

namespace Logo

/-! ## Commands -/

/-- Does what a command says, after evaluating its operands from left to right. -/
def Command.run (run : Runner) : Command → Exec Unit
  | .forward length => do
    let length ← length.eval run
    modify (·.forward length)
  | .back length => do
    let length ← length.eval run
    modify (·.forward (-length))
  | .right angle => do
    let angle ← angle.eval run
    modify (·.turn (-angle))
  | .left angle => do
    let angle ← angle.eval run
    modify (·.turn angle)
  | .moveBy dx dy => do
    let dx ← dx.eval run
    let dy ← dy.eval run
    modify (·.moveBy dx dy)
  | .moveTo x y => do
    let x ← x.eval run
    let y ← y.eval run
    modify (·.moveTo ⟨x, y⟩)
  | .setHeading heading => do
    let heading ← heading.eval run
    modify (·.setHeading heading)
  | .home => modify (·.home)
  | .clearScreen => modify (·.clear)
  | .penUp => modify (·.setPen false)
  | .penDown => modify (·.setPen true)
  | .setColor red green blue => do
    let red ← red.eval run
    let green ← green.eval run
    let blue ← blue.eval run
    modify (·.setColour red green blue)
  | .printText text => modify (·.print (text ++ "\n"))
  | .printNumber value => do
    let value ← value.eval run
    modify (·.print (toString value.toInt ++ "\n"))
  | .scan reach target => do
    let value ← Exec.prompt target
    modify (·.assign reach target.text value)
  | .make reach target value => do
    let value ← value.eval run
    modify (·.assign reach target.text value)
  | .sleep milliseconds => do
    let ms ← milliseconds.eval run
    if ms < 0 then throw (.negativeSleep ms)
    else modify (·.tell (.sleeping ms.toInt))

/-! ## Loops -/

/-- Runs `body` as long as the number of times it was run is below `count`, which is evaluated
before each time. Ends as the last time did, or as `last` if there was none; an `output` stops it.

A count has 32 bits, so `done` stays below `2 ^ 31`. -/
def loopFrom (count : Exec Int32) (body : Exec Outcome) (done : Nat) (last : Outcome) :
    Exec Outcome := do
  let n ← count
  if h : (done : Int) < n.toInt then
    let outcome ← body
    if outcome.isOutput then return outcome
    else loopFrom count body (done + 1) outcome
  else return last
termination_by 2147483648 - done
decreasing_by
  have := n.toInt_lt
  omega

/-! ## Statements -/

mutual

/-- Runs a statement. A loop without statements does not even evaluate its count. -/
def Statement.run (run : Runner) : Statement → Exec Outcome
  | .command c => do
    c.run run
    return .done
  | .call c => c.run run
  | .output value => return .output (← value.eval run)
  | .ifTrue condition body => do
    if ← condition.eval run then runBlock run .done body else return .done
  | .loop count body =>
    if body.isEmpty then return .done
    else loopFrom (count.eval run) (runBlock run .done body) 0 .done

/-- Runs statements after one that ended as `last`. -/
def runBlock (run : Runner) (last : Outcome) : List Statement → Exec Outcome
  | [] => return last
  | s :: rest => do
    let outcome ← s.run run
    if outcome.isOutput then return outcome else runBlock run outcome rest

end

/-! ## Procedures -/

/-- The variables that a procedure begins with. Of two parameters of one name the later counts. -/
def Entry.locals (p : Entry) (inputs : List Int32) : Bindings Int32 :=
  .ofList (p.parameters.zip inputs)

/-- Runs a procedure on its inputs, where no more than `room` procedures can be run inside each
other. -/
def Procedure.runWithin : (room : Nat) → Runner
  | 0, name, _, _ => throw (.stackOverflow name)
  | room + 1, name, p, inputs =>
    Exec.within name (p.locals inputs) (runBlock (Procedure.runWithin room) .done p.body)

/-- Runs a procedure on its inputs. -/
def Procedure.run : Runner := fun name p inputs => do
  Procedure.runWithin (← get).room name p inputs

/-! ## Programs -/

/-- Runs a part of a program. A definition binds the procedure to its name. -/
def Item.run (item : Item) : Exec Outcome := do
  match item with
  | .definition p =>
    modify (·.define p)
    return .done
  | .statement s => s.run Procedure.run

/-- Runs a program. An `output` at its top stops nothing. -/
def Program.run (program : Program) : Exec Unit :=
  program.forM fun item => discard item.run

end Logo
