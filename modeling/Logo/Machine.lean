import Logo.Canvas
import Logo.RuntimeError
import Logo.Scopes

/-!
# The machine that runs programs

`Machine` is all that a running program can see or change. A computation `Exec α` changes the
machine and ends with a value or with an error; an error undoes nothing.
-/

namespace Logo

/-- The state of a session. -/
structure Machine where
  turtle : Turtle
  scopes : Scopes
  procedures : Procedures
  /-- How many procedures are running. -/
  calls : Nat
  canvas : Canvas
  /-- What was printed and not yet handed out. -/
  log : String
  /-- The messages of errors that have not yet been handed out, each with a line end. -/
  errors : String
  /-- What the journal was told and has not yet been handed out. -/
  journal : Array Event

/-- A computation on the machine. -/
abbrev Exec := EStateM RuntimeError Machine

/-- How many procedures can be running at the same time. -/
def maxDepth : Nat := 512

namespace Machine

/-- The machine at the beginning of a session. -/
def initial (answers : Answers) : Machine :=
  ⟨.initial, .empty, ∅, 0, .blank answers, "", "", #[]⟩

/-- How many more procedures can be running. -/
def room (m : Machine) : Nat := maxDepth - m.calls

/-! ## The turtle -/

/-- Goes to a point. -/
def moveTo (m : Machine) (target : Point) : Machine :=
  { m with
    canvas := m.canvas.go m.turtle.penDown m.turtle.position target
    turtle := { m.turtle with position := target } }

/-- Goes by this much to the right and down. -/
def moveBy (m : Machine) (dx dy : Int32) : Machine :=
  m.moveTo ⟨m.turtle.position.x + dx, m.turtle.position.y + dy⟩

/-- Goes straight on. A negative length goes backwards. -/
def forward (m : Machine) (length : Int32) : Machine :=
  let (finish, canvas) :=
    m.canvas.goStraight m.turtle.penDown m.turtle.position length m.turtle.heading
  { m with canvas, turtle := { m.turtle with position := finish } }

/-- Turns against the clock. -/
def turn (m : Machine) (angle : Int32) : Machine := { m with turtle := m.turtle.turn angle }

/-- Turns to a heading. -/
def setHeading (m : Machine) (heading : Int32) : Machine :=
  { m with turtle := m.turtle.setHeading heading }

/-- Goes home and turns upwards. -/
def home (m : Machine) : Machine :=
  let m := m.moveTo Turtle.homePosition
  { m with turtle := { m.turtle with heading := Turtle.homeHeading } }

/-- Takes everything off the canvas. -/
def clear (m : Machine) : Machine := { m with canvas := m.canvas.record .clear }

/-- Lifts or lowers the pen. -/
def setPen (m : Machine) (down : Bool) : Machine :=
  { m with turtle := { m.turtle with penDown := down } }

/-- Changes the colour of the pen. -/
def setColour (m : Machine) (red green blue : Int32) : Machine :=
  let colour := Colour.ofShades red green blue
  { m with turtle := { m.turtle with colour }, canvas := m.canvas.record (.setColour colour) }

/-! ## Variables, procedures, texts -/

/-- Sets a variable. -/
def assign (m : Machine) (reach : Reach) (name : String) (value : Int32) : Machine :=
  { m with scopes := m.scopes.set reach name value }

/-- One more procedure is running, with these variables. -/
def enter (m : Machine) (locals : Bindings Int32) : Machine :=
  { m with calls := m.calls + 1, scopes := m.scopes.push locals }

/-- The innermost procedure is left. -/
def leave (m : Machine) : Machine := { m with scopes := m.scopes.pop, calls := m.calls - 1 }

/-- Binds a procedure to its name. -/
def define (m : Machine) (p : Procedure) : Machine :=
  { m with procedures := m.procedures.define p }

/-- Prints. -/
def print (m : Machine) (text : String) : Machine := { m with log := m.log ++ text }

/-- Tells the journal something. -/
def tell (m : Machine) (e : Event) : Machine := { m with journal := m.journal.push e }

/-- Notes the messages of errors. -/
def complain (m : Machine) (messages : String) : Machine := { m with errors := m.errors ++ messages }

/-- Gives what the journal was told, and forgets it. -/
def takeJournal (m : Machine) : List Event × Machine := (m.journal.toList, { m with journal := #[] })

end Machine

namespace Exec

/-- The value of a variable. -/
def lookup (name : Name) : Exec Int32 := do
  match (← get).scopes.get? name.text with
  | some value => return value
  | none => throw (.unknownVariable name)

/-- The procedure that a call with so many inputs means. -/
def procedure (name : Name) (inputs : Nat) : Exec Entry := do
  match (← get).procedures[name.text]? with
  | none => throw (.unknownProcedure name)
  | some p =>
    if p.arity ≠ inputs then throw (.wrongArity name p.arity inputs)
    else return p

/-- Asks for the value of a variable. -/
def prompt (name : Name) : Exec Int32 := do
  let m ← get
  let (value, canvas, events) := m.canvas.ask name.text
  set { m with canvas, journal := m.journal ++ events }
  match value with
  | some value => return value
  | none => throw (.noInput name)

/-- Runs something in a procedure that has these variables, and leaves the procedure however that
ends. -/
def withScope {α : Type} (locals : Bindings Int32) (body : Exec α) : Exec α := fun m =>
  match body (m.enter locals) with
  | .ok a m => .ok a m.leave
  | .error e m => .error e m.leave

/-- Runs something in the procedure `name`, if there is room for one more. -/
def within {α : Type} (name : String) (locals : Bindings Int32) (body : Exec α) : Exec α := do
  if maxDepth ≤ (← get).calls then throw (.stackOverflow name) else withScope locals body

end Exec

end Logo
