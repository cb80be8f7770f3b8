import Logo.Prompt
import Logo.Turtle

/-!
# The canvas

The canvas keeps what was done to it, in order, and passes on questions for numbers.
-/

namespace Logo

/-- Something that is done to the canvas. -/
inductive CanvasOp where
  /-- The turtle went somewhere without drawing. -/
  | moveTo (target : Point)
  | line (start finish : Point)
  | clear
  /-- What is drawn from now on has this colour. -/
  | setColour (colour : Colour)
  deriving DecidableEq, Repr

/-- The canvas. -/
structure Canvas where
  ops : Array CanvasOp
  answers : Answers
  deriving DecidableEq

namespace Canvas

/-- A canvas to which nothing has been done. -/
def blank (answers : Answers) : Canvas := ⟨#[], answers⟩

/-- Does one more thing. -/
def record (c : Canvas) (op : CanvasOp) : Canvas := { c with ops := c.ops.push op }

/-- Goes from one point to another, and draws a line if the pen is down. -/
def go (c : Canvas) (penDown : Bool) (start finish : Point) : Canvas :=
  c.record (if penDown then .line start finish else .moveTo finish)

/-- Goes straight on from `start`. Gives the point where that ends. -/
def goStraight (c : Canvas) (penDown : Bool) (start : Point) (length heading : Int32) :
    Point × Canvas :=
  let finish := endpoint start length heading
  (finish, c.go penDown start finish)

/-- Asks for a number; also gives what the journal is told. -/
def ask (c : Canvas) (label : String) : Option Int32 × Canvas × List Event :=
  let (value, answers, events) := c.answers.ask label
  (value, { c with answers }, events)

/-- Adds an answer after those that are known beforehand. -/
def pushAnswer (c : Canvas) (value : Int32) : Canvas :=
  { c with answers := c.answers.push value }

/-- Gives what was done, and forgets it. -/
def takeOps (c : Canvas) : List CanvasOp × Canvas := (c.ops.toList, { c with ops := #[] })

end Canvas

end Logo
