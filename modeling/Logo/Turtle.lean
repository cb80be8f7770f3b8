/-!
# The turtle

Points have whole coordinates, and `y` grows downwards. Headings are counted in tenths of a degree
against the clock, and zero is to the right.
-/

namespace Logo

/-- A point of the canvas. -/
structure Point where
  x : Int32
  y : Int32
  deriving DecidableEq, Repr

/-- A colour. -/
structure Colour where
  red : Int32
  green : Int32
  blue : Int32
  deriving DecidableEq, Repr

/-- The colour that everything begins with. -/
def Colour.black : Colour := ⟨0, 0, 0⟩

/-- The remainder on division by `n`, which is never negative. -/
def modulo (value : Int32) (n : Nat) : Int32 := Int32.ofInt (value.toInt % n)

/-! ## Going straight on -/

/-- The angle of a heading in radians, counted with the clock. -/
def radians (heading : Int32) : Float :=
  let degrees := heading.toFloat / 10.0
  let turned := if degrees > 180.0 then degrees - 360.0 else degrees
  Float.neg turned * (3.141592653589793 / 180.0)

/-- Where one gets from `start` by going straight on for `length`. The coordinates are rounded to
the nearest whole number, a half away from zero, and kept within 32 bits. -/
def endpoint (start : Point) (length heading : Int32) : Point :=
  let angle := radians heading
  let along (from_ : Int32) (share : Float) : Int32 :=
    (from_.toFloat + share * length.toFloat).round.toInt32
  ⟨along start.x angle.cos, along start.y angle.sin⟩

/-! ## The state of the turtle -/

/-- The turtle. -/
structure Turtle where
  position : Point
  /-- Less than a full turn, and not negative. -/
  heading : Int32
  penDown : Bool
  colour : Colour
  deriving DecidableEq, Repr

namespace Turtle

/-- Where the turtle is at home. -/
def homePosition : Point := ⟨250, 250⟩

/-- The heading of a turtle that went home: upwards. -/
def homeHeading : Int32 := 900

/-- A full turn. -/
def fullTurn : Nat := 3600

/-- The number of shades of each of the three components of a colour. -/
def shades : Nat := 256

/-- The turtle before anything has happened. -/
def initial : Turtle := ⟨homePosition, 0, true, .black⟩

/-- Turns to a heading. -/
def setHeading (t : Turtle) (heading : Int32) : Turtle :=
  { t with heading := modulo heading fullTurn }

/-- Turns by an angle, against the clock. -/
def turn (t : Turtle) (angle : Int32) : Turtle := t.setHeading (t.heading + angle)

end Turtle

/-- The colour with these components, each reduced to a shade. -/
def Colour.ofShades (red green blue : Int32) : Colour :=
  ⟨modulo red Turtle.shades, modulo green Turtle.shades, modulo blue Turtle.shades⟩

end Logo
