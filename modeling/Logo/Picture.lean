import Logo.Canvas
import Logo.Journal

/-!
# Pictures

What was drawn is shown as paths. Lines of one colour that follow each other share a path; a line
that begins where the one before it ended goes on from there. `clear` throws away what was drawn
before it, but not the colour.

`render` writes the paths as an SVG document.
-/

namespace Logo

/-- A step of a path. -/
inductive PathStep where
  /-- Go on from this point. -/
  | moveTo (target : Point)
  /-- Draw a line to this point. -/
  | lineTo (target : Point)
  deriving DecidableEq, Repr

/-- Lines in one colour. -/
structure Path where
  steps : List PathStep
  colour : Colour
  deriving DecidableEq, Repr

/-- What has been drawn up to some operation. -/
structure Sketch where
  /-- The paths that are finished. -/
  finished : Array Path
  /-- The steps of the path that lines are being added to. -/
  current : Array PathStep
  /-- Its colour. -/
  colour : Colour
  /-- Where its last line ended. -/
  last : Option Point

namespace Sketch

/-- Nothing has been drawn. -/
def empty : Sketch := ⟨#[], #[], .black, none⟩

/-- Finishes the current path, unless it has no steps. -/
def finish (s : Sketch) : Array Path :=
  if s.current.isEmpty then s.finished else s.finished.push ⟨s.current.toList, s.colour⟩

/-- Does one more operation. -/
def add (s : Sketch) : CanvasOp → Sketch
  | .moveTo _ => s
  | .line start finish =>
    let current := if s.last = some start then s.current else s.current.push (.moveTo start)
    { s with current := current.push (.lineTo finish), last := some finish }
  | .clear => { s with finished := #[], current := #[], last := none }
  | .setColour colour => ⟨s.finish, #[], colour, none⟩

end Sketch

/-- The paths of a drawing. -/
def paths (ops : List CanvasOp) : List Path :=
  (ops.foldl Sketch.add Sketch.empty).finish.toList

/-! ## Writing -/

/-- A point in the data of a path. -/
def Point.text (p : Point) : String := toString p.x.toInt ++ "," ++ toString p.y.toInt

/-- A step in the data of a path. -/
def PathStep.text : PathStep → String
  | .moveTo p => "M" ++ p.text
  | .lineTo p => "L" ++ p.text

/-- The data of a path. -/
def Path.data (p : Path) : String := " ".intercalate (p.steps.map PathStep.text)

/-- A colour as SVG names it. -/
def Colour.text (c : Colour) : String :=
  "rgb(" ++ toString c.red.toInt ++ "," ++ toString c.green.toInt ++ "," ++ toString c.blue.toInt
    ++ ")"

/-- An opening tag, without what closes it. The attributes are in the order of their names. -/
def tag (name : String) (attributes : List (String × String)) : String :=
  "<" ++ name ++ String.join (attributes.map fun (key, value) => " " ++ key ++ "=\"" ++ value ++ "\"")

/-- A path as an element. -/
def Path.element (p : Path) : String :=
  tag "path"
    [("d", p.data), ("fill", "none"), ("stroke", p.colour.text), ("stroke-linecap", "round"),
     ("stroke-width", "1")] ++ "/>"

/-- A document of these paths on a square. An element without content closes itself. -/
def document (size : Nat) (ps : List Path) : String :=
  let side := toString size
  let opening := tag "svg"
    [("height", side), ("viewBox", "0 0 " ++ side ++ " " ++ side), ("width", side),
     ("xmlns", "http://www.w3.org/2000/svg")]
  if ps.isEmpty then opening ++ "/>"
  else opening ++ ">" ++ String.join (ps.map fun p => "\n" ++ p.element) ++ "\n</svg>"

/-- The picture of a drawing. -/
def render (ops : List CanvasOp) (size : Nat) : String := document size (paths ops)

/-- What the journal is told about rendering a drawing. -/
def renderEvent (ops : List CanvasOp) : Event := .rendered (paths ops).length

end Logo
