import Logo.Position

/-!
# The journal

What happens behind a program's back is told to a journal, event by event: the tokens that are
read, the procedures that are defined, the failures.
-/

namespace Logo

/-- Something that the journal is told. -/
inductive Event where
  /-- The parser, or whoever goes through the tokens, came to this one. -/
  | token (text : String) (position : Position)
  /-- The header of a definition was read; `known` if the name was bound before. -/
  | header (name : String) (arity : Nat) (known : Bool)
  | parsed (items : Nat)
  | refused (message : String)
  | failed (message : String)
  | sleeping (milliseconds : Int)
  /-- A line that should have answered the prompt for `label` was no text. -/
  | noText (label : String)
  | rendered (paths : Nat)
  deriving DecidableEq, Repr

/-- How much an event matters. -/
def Event.level : Event → String
  | .token .. => "TRACE"
  | .header .. | .parsed _ | .refused _ | .failed _ | .rendered _ => "DEBUG"
  | .sleeping _ => "INFO"
  | .noText _ => "WARN"

/-- The failure to take bytes for a text. -/
def notUtf8 : String := "stream did not contain valid UTF-8"

def Event.text : Event → String
  | .token text p => "token " ++ text ++ " at " ++ p.shown
  | .header name arity known =>
    (if known then "redefining " else "defining ") ++ name ++ " with " ++ toString arity ++ " inputs"
  | .parsed n => "parsed " ++ toString n ++ " statements"
  | .refused message =>
    "parse failed (" ++ message ++ "), rolling back procedure definitions"
  | .failed message => "runtime error: " ++ message
  | .sleeping ms => "sleeping for " ++ toString ms ++ " ms"
  | .noText label => "failed to read a value for " ++ label ++ ": " ++ notUtf8
  | .rendered n => "rendered " ++ toString n ++ " paths"

/-- An event as one line. -/
def Event.line (e : Event) : String := e.level ++ " " ++ e.text

end Logo
