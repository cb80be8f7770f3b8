import Logo.Bindings
import Logo.Syntax

/-!
# Variables

Every procedure that is running has variables of its own. A name means the variable of the
innermost running procedure that has one of that name, whatever calls led there, and the shared
variable if none has.
-/

namespace Logo

/-- All variables. -/
structure Scopes where
  /-- The variables that all procedures share. -/
  shared : Bindings Int32
  /-- The variables of the running procedures, the innermost first. -/
  own : List (Bindings Int32)

namespace Scopes

/-- No procedure is running, and no variable has a value. -/
def empty : Scopes := ⟨∅, []⟩

/-- The value of a name. -/
def get? (s : Scopes) (name : String) : Option Int32 :=
  (s.own.findSome? (·[name]?)).or s.shared[name]?

/-- Gives the shared variable `name` a value. -/
def setShared (s : Scopes) (name : String) (value : Int32) : Scopes :=
  { s with shared := s.shared.insert name value }

/-- Gives the innermost procedure's variable `name` a value; if none is running, the shared one. -/
def setOwn (s : Scopes) (name : String) (value : Int32) : Scopes :=
  match s.own with
  | [] => s.setShared name value
  | inner :: outer => { s with own := inner.insert name value :: outer }

/-- Sets a variable. -/
def set (s : Scopes) : Reach → String → Int32 → Scopes
  | .shared => s.setShared
  | .own => s.setOwn

/-- One more procedure is running, with these variables. -/
def push (s : Scopes) (locals : Bindings Int32) : Scopes :=
  { s with own := locals :: s.own }

/-- The innermost procedure is left, if any is running. -/
def pop (s : Scopes) : Scopes :=
  { s with own := s.own.tail }

/-- The number of sets of variables, the shared ones counted. -/
def depth (s : Scopes) : Nat := s.own.length + 1

end Scopes

end Logo
