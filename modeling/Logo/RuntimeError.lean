import Logo.Syntax

/-!
# Errors of a running program

An error ends the program that runs; what was done before it stays done. The place that a message
shows is a place in the text that the failing code came from, which may be an earlier text than
the one that is run.
-/

namespace Logo

/-- What can go wrong while a program runs. -/
inductive RuntimeError where
  | divisionByZero
  | negativeSleep (milliseconds : Int32)
  /-- A call was to give a number, but its procedure ended without an output. -/
  | noOutput (procedure : String)
  /-- A variable has no value. -/
  | unknownVariable (name : Name)
  /-- No procedure has that name any more. -/
  | unknownProcedure (name : Name)
  /-- A procedure takes another number of inputs than it is called with. -/
  | wrongArity (name : Name) (expected found : Nat)
  /-- A prompt got no answer. -/
  | noInput (name : Name)
  /-- Too many procedures are running. -/
  | stackOverflow (procedure : String)
  deriving DecidableEq, Repr

namespace RuntimeError

/-- The place that an error is tied to, if it is tied to one. -/
def position? : RuntimeError → Option Position
  | .unknownVariable name | .unknownProcedure name | .wrongArity name _ _ | .noInput name =>
    some name.position
  | .divisionByZero | .negativeSleep _ | .noOutput _ | .stackOverflow _ => none

/-- What is wrong, without the place. -/
def text : RuntimeError → String
  | .divisionByZero => "division by zero"
  | .negativeSleep ms => "can't sleep for a negative time (" ++ toString ms.toInt ++ " ms)"
  | .noOutput procedure => procedure ++ " didn't output a value"
  | .unknownVariable name => name.text ++ " has no value"
  | .unknownProcedure name => "I don't know how to " ++ name.text
  | .wrongArity name expected found =>
    name.text ++ " takes " ++ toString expected ++ " inputs, but was given " ++ toString found
  | .noInput name => "no value was provided for " ++ name.text
  | .stackOverflow procedure => "call stack too deep (calling " ++ procedure ++ ")"

/-- The message for the user. -/
def message (e : RuntimeError) : String :=
  match e.position? with
  | some p => p.shown ++ ": " ++ e.text
  | none => e.text

end RuntimeError

end Logo
