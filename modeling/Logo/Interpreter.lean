import Logo.Execution
import Logo.Grammar.Program

/-!
# Submitting texts

A session goes on text by text. A text is parsed as a whole before anything of it runs. If it
cannot be parsed nothing changes; otherwise all its procedures are known, the last one of each
name, and then its parts run in order until one of them fails.
-/

namespace Logo

/-- What a session answers to a text. -/
structure Reply where
  /-- What was printed. -/
  log : String
  /-- The message of the error that ended the text, with a line end. -/
  errors : String
  deriving DecidableEq, Repr

namespace Machine

/-- Parses a text with the procedures that are known. Those that it defines are known from their
headers on; if the text is refused, that is undone. -/
def read (m : Machine) (text : String) : Except SyntaxError Program × Machine :=
  let p := parse m.procedures text
  let known :=
    match p.result with
    | .error _ => p.known.restore m.procedures
    | .ok _ => p.known
  (p.result, { m with procedures := known, journal := m.journal ++ p.events })

/-- Gives what was printed and the messages of errors, and forgets them. -/
def takeLogs (m : Machine) : Reply × Machine :=
  (⟨m.log, m.errors⟩, { m with log := "", errors := "" })

/-- The reply to a text that ended with these messages, and the machine after it. -/
def reply (m : Machine) (errors : String) : Reply × Machine := (m.complain errors).takeLogs

/-- Parses a text and runs it. -/
def submit (m : Machine) (text : String) : Reply × Machine :=
  match m.read text with
  | (.error e, m) => m.reply (e.message ++ "\n")
  | (.ok program, m) =>
    match program.run m with
    | .ok _ m => m.reply ""
    | .error e m => (m.tell (.failed e.message)).reply (e.message ++ "\n")

end Machine

end Logo
