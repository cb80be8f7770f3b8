import Logo.Journal
import Logo.Text.Blank
import Logo.Text.Integer
import Logo.Text.Line
import Logo.Text.Quoted

/-!
# Asking for numbers

A program asks for numbers. The answers are either known beforehand, or typed: then each prompt
takes lines until one of them is an integer, and complains about those that are texts but no
integers. The prompt gets no answer at the end of the lines, and from a line that is no text.
-/

namespace Logo

open Text (Line)

/-- Lines that somebody types, and what is shown meanwhile. -/
structure Terminal where
  /-- The lines that have not been taken yet. -/
  lines : List Line
  /-- What has been shown. -/
  shown : String
  deriving DecidableEq

namespace Terminal

/-- What is shown to ask for a number. -/
def request (label : String) : String := label ++ "? "

/-- What is shown about a line that is no integer. -/
def complaint (text : List Char) : String := Text.quote text ++ " isn't an integer\n"

/-- What came of asking. -/
structure Answer where
  value : Option Int32
  terminal : Terminal
  /-- What the journal is told. -/
  events : List Event

/-- Asks until a line answers or none can. -/
def askFrom (label : String) (shown : String) : List Line → Answer
  | [] => ⟨none, ⟨[], shown ++ request label⟩, []⟩
  | line :: lines =>
    match line.text? with
    | none => ⟨none, ⟨lines, shown ++ request label⟩, [.noText label]⟩
    | some text =>
      let trimmed := Text.trim text.toList
      match Text.integer? trimmed with
      | some n => ⟨some n, ⟨lines, shown ++ request label⟩, []⟩
      | none => askFrom label (shown ++ request label ++ complaint trimmed) lines

/-- Asks for a number. -/
def ask (t : Terminal) (label : String) : Answer := askFrom label t.shown t.lines

end Terminal

/-- Where the answers to prompts come from. -/
inductive Answers where
  /-- They are known beforehand. -/
  | scripted (values : List Int32)
  /-- They are typed. -/
  | typed (terminal : Terminal)
  deriving DecidableEq

namespace Answers

/-- Asks for a number; also gives what the journal is told. -/
def ask (answers : Answers) (label : String) : Option Int32 × Answers × List Event :=
  match answers with
  | .scripted [] => (none, .scripted [], [])
  | .scripted (v :: vs) => (some v, .scripted vs, [])
  | .typed t =>
    let answer := t.ask label
    (answer.value, .typed answer.terminal, answer.events)

/-- Adds an answer after those that are known. What is typed cannot be known. -/
def push (answers : Answers) (value : Int32) : Answers :=
  match answers with
  | .scripted values => .scripted (values ++ [value])
  | .typed t => .typed t

end Answers

end Logo
