import Logo.Folder
import Logo.Interpreter
import Logo.Picture

/-!
# The command line

The lines of a program are submitted one by one. They come from a file or from standard input;
prompts are always answered from standard input, so that program and answers may share it. The
program ends with its lines, or at a line that says `exit`, or at a line that is no text, which is
a fatal error. At the end the drawing is saved if that is wanted and nothing fatal has happened.

`run` does all this for inputs that are known in full.
-/

namespace Logo.CommandLine

open Text (Line)

/-! ## What is asked for, and what can go fatally wrong -/

/-- A failure that ends the whole run. -/
inductive Fatal where
  | openFailed (path : String) (fault : FileFault)
  | readFailed (fault : FileFault)
  | notText
  | saveFailed (path : String) (fault : FileFault)
  deriving DecidableEq, Repr

/-- The report of a failure that has a cause behind it. -/
def causedBy (what cause : String) : String :=
  "Error: " ++ what ++ "\n\nCaused by:\n    " ++ cause ++ "\n"

/-- What is told about a fatal failure. -/
def Fatal.text : Fatal → String
  | .openFailed path fault => causedBy ("failed to open input file " ++ path) fault.text
  | .readFailed fault => "Error: " ++ fault.text ++ "\n"
  | .notText => "Error: " ++ notUtf8 ++ "\n"
  | .saveFailed path fault => causedBy ("failed to write " ++ path) fault.text

/-- Where the program comes from. -/
inductive ProgramSource where
  /-- Standard input, of which prompts take lines too. -/
  | standardInput
  /-- A file. -/
  | file (bytes : List UInt8)
  /-- A file that cannot be opened. -/
  | closed (path : String) (fault : FileFault)
  /-- Something that can be opened but not read. -/
  | unreadable (fault : FileFault)

/-- The program at a path. A folder can be opened, but not read. -/
def ProgramSource.ofPath (d : Folder) (path : String) : ProgramSource :=
  match d.find path with
  | .ok (.file bytes) => .file bytes
  | .ok .folder => .unreadable .isDirectory
  | .error fault => .closed path fault

/-- Where the drawing goes. -/
structure Destination where
  path : String
  /-- Why it cannot be written to, if it cannot. -/
  fault : Option FileFault

/-- A path as a destination. -/
def Destination.ofPath (d : Folder) (path : String) : Destination := ⟨path, d.creationFault? path⟩

/-- All that a run depends on. -/
structure Invocation where
  input : List UInt8
  source : ProgramSource
  drawing : Option Destination
  /-- The side of the picture. -/
  size : Nat

/-- The side of a picture if nothing else is asked for. -/
def defaultSize : Nat := 500

/-! ## Lines -/

/-- What a line of the program asks for. -/
inductive Request where
  | submit (text : String)
  | exit
  | notText
  deriving DecidableEq, Repr

/-- Whether a text says nothing but `exit`. -/
def saysExit (text : String) : Bool := Text.trim text.toList = "exit".toList

/-- What a line asks for. -/
def Request.ofLine (line : Line) : Request :=
  match line.text? with
  | none => .notText
  | some text => if saysExit text then .exit else .submit text

/-- The lines of the program that have not been taken yet. -/
inductive Listing where
  /-- They are the lines that prompts take, too. -/
  | shared
  | separate (lines : List Line)

/-- The lines that prompts can still take. -/
def promptLines (m : Machine) : List Line :=
  match m.canvas.answers with
  | .scripted _ => []
  | .typed t => t.lines

/-- Replaces the lines that prompts can still take. -/
def setPromptLines (m : Machine) (lines : List Line) : Machine :=
  match m.canvas.answers with
  | .scripted _ => m
  | .typed t => { m with canvas := { m.canvas with answers := .typed { t with lines } } }

/-- The lines that the program can still have. -/
def Listing.left (listing : Listing) (m : Machine) : List Line :=
  match listing with
  | .shared => promptLines m
  | .separate lines => lines

/-- The next line of the program. -/
def Listing.next? (listing : Listing) (m : Machine) : Option (Line × Listing × Machine) :=
  match listing, listing.left m with
  | _, [] => none
  | .shared, line :: lines => some (line, .shared, setPromptLines m lines)
  | .separate _, line :: lines => some (line, .separate lines, m)

/-! ## The run -/

/-- What came of submitting one line. -/
structure Exchange where
  /-- The prompts, and the complaints about their answers. -/
  shown : String
  reply : Reply
  deriving DecidableEq, Repr

/-- Gives what prompts have shown, and forgets it. -/
def takeShown (m : Machine) : String × Machine :=
  match m.canvas.answers with
  | .scripted _ => ("", m)
  | .typed t =>
    (t.shown, { m with canvas := { m.canvas with answers := .typed { t with shown := "" } } })

/-- Submits a text. -/
def exchange (m : Machine) (text : String) : Exchange × Machine :=
  let (reply, m) := m.submit text
  let (shown, m) := takeShown m
  (⟨shown, reply⟩, m)

/-- What came of a program. -/
structure Transcript where
  exchanges : List Exchange
  fatal : Option Fatal
  machine : Machine

/-- Goes on with a program, at most for so many lines. -/
def converse : Nat → Listing → Machine → Transcript
  | 0, _, m => ⟨[], none, m⟩
  | n + 1, listing, m =>
    match listing.next? m with
    | none => ⟨[], none, m⟩
    | some (line, listing, m) =>
      match Request.ofLine line with
      | .exit => ⟨[], none, m⟩
      | .notText => ⟨[], some .notText, m⟩
      | .submit text =>
        let (e, m) := exchange m text
        let after := converse n listing m
        { after with exchanges := e :: after.exchanges }

/-- The machine that prompts for answers from these bytes. -/
def machine (input : List UInt8) : Machine := .initial (.typed ⟨Line.split input, ""⟩)

/-- Runs a program. Every step takes a line, so there are not more steps than lines. -/
def transcript (inv : Invocation) : Transcript :=
  let m := machine inv.input
  let start (listing : Listing) := converse (listing.left m).length listing m
  match inv.source with
  | .standardInput => start .shared
  | .file bytes => start (.separate (Line.split bytes))
  | .closed path fault => ⟨[], some (.openFailed path fault), m⟩
  | .unreadable fault => ⟨[], some (.readFailed fault), m⟩

/-- What a run leaves behind. -/
structure Report where
  code : Nat
  output : String
  errors : String
  /-- The picture that was saved. -/
  picture : Option String
  deriving DecidableEq, Repr

/-- The picture that is to be saved after a program, or why it cannot be. -/
def picture (inv : Invocation) (t : Transcript) : Except Fatal (Option String) :=
  match t.fatal, inv.drawing with
  | some f, _ => .error f
  | none, none => .ok none
  | none, some d =>
    match d.fault with
    | some fault => .error (.saveFailed d.path fault)
    | none => .ok (some (render t.machine.canvas.ops.toList inv.size))

/-- Does a whole run. -/
def run (inv : Invocation) : Report :=
  let t := transcript inv
  let output := String.join (t.exchanges.map (·.reply.log))
  let errors := String.join (t.exchanges.map fun e => e.shown ++ e.reply.errors)
  match picture inv t with
  | .ok picture => ⟨0, output, errors, picture⟩
  | .error f => ⟨1, output, errors ++ f.text, none⟩

end Logo.CommandLine
