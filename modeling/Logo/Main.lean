import Logo.CommandLine

/-!
# The program

    logo [FILE] [--svg PATH] [--size N]

Runs the program in `FILE`, or on standard input, and saves the drawing. What a line answers is
computed by `CommandLine.exchange`; this module reads, prints and waits.

Standard input is read only when a line of it is wanted. To find out whether a text wants one, it
is run with a line after the known ones that no prompt accepts: if that line was taken, a real one
is read in its place and the text is run again from where it began.
-/

namespace Logo

/-- What the system says about a failure. -/
def FileFault.ofError : IO.Error → FileFault
  | .noFileOrDirectory .. => .notFound
  | .inappropriateType _ code details | .permissionDenied _ code details
  | .resourceExhausted _ code details | .otherError code details =>
    .other (details ++ " (os error " ++ toString code ++ ")")
  | e => .other (toString e)

namespace CommandLine

open Text (Line)

/-- What the arguments ask for. -/
structure Options where
  program : Option String
  drawing : Option String
  size : Nat

/-- Takes the arguments apart. -/
def Options.ofArguments : List String → Except String Options
  | [] => .ok ⟨none, none, defaultSize⟩
  | "--svg" :: path :: rest => return { ← ofArguments rest with drawing := some path }
  | "--size" :: n :: rest =>
    match n.toNat? with
    | some n => return { ← ofArguments rest with size := n }
    | none => throw ("invalid size " ++ n)
  | argument :: rest =>
    if argument.startsWith "-" then throw ("unexpected argument " ++ argument)
    else return { ← ofArguments rest with program := some argument }

/-- The bytes up to the next line feed, if there are any. -/
partial def readLine (stream : IO.FS.Stream) (taken : List UInt8) : IO (Option Line) := do
  let bytes ← stream.read 1
  match bytes.toList with
  | [] => return if taken.isEmpty then none else some taken.reverse
  | b :: _ => if b = 10 then return some (b :: taken).reverse else readLine stream (b :: taken)

/-- A line that no prompt accepts and that no prompt passes over: it is no text. -/
def unacceptable : Line := [0xff]

/-- Submits a text. Shows what prompts show, apart from what has been shown before. -/
partial def converseOnce (m : Machine) (text before : String) : IO (Exchange × Machine) := do
  let known := promptLines m
  let (e, after) := exchange (setPromptLines m (known ++ [unacceptable])) text
  let stderr ← IO.getStderr
  stderr.putStr (e.shown.drop before.length).toString
  stderr.flush
  if ¬ (promptLines after).isEmpty then
    return (e, setPromptLines after (promptLines after).dropLast)
  match ← readLine (← IO.getStdin) [] with
  | some line => converseOnce (setPromptLines m (known ++ [line])) text e.shown
  | none => return exchange m text

/-- How long a text wanted to sleep. -/
def pauses (events : List Event) : Nat :=
  events.foldl (fun total e =>
    match e with
    | .sleeping ms => total + ms.toNat
    | _ => total) 0

/-- Submits the lines of a program, one after the other. -/
partial def converseAll (listing : Listing) (m : Machine) : IO (Option Fatal × Machine) := do
  let next ← match listing.next? m, listing with
    | some next, _ => pure (some next)
    | none, .separate _ => pure none
    | none, .shared => pure ((← readLine (← IO.getStdin) []).map fun line => (line, listing, m))
  match next with
  | none => return (none, m)
  | some (line, listing, m) =>
    match Request.ofLine line with
    | .exit => return (none, m)
    | .notText => return (some .notText, m)
    | .submit text =>
      let (e, m) ← converseOnce m text ""
      let (events, m) := m.takeJournal
      IO.sleep (pauses events).toUInt32
      IO.print e.reply.log
      (← IO.getStdout).flush
      IO.eprint e.reply.errors
      converseAll listing m

/-- Opens and reads the file that holds the program. -/
def readProgram (path : String) : IO (Except Fatal Listing) := do
  match ← (IO.FS.Handle.mk path .read).toBaseIO with
  | .error e => return .error (.openFailed path (.ofError e))
  | .ok handle =>
    match ← handle.readBinToEnd.toBaseIO with
    | .error e => return .error (.readFailed (.ofError e))
    | .ok bytes => return .ok (.separate (Line.split bytes.toList))

/-- Saves a drawing. -/
def save (path : String) (text : String) : IO (Option Fatal) := do
  match ← (IO.FS.writeFile path text).toBaseIO with
  | .error e => return some (.saveFailed path (.ofError e))
  | .ok _ => return none

/-- Does what the options ask for. -/
def execute (options : Options) : IO (Option Fatal) := do
  let listing ← match options.program with
    | some path => readProgram path
    | none => pure (.ok .shared)
  match listing with
  | .error f => return some f
  | .ok listing =>
    match ← converseAll listing (machine []) with
    | (some f, _) => return some f
    | (none, m) =>
      match options.drawing with
      | some path => save path (render m.canvas.ops.toList options.size)
      | none => return none

end CommandLine

end Logo

def main (arguments : List String) : IO UInt32 := do
  match Logo.CommandLine.Options.ofArguments arguments with
  | .error e =>
    IO.eprintln ("error: " ++ e)
    return 2
  | .ok options =>
    match ← Logo.CommandLine.execute options with
    | none => return 0
    | some f =>
      IO.eprint f.text
      return 1
