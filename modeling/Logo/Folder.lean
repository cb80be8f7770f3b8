/-!
# A folder of files

Relative paths, as they are followed from a folder that holds files and no other folder. A path is
cut at its slashes. All that it passes through has to be a folder, so nothing can be passed through
but the folder itself, which is also called `.`, and the one above it, `..`, which is taken to hold
nothing.

* `Folder.find` follows a path to what is there.
* `Folder.creationFault?` tells why no file can be written at a path.
-/

namespace Logo

/-- Why the system does not do what it is asked to do with a file. -/
inductive FileFault where
  | notFound
  | isDirectory
  | notDirectory
  | nameTooLong
  | other (text : String)
  deriving DecidableEq, Repr

/-- The system's words for it. -/
def FileFault.text : FileFault → String
  | .notFound => "No such file or directory (os error 2)"
  | .isDirectory => "Is a directory (os error 21)"
  | .notDirectory => "Not a directory (os error 20)"
  | .nameTooLong => "File name too long (os error 36)"
  | .other text => text

/-! ## Folders and paths -/

/-- A folder that holds files only, by their names. -/
structure Folder where
  files : List (String × List UInt8)

/-- What a path leads to. -/
inductive Found where
  | folder
  | file (bytes : List UInt8)
  deriving DecidableEq, Repr

namespace Folder

/-- One step of a path. -/
inductive Step where
  | stay
  | up
  | name (name : String)
  deriving DecidableEq, Repr

/-- The step that a name between slashes is. -/
def Step.ofName (name : String) : Step :=
  if name = "." then .stay else if name = ".." then .up else .name name

/-- The parts between slashes. There is one more of them than there are slashes. -/
def splitAtSlashes : List Char → List (List Char)
  | [] => [[]]
  | c :: cs =>
    if c = '/' then [] :: splitAtSlashes cs
    else
      match splitAtSlashes cs with
      | [] => [[c]]
      | part :: parts => (c :: part) :: parts

/-- A path with a last step. -/
structure Path where
  /-- The steps before the last one. -/
  through : List Step
  last : Step
  /-- Whether a slash stands at the end. -/
  slash : Bool
  deriving DecidableEq, Repr

/-- The path that a text is; none if it has no steps. Slashes that follow each other are one. -/
def Path.ofText? (text : String) : Option Path :=
  let parts := splitAtSlashes text.toList
  let steps := (parts.filter (· ≠ [])).map fun part => .ofName (String.ofList part)
  steps.getLast?.map fun last => ⟨steps.dropLast, last, parts.getLast? = some []⟩

/-! ## Following a path -/

/-- The most bytes that a name can have. -/
def nameLimit : Nat := 255

/-- The most bytes that a path can have. -/
def pathLimit : Nat := 4095

/-- The file of a name, if there is one. -/
def file? (d : Folder) (name : String) : Except FileFault (Option (List UInt8)) :=
  if nameLimit < name.utf8ByteSize then .error .nameTooLong else .ok (d.files.lookup name)

/-- The folder that a step leads to. -/
def enter (d : Folder) : Step → Except FileFault Folder
  | .stay => .ok d
  | .up => .ok ⟨[]⟩
  | .name name => do
    match ← d.file? name with
    | none => .error .notFound
    | some _ => .error .notDirectory

/-- What the last step of a path leads to. Only a folder can have a slash behind it. -/
def findLast (d : Folder) (slash : Bool) : Step → Except FileFault Found
  | .stay | .up => .ok .folder
  | .name name => do
    match ← d.file? name with
    | none => .error .notFound
    | some bytes => if slash then .error .notDirectory else .ok (.file bytes)

/-- What is found at a path. -/
def find (d : Folder) (path : String) : Except FileFault Found := do
  if path = "" then .error .notFound
  else if pathLimit < path.utf8ByteSize then .error .nameTooLong
  else
    match Path.ofText? path with
    | none => .ok .folder
    | some p => (← p.through.foldlM enter d).findLast p.slash p.last

/-- Writes a file at the last step of a path. Whatever a slash stands behind is taken to be a
folder. -/
def createLast (d : Folder) (slash : Bool) : Step → Except FileFault Unit
  | .stay | .up => .error .isDirectory
  | .name name => if slash then .error .isDirectory else do let _ ← d.file? name

/-- Writes a file at a path, over what may be there. -/
def create (d : Folder) (path : String) : Except FileFault Unit := do
  if path = "" then .error .notFound
  else if pathLimit < path.utf8ByteSize then .error .nameTooLong
  else
    match Path.ofText? path with
    | none => .error .isDirectory
    | some p => (← p.through.foldlM enter d).createLast p.slash p.last

/-- Why no file can be written at a path, if that is so. -/
def creationFault? (d : Folder) (path : String) : Option FileFault :=
  match d.create path with
  | .ok _ => none
  | .error fault => some fault

end Folder

end Logo
