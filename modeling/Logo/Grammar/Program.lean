import Logo.Grammar.Statement
import Logo.Journal
import Logo.Scan

/-!
# Reading programs

    program    = (definition | statement) ... (definition | statement)
    definition = to name parameter ... parameter statement ... statement end

The parameters of a procedure end before the first word that is already the name of a procedure,
its own name included, and before anything that is no word. The procedure is known from there on:
in its own body, and in all that follows.

`parse` reads a whole text. Its result also holds the headers that were read on the way and the
procedures that were known in the end, also if the text is then refused: `Parse.events` says what
happened in which order, and whoever keeps the procedures can undo what the headers did.
-/

namespace Logo

/-- The header of a definition. -/
structure Header where
  name : String
  parameters : List String
  /-- Whether a procedure of this name was known before. -/
  known : Bool
  /-- How many tokens were left after it. -/
  ahead : Nat
  deriving DecidableEq, Repr

/-- The procedure of a header is known from there on, without its body. -/
def Procedures.announce (known : Procedures) (h : Header) : Procedures :=
  known.insert h.name ⟨h.name, h.parameters, none⟩

/-- The definition of a known procedure has been read: it has this body. -/
def Procedures.complete (known : Procedures) (name : String) (body : List Statement) : Procedures :=
  known.modify name (·.fill body)

namespace Grammar

/-! ## Definitions -/

/-- Reads the parameters of the procedure `name`. -/
def parameters (sig : Signature) (name : String) : List Token → List String × List Token
  | [] => ([], [])
  | t :: rest =>
    match t.lexeme with
    | .word w =>
      if w = name ∨ (sig w).isSome then ([], t :: rest)
      else
        let (ps, rest) := parameters sig name rest
        (w :: ps, rest)
    | _ => ([], t :: rest)

/-- Reads what follows `to`, up to the body. -/
def header (sig : Signature) : Reader Header
  | [] => missing .procedureName []
  | t :: rest =>
    match t.lexeme with
    | .word name =>
      let (ps, rest) := parameters sig name rest
      .ok (⟨name, ps, (sig name).isSome, rest.length⟩, rest)
    | _ => missing .procedureName (t :: rest)

/-- Reads statements up to `end`, and `end`, with `body` for the statements after the first. -/
def bodyWith (statement : Reader Statement) (outer : String) (body : Reader (List Statement)) :
    Reader (List Statement)
  | [] => missing .endOfDefinition []
  | ⟨.keyword .endDefine, _⟩ :: rest => .ok ([], rest)
  | ts@(⟨.keyword .define, _⟩ :: _) => .error ⟨.nestedDefinition outer, ts⟩
  | ts => do
    let (s, rest) ← statement ts
    let (ss, rest) ← body rest
    .ok (s :: ss, rest)

/-- Reads the body of the procedure `outer` and its `end`, from at most so many tokens. -/
def bodyWithin (sig : Signature) (outer : String) : Nat → Reader (List Statement)
  | 0, ts => missing .endOfDefinition ts
  | n + 1, ts => bodyWith (statement sig) outer (bodyWithin sig outer n) ts

/-- Reads the body of the procedure `outer` and its `end`. -/
def body (sig : Signature) (outer : String) : Reader (List Statement) :=
  fun ts => bodyWithin sig outer ts.length ts

/-! ## Programs -/

/-- What came of reading tokens as a program. -/
structure Reading where
  /-- The headers that were met, in order. -/
  headers : List Header
  /-- The procedures that are known where the reading ended. -/
  known : Procedures
  result : Except Failure Program

/-- Reads tokens as programs do. -/
abbrev ProgramReader := List Token → Reading

/-- Puts what comes first before what follows it. -/
def Reading.after (headers : List Header) (item : Item) (rest : Reading) : Reading :=
  { rest with headers := headers ++ rest.headers, result := rest.result.map (item :: ·) }

/-- Reads a definition, after its `to`, and what follows it, for which `program` is the reader. -/
def definitionWith (known : Procedures) (program : Procedures → ProgramReader) : ProgramReader :=
  fun ts =>
    match header known.signature ts with
    | .error f => ⟨[], known, .error f⟩
    | .ok (h, rest) =>
      let known := known.announce h
      match body known.signature h.name rest with
      | .error f => ⟨[h], known, .error f⟩
      | .ok (ss, rest) =>
        (program (known.complete h.name ss) rest).after [h]
          (.definition ⟨h.name, h.parameters, ss⟩)

/-- Reads all tokens as a program, with `program` for what follows its first part. -/
def programWith (known : Procedures) (program : Procedures → ProgramReader) : ProgramReader
  | [] => ⟨[], known, .ok []⟩
  | ⟨.keyword .define, _⟩ :: rest => definitionWith known program rest
  | ts =>
    match statement known.signature ts with
    | .error f => ⟨[], known, .error f⟩
    | .ok (s, rest) => (program known rest).after [] (.statement s)

/-- Reads all tokens as a program, at most so many. -/
def programWithin : Nat → Procedures → ProgramReader
  | 0, known, _ => ⟨[], known, .ok []⟩
  | n + 1, known, ts => programWith known (programWithin n) ts

/-- Reads all tokens as a program. -/
def program (known : Procedures) : ProgramReader := fun ts => programWithin ts.length known ts

end Grammar

/-! ## Whole texts -/

/-- The error that a reader's failure is, given what ends the tokens. -/
def Failure.toError (stop : Stop) (f : Failure) : SyntaxError :=
  match f.rest with
  | t :: _ =>
    match f.cause with
    | .expected what => ⟨t.position, .expected what t.lexeme⟩
    | .notAVariable name => ⟨t.position, .notAVariable name⟩
    | .nestedDefinition outer => ⟨t.position, .nestedDefinition outer⟩
  | [] =>
    match stop with
    | .unreadable p => ⟨p, .unrecognized⟩
    | .endOfText p =>
      match f.cause with
      | .expected what => ⟨p, .unexpectedEnd what⟩
      | .notAVariable name => ⟨p, .notAVariable name⟩
      | .nestedDefinition outer => ⟨p, .nestedDefinition outer⟩

/-- What came of parsing a text. -/
structure Parse where
  scan : Scan
  /-- The headers of definitions that were read, in order. -/
  headers : List Header
  /-- The procedures that were known where the parser ended, also if it gave up. -/
  known : Procedures
  /-- How many of the tokens were left where the parser gave up. -/
  unread : Nat
  result : Except SyntaxError Program

/-- Parses a text with the procedures that are known. -/
def parse (known : Procedures) (text : String) : Parse :=
  let scan := Scan.ofText text
  let reading := Grammar.program known scan.tokens
  match reading.result with
  | .error f =>
    ⟨scan, reading.headers, reading.known, f.rest.length, .error (f.toError scan.stop)⟩
  | .ok program =>
    match scan.stop with
    | .endOfText _ => ⟨scan, reading.headers, reading.known, 0, .ok program⟩
    | .unreadable p => ⟨scan, reading.headers, reading.known, 0, .error ⟨p, .unrecognized⟩⟩

/-! ## What happened -/

/-- The event of coming to a token. -/
def Token.event (t : Token) : Event := .token t.lexeme.text t.position

/-- The event of coming to the end of the tokens. -/
def Stop.event : Stop → Event
  | .endOfText p => .token "end of text" p
  | .unreadable p => .token "invalid token" p

/-- The event of a header. -/
def Header.event (h : Header) : Event := .header h.name h.parameters.length h.known

namespace Parse

/-- The headers that end where so many tokens are left. -/
def headersAt (p : Parse) (ahead : Nat) : List Event :=
  (p.headers.filter (·.ahead = ahead)).map Header.event

/-- The events of going on through some last tokens. Each header is told after the token that
follows it, and nothing after the token at which the parser gave up. -/
def readingEvents (p : Parse) : List Token → List Event
  | [] =>
    match p.scan.stop with
    | .endOfText _ => p.scan.stop.event :: p.headersAt 0
    | .unreadable _ => [p.scan.stop.event]
  | t :: rest =>
    t.event :: p.headersAt (rest.length + 1) ++
      if p.unread = rest.length + 1 then [] else p.readingEvents rest

/-- What the journal is told about parsing a text. -/
def events (p : Parse) : List Event :=
  p.readingEvents p.scan.tokens ++
    [match p.result with
     | .ok program => .parsed program.length
     | .error e => .refused e.message]

end Parse

end Logo
