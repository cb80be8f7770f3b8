/-!
# Places in a text

A place is counted in UTF-8 bytes, from zero: how many come before it in the whole text, how many
line ends, and how many bytes since the last of these. Only a line feed ends a row. A place is
shown to people counted from one.

`ByteReader` walks over a text byte by byte, and so may stop inside a character;
`Position.advance` steps over a whole character.
-/

namespace Logo

/-- A place in a text. -/
structure Position where
  /-- Bytes before it. -/
  byte : Nat
  /-- Line feeds before it. -/
  row : Nat
  /-- Bytes between the last line feed, or the beginning, and it. -/
  column : Nat
  deriving DecidableEq, Repr

namespace Position

/-- The place where a text begins. -/
def start : Position := ⟨0, 0, 0⟩

instance : Inhabited Position := ⟨start⟩

/-- The place after one more byte. -/
def advanceByte (p : Position) (b : UInt8) : Position :=
  if b = 10 then ⟨p.byte + 1, p.row + 1, 0⟩ else ⟨p.byte + 1, p.row, p.column + 1⟩

/-- The place after one more character. -/
def advance (p : Position) (c : Char) : Position :=
  if c = '\n' then ⟨p.byte + 1, p.row + 1, 0⟩
  else ⟨p.byte + c.utf8Size, p.row, p.column + c.utf8Size⟩

/-- The place after some more characters. -/
def advanceAll (p : Position) (cs : List Char) : Position :=
  cs.foldl advance p

/-- A place as people count it. -/
def shown (p : Position) : String :=
  "line " ++ toString (p.row + 1) ++ ", column " ++ toString (p.column + 1)

@[simp] theorem advanceAll_nil (p : Position) : p.advanceAll [] = p := rfl

@[simp] theorem advanceAll_cons (p : Position) (c : Char) (cs : List Char) :
    p.advanceAll (c :: cs) = (p.advance c).advanceAll cs := rfl

theorem advanceAll_append (p : Position) (cs ds : List Char) :
    p.advanceAll (cs ++ ds) = (p.advanceAll cs).advanceAll ds :=
  List.foldl_append

end Position

/-- A text that is read byte by byte. -/
structure ByteReader where
  /-- The bytes that are still to come. -/
  rest : List UInt8
  /-- Where the next of them stands. -/
  position : Position

namespace ByteReader

/-- A reader at the beginning of a text. -/
def ofText (text : String) : ByteReader := ⟨text.toUTF8.toList, .start⟩

/-- The next byte, if there is one, and the reader after it. -/
def next (r : ByteReader) : Option UInt8 × ByteReader :=
  match r.rest with
  | [] => (none, r)
  | b :: bs => (some b, ⟨bs, r.position.advanceByte b⟩)

/-- What `n` readings give. -/
def take : Nat → ByteReader → List (Option UInt8) × ByteReader
  | 0, r => ([], r)
  | n + 1, r =>
    let (b, r) := r.next
    let (bs, r) := take n r
    (b :: bs, r)

end ByteReader

end Logo
