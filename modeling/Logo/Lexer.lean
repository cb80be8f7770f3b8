import Logo.Scan
import Logo.Text.Decoded

/-!
# Reading tokens byte by byte

`Cursor` walks over a text character by character. `Lexer` does so byte by byte: one byte has been
read ahead, and the place of this byte is kept beside it. Nothing tells a lexer where the characters
begin. A quoted text is collected as bytes, which have to be decoded in the end.
-/

namespace Logo

/-- A byte as the character of its number. -/
def Text.charOf (b : UInt8) : Char := Char.ofNat b.toNat

open Text (charOf)

/-- A text that is taken apart byte by byte. -/
structure Lexer where
  reader : ByteReader
  /-- The byte that has been read ahead, unless the text is at its end. -/
  current : Option UInt8
  /-- Where that byte stands. -/
  position : Position

/-- What a call for the next token gives. -/
inductive Lexed where
  | piece (p : Piece)
  | endOfText (position : Position)
  deriving DecidableEq, Repr

def Lexed.position : Lexed → Position
  | .piece p => p.position
  | .endOfText p => p

namespace Lexer

/-- Reads one more byte ahead. -/
def bump (l : Lexer) : Lexer := ⟨l.reader.next.2, l.reader.next.1, l.reader.position⟩

/-- Begins with a text, and leaves what was being read. -/
def load (l : Lexer) (text : String) : Lexer := bump { l with reader := .ofText text }

/-- How many bytes are to come. -/
def left (l : Lexer) : Nat := l.current.toList.length + l.reader.rest.length

theorem left_bump (l : Lexer) : l.bump.left = l.reader.rest.length := by
  unfold left bump ByteReader.next
  cases rest : l.reader.rest with
  | nil => simp [rest]
  | cons b bs => simp [Nat.add_comm]

theorem left_bump_lt {l : Lexer} {b : UInt8} (ahead : l.current = some b) :
    l.bump.left < l.left := by
  rw [left_bump, left, ahead, Option.toList_some, List.length_singleton]
  omega

theorem left_bump_le (l : Lexer) : l.bump.left ≤ l.left := by
  rw [left_bump]
  exact Nat.le_add_left _ _

/-- Whether the byte ahead is a character of this kind. -/
def sees (l : Lexer) (p : Char → Bool) : Bool := l.current.any (p <| charOf ·)

/-- Whether a word or a numeral can end here. -/
def parted (l : Lexer) : Bool := l.current.all (isSeparator <| charOf ·)

/-- The bytes that are characters of this kind, as long as they are, and the lexer after them. -/
def span (p : Char → Bool) (l : Lexer) : List UInt8 × Lexer :=
  match _h : l.current with
  | none => ([], l)
  | some b =>
    if p (charOf b) then
      let (bs, after) := l.bump.span p
      (b :: bs, after)
    else ([], l)
termination_by l.left
decreasing_by exact left_bump_lt _h

/-- What is no lexeme goes on up to a separator. -/
def unreadable (l : Lexer) : Option Lexeme × Lexer := (none, (l.span (!isSeparator ·)).2)

/-- Reads on in a numeral of which the digits so far stand for `value`. -/
def digits (value : Int64) (l : Lexer) : Option Lexeme × Lexer :=
  match _h : l.current with
  | none => (some (.number value.toNatClampNeg), l)
  | some b =>
    if (charOf b).isDigit then
      let value := value * 10 + Int64.ofNat (b - 48).toNat
      if Int64.ofNat maxNumber < value then l.unreadable else l.bump.digits value
    else if isSeparator (charOf b) then (some (.number value.toNatClampNeg), l)
    else l.unreadable
termination_by l.left
decreasing_by exact left_bump_lt _h

/-- Reads a numeral. -/
def number (l : Lexer) : Option Lexeme × Lexer :=
  if l.sees (· = '0') then
    if l.bump.parted then (some (.number 0), l.bump) else l.bump.unreadable
  else l.digits 0

/-- Reads on in a quoted text of which these bytes have been collected. -/
def quoted (collected : List UInt8) (l : Lexer) : Option Lexeme × Lexer :=
  match h : l.current with
  | none => (none, l)
  | some b =>
    if charOf b = '"' then (some (.quoted (String.ofList (Text.decode collected))), l.bump)
    else if charOf b = '\\' then
      if l.bump.sees (· = '"') then l.bump.bump.quoted (collected ++ [34])
      else l.bump.quoted (collected ++ [b])
    else l.bump.quoted (collected ++ [b])
termination_by l.left
decreasing_by
  · exact Nat.lt_of_le_of_lt l.bump.left_bump_le (left_bump_lt h)
  · exact left_bump_lt h
  · exact left_bump_lt h

/-- Reads a word. -/
def word (l : Lexer) : Option Lexeme × Lexer :=
  let (bs, after) := l.span isWordRest
  (Lexeme.ofWord (String.ofList (bs.map charOf)), after)

/-- Reads the piece that begins with the byte ahead, which is the character `c`. -/
def piece (l : Lexer) (c : Char) : Option Lexeme × Lexer :=
  match c with
  | '[' => (some .bracketOpen, l.bump)
  | ']' => (some .bracketClose, l.bump)
  | '(' => (some .parenOpen, l.bump)
  | ')' => (some .parenClose, l.bump)
  | '\x7b' => (some .braceOpen, l.bump)
  | '\x7d' => (some .braceClose, l.bump)
  | '+' => (some (.addOp .plus), l.bump)
  | '-' => (some (.addOp .minus), l.bump)
  | '*' => (some (.mulOp .times), l.bump)
  | '/' => (some (.mulOp .over), l.bump)
  | '<' => (some (.comparison .less), l.bump)
  | '>' => (some (.comparison .greater), l.bump)
  | '=' => (some (.comparison .equal), l.bump)
  | '!' =>
    if l.bump.sees (· = '=') then (some (.comparison .notEqual), l.bump.bump) else (none, l.bump)
  | '"' => l.bump.quoted []
  | c => if c.isDigit then l.number else if c.isAlpha then l.word else l.unreadable

/-- Reads the next token. -/
def next (l : Lexer) : Lexed × Lexer :=
  let l := (l.span isBlank).2
  match l.current with
  | none => (.endOfText l.position, l)
  | some b =>
    let (lexeme, after) := l.piece (charOf b)
    (.piece ⟨lexeme, l.position⟩, after)

end Lexer

end Logo
