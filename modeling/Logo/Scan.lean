import Logo.Token

/-!
# From text to tokens

A `Cursor` stands somewhere in a text. `Cursor.next?` passes over blanks and takes the next piece,
which is either a lexeme or a stretch that no lexeme begins with; `Cursor.pieces` takes all of
them. The pieces are:

* a single sign, such as `[` or `+`; and `!=`, where a `!` that stands alone is no lexeme;
* a word, which begins with a letter and goes on as long as letters, digits and underscores do;
* a quoted text, which ends at the next quote that no backslash stands before, and is no lexeme
  if there is none;
* any other run of characters up to a separator, which is a lexeme if it is a numeral.

A program can be read only up to the first piece that is no lexeme: `Scan` holds the tokens before
it and says what ends them.
-/

namespace Logo

/-! ## Characters -/

/-- Characters that separate lexemes and belong to none. -/
def isBlank (c : Char) : Bool :=
  c = ' ' || c = '\t' || c = '\n' || c = '\x0c' || c = '\r'

/-- Characters that end a numeral. -/
def isSeparator (c : Char) : Bool :=
  c = '[' || c = ']' || c = '(' || c = ')' || c = '\x7b' || c = '\x7d' ||
  c = '+' || c = '-' || c = '*' || c = '/' || c = '<' || c = '>' || c = '=' || c = '!' ||
  c = '"' || isBlank c

/-- Characters that a word goes on with. -/
def isWordRest (c : Char) : Bool :=
  c.isAlphanum || c = '_'

/-! ## Numerals -/

/-- The largest number that can be written. -/
def maxNumber : Nat := 2147483647

/-- Puts one more digit after the numeral of `value`, unless that makes it too large. -/
def addDigit (value : Nat) (c : Char) : Option Nat :=
  if c.isDigit ∧ 10 * value + (c.toNat - '0'.toNat) ≤ maxNumber then
    some (10 * value + (c.toNat - '0'.toNat))
  else none

/-- The number that a numeral stands for: digits without a leading zero, and not too large. -/
def numeral? : List Char → Option Nat
  | [] => none
  | '0' :: rest => if rest.isEmpty then some 0 else none
  | digits => digits.foldlM addDigit 0

/-! ## Quoted texts -/

/-- Reads on after an opening quote: the text up to the closing quote, and how many characters it
takes with that quote. A backslash before a quote stands for the quote; before anything else it
stands for itself. -/
def unquote : List Char → Option (List Char × Nat)
  | [] => none
  | '"' :: _ => some ([], 1)
  | '\\' :: '"' :: rest => (unquote rest).map fun (s, n) => ('"' :: s, n + 2)
  | c :: rest => (unquote rest).map fun (s, n) => (c :: s, n + 1)

/-! ## Pieces -/

/-- The lexeme that a word is. -/
def Lexeme.ofWord (word : String) : Option Lexeme :=
  match Keyword.lookup word with
  | .keyword k => some (.keyword k)
  | .unresolved => none
  | .identifier => some (.word word)

/-- The lexeme that begins with the character `c`, if one does, and how many of the characters
after `c` the piece takes up. -/
def scanPiece (c : Char) (rest : List Char) : Option Lexeme × Nat :=
  match c with
  | '[' => (some .bracketOpen, 0)
  | ']' => (some .bracketClose, 0)
  | '(' => (some .parenOpen, 0)
  | ')' => (some .parenClose, 0)
  | '\x7b' => (some .braceOpen, 0)
  | '\x7d' => (some .braceClose, 0)
  | '+' => (some (.addOp .plus), 0)
  | '-' => (some (.addOp .minus), 0)
  | '*' => (some (.mulOp .times), 0)
  | '/' => (some (.mulOp .over), 0)
  | '<' => (some (.comparison .less), 0)
  | '>' => (some (.comparison .greater), 0)
  | '=' => (some (.comparison .equal), 0)
  | '!' =>
    match rest with
    | '=' :: _ => (some (.comparison .notEqual), 1)
    | _ => (none, 0)
  | '"' =>
    match unquote rest with
    | some (s, n) => (some (.quoted (String.ofList s)), n)
    | none => (none, rest.length)
  | c =>
    if c.isAlpha then
      let more := rest.takeWhile isWordRest
      (Lexeme.ofWord (String.ofList (c :: more)), more.length)
    else
      let more := rest.takeWhile (!isSeparator ·)
      ((numeral? (c :: more)).map .number, more.length)

/-- A stretch of text between blanks: a lexeme, or none, and where it begins. -/
structure Piece where
  lexeme : Option Lexeme
  position : Position
  deriving DecidableEq, Repr

/-- A place in a text that is being read. -/
structure Cursor where
  position : Position
  /-- The text from there on. -/
  rest : List Char

namespace Cursor

/-- The beginning of a text. -/
def ofText (text : String) : Cursor := ⟨.start, text.toList⟩

/-- Passes over blanks. -/
def skipBlanks (position : Position) : List Char → Cursor
  | [] => ⟨position, []⟩
  | c :: rest => if isBlank c then skipBlanks (position.advance c) rest else ⟨position, c :: rest⟩

theorem length_skipBlanks (position : Position) (cs : List Char) :
    (skipBlanks position cs).rest.length ≤ cs.length := by
  fun_induction skipBlanks position cs with
  | case1 => simp
  | case2 _ _ _ _ ih => simp only [List.length_cons]; omega
  | case3 => simp

/-- The next piece and the place after it, unless only blanks are left. -/
def next? (cursor : Cursor) : Option (Piece × Cursor) :=
  match skipBlanks cursor.position cursor.rest with
  | ⟨_, []⟩ => none
  | ⟨position, c :: rest⟩ =>
    let (lexeme, n) := scanPiece c rest
    some (⟨lexeme, position⟩, ⟨position.advanceAll (c :: rest.take n), rest.drop n⟩)

/-- A piece takes up some text. -/
theorem length_of_next? {cursor after : Cursor} {piece : Piece}
    (h : cursor.next? = some (piece, after)) : after.rest.length < cursor.rest.length := by
  have hle := length_skipBlanks cursor.position cursor.rest
  unfold next? at h
  split at h
  · cases h
  · next heq =>
    rw [heq] at hle
    cases h
    simp only [List.length_drop, List.length_cons] at hle ⊢
    omega

/-- All pieces from a place on. -/
def pieces (cursor : Cursor) : List Piece :=
  match _h : cursor.next? with
  | none => []
  | some (piece, after) => piece :: pieces after
termination_by cursor.rest.length
decreasing_by exact length_of_next? _h

/-- Where the text ends. -/
def finish (cursor : Cursor) : Position := cursor.position.advanceAll cursor.rest

end Cursor

/-! ## What a parser can read -/

/-- What stands after the tokens that can be read. -/
inductive Stop where
  /-- The end of the text. -/
  | endOfText (position : Position)
  /-- A piece that is no lexeme. -/
  | unreadable (position : Position)
  deriving DecidableEq, Repr

/-- The tokens of a text up to its first piece that is no lexeme. -/
structure Scan where
  tokens : List Token
  stop : Stop
  deriving DecidableEq, Repr

/-- Cuts a list of pieces at the first one that is no lexeme. -/
def Scan.ofPieces (finish : Position) : List Piece → Scan
  | [] => ⟨[], .endOfText finish⟩
  | ⟨none, p⟩ :: _ => ⟨[], .unreadable p⟩
  | ⟨some l, p⟩ :: rest =>
    let scan := ofPieces finish rest
    ⟨⟨l, p⟩ :: scan.tokens, scan.stop⟩

/-- The tokens of a text. -/
def Scan.ofText (text : String) : Scan :=
  let cursor := Cursor.ofText text
  ofPieces cursor.finish cursor.pieces

end Logo
