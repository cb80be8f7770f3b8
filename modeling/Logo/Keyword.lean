import Std.Data.ExtTreeMap

/-!
# Reserved words

The reserved words and their spellings. A word of a program is looked up in a table that is
indexed by a hash of the spelling; a bucket holds the first reserved word that falls into it.

`Keyword.lookup` is the table's answer and `Keyword.ofSpelling?` the plain search through all
reserved words.
-/

namespace Logo

/-- A reserved word. -/
inductive Keyword where
  | or | xor | and | not
  | forward | back | right | left
  | move | setXY | head | home
  | getX | getY | getHeading
  | clearScreen | penUp | penDown | setColor
  | output | print | scan | make | localTo
  | ifTrue | loop | define | endDefine
  | truth | falsehood | sleep
  deriving DecidableEq, Repr

namespace Keyword

/-- All reserved words, in the order in which the table is filled. -/
def all : List Keyword :=
  [.or, .xor, .and, .not, .forward, .back, .right, .left, .move, .setXY, .head, .home,
   .getX, .getY, .getHeading, .clearScreen, .penUp, .penDown, .setColor, .output, .print,
   .scan, .make, .localTo, .ifTrue, .loop, .define, .endDefine, .truth, .falsehood, .sleep]

/-- How a reserved word is written. -/
def spelling : Keyword → String
  | .or => "or"
  | .xor => "xor"
  | .and => "and"
  | .not => "not"
  | .forward => "fd"
  | .back => "bk"
  | .right => "rt"
  | .left => "lt"
  | .move => "move"
  | .setXY => "setxy"
  | .head => "head"
  | .home => "home"
  | .getX => "getx"
  | .getY => "gety"
  | .getHeading => "getheading"
  | .clearScreen => "cs"
  | .penUp => "pu"
  | .penDown => "pd"
  | .setColor => "setcolor"
  | .output => "output"
  | .print => "print"
  | .scan => "scan"
  | .make => "make"
  | .localTo => "local"
  | .ifTrue => "if"
  | .loop => "repeat"
  | .define => "to"
  | .endDefine => "end"
  | .truth => "true"
  | .falsehood => "false"
  | .sleep => "sleep"

/-- The reserved word that is written `word`, found by going through all of them. -/
def ofSpelling? (word : String) : Option Keyword :=
  all.find? fun k => k.spelling = word

/-! ## The table -/

/-- The factor of the polynomial hash. -/
def hashFactor : Nat := 71

/-- The number of buckets. -/
def hashModulus : Nat := 9887

/-- One more byte goes into the hash `h`. -/
def hashStep (b : UInt8) (h : Nat) : Nat :=
  (hashFactor * h + b.toNat) % hashModulus

/-- A polynomial in the bytes of `word`, of which the last goes in first. -/
def hash (word : String) : Nat :=
  word.toUTF8.toList.foldr hashStep 0

/-- The reserved words by hash. A later one does not displace an earlier one. -/
def buckets : Std.ExtTreeMap Nat Keyword :=
  all.foldl (fun t k => t.insertIfNew (hash k.spelling) k) ∅

/-- What the table says about a word. -/
inductive Lookup where
  /-- It is this reserved word. -/
  | keyword (k : Keyword)
  /-- Its bucket holds its spelling, but no reserved word is written so. -/
  | unresolved
  /-- It is an ordinary word. -/
  | identifier
  deriving DecidableEq, Repr

/-- Looks a word up in the table. -/
def lookup (word : String) : Lookup :=
  match buckets[hash word]? with
  | none => .identifier
  | some stored =>
    if stored.spelling = word then
      match ofSpelling? word with
      | some k => .keyword k
      | none => .unresolved
    else .identifier

end Keyword

end Logo
