/-!
# Lines of bytes

A line is a stretch of bytes up to a line feed, which belongs to it; only the last line may lack
one. A line need not be a text.
-/

namespace Logo.Text

/-- A line, with its line feed. -/
abbrev Line := List UInt8

namespace Line

/-- Cuts bytes into lines. -/
def split : List UInt8 → List Line
  | [] => []
  | b :: bs =>
    if b = 10 then [b] :: split bs
    else
      match split bs with
      | [] => [[b]]
      | line :: lines => (b :: line) :: lines

/-- The text that a line is, if its bytes are well-formed UTF-8. -/
def text? (line : Line) : Option String := String.fromUTF8? ⟨line.toArray⟩

end Line

end Logo.Text
