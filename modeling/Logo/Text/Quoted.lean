import Logo.Text.Hidden

/-!
# Quoting a text

A text is shown between quotes. Quotes, backslashes, tabs and line ends are written with a
backslash, as is the character zero; so is, by its number, every other character that cannot be
shown by itself. An apostrophe stands as it is.
-/

namespace Logo.Text

/-- How one character of a quoted text is written. -/
def escape (c : Char) : String :=
  if c = '\x00' then "\\0"
  else if c = '\t' then "\\t"
  else if c = '\r' then "\\r"
  else if c = '\n' then "\\n"
  else if c = '\\' then "\\\\"
  else if c = '"' then "\\\""
  else if isHidden c then "\\u\x7b" ++ String.ofList (Nat.toDigits 16 c.toNat) ++ "\x7d"
  else c.toString

/-- A text between quotes. -/
def quote (cs : List Char) : String :=
  "\"" ++ String.join (cs.map escape) ++ "\""

end Logo.Text
