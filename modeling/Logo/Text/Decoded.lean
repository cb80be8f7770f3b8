/-!
# Bytes as a text

Bytes that need not be a text can be shown as one: what is well-formed UTF-8 is decoded, and a
broken character is shown as a mark. A broken character is made of as many bytes as could have been
the beginning of a character, but of at least one.
-/

namespace Logo.Text

/-- Whether a character can begin with these two bytes. -/
def begins (first second : UInt8) : Bool :=
  if first = 0xe0 then 0xa0 ≤ second && second ≤ 0xbf
  else if first = 0xed then 0x80 ≤ second && second ≤ 0x9f
  else if first = 0xf0 then 0x90 ≤ second && second ≤ 0xbf
  else if first = 0xf4 then 0x80 ≤ second && second ≤ 0x8f
  else 0xc2 ≤ first && first ≤ 0xf4 && 0x80 ≤ second && second ≤ 0xbf

/-- How many bytes are one broken character, where no whole character begins. -/
def brokenLength : List UInt8 → Nat
  | first :: second :: rest =>
    if begins first second then
      if 0xf0 ≤ first && rest.head?.any fun third => 0x80 ≤ third && third ≤ 0xbf then 3 else 2
    else 1
  | _ => 1

/-- The characters that bytes stand for. -/
def decode : List UInt8 → List Char
  | [] => []
  | b :: bs =>
    match (b :: bs).toByteArray.utf8DecodeChar? 0 with
    | some c => c :: decode (bs.drop (c.utf8Size - 1))
    | none => '\ufffd' :: decode (bs.drop (brokenLength (b :: bs) - 1))
termination_by bs => bs.length
decreasing_by all_goals simp only [List.length_drop, List.length_cons]; omega

end Logo.Text
