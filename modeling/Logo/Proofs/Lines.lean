import Mathlib
import Logo.Proofs.Spelling

/-!
# A text under another one

Of two texts that are written one under the other the pieces are those of the first text and then
those of the second one: a line end ends whatever stands before it, a quoted text apart. Bytes and rows
of the second text are counted on from the first one, columns are not.

Results:
1. `pieces_under`: the pieces of a text that stands under something.
2. `pieces_above`: the pieces of a text under which another one stands, unless a quoted text in it is
   not closed.
3. `Scan.ofText_lines`: the tokens of two texts, if the first one is tokens up to its end.
-/

namespace Logo

/-! ## Under something -/

/-- The place of a text that is written under something that ends, with its line end, at `above`. -/
def Position.under (p above : Position) : Position :=
  ⟨above.byte + p.byte, above.row + p.row, p.column⟩

def Piece.under (piece : Piece) (above : Position) : Piece :=
  { piece with position := piece.position.under above }

def Cursor.under (cursor : Cursor) (above : Position) : Cursor :=
  { cursor with position := cursor.position.under above }

def Token.under (t : Token) (above : Position) : Token :=
  { t with position := t.position.under above }

def Stop.under : Stop → Position → Stop
  | .endOfText p, above => .endOfText (p.under above)
  | .unreadable p, above => .unreadable (p.under above)

def Scan.under (scan : Scan) (above : Position) : Scan :=
  ⟨scan.tokens.map (·.under above), scan.stop.under above⟩

theorem Position.advance_under (p above : Position) (c : Char) :
    (p.advance c).under above = (p.under above).advance c := by
  unfold advance
  split <;> simp only [under, Nat.add_assoc]

theorem Position.advanceAll_under (p above : Position) (cs : List Char) :
    (p.advanceAll cs).under above = (p.under above).advanceAll cs := by
  induction cs generalizing p with
  | nil => rfl
  | cons c cs ih => rw [advanceAll_cons, advanceAll_cons, ih, advance_under]

namespace Cursor

theorem skipBlanks_under (p above : Position) (cs : List Char) :
    skipBlanks (p.under above) cs = (skipBlanks p cs).under above := by
  induction cs generalizing p with
  | nil => rfl
  | cons c cs ih =>
    rw [skipBlanks, skipBlanks]
    split
    · rw [← Position.advance_under, ih]
    · rfl

theorem next?_under (cursor : Cursor) (above : Position) :
    (cursor.under above).next? =
      cursor.next?.map fun (piece, after) => (piece.under above, after.under above) := by
  unfold next?
  rw [show skipBlanks (cursor.under above).position (cursor.under above).rest = _ from
    skipBlanks_under cursor.position above cursor.rest]
  rcases skipBlanks cursor.position cursor.rest with ⟨p, _ | ⟨c, rest⟩⟩
  · rfl
  · simp only [under, Piece.under, Option.map_some, Position.advanceAll_under]

/-- The pieces of a text that stands under something. -/
theorem pieces_under (cursor : Cursor) (above : Position) :
    (cursor.under above).pieces = cursor.pieces.map (·.under above) := by
  fun_induction pieces cursor with
  | case1 cursor finished =>
    exact pieces_of_next?_none (by rw [next?_under, finished, Option.map_none])
  | case2 cursor piece after taken ih =>
    rw [List.map_cons, ← ih]
    exact pieces_of_next? (by rw [next?_under, taken, Option.map_some])

end Cursor

/-! ## Before a line end -/

theorem unquote_append {cs s : List Char} {n : Nat} (closed : unquote cs = some (s, n))
    (more : List Char) : unquote (cs ++ more) = some (s, n) := by
  fun_induction unquote cs generalizing s n with
  | case1 => cases closed
  | case2 => exact closed
  | case3 rest ih =>
    obtain ⟨⟨s', m⟩, inner, made⟩ := Option.map_eq_some_iff.1 closed
    rw [List.cons_append, List.cons_append, unquote, ih inner, Option.map_some, made]
  | case4 c rest quote backslash ih =>
    obtain ⟨⟨s', m⟩, inner, made⟩ := Option.map_eq_some_iff.1 closed
    have single : c = '\\' → (rest ++ more).head? ≠ some '"' := by
      rintro rfl same
      cases rest with
      | nil => cases inner
      | cons d rest => exact backslash rest rfl (congrArg (· :: rest) (Option.some.inj same))
    rw [List.cons_append, unquote_cons quote single, ih inner]
    exact congrArg some made

theorem le_length_of_unquote {cs s : List Char} {n : Nat} (closed : unquote cs = some (s, n)) :
    n ≤ cs.length := by
  fun_induction unquote cs generalizing s n with
  | case1 => cases closed
  | case2 =>
    cases closed
    exact Nat.le_add_left 1 _
  | case3 rest ih | case4 c rest _ _ ih =>
    obtain ⟨⟨s', m⟩, inner, made⟩ := Option.map_eq_some_iff.1 closed
    cases made
    have := ih inner
    simp only [List.length_cons]
    omega

theorem takeWhile_append_stop {p : Char → Bool} {c : Char} (stops : p c = false)
    (cs more : List Char) : (cs ++ c :: more).takeWhile p = cs.takeWhile p := by
  induction cs with
  | nil => rw [List.nil_append, List.takeWhile_cons, stops]; rfl
  | cons d cs ih => rw [List.cons_append, List.takeWhile_cons, List.takeWhile_cons, ih]

/-- A line end ends every piece, if no quoted text is left open. -/
theorem scanPiece_append_newline {c : Char} {rest : List Char}
    (closed : c = '"' → unquote rest ≠ none) (more : List Char) :
    scanPiece c (rest ++ '\n' :: more) = scanPiece c rest := by
  unfold scanPiece
  split
  -- `!` looks at one character after it, and a line end is not the one that it looks for
  case h_14 =>
    cases rest with
    | nil => rfl
    | cons d rest => by_cases equal : d = '=' <;> simp [equal]
  case h_15 =>
    obtain ⟨⟨s, n⟩, unquoted⟩ := Option.ne_none_iff_exists'.1 (closed rfl)
    rw [unquoted, unquote_append unquoted]
  -- words and numbers end where a character cannot belong to them
  case h_16 =>
    rw [takeWhile_append_stop (p := isWordRest) rfl,
      takeWhile_append_stop (p := fun c => !isSeparator c) rfl]
  all_goals rfl

theorem scanPiece_le_length (c : Char) (rest : List Char) : (scanPiece c rest).2 ≤ rest.length := by
  unfold scanPiece
  split
  case h_14 =>
    split
    · exact Nat.le_add_left 1 _
    · exact Nat.zero_le _
  case h_15 =>
    split
    · next unquoted => exact le_length_of_unquote unquoted
    · exact Nat.le_refl _
  case h_16 => split <;> exact (List.takeWhile_sublist _).length_le
  all_goals exact Nat.zero_le _

namespace Cursor

/-- A quoted text comes next that is not closed. -/
def OpensQuote (cursor : Cursor) : Prop :=
  ∃ p rest, skipBlanks cursor.position cursor.rest = ⟨p, '"' :: rest⟩ ∧ unquote rest = none

/-- From a place on all quoted texts are closed. -/
inductive Closed : Cursor → Prop
  | finished {cursor : Cursor} : cursor.next? = none → Closed cursor
  | piece {cursor after : Cursor} {piece : Piece} :
      cursor.next? = some (piece, after) → ¬ cursor.OpensQuote → Closed after → Closed cursor

/-- Lexemes are closed. -/
theorem closed_of_lexemes {cursor : Cursor}
    (lexemes : ∀ piece ∈ cursor.pieces, piece.lexeme.isSome) : cursor.Closed := by
  fun_induction pieces cursor with
  | case1 cursor finished => exact .finished finished
  | case2 cursor piece after taken ih =>
    obtain ⟨lexeme, others⟩ := List.forall_mem_cons.1 lexemes
    refine .piece taken ?_ (ih others)
    rintro ⟨p, rest, begins, unclosed⟩
    -- a quoted text that is not closed is a piece, but no lexeme
    rw [next?, begins] at taken
    simp only [scanPiece, unclosed] at taken
    cases taken
    cases lexeme

/-- The same text with another one under it. -/
def above (cursor : Cursor) (more : List Char) : Cursor :=
  { cursor with rest := cursor.rest ++ '\n' :: more }

theorem skipBlanks_finish (p : Position) (cs : List Char) :
    (skipBlanks p cs).finish = p.advanceAll cs := by
  fun_induction skipBlanks p cs with
  | case1 p => rfl
  | case2 p c cs _ ih => exact ih
  | case3 p c cs _ => rfl

theorem skipBlanks_above {p p' : Position} {cs : List Char} {c : Char} {rest : List Char}
    (begins : skipBlanks p cs = ⟨p', c :: rest⟩) (more : List Char) :
    skipBlanks p (cs ++ more) = ⟨p', c :: (rest ++ more)⟩ := by
  fun_induction skipBlanks p cs with
  | case1 => cases begins
  | case2 p d cs blank ih => rw [List.cons_append, skipBlanks, if_pos blank, ih begins]
  | case3 p d cs visible =>
    cases begins
    rw [List.cons_append, skipBlanks, if_neg visible]

theorem skipBlanks_above_nil {p p' : Position} {cs : List Char}
    (blanks : skipBlanks p cs = ⟨p', []⟩) (more : List Char) :
    skipBlanks p (cs ++ '\n' :: more) = skipBlanks ((p.advanceAll cs).advance '\n') more := by
  fun_induction skipBlanks p cs with
  | case1 p => rw [List.nil_append, skipBlanks, if_pos (by decide)]; rfl
  | case2 p d cs blank ih => rw [List.cons_append, skipBlanks, if_pos blank, ih blanks]; rfl
  | case3 => cases blanks

/-- Where a text ends does not depend on how far it has been read. -/
theorem finish_of_next? {cursor after : Cursor} {piece : Piece}
    (taken : cursor.next? = some (piece, after)) : after.finish = cursor.finish := by
  have finish := skipBlanks_finish cursor.position cursor.rest
  unfold next? at taken
  split at taken
  · cases taken
  · next p c rest begins =>
    cases taken
    rw [begins] at finish
    rw [Cursor.finish, ← Position.advanceAll_append, List.cons_append, List.take_append_drop]
    exact finish

theorem next?_above {cursor after : Cursor} {piece : Piece}
    (taken : cursor.next? = some (piece, after)) (closed : ¬ cursor.OpensQuote)
    (more : List Char) : (cursor.above more).next? = some (piece, after.above more) := by
  unfold next? at taken
  split at taken
  · cases taken
  · next p c rest begins =>
    have enough := scanPiece_le_length c rest
    have scanned : scanPiece c (rest ++ '\n' :: more) = scanPiece c rest := by
      refine scanPiece_append_newline ?_ more
      rintro rfl unclosed
      exact closed ⟨p, rest, begins, unclosed⟩
    rw [next?, show skipBlanks (cursor.above more).position (cursor.above more).rest = _ from
      skipBlanks_above begins ('\n' :: more)]
    dsimp only
    rw [scanned]
    generalize scanPiece c rest = found at enough taken ⊢
    cases taken
    simp only [above, List.take_append_of_le_length enough, List.drop_append_of_le_length enough]

theorem next?_above_none {cursor : Cursor} (finished : cursor.next? = none) (more : List Char) :
    (cursor.above more).next? = next? ⟨cursor.finish.advance '\n', more⟩ := by
  unfold next? at finished
  split at finished
  · next p blanks =>
    rw [next?, show skipBlanks (cursor.above more).position (cursor.above more).rest = _ from
      skipBlanks_above_nil blanks more]
    rfl
  · cases finished

/-- The pieces of a text under which another one stands. -/
theorem pieces_above {cursor : Cursor} (closed : cursor.Closed) (more : List Char) :
    (cursor.above more).pieces =
      cursor.pieces ++ pieces ⟨cursor.finish.advance '\n', more⟩ := by
  induction closed with
  | finished finished =>
    rw [pieces_of_next?_none finished, List.nil_append]
    exact pieces_congr (next?_above_none finished more)
  | piece taken closed _ ih =>
    rw [pieces_of_next? (next?_above taken closed more), pieces_of_next? taken, ih,
      finish_of_next? taken, List.cons_append]

theorem ofText_above (first second : String) :
    ofText (first ++ "\n" ++ second) = (ofText first).above second.toList := by
  simp only [ofText, above, String.toList_append, List.append_assoc]
  rfl

/-- The second of two texts begins where the line end between them ends. -/
theorem pieces_lines {first : String} (closed : (ofText first).Closed) (second : String) :
    (ofText (first ++ "\n" ++ second)).pieces = (ofText first).pieces ++
      (ofText second).pieces.map (·.under ((ofText first).finish.advance '\n')) := by
  rw [ofText_above, pieces_above closed, ← pieces_under]
  rfl

theorem finish_lines (first second : String) :
    (ofText (first ++ "\n" ++ second)).finish =
      (ofText second).finish.under ((ofText first).finish.advance '\n') := by
  rw [ofText_above, finish, finish, Position.advanceAll_under]
  exact Position.advanceAll_append _ _ _

end Cursor

/-! ## Tokens -/

namespace Scan

theorem ofPieces_under (finish above : Position) (ps : List Piece) :
    ofPieces (finish.under above) (ps.map (·.under above)) = (ofPieces finish ps).under above := by
  fun_induction ofPieces finish ps with
  | case1 | case2 => rfl
  | case3 l p rest scan ih =>
    rw [List.map_cons, Piece.under, ofPieces]
    simp only [ih]
    rfl

theorem lexemes_under (scan : Scan) (above : Position) :
    (scan.under above).tokens.map Token.lexeme = scan.tokens.map Token.lexeme := by
  simp only [under, List.map_map]
  rfl

/-- Pieces that are tokens up to the end of the text. -/
theorem ofPieces_endOfText {finish finish' : Position} {ps : List Piece}
    (ends : (ofPieces finish ps).stop = .endOfText finish') :
    finish' = finish ∧
      ps = (ofPieces finish ps).tokens.map fun t => ⟨some t.lexeme, t.position⟩ := by
  fun_induction ofPieces finish ps with
  | case1 =>
    cases ends
    exact ⟨rfl, rfl⟩
  | case2 => cases ends
  | case3 l p rest scan ih =>
    obtain ⟨same, pieces⟩ := ih ends
    exact ⟨same, congrArg (_ :: ·) pieces⟩

theorem ofPieces_tokens_append (finish : Position) (ts : List Token) (ps : List Piece) :
    ofPieces finish (ts.map (fun t => ⟨some t.lexeme, t.position⟩) ++ ps) =
      ⟨ts ++ (ofPieces finish ps).tokens, (ofPieces finish ps).stop⟩ := by
  induction ts with
  | nil => rfl
  | cons t ts ih =>
    rw [List.map_cons, List.cons_append, ofPieces]
    simp only [ih, List.cons_append]

/-- The tokens of two texts one under the other, if the first one is tokens up to its end. -/
theorem ofText_lines {first : String} {finish : Position}
    (ends : (ofText first).stop = .endOfText finish) (second : String) :
    let below := (ofText second).under (finish.advance '\n')
    ofText (first ++ "\n" ++ second) = ⟨(ofText first).tokens ++ below.tokens, below.stop⟩ := by
  intro below
  obtain ⟨rfl, tokens⟩ := ofPieces_endOfText ends
  have closed : (Cursor.ofText first).Closed := by
    refine Cursor.closed_of_lexemes fun piece among => ?_
    rw [tokens] at among
    obtain ⟨t, -, rfl⟩ := List.mem_map.1 among
    rfl
  have pieces := Cursor.pieces_lines closed second
  rw [tokens] at pieces
  rw [ofText]
  simp only [pieces, Cursor.finish_lines]
  rw [ofPieces_tokens_append, ofPieces_under]
  rfl

end Scan

end Logo
