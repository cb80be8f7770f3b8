import Mathlib
import Logo.Proofs.Lexing

/-!
# The tokens of a text tile it

A lexer is asked for one token after the other, and goes on being asked at the end of the text. What it
gives covers the text: each piece takes at least one byte, whether a lexeme begins there or not, no byte is
taken twice, and only blanks are left out.

What calls of a lexer do with the bytes that are still to come is `Lexer.Tiles`. It follows from what the
next call does and what the calls after it do (`Tiles.cons`, `Tiles.nil`).

Result: `Lexer.load_tiles`.
-/

namespace Logo

/-- A text has at least as many bytes as characters. -/
theorem Text.length_le_bytes (cs : List Char) : cs.length ≤ (bytes cs).length := by
  induction cs with
  | nil => exact Nat.le_refl _
  | cons c cs ih =>
    have size := c.utf8Size_pos
    rw [bytes_cons, List.length_append, String.length_utf8EncodeChar, List.length_cons]
    omega

namespace Lexer

/-- The lexer after some calls for the next token. -/
def after (l : Lexer) : Nat → Lexer
  | 0 => l
  | n + 1 => l.next.2.after n

/-- What the call after `n` others gives. -/
def token (l : Lexer) (n : Nat) : Lexed := (l.after n).next.1

/-- The first `count` calls tile what is still to come of a text. The call after `n` others covers the
bytes from the place of its token to where the lexer then stands. -/
structure Tiles (text : List UInt8) (l : Lexer) (count : Nat) : Prop where
  /-- Each call covers some bytes. -/
  nonempty : ∀ n < count, (l.token n).position.byte < (l.after (n + 1)).position.byte
  /-- They are bytes that are still to come. -/
  ahead : ∀ n ≤ count, l.position.byte ≤ (l.token n).position.byte
  /-- No token begins before the bytes of an earlier call end. -/
  ordered : ∀ m n, m < n → n ≤ count → (l.after (m + 1)).position.byte ≤ (l.token n).position.byte
  /-- What no call covers is blank. -/
  blank : ∀ i b, l.position.byte ≤ i → text[i]? = some b →
    (∀ n < count, ¬ ((l.token n).position.byte ≤ i ∧ i < (l.after (n + 1)).position.byte)) →
      isBlank (Text.charOf b) = true
  /-- The place of a token is the place of its first byte; the token after the last of these calls is the
  end of the text. -/
  placed : ∀ n ≤ count, (l.token n).position = .behind (text.take (l.token n).position.byte)

section

variable {text : List UInt8} {l l' : Lexer} {r : Lexed}

theorem token_zero (next : l.next = (r, l')) : l.token 0 = r := by
  rw [token, after, next]

theorem after_succ (next : l.next = (r, l')) (n : Nat) : l.after (n + 1) = l'.after n := by
  rw [after, next]

theorem token_succ (next : l.next = (r, l')) (n : Nat) : l.token (n + 1) = l'.token n := by
  rw [token, after_succ next, token]

/-- Only blanks are left. -/
theorem Tiles.nil (next : l.next = (r, l')) (skipped : l.position.byte ≤ r.position.byte)
    (blank : ∀ i b, l.position.byte ≤ i → text[i]? = some b → isBlank (Text.charOf b) = true)
    (placed : r.position = .behind (text.take r.position.byte)) : Tiles text l 0 where
  nonempty := nofun
  ahead n none := by
    rw [Nat.le_zero.1 none, token_zero next]
    exact skipped
  ordered m n earlier none := absurd (Nat.lt_of_lt_of_le earlier none) (Nat.not_lt_zero m)
  blank i b low found _ := blank i b low found
  placed n none := by
    rw [Nat.le_zero.1 none, token_zero next]
    exact placed

/-- There is one more piece. -/
theorem Tiles.cons {count : Nat} (next : l.next = (r, l'))
    (skipped : l.position.byte ≤ r.position.byte) (covered : r.position.byte < l'.position.byte)
    (blank : ∀ i b, l.position.byte ≤ i → i < r.position.byte → text[i]? = some b →
      isBlank (Text.charOf b) = true)
    (placed : r.position = .behind (text.take r.position.byte)) (later : Tiles text l' count) :
    Tiles text l (count + 1) where
  nonempty
    | 0, _ => by
      rw [token_zero next, after_succ next]
      exact covered
    | n + 1, inside => by
      rw [token_succ next, after_succ next]
      exact later.nonempty n (Nat.lt_of_succ_lt_succ inside)
  ahead
    | 0, _ => by
      rw [token_zero next]
      exact skipped
    | n + 1, inside => by
      have ahead := later.ahead n (Nat.le_of_succ_le_succ inside)
      rw [token_succ next]
      omega
  ordered
    | 0, n + 1, _, inside => by
      rw [token_succ next, after_succ next]
      exact later.ahead n (Nat.le_of_succ_le_succ inside)
    | m + 1, n + 1, earlier, inside => by
      rw [token_succ next, after_succ next]
      exact later.ordered m n (Nat.lt_of_succ_lt_succ earlier) (Nat.le_of_succ_le_succ inside)
  blank i b low found outside := by
    rcases Nat.lt_or_ge i r.position.byte with before | begun
    · exact blank i b low before found
    · have first := outside 0 (Nat.succ_pos _)
      rw [token_zero next, after_succ next, after] at first
      refine later.blank i b (Nat.le_of_not_lt fun inside => first ⟨begun, inside⟩) found ?_
      intro n inside covers
      rw [← token_succ next, ← after_succ next] at covers
      exact outside (n + 1) (Nat.succ_lt_succ inside) covers
  placed
    | 0, _ => by
      rw [token_zero next]
      exact placed
    | n + 1, inside => by
      rw [token_succ next]
      exact later.placed n (Nat.le_of_succ_le_succ inside)

end

end Lexer

namespace Cursor

/-- How a piece is taken: after blanks, at a character that is none. -/
theorem next?_eq_some {cursor after : Cursor} {piece : Piece}
    (taken : cursor.next? = some (piece, after)) :
    ∃ blanks c rest n, cursor.rest = blanks ++ c :: rest ∧ (∀ d ∈ blanks, isBlank d = true) ∧
      scanPiece c rest = (piece.lexeme, n) ∧ piece.position = cursor.position.advanceAll blanks ∧
      after = ⟨piece.position.advanceAll (c :: rest.take n), rest.drop n⟩ := by
  have whole := List.takeWhile_append_dropWhile (p := isBlank) (l := cursor.rest)
  rw [next?, skipBlanks_eq] at taken
  cases left : cursor.rest.dropWhile isBlank with
  | nil =>
    rw [left] at taken
    cases taken
  | cons c rest =>
    rw [left] at taken whole
    dsimp only at taken
    cases scanned : scanPiece c rest with
    | mk lexeme n =>
      rw [scanned] at taken
      cases taken
      exact ⟨_, c, rest, n, whole.symm, fun d among => List.mem_takeWhile_imp among, scanned, rfl,
        rfl⟩

theorem next?_eq_none {cursor : Cursor} (none : cursor.next? = none) :
    ∀ c ∈ cursor.rest, isBlank c = true := by
  have whole := List.takeWhile_append_dropWhile (p := isBlank) (l := cursor.rest)
  rw [next?, skipBlanks_eq] at none
  cases left : cursor.rest.dropWhile isBlank with
  | nil =>
    rw [left, List.append_nil] at whole
    exact fun c among => List.mem_takeWhile_imp (whole ▸ among)
  | cons c rest =>
    rw [left] at none
    cases none

/-! ## Places and bytes -/

theorem start_advanceAll (cs : List Char) :
    Position.start.advanceAll cs = .behind (Text.bytes cs) := by
  rw [Position.advanceAll_eq, Position.start_advanceBytes]

theorem byte_start_advanceAll (cs : List Char) :
    (Position.start.advanceAll cs).byte = (Text.bytes cs).length := by
  rw [start_advanceAll]
  rfl

theorem placed_start_advanceAll (cs ds : List Char) :
    Position.start.advanceAll cs =
      .behind ((Text.bytes (cs ++ ds)).take (Position.start.advanceAll cs).byte) := by
  rw [byte_start_advanceAll, Text.bytes_append, List.take_left, start_advanceAll]

theorem byte_le_append (cs ds : List Char) :
    (Position.start.advanceAll cs).byte ≤ (Position.start.advanceAll (cs ++ ds)).byte := by
  rw [byte_start_advanceAll, byte_start_advanceAll, Text.bytes_append, List.length_append]
  exact Nat.le_add_right _ _

theorem byte_lt_append (cs : List Char) {ds : List Char} (some' : ds ≠ []) :
    (Position.start.advanceAll cs).byte < (Position.start.advanceAll (cs ++ ds)).byte := by
  obtain ⟨d, ds, rfl⟩ := List.exists_cons_of_ne_nil some'
  have size := d.utf8Size_pos
  rw [← String.length_utf8EncodeChar] at size
  rw [byte_start_advanceAll, byte_start_advanceAll, Text.bytes_append, Text.bytes_cons,
    List.length_append, List.length_append]
  omega

/-- Between the places before and after blanks there are only bytes of blanks. -/
theorem blank_of_between {before blanks more : List Char} (all : ∀ c ∈ blanks, isBlank c = true)
    {i : Nat} {b : UInt8} (low : (Position.start.advanceAll before).byte ≤ i)
    (high : i < (Position.start.advanceAll (before ++ blanks)).byte)
    (found : (Text.bytes (before ++ blanks ++ more))[i]? = some b) :
    isBlank (Text.charOf b) = true := by
  rw [byte_start_advanceAll] at low high
  rw [Text.bytes_append, List.getElem?_append_left high, Text.bytes_append,
    List.getElem?_append_right low] at found
  obtain ⟨c, among, inside⟩ := List.mem_flatMap.1 (List.mem_of_getElem? found)
  exact (Text.blind_isBlank.charOf inside).trans (all c among)

/-- A piece is taken after blanks, and what it takes up is what is scanned there. -/
theorem next?_stands {cursor after : Cursor} {piece : Piece} {before : List Char}
    (stands : cursor.position = Position.start.advanceAll before)
    (taken : cursor.next? = some (piece, after)) :
    ∃ blanks c rest n, (∀ d ∈ blanks, isBlank d = true) ∧
      scanPiece c rest = (piece.lexeme, n) ∧
      before ++ cursor.rest = before ++ blanks ++ c :: rest ∧
      piece.position = Position.start.advanceAll (before ++ blanks) ∧
      after.position = Position.start.advanceAll (before ++ blanks ++ c :: rest.take n) ∧
      before ++ cursor.rest = before ++ blanks ++ c :: rest.take n ++ after.rest := by
  obtain ⟨blanks, c, rest, n, whole, all, scanned, begins, made⟩ := next?_eq_some taken
  have pieceAt : piece.position = Position.start.advanceAll (before ++ blanks) := by
    rw [begins, stands, Position.advanceAll_append]
  refine ⟨blanks, c, rest, n, all, scanned, ?_, pieceAt, ?_, ?_⟩
  · rw [whole, List.append_assoc]
  · rw [made, pieceAt, Position.advanceAll_append _ (before ++ blanks)]
  · rw [made, whole, List.append_assoc _ (c :: _), List.cons_append, List.take_append_drop,
      List.append_assoc]

/-- The bytes that are still to come are covered by the pieces that are still to come. -/
theorem tiles (cursor : Cursor) {before : List Char}
    (stands : cursor.position = Position.start.advanceAll before) :
    cursor.lexer.Tiles (Text.bytes (before ++ cursor.rest)) cursor.pieces.length := by
  fun_induction pieces cursor generalizing before with
  | case1 cursor finished =>
    have blanks := next?_eq_none finished
    have next := next_lexer cursor
    have finish : cursor.finish = Position.start.advanceAll (before ++ cursor.rest) := by
      rw [Cursor.finish, stands, Position.advanceAll_append]
    rw [finished, finish] at next
    refine .nil next ?_ (fun i b low found => ?_) ?_
    · rw [position_lexer, stands]
      exact byte_le_append _ _
    · rw [position_lexer, stands] at low
      have inside := (List.getElem?_eq_some_iff.1 found).1
      rw [← byte_start_advanceAll] at inside
      rw [← List.append_nil (before ++ cursor.rest)] at found
      exact blank_of_between blanks low inside found
    · have placed := placed_start_advanceAll (before ++ cursor.rest) []
      rwa [List.append_nil] at placed
  | case2 cursor piece after taken ih =>
    obtain ⟨blanks, c, rest, n, all, -, -, pieceAt, afterAt, text⟩ := next?_stands stands taken
    have next := next_lexer cursor
    rw [taken] at next
    rw [text]
    refine .cons next ?_ ?_ (fun i b low high found => ?_) ?_ (ih afterAt)
    · rw [position_lexer, stands, Lexed.position, pieceAt]
      exact byte_le_append _ _
    · rw [position_lexer, Lexed.position, pieceAt, afterAt]
      exact byte_lt_append _ (List.cons_ne_nil _ _)
    · rw [position_lexer, stands] at low
      rw [Lexed.position, pieceAt] at high
      rw [List.append_assoc] at found
      exact blank_of_between all low high found
    · rw [Lexed.position, pieceAt, List.append_assoc]
      exact placed_start_advanceAll _ _

theorem token_at_end (p : Position) (n : Nat) : (lexer ⟨p, []⟩).token n = .endOfText p := by
  have next : (lexer ⟨p, []⟩).next = (.endOfText p, lexer ⟨p, []⟩) := next_lexer ⟨p, []⟩
  induction n with
  | zero => exact Lexer.token_zero next
  | succ n ih => rw [Lexer.token_succ next, ih]

/-- The calls of a lexer give the pieces one by one, and then the end, again and again. -/
theorem token_lexer (cursor : Cursor) (n : Nat) :
    cursor.lexer.token n = cursor.pieces[n]?.elim (.endOfText cursor.finish) .piece := by
  fun_induction pieces cursor generalizing n with
  | case1 cursor finished =>
    have next := next_lexer cursor
    rw [finished] at next
    cases n with
    | zero => exact Lexer.token_zero next
    | succ n =>
      rw [Lexer.token_succ next]
      exact token_at_end cursor.finish n
  | case2 cursor piece after taken ih =>
    have next := next_lexer cursor
    rw [taken] at next
    cases n with
    | zero => exact Lexer.token_zero next
    | succ n =>
      rw [Lexer.token_succ next, ih, List.getElem?_cons_succ, finish_of_next? taken]

/-- Each piece takes up at least one character. -/
theorem length_pieces_le (cursor : Cursor) : cursor.pieces.length ≤ cursor.rest.length := by
  fun_induction pieces cursor with
  | case1 => exact Nat.zero_le _
  | case2 cursor piece after taken ih =>
    have shorter := length_of_next? taken
    rw [List.length_cons]
    omega

end Cursor

namespace Lexer

/-- The tokens of a text tile it. Whatever a lexer held before, once a text is loaded its calls for
the next token give the pieces of the text, of which there are no more than bytes, and after them the
place behind the last byte, again and again. -/
theorem load_tiles (held : Lexer) (text : String) :
    let bytes := text.toUTF8.toList
    let l := held.load text
    let pieces := (Cursor.ofText text).pieces
    pieces.length ≤ bytes.length ∧
      (∀ n, l.token n = pieces[n]?.elim (.endOfText (.behind bytes)) .piece) ∧
      l.position = .start ∧ l.Tiles bytes pieces.length := by
  intro bytes l pieces
  have encoded : bytes = Text.bytes text.toList := Text.toList_toUTF8 text
  have loaded : l = (Cursor.ofText text).lexer := load_eq held text
  refine ⟨?_, fun n => ?_, ?_, ?_⟩
  · rw [encoded]
    exact Nat.le_trans (Cursor.length_pieces_le _) (Text.length_le_bytes _)
  · rw [loaded, Cursor.token_lexer, encoded, ← Cursor.start_advanceAll]
    rfl
  · rw [loaded, Cursor.position_lexer]
    rfl
  · have stands : (Cursor.ofText text).position = Position.start.advanceAll [] := rfl
    rw [loaded, encoded]
    exact Cursor.tiles (Cursor.ofText text) stands

end Lexer

end Logo
