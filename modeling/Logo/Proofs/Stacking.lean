import Mathlib
import Logo.Proofs.Tiling

/-!
# The tokens of two texts one under the other

A lexer that reads a text and, under it, another one gives the tokens of the first text and then those of
the second one: the end of a line is the end of every token, and a lexer does not remember what it gave
before. Only a quoted text goes on under the line, if it is not closed in it.

Bytes and rows of the second text are counted on from the first one, with the line end between them.
Columns are not.

Result: `Lexer.load_stacked`.
-/

namespace Logo

/-- The token, where the text that it is a token of stands under something that ends, with its line end,
at `above`. -/
def Lexed.under : Lexed → Position → Lexed
  | .piece p, above => .piece (p.under above)
  | .endOfText p, above => .endOfText (p.under above)

/-- The calls of a lexer for the tokens of a text come to a quoted text that is not closed: a quote stands
where a token begins, and no lexeme begins there. -/
def Lexer.MeetsUnclosed (l : Lexer) (text : List UInt8) : Prop :=
  ∃ n p, l.token n = .piece ⟨none, p⟩ ∧ text[p.byte]? = some 34

namespace Cursor

/-- A quoted text that is not closed is the next token, and its place is the place of its quote. -/
theorem OpensQuote.token {cursor : Cursor} {before : List Char}
    (stands : cursor.position = Position.start.advanceAll before) (opens : cursor.OpensQuote) :
    ∃ p, cursor.lexer.token 0 = .piece ⟨none, p⟩ ∧
      (Text.bytes (before ++ cursor.rest))[p.byte]? = some 34 := by
  obtain ⟨p, rest, begins, unclosed⟩ := opens
  have next := next_lexer cursor
  rw [next?, begins] at next
  simp only [scanPiece, unclosed] at next
  refine ⟨p, Lexer.token_zero next, ?_⟩
  obtain ⟨blanks, place, whole⟩ :
      ∃ blanks, cursor.position.advanceAll blanks = p ∧ cursor.rest = blanks ++ '"' :: rest := by
    rw [skipBlanks_eq, mk.injEq] at begins
    refine ⟨_, begins.1, ?_⟩
    rw [← begins.2]
    exact List.takeWhile_append_dropWhile.symm
  rw [← place, stands, ← Position.advanceAll_append, byte_start_advanceAll, whole,
    ← List.append_assoc, Text.bytes_append, List.getElem?_append_right (Nat.le_refl _), Nat.sub_self]
  rfl

/-- Where no call comes to a quoted text that is not closed, there is none. -/
theorem closed_of_not_meets (cursor : Cursor) {before : List Char}
    (stands : cursor.position = Position.start.advanceAll before)
    (closed : ¬ cursor.lexer.MeetsUnclosed (Text.bytes (before ++ cursor.rest))) :
    cursor.Closed := by
  fun_induction pieces cursor generalizing before with
  | case1 cursor finished => exact .finished finished
  | case2 cursor piece after taken ih =>
    have next := next_lexer cursor
    rw [taken] at next
    obtain ⟨blanks, c, rest, n, -, -, -, -, afterAt, text⟩ := next?_stands stands taken
    refine .piece taken (fun opens => ?_) (ih afterAt ?_)
    · obtain ⟨p, given, quote⟩ := opens.token stands
      exact closed ⟨0, p, given, quote⟩
    · rintro ⟨m, p, given, quote⟩
      rw [← text] at quote
      exact closed ⟨m + 1, p, (Lexer.token_succ next m).trans given, quote⟩

end Cursor

namespace Lexer

/-- The tokens of two texts one under the other. If the calls for the tokens of a text `a` do not come to
a quoted text that is not closed, they give the same tokens, pieces that are no lexemes included, where
another text `b` stands under `a`, and then, in place of the end of `a`, the tokens of `b`: as many bytes
further on as `a` has, and one more, and as many rows as `a` has line ends, and one more. -/
theorem load_stacked (held : Lexer) {a : String}
    (closed : ¬ (held.load a).MeetsUnclosed a.toUTF8.toList) (b : String) :
    let bytes := a.toUTF8.toList
    ∃ count,
      (∀ n < count, ∃ piece, (held.load a).token n = .piece piece) ∧
      (held.load a).token count = .endOfText (.behind bytes) ∧
      (∀ n < count, (held.load (a ++ "\n" ++ b)).token n = (held.load a).token n) ∧
      ∀ n, (held.load (a ++ "\n" ++ b)).token (count + n) =
        ((held.load b).token n).under ⟨bytes.length + 1, bytes.count 10 + 1, 0⟩ := by
  intro bytes
  have loaded (text : String) : held.load text = (Cursor.ofText text).lexer := load_eq held text
  have encoded : bytes = Text.bytes a.toList := Text.toList_toUTF8 a
  have finish : (Cursor.ofText a).finish = .behind bytes := by
    rw [encoded, ← Cursor.start_advanceAll]
    rfl
  have allClosed : (Cursor.ofText a).Closed := by
    have stands : (Cursor.ofText a).position = Position.start.advanceAll [] := rfl
    rw [loaded, Text.toList_toUTF8] at closed
    exact Cursor.closed_of_not_meets (Cursor.ofText a) stands closed
  have pieces := Cursor.pieces_lines allClosed b
  refine ⟨(Cursor.ofText a).pieces.length, fun n inside => ?_, ?_, fun n inside => ?_, fun n => ?_⟩
  · rw [loaded, Cursor.token_lexer, List.getElem?_eq_getElem inside]
    exact ⟨_, rfl⟩
  · rw [loaded, Cursor.token_lexer, List.getElem?_eq_none (Nat.le_refl _), finish]
    rfl
  · rw [loaded, loaded, Cursor.token_lexer, Cursor.token_lexer, pieces,
      List.getElem?_append_left inside, List.getElem?_eq_getElem inside]
    rfl
  · rw [loaded, loaded, Cursor.token_lexer, Cursor.token_lexer, pieces, Cursor.finish_lines, finish,
      List.getElem?_append_right (Nat.le_add_right _ _), Nat.add_sub_cancel_left, List.getElem?_map]
    cases (Cursor.ofText b).pieces[n]? <;> rfl

/-- A sign that is no lexeme at the end of a line, after a quoted text that is closed. -/
theorem load_stacked_bang :
    let held : Lexer := ⟨⟨[], .start⟩, none, .start⟩
    ¬ (held.load "\"a\" !").MeetsUnclosed "\"a\" !".toUTF8.toList ∧
      ∃ count, (held.load "\"a\" !").token count = .endOfText ⟨5, 0, 5⟩ ∧
        (held.load ("\"a\" !" ++ "\n" ++ "= x")).token (count + 1) =
          .piece ⟨some (.word "x"), ⟨8, 1, 2⟩⟩ := by
  intro held
  have loaded (text : String) : held.load text = (Cursor.ofText text).lexer := load_eq held text
  have pieces : (Cursor.ofText "\"a\" !").pieces =
      [⟨some (.quoted "a"), ⟨0, 0, 0⟩⟩, ⟨none, ⟨4, 0, 4⟩⟩] := by cbv
  have closed : ¬ (held.load "\"a\" !").MeetsUnclosed "\"a\" !".toUTF8.toList := by
    rintro ⟨n, p, given, quote⟩
    rw [loaded, Cursor.token_lexer, pieces] at given
    rcases n with _ | _ | n
    · cases given
    · cases given
      rw [Text.toList_toUTF8] at quote
      exact absurd quote (by decide)
    · cases given
  obtain ⟨count, -, ends, -, stacked⟩ := load_stacked held closed "= x"
  rw [Text.toList_toUTF8] at ends stacked
  refine ⟨closed, count, ends, (stacked 1).trans ?_⟩
  rw [loaded, Cursor.token_lexer]
  cbv

end Lexer

end Logo
