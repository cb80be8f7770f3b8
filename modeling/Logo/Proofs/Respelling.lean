import Mathlib
import Logo.Proofs.Tiling

/-!
# Lexemes as they stand in a text

There is one way only of writing a lexeme, and a text has a lexeme only where it is written that way:
numerals have no leading zeros, reserved words are what the table says they are, and in a quoted text just
the quotes have backslashes before them. So the lexemes of texts are those that can be written
(`Lexeme.Writable`), and no quoted text has a character that is not in the text.

Results:
1. `written_of_scanPiece`: a lexeme is scanned only from what it is written as.
2. `Lexer.undoes_writing`: a lexer gives lexemes that can be written, from the bytes they are written in, and
   gives all lexemes back that are written one after the other.
-/

namespace Logo

/-! ## Numerals -/

theorem digitChar_sub_zero {c : Char} (digit : c.isDigit = true) :
    c.toNat - '0'.toNat < 10 ∧ (c.toNat - '0'.toNat).digitChar = c := by
  have zero : '0'.toNat = 48 := rfl
  have bounds := Text.toNat_of_isDigit digit
  have all : ∀ d < 10, (Nat.digitChar d).toNat = 48 + d := by decide
  refine ⟨by omega, Char.toNat_inj.1 ?_⟩
  rw [all _ (by omega)]
  omega

/-- A digit that is put after a numeral without a leading zero comes last in the new one. -/
theorem toDigits_of_addDigit {value m : Nat} {c : Char} (positive : 0 < value)
    (added : addDigit value c = some m) : Nat.toDigits 10 m = Nat.toDigits 10 value ++ [c] := by
  unfold addDigit at added
  split at added
  · next fits =>
    cases added
    obtain ⟨small, same⟩ := digitChar_sub_zero fits.1
    rw [← Nat.toDigits_append_toDigits (by decide) positive small, Nat.toDigits_of_lt_base small,
      same]
  · cases added

theorem toDigits_of_foldlM {cs : List Char} {value m : Nat} (positive : 0 < value)
    (read : cs.foldlM addDigit value = some m) :
    Nat.toDigits 10 m = Nat.toDigits 10 value ++ cs := by
  induction cs generalizing value with
  | nil =>
    cases read
    rw [List.append_nil]
  | cons c cs ih =>
    rw [List.foldlM_cons] at read
    obtain ⟨n, added, read⟩ := Option.bind_eq_some_iff.1 read
    have grown : 0 < n := by
      unfold addDigit at added
      split at added
      · cases added
        omega
      · cases added
    rw [ih grown read, toDigits_of_addDigit positive added, List.append_assoc]
    rfl

/-- A numeral is the only numeral of its number. -/
theorem toDigits_of_numeral? {cs : List Char} {m : Nat} (read : numeral? cs = some m) :
    Nat.toDigits 10 m = cs := by
  unfold numeral? at read
  split at read
  · cases read
  · next rest =>
    split at read
    · next only =>
      cases read
      rw [List.isEmpty_iff.1 only]
      rfl
    · cases read
  · next empty zero =>
    cases cs with
    | nil => exact (empty rfl).elim
    | cons c cs =>
      rw [List.foldlM_cons] at read
      obtain ⟨n, added, read⟩ := Option.bind_eq_some_iff.1 read
      unfold addDigit at added
      split at added
      · next fits =>
        cases added
        obtain ⟨small, same⟩ := digitChar_sub_zero fits.1
        have positive : 0 < 10 * 0 + (c.toNat - '0'.toNat) := by
          by_contra none
          rw [show c.toNat - '0'.toNat = 0 by omega] at same
          exact zero cs (congrArg (· :: cs) same.symm)
        rw [toDigits_of_foldlM positive read, Nat.mul_zero, Nat.zero_add,
          Nat.toDigits_of_lt_base small, same]
        rfl
      · cases added

/-! ## Quoted texts -/

theorem take_of_unquote {cs s : List Char} {n : Nat} (unquoted : unquote cs = some (s, n)) :
    cs.take n = escape s ++ ['"'] := by
  fun_induction unquote cs generalizing s n with
  | case1 => cases unquoted
  | case2 =>
    cases unquoted
    rfl
  | case3 rest ih =>
    obtain ⟨⟨s', m⟩, inner, made⟩ := Option.map_eq_some_iff.1 unquoted
    cases made
    rw [List.take_succ_cons, List.take_succ_cons, ih inner, escape]
    rfl
  | case4 c rest quote backslash ih =>
    obtain ⟨⟨s', m⟩, inner, made⟩ := Option.map_eq_some_iff.1 unquoted
    cases made
    rw [List.take_succ_cons, ih inner, escape_cons quote]
    rfl

/-! ## Words -/

theorem written_ofWord {w : String} {l : Lexeme} (scanned : Lexeme.ofWord w = some l) :
    l.written = w := by
  rw [ofWord_eq] at scanned
  cases searched : Keyword.ofSpelling? w with
  | some k =>
    rw [searched] at scanned
    cases scanned
    exact Keyword.ofSpelling?_eq_some.1 searched
  | none =>
    rw [searched] at scanned
    cases scanned
    rfl

/-! ## Pieces -/

/-- A lexeme is scanned from what it is written as. -/
theorem written_of_scanPiece {c : Char} {rest : List Char} {l : Lexeme} {n : Nat}
    (scanned : scanPiece c rest = (some l, n)) : l.written.toList = c :: rest.take n := by
  unfold scanPiece at scanned
  split at scanned
  case h_14 =>
    split at scanned <;> cases scanned
    rfl
  case h_15 =>
    split at scanned
    · next s m unquoted =>
      cases scanned
      rw [take_of_unquote unquoted, Lexeme.written, String.toList_ofList, String.toList_ofList]
      rfl
    · cases scanned
  case h_16 =>
    split at scanned
    · obtain ⟨word, rfl⟩ := Prod.mk.inj scanned
      rw [written_ofWord word, Cursor.take_length_takeWhile, String.toList_ofList]
    · obtain ⟨numeral, rfl⟩ := Prod.mk.inj scanned
      obtain ⟨m, read, rfl⟩ := Option.map_eq_some_iff.1 numeral
      rw [Cursor.take_length_takeWhile]
      exact Nat.toList_repr.trans (toDigits_of_numeral? read)
  all_goals
    cases scanned
    rfl

namespace Cursor

/-- A call that gives a piece has scanned it where its place is, and the lexer then stands behind it. -/
theorem scanned_of_token {cursor : Cursor} {before : List Char}
    (stands : cursor.position = Position.start.advanceAll before) {n : Nat} {piece : Piece}
    (given : cursor.lexer.token n = .piece piece) :
    ∃ front c rest m, before ++ cursor.rest = front ++ c :: rest ∧
      scanPiece c rest = (piece.lexeme, m) ∧
      piece.position = Position.start.advanceAll front ∧
      cursor.lexer.after (n + 1) =
        lexer ⟨Position.start.advanceAll (front ++ c :: rest.take m), rest.drop m⟩ := by
  fun_induction pieces cursor generalizing before n with
  | case1 cursor finished =>
    have ended : cursor.lexer.token n = .endOfText cursor.finish := by
      rw [token_lexer, pieces_of_next?_none finished]
      rfl
    cases given.symm.trans ended
  | case2 cursor first after taken ih =>
    have next := next_lexer cursor
    rw [taken] at next
    obtain ⟨blanks, c, rest, m, -, scanned, whole, pieceAt, afterAt, text⟩ :=
      next?_stands stands taken
    cases n with
    | zero =>
      cases given.symm.trans (Lexer.token_zero next)
      refine ⟨_, c, rest, m, whole, scanned, pieceAt, ?_⟩
      have left : after.rest = rest.drop m := by
        rw [whole, List.append_assoc _ (c :: _)] at text
        have tail : rest = rest.take m ++ after.rest :=
          (List.cons.inj (List.append_cancel_left text)).2
        exact (List.append_cancel_left ((List.take_append_drop m rest).trans tail)).symm
      rw [Lexer.after_succ next, Lexer.after, lexer, lexer, afterAt, left]
    | succ n =>
      rw [Lexer.token_succ next] at given
      rw [Lexer.after_succ next, text]
      exact ih afterAt given

end Cursor

namespace Lexer

/-- What a token covers is how it is written. -/
theorem token_writable (held : Lexer) {text : String} {n : Nat} {l : Lexeme} {p : Position}
    (given : (held.load text).token n = .piece ⟨some l, p⟩) :
    l.Writable ∧ text.toUTF8.toList.extract p.byte ((held.load text).after (n + 1)).position.byte =
      l.written.toUTF8.toList := by
  have loaded : held.load text = (Cursor.ofText text).lexer := load_eq held text
  rw [loaded] at given ⊢
  have stands : (Cursor.ofText text).position = Position.start.advanceAll [] := rfl
  obtain ⟨front, c, rest, m, whole, scanned, begins, ends⟩ := Cursor.scanned_of_token stands given
  have split : text.toList = front ++ c :: rest.take m ++ rest.drop m := by
    rw [List.append_assoc, List.cons_append, List.take_append_drop]
    exact whole
  refine ⟨scanPiece_writable scanned, ?_⟩
  rw [ends, Cursor.position_lexer, Text.toList_toUTF8, Text.toList_toUTF8,
    written_of_scanPiece scanned, split,
    show p = Position.start.advanceAll front from begins, Cursor.byte_start_advanceAll,
    Cursor.byte_start_advanceAll, Text.bytes_append, Text.bytes_append front,
    List.extract_eq_take_drop]
  rw [List.append_assoc, List.drop_left, List.length_append, Nat.add_sub_cancel_left, List.take_left]

/-- What is written is given back. -/
theorem token_spelled (held : Lexer) {ls : List Lexeme} (writable : ∀ l ∈ ls, l.Writable) :
    ∃ ts : List Token, ts.map Token.lexeme = ls ∧
      ∀ n, (held.load (spelled ls)).token n =
        ts[n]?.elim (.endOfText (.behind (spelled ls).toUTF8.toList)) fun t =>
          .piece ⟨some t.lexeme, t.position⟩ := by
  obtain ⟨ts, pieces, lexemes⟩ := Cursor.pieces_spelled writable .start
  have loaded : held.load (spelled ls) = (Cursor.ofText (spelled ls)).lexer := load_eq held _
  refine ⟨ts, lexemes, fun n => ?_⟩
  have finish : (Cursor.ofText (spelled ls)).finish = .behind (spelled ls).toUTF8.toList := by
    rw [Text.toList_toUTF8, ← Cursor.start_advanceAll]
    rfl
  rw [loaded, Cursor.token_lexer, finish, Cursor.ofText, pieces, List.getElem?_map]
  cases ts[n]? <;> rfl

/-- Reading undoes writing. Whatever a lexer held before, the lexemes it gives of any text can be written,
and the bytes they cover are those they are written in; the lexemes that can be written are just the lexemes
of texts; and any of them that are written one after the other, with a blank between each two, are given
back one by one, and then the end of the text. -/
theorem undoes_writing (held : Lexer) :
    (∀ text n l p, (held.load text).token n = .piece ⟨some l, p⟩ →
      l.Writable ∧
        text.toUTF8.toList.extract p.byte ((held.load text).after (n + 1)).position.byte =
          l.written.toUTF8.toList) ∧
    (∀ l : Lexeme, l.Writable ↔
      ∃ text n p, (held.load text).token n = .piece ⟨some l, p⟩) ∧
    ∀ ls : List Lexeme, (∀ l ∈ ls, l.Writable) →
      ∃ ts : List Token, ts.map Token.lexeme = ls ∧
        ∀ n, (held.load (spelled ls)).token n =
          ts[n]?.elim (.endOfText (.behind (spelled ls).toUTF8.toList)) fun t =>
            .piece ⟨some t.lexeme, t.position⟩ := by
  refine ⟨fun text n l p given => token_writable held given, fun l => ⟨fun writable => ?_, ?_⟩,
    fun ls writable => token_spelled held writable⟩
  · obtain ⟨ts, lexemes, tokens⟩ := token_spelled held (List.forall_mem_singleton.2 writable)
    obtain ⟨t, rfl, rfl⟩ := List.map_eq_singleton_iff.1 lexemes
    exact ⟨_, 0, t.position, tokens 0⟩
  · rintro ⟨text, n, p, given⟩
    exact (token_writable held given).1

/-- A text with a quote in it, and with a character of two bytes, and a number after it. -/
theorem undoes_writing_quoted :
    let ls : List Lexeme := [.quoted "\"é", .number 10]
    let l := (⟨⟨[], .start⟩, none, .start⟩ : Lexer).load (spelled ls)
    (∀ l ∈ ls, l.Writable) ∧ (spelled ls).toList = "\"\\\"é\" 10".toList ∧
      ∃ p, l.token 0 = .piece ⟨some (.quoted "\"é"), p⟩ ∧
        (spelled ls).toUTF8.toList.extract p.byte (l.after 1).position.byte =
          (Lexeme.quoted "\"é").written.toUTF8.toList := by
  intro ls l
  have reads := undoes_writing ⟨⟨[], .start⟩, none, .start⟩
  have writable : ∀ l ∈ ls, l.Writable := List.forall_mem_cons.2
    ⟨(by decide : "\"é".toList.getLast? ≠ some '\\'),
      List.forall_mem_singleton.2 (by decide : 10 ≤ maxNumber)⟩
  obtain ⟨ts, lexemes, tokens⟩ := reads.2.2 ls writable
  obtain ⟨t, ts, rfl, first, -⟩ := List.map_eq_cons_iff.1 lexemes
  have given := tokens 0
  rw [List.getElem?_cons_zero, Option.elim_some, first] at given
  exact ⟨writable, by decide, t.position, given, (reads.1 _ _ _ _ given).2⟩

end Lexer

end Logo
