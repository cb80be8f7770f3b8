import Mathlib
import Logo.Proofs.Respelling

/-!
# Numerals and what is taken for one

A token that begins with neither a separator nor a letter goes on up to the next separator. All of that is
one token: a number, if it is the numeral of one, and no lexeme otherwise. A lexer goes different ways about
it: it gives up at once at a character that no lexeme begins with, after a zero that something follows,
at the digit that makes a number too large, and at a letter among digits.

A lexer counts in 64 bits and looks at the number after each digit, so it never holds one that is larger
than `maxNumber`, and one more digit always fits (`Lexer.Counts`).

Result: `Lexer.load_run`.
-/

namespace Logo

theorem Text.bytes_injective : Function.Injective Text.bytes :=
  Function.LeftInverse.injective Text.decode_bytes

/-- The bytes up to the next separator. -/
def Text.run (bs : List UInt8) : List UInt8 := bs.takeWhile fun b => !isSeparator (charOf b)

theorem Text.run_bytes (cs : List Char) :
    run (bytes cs) = bytes (cs.takeWhile (!isSeparator ·)) :=
  (span_bytes blind_isSeparator.not cs).1

/-- A line feed is a separator. -/
theorem Text.ne_newline_of_mem_run {bs : List UInt8} {b : UInt8} (among : b ∈ run bs) : b ≠ 10 := by
  rintro rfl
  exact absurd (List.mem_takeWhile_imp among) (by decide)

/-- The numerals are those of the numbers that are not too large, one for each. -/
theorem numeral?_eq_some_iff {cs : List Char} {v : Nat} :
    numeral? cs = some v ↔ v ≤ maxNumber ∧ Text.bytes cs = (toString v).toUTF8.toList := by
  have digits : (toString v).toUTF8.toList = Text.bytes (Nat.toDigits 10 v) :=
    (Text.toList_toUTF8 _).trans (congrArg Text.bytes Nat.toList_repr)
  rw [digits]
  constructor
  · intro read
    exact ⟨numeral?_eq_some read, congrArg Text.bytes (toDigits_of_numeral? read).symm⟩
  · rintro ⟨small, same⟩
    rw [Text.bytes_injective same]
    exact numeral?_toDigits small

namespace Lexer

open Text (charOf run)

/-! ## Counting -/

/-- A lexer that reads a numeral comes to stand here, and the digits before stand for this number. -/
inductive Counts (l : Lexer) : Int64 → Lexer → Prop
  | begin : Counts l 0 l
  /-- One more digit does not make the number too large. -/
  | digit {value : Int64} {here : Lexer} {b : UInt8} (sofar : Counts l value here)
      (ahead : here.current = some b) (isDigit : (charOf b).isDigit = true)
      (small : ¬ Int64.ofNat maxNumber < value * 10 + Int64.ofNat (b - 48).toNat) :
      Counts l (value * 10 + Int64.ofNat (b - 48).toNat) here.bump

/-- Reading a numeral goes on from each place that it comes to. -/
theorem Counts.digits_eq {l here : Lexer} {value : Int64} (counts : l.Counts value here) :
    l.digits 0 = here.digits value := by
  induction counts with
  | begin => rfl
  | @digit value here b sofar ahead isDigit small ih =>
    rw [ih, digits]
    split
    · next none => cases ahead.symm.trans none
    · next b' same =>
      cases ahead.symm.trans same
      rw [if_pos isDigit]
      exact if_neg small

theorem toNat_sub_zero_lt {b : UInt8} (isDigit : (charOf b).isDigit = true) :
    (b - 48).toNat < 10 := by
  have bounds := Text.toNat_of_isDigit isDigit
  rw [Text.toNat_charOf] at bounds
  rw [UInt8.toNat_sub_of_le b 48 (UInt8.le_iff_toNat_le.2 bounds.1)]
  show b.toNat - 48 < 10
  omega

/-- The number is never larger than a number can be. -/
theorem Counts.small {l here : Lexer} {value : Int64} (counts : l.Counts value here) :
    ∃ v ≤ maxNumber, value = Int64.ofNat v := by
  have max : maxNumber < 2 ^ 31 := by decide
  induction counts with
  | begin => exact ⟨0, Nat.zero_le _, rfl⟩
  | @digit value here b sofar ahead isDigit small ih =>
    obtain ⟨v, fits, rfl⟩ := ih
    have amount := toNat_sub_zero_lt isDigit
    rw [Cursor.ofNat_addDigit] at small ⊢
    rw [Int64.ofNat_lt_iff_lt (by omega) (by omega)] at small
    exact ⟨_, Nat.le_of_not_lt small, rfl⟩

/-- Neither the number nor what the next digit makes of it is cut off. -/
theorem Counts.exact {l here : Lexer} {value : Int64} (counts : l.Counts value here) :
    (0 ≤ value.toInt ∧ value.toInt ≤ maxNumber) ∧
      ∀ b, here.current = some b → (charOf b).isDigit = true →
        (value * 10).toInt = value.toInt * 10 ∧
          (value * 10 + Int64.ofNat (b - 48).toNat).toInt = value.toInt * 10 + (b - 48).toNat := by
  have max : maxNumber < 2 ^ 31 := by decide
  obtain ⟨v, fits, rfl⟩ := counts.small
  have held (n : Nat) (bound : n < 2 ^ 63) : (Int64.ofNat n).toInt = n :=
    Int64.toInt_ofNat_of_lt bound
  refine ⟨?_, fun b ahead isDigit => ?_⟩
  · rw [held v (by omega)]
    omega
  · have amount := toNat_sub_zero_lt isDigit
    have times : Int64.ofNat v * 10 = Int64.ofNat (10 * v) := by
      have added := Cursor.ofNat_addDigit v 0
      simpa using added
    rw [Cursor.ofNat_addDigit, times, held _ (by omega), held _ (by omega), held _ (by omega)]
    push_cast
    omega

/-! ## One token -/

/-- No other token begins in what a piece covers. -/
theorem eq_of_load_covers {held : Lexer} {text : String} {m n : Nat} {piece : Piece}
    (given : (held.load text).token n = .piece piece)
    (low : piece.position.byte ≤ ((held.load text).token m).position.byte)
    (high : ((held.load text).token m).position.byte <
      ((held.load text).after (n + 1)).position.byte) : m = n := by
  obtain ⟨-, tokens, -, tiles⟩ := load_tiles held text
  have inside {k : Nat} {piece : Piece} (given : (held.load text).token k = .piece piece) :
      k < (Cursor.ofText text).pieces.length := by
    by_contra beyond
    rw [tokens, List.getElem?_eq_none (Nat.le_of_not_lt beyond)] at given
    cases given
  have begins : ((held.load text).token n).position = piece.position := congrArg Lexed.position given
  rcases Nat.lt_trichotomy m n with earlier | same | later
  · have ordered := tiles.ordered m n earlier (Nat.le_of_lt (inside given))
    have nonempty := tiles.nonempty m (Nat.lt_trans earlier (inside given))
    rw [begins] at ordered
    omega
  · exact same
  · by_cases among : m ≤ (Cursor.ofText text).pieces.length
    · have ordered := tiles.ordered n m later among
      omega
    · -- Behind the last piece, all calls give the end of the text.
      have ends : (held.load text).token m =
          (held.load text).token (Cursor.ofText text).pieces.length := by
        rw [tokens, tokens, List.getElem?_eq_none (Nat.le_refl _),
          List.getElem?_eq_none (Nat.le_of_not_le among)]
      have ordered := tiles.ordered n _ (inside given) (Nat.le_refl _)
      rw [← ends] at ordered
      omega

/-- A call that comes to a byte of the text gives a piece. -/
theorem piece_of_load {held : Lexer} {text : String} {n : Nat} {p : Position} {b : UInt8}
    (begins : ((held.load text).token n).position = p)
    (first : text.toUTF8.toList[p.byte]? = some b) :
    ∃ lexeme, (held.load text).token n = .piece ⟨lexeme, p⟩ := by
  obtain ⟨-, tokens, -, -⟩ := load_tiles held text
  rw [tokens] at begins ⊢
  cases found : (Cursor.ofText text).pieces[n]? with
  | none =>
    rw [found] at begins
    rw [← begins] at first
    exact absurd (List.getElem?_eq_some_iff.1 first).1 (Nat.lt_irrefl _)
  | some piece =>
    rw [found] at begins
    cases begins
    exact ⟨piece.lexeme, rfl⟩

/-- Where a token begins with neither a separator nor a letter, a lexer takes the run that begins there. -/
theorem run_of_load {held : Lexer} {text : String} {n : Nat} {p : Position} {b : UInt8}
    (begins : ((held.load text).token n).position = p)
    (first : text.toUTF8.toList[p.byte]? = some b)
    (other : isSeparator (charOf b) = false) (noLetter : (charOf b).isAlpha = false) :
    let taken := run (text.toUTF8.toList.drop p.byte)
    ∃ cs, taken = Text.bytes cs ∧
      (held.load text).token n = .piece ⟨(numeral? cs).map .number, p⟩ ∧
      (held.load text).after (n + 1) =
        facing (p.advanceBytes taken) (text.toUTF8.toList.drop (p.byte + taken.length)) := by
  intro taken
  have loaded : held.load text = (Cursor.ofText text).lexer := load_eq held text
  have stands : (Cursor.ofText text).position = Position.start.advanceAll [] := rfl
  obtain ⟨lexeme, given⟩ := piece_of_load begins first
  rw [given, loaded]
  rw [loaded] at given
  obtain ⟨front, c, rest, m, whole, scanned, place, ends⟩ := Cursor.scanned_of_token stands given
  dsimp only at scanned place
  have encoded : text.toUTF8.toList = Text.bytes front ++ Text.bytes (c :: rest) := by
    rw [Text.toList_toUTF8, ← Text.bytes_append]
    exact congrArg Text.bytes whole
  have count : p.byte = (Text.bytes front).length := by
    rw [place, Cursor.byte_start_advanceAll]
  have ahead : text.toUTF8.toList.drop p.byte = Text.bytes (c :: rest) := by
    rw [encoded, count, List.drop_left]
  have among : b ∈ String.utf8EncodeChar c := by
    obtain ⟨b', bs, single⟩ := Text.exists_utf8EncodeChar c
    rw [← List.head?_drop, ahead, Text.bytes_cons, single] at first
    cases first
    exact single ▸ List.mem_cons_self
  rw [Text.blind_isSeparator.charOf among] at other
  rw [Text.blind_isAlpha.charOf among] at noLetter
  obtain ⟨lexed, rfl⟩ := Prod.mk.inj ((scanPiece_run other noLetter rest).symm.trans scanned)
  have runs : taken = Text.bytes (c :: rest.takeWhile (!isSeparator ·)) := by
    rw [← (Cursor.run_other other rest).1, ← Text.run_bytes, ← ahead]
  refine ⟨_, runs, by rw [lexed], ?_⟩
  have left : text.toUTF8.toList.drop (p.byte + taken.length) =
      Text.bytes (rest.dropWhile (!isSeparator ·)) := by
    have split : c :: rest =
        c :: rest.takeWhile (!isSeparator ·) ++ rest.dropWhile (!isSeparator ·) := by
      rw [List.cons_append, List.takeWhile_append_dropWhile]
    rw [← List.drop_drop, ahead, runs, split, Text.bytes_append]
    exact List.drop_left
  rw [ends, left, runs, Cursor.drop_length_takeWhile, Cursor.take_length_takeWhile,
    Position.advanceAll_append, ← place, Position.advanceAll_eq]
  rfl

/-- A run ends at a separator, or with the text. -/
theorem parted_facing_run (p : Position) (bs : List UInt8) :
    (facing p (bs.drop (run bs).length)).parted = true := by
  have stops := List.head?_dropWhile_not (fun b => !isSeparator (charOf b)) bs
  rw [parted, current_facing, run, Cursor.drop_length_takeWhile]
  cases ahead : (bs.dropWhile fun b => !isSeparator (charOf b)).head? with
  | none => rfl
  | some b =>
    rw [ahead] at stops
    simpa using stops

/-- The byte that a run begins with belongs to it. -/
theorem run_nonempty {bs : List UInt8} {b : UInt8} (first : bs.head? = some b)
    (other : isSeparator (charOf b) = false) : 0 < (run bs).length := by
  obtain ⟨bs, rfl⟩ := List.head?_eq_some_iff.1 first
  rw [run, List.takeWhile_cons_of_pos (by rw [other]; rfl)]
  exact Nat.succ_pos _

/-- One token for each run. Whatever a lexer held before, where one of its tokens begins in a text with
neither a separator nor a letter, the run of bytes up to the next separator is one token: no other begins
there. It is a number if and only if the run is the numeral of this number, and no lexeme if the run is the
numeral of none. The lexer then stands at the separator that ends the run, or at the end of the text.

Wherever numerals are read, the number that is counted never gets too large, and one more digit makes no
larger one of it than can be held. -/
theorem load_run (held : Lexer) {text : String} {n : Nat} {p : Position} {b : UInt8}
    (begins : ((held.load text).token n).position = p)
    (first : text.toUTF8.toList[p.byte]? = some b)
    (other : isSeparator (charOf b) = false) (noLetter : (charOf b).isAlpha = false) :
    let bytes := text.toUTF8.toList
    let l := held.load text
    let taken := run (bytes.drop p.byte)
    let next := l.after (n + 1)
    (∀ m, p.byte ≤ (l.token m).position.byte ∧ (l.token m).position.byte < p.byte + taken.length ↔
        m = n) ∧
      (∀ v, l.token n = .piece ⟨some (.number v), p⟩ ↔
        v ≤ maxNumber ∧ taken = (toString v).toUTF8.toList) ∧
      ((∀ v ≤ maxNumber, taken ≠ (toString v).toUTF8.toList) → l.token n = .piece ⟨none, p⟩) ∧
      next.position = ⟨p.byte + taken.length, p.row, p.column + taken.length⟩ ∧
      next.current = bytes[p.byte + taken.length]? ∧ next.parted = true ∧
      ∀ (start here : Lexer) (value : Int64), start.Counts value here →
        start.digits 0 = here.digits value ∧
        (0 ≤ value.toInt ∧ value.toInt ≤ maxNumber) ∧
        ∀ b, here.current = some b → (charOf b).isDigit = true →
          (value * 10).toInt = value.toInt * 10 ∧
            (value * 10 + Int64.ofNat (b - 48).toNat).toInt = value.toInt * 10 + (b - 48).toNat := by
  intro bytes l taken next
  obtain ⟨cs, runs, given, left⟩ := run_of_load begins first other noLetter
  have place : next.position = ⟨p.byte + taken.length, p.row, p.column + taken.length⟩ := by
    rw [← Position.advanceBytes_row p fun b among => Text.ne_newline_of_mem_run among]
    exact (congrArg Lexer.position left).trans (position_facing _ _)
  refine ⟨fun m => ⟨?_, ?_⟩, fun v => ?_, fun numeral => ?_, place, ?_, ?_,
    fun start here value counts => ⟨counts.digits_eq, counts.exact⟩⟩
  · rintro ⟨low, high⟩
    refine eq_of_load_covers given low ?_
    rw [show (held.load text).after (n + 1) = next from rfl, place]
    exact high
  · rintro rfl
    have nonempty : 0 < taken.length := run_nonempty (List.head?_drop.trans first) other
    rw [show (l.token m).position = p from begins]
    omega
  · have read : numeral? cs = some v ↔ v ≤ maxNumber ∧ taken = (toString v).toUTF8.toList := by
      rw [show taken = Text.bytes cs from runs]
      exact numeral?_eq_some_iff
    rw [← read, show l.token n = _ from given]
    simp
  · have refused : numeral? cs = none := by
      rw [Option.eq_none_iff_forall_ne_some]
      intro v read
      obtain ⟨small, same⟩ := numeral?_eq_some_iff.1 read
      exact numeral v small (runs.trans same)
    rw [show l.token n = _ from given, refused]
    rfl
  · rw [show next = _ from left, current_facing, List.head?_drop]
  · rw [show next = _ from left, ← List.drop_drop]
    exact parted_facing_run _ _

/-- The largest number, at a sign, after blanks. -/
theorem load_run_largest :
    let text := "  2147483647+1"
    let l := (⟨⟨[], .start⟩, none, .start⟩ : Lexer).load text
    let b : UInt8 := 50
    (l.token 0).position = ⟨2, 0, 2⟩ ∧ text.toUTF8.toList[2]? = some b ∧
      isSeparator (charOf b) = false ∧ (charOf b).isAlpha = false ∧
      l.token 0 = .piece ⟨some (.number 2147483647), ⟨2, 0, 2⟩⟩ ∧ (l.after 1).current = some 43 := by
  intro text l b
  have loaded : l = (Cursor.ofText text).lexer := load_eq _ text
  have begins : (l.token 0).position = ⟨2, 0, 2⟩ := by
    rw [loaded, Cursor.token_lexer]
    cbv
  have encoded : text.toUTF8.toList =
      [32, 32, 50, 49, 52, 55, 52, 56, 51, 54, 52, 55, 43, 49] := by
    rw [Text.toList_toUTF8]
    decide
  have first : text.toUTF8.toList[2]? = some b := by
    rw [encoded]
    rfl
  obtain ⟨-, number, -, -, ahead, -⟩ := load_run _ begins first (by decide) (by decide)
  rw [encoded] at number ahead
  refine ⟨begins, first, by decide, by decide, (number _).2 ⟨by decide, ?_⟩, ahead.trans (by decide)⟩
  rw [Text.toList_toUTF8]
  decide

end Lexer

end Logo
