import Mathlib
import Logo.Lexer
import Logo.Proofs.Bytes
import Logo.Proofs.Lines
import Logo.Proofs.Spelling

/-!
# Reading bytes for characters

A `Lexer` does not know where characters begin, and it need not: all that it asks of a character is
answered alike by all characters beyond ASCII (`Text.Blind`), and so by each byte of a character as by the
character. Where a lexer stands at the place of a cursor (`Cursor.lexer`), it takes what the cursor takes.

Results:
1. `Text.decode_bytes`: the bytes of characters are decoded to these characters.
2. `Cursor.next_lexer`: a lexer gives the pieces of a text one by one, and then its end.
-/

namespace Logo

namespace Text

/-! ## Decoding -/

theorem decode_bytes (cs : List Char) : decode (bytes cs) = cs := by
  induction cs with
  | nil => rw [bytes_nil, decode]
  | cons c cs ih =>
    have decoded : (bytes (c :: cs)).toByteArray.utf8DecodeChar? 0 = some c :=
      List.utf8DecodeChar?_utf8Encode_cons
    have length := String.length_utf8EncodeChar c
    rw [bytes_cons] at decoded ⊢
    cases encoded : String.utf8EncodeChar c with
    | nil =>
      rw [encoded] at length
      exact absurd length (Nat.ne_of_lt c.utf8Size_pos)
    | cons b bs =>
      rw [encoded, List.cons_append] at decoded
      rw [encoded, List.length_cons] at length
      rw [List.cons_append, decode, decoded]
      dsimp only
      rw [← length, Nat.add_sub_cancel, List.drop_left, ih]

/-! ## Kinds of characters -/

/-- Characters beyond ASCII are not told apart. -/
def Blind (p : Char → Bool) : Prop := ∀ ⦃c d : Char⦄, 128 ≤ c.toNat → 128 ≤ d.toNat → p c = p d

theorem blind_of_false {p : Char → Bool} (ascii : ∀ c : Char, 128 ≤ c.toNat → p c = false) : Blind p :=
  fun c d hc hd => (ascii c hc).trans (ascii d hd).symm

theorem toNat_charOf (b : UInt8) : (charOf b).toNat = b.toNat := by
  have valid : b.toNat.isValidChar := .inl (Nat.lt_trans b.toNat_lt (by decide))
  rw [charOf, Char.toNat_ofNat, if_pos valid]

/-- A byte of a character is of the kinds that the character is of. -/
theorem Blind.charOf {p : Char → Bool} (blind : Blind p) {c : Char} {b : UInt8}
    (among : b ∈ String.utf8EncodeChar c) : p (Text.charOf b) = p c := by
  rcases utf8EncodeChar_cases c with ⟨ascii, single⟩ | ⟨other, high⟩
  · rw [single, List.mem_singleton] at among
    refine congrArg p (Char.toNat_inj.1 ?_)
    rw [toNat_charOf, among, UInt8.toNat_ofNat']
    omega
  · refine blind ?_ other
    rw [toNat_charOf]
    exact high b among

/-- Characters of one kind can be told by their bytes. -/
theorem span_bytes {p : Char → Bool} (blind : Blind p) (cs : List Char) :
    (bytes cs).takeWhile (fun b => p (charOf b)) = bytes (cs.takeWhile p) ∧
      (bytes cs).dropWhile (fun b => p (charOf b)) = bytes (cs.dropWhile p) := by
  induction cs with
  | nil => exact ⟨rfl, rfl⟩
  | cons c cs ih =>
    rw [bytes_cons]
    by_cases holds : p c = true
    · have all (b : UInt8) (among : b ∈ String.utf8EncodeChar c) : p (charOf b) = true :=
        (blind.charOf among).trans holds
      rw [List.takeWhile_append_of_pos all, List.dropWhile_append_of_pos all, ih.1, ih.2,
        List.takeWhile_cons_of_pos holds, List.dropWhile_cons_of_pos holds, bytes_cons]
      exact ⟨rfl, rfl⟩
    · obtain ⟨b, bs, encoded⟩ := exists_utf8EncodeChar c
      have first : ¬ p (charOf b) = true := by
        rwa [blind.charOf (c := c) (encoded ▸ List.mem_cons_self)]
      rw [List.takeWhile_cons_of_neg holds, List.dropWhile_cons_of_neg holds, bytes_cons, encoded,
        List.cons_append]
      exact ⟨List.takeWhile_cons_of_neg first, List.dropWhile_cons_of_neg first⟩

/-! ## Beyond ASCII -/

theorem isSeparator_beyond {c : Char} (beyond : 128 ≤ c.toNat) : isSeparator c = false := by
  cases separates : isSeparator c with
  | false => rfl
  | true =>
    simp only [isSeparator, isBlank, Bool.or_eq_true, decide_eq_true_eq, or_assoc] at separates
    rcases separates with rfl | rfl | rfl | rfl | rfl | rfl | rfl | rfl | rfl | rfl | rfl | rfl |
      rfl | rfl | rfl | rfl | rfl | rfl | rfl | rfl <;> exact absurd beyond (by decide)

theorem isBlank_beyond {c : Char} (beyond : 128 ≤ c.toNat) : isBlank c = false := by
  have other := isSeparator_beyond beyond
  rw [isSeparator, Bool.or_eq_false_iff] at other
  exact other.2

theorem isAlphanum_beyond {c : Char} (beyond : 128 ≤ c.toNat) : c.isAlphanum = false := by
  have number : c.toNat = c.val.toNat := rfl
  simp [Char.isAlphanum, Char.isAlpha, Char.isUpper, Char.isLower, Char.isDigit,
    UInt32.le_iff_toNat_le]
  omega

theorem isDigit_beyond {c : Char} (beyond : 128 ≤ c.toNat) : c.isDigit = false :=
  (Bool.or_eq_false_iff.1 (isAlphanum_beyond beyond)).2

theorem isAlpha_beyond {c : Char} (beyond : 128 ≤ c.toNat) : c.isAlpha = false :=
  (Bool.or_eq_false_iff.1 (isAlphanum_beyond beyond)).1

theorem isWordRest_beyond {c : Char} (beyond : 128 ≤ c.toNat) : isWordRest c = false := by
  have other : c ≠ '_' := by
    rintro rfl
    exact absurd beyond (by decide)
  rw [isWordRest, isAlphanum_beyond beyond, decide_eq_false other]
  rfl

theorem blind_isBlank : Blind isBlank := blind_of_false fun _ => isBlank_beyond

theorem blind_isSeparator : Blind isSeparator := blind_of_false fun _ => isSeparator_beyond

theorem blind_isDigit : Blind Char.isDigit := blind_of_false fun _ => isDigit_beyond

theorem blind_isAlpha : Blind Char.isAlpha := blind_of_false fun _ => isAlpha_beyond

theorem blind_isWordRest : Blind isWordRest := blind_of_false fun _ => isWordRest_beyond

theorem Blind.not {p : Char → Bool} (blind : Blind p) : Blind (!p ·) :=
  fun _ _ beyond beyond' => congrArg (! ·) (blind beyond beyond')

theorem blind_eq {d : Char} (ascii : d.toNat < 128) : Blind (· = d) :=
  blind_of_false fun c beyond => decide_eq_false fun same => by
    rw [same] at beyond
    exact Nat.not_lt_of_le beyond ascii

theorem charOf_eq {c : Char} {b : UInt8} (ascii : c.toNat < 128)
    (among : b ∈ String.utf8EncodeChar c) : charOf b = c :=
  of_decide_eq_true (((blind_eq ascii).charOf among).trans (decide_eq_true rfl))

theorem map_charOf_bytes {cs : List Char} (ascii : ∀ c ∈ cs, c.toNat < 128) :
    (bytes cs).map charOf = cs := by
  induction cs with
  | nil => rfl
  | cons c cs ih =>
    obtain ⟨first, others⟩ := List.forall_mem_cons.1 ascii
    rcases utf8EncodeChar_cases c with ⟨-, single⟩ | ⟨beyond, -⟩
    · rw [bytes_cons, single, List.singleton_append, List.map_cons, ih others,
        charOf_eq first (single ▸ List.mem_cons_self)]
    · exact absurd first (Nat.not_lt_of_le beyond)

end Text

/-! ## The lexer that stands where a cursor stands -/

namespace Lexer

open Text (bytes charOf Blind)

/-- A lexer that stands at a place, with these bytes to come. -/
def facing (p : Position) : List UInt8 → Lexer
  | [] => ⟨⟨[], p⟩, none, p⟩
  | b :: bs => ⟨⟨bs, p.advanceByte b⟩, some b, p⟩

theorem load_eq (l : Lexer) (text : String) : l.load text = facing .start (bytes text.toList) := by
  rw [load, ByteReader.ofText, Text.toList_toUTF8]
  cases bytes text.toList <;> rfl

@[simp] theorem bump_facing (p : Position) (b : UInt8) (bs : List UInt8) :
    (facing p (b :: bs)).bump = facing (p.advanceByte b) bs := by
  cases bs <;> rfl

@[simp] theorem current_facing (p : Position) (bs : List UInt8) :
    (facing p bs).current = bs.head? := by
  cases bs <;> rfl

@[simp] theorem position_facing (p : Position) (bs : List UInt8) : (facing p bs).position = p := by
  cases bs <;> rfl

theorem span_facing (q : Char → Bool) (p : Position) (bs : List UInt8) :
    (facing p bs).span q =
      (bs.takeWhile (fun b => q (charOf b)),
        facing (p.advanceBytes (bs.takeWhile fun b => q (charOf b)))
          (bs.dropWhile fun b => q (charOf b))) := by
  induction bs generalizing p with
  | nil =>
    rw [span]
    rfl
  | cons b bs ih =>
    rw [span]
    split
    · next none => cases none
    · next b' same =>
      cases same
      rw [List.takeWhile_cons, List.dropWhile_cons]
      split
      · rw [bump_facing, ih]
        rfl
      · rfl

theorem quoted_nil (p : Position) (collected : List UInt8) :
    (facing p []).quoted collected = (none, facing p []) := by
  rw [quoted]
  rfl

theorem quoted_cons (p : Position) (b : UInt8) (bs collected : List UInt8) :
    (facing p (b :: bs)).quoted collected =
      if charOf b = '"' then
        (some (.quoted (String.ofList (Text.decode collected))), facing (p.advanceByte b) bs)
      else if charOf b = '\\' ∧ bs.head?.any (charOf · = '"') then
        (facing (p.advanceByte b) bs).bump.quoted (collected ++ [34])
      else (facing (p.advanceByte b) bs).quoted (collected ++ [b]) := by
  rw [quoted]
  split
  · next none => cases none
  · next b' same =>
    cases same
    simp only [bump_facing, sees, current_facing]
    by_cases backslash : charOf b = '\\'
    · simp only [backslash, if_true, true_and]
    · simp only [backslash, if_false, false_and]

/-- Bytes that are neither quotes nor backslashes are collected. -/
theorem quoted_append {bs : List UInt8} (plain : ∀ b ∈ bs, charOf b ≠ '"' ∧ charOf b ≠ '\\')
    (p : Position) (collected more : List UInt8) :
    (facing p (bs ++ more)).quoted collected =
      (facing (p.advanceBytes bs) more).quoted (collected ++ bs) := by
  induction bs generalizing p collected with
  | nil => rw [List.append_nil]; rfl
  | cons b bs ih =>
    obtain ⟨⟨noQuote, noBackslash⟩, others⟩ := List.forall_mem_cons.1 plain
    rw [List.cons_append, quoted_cons, if_neg noQuote, if_neg fun both => noBackslash both.1,
      ih others, List.append_assoc]
    rfl

/-! ### Pieces -/

/-- No sign begins with a digit, -/
theorem piece_digit {c : Char} (digit : c.isDigit = true) (l : Lexer) : l.piece c = l.number := by
  unfold piece
  split
  case h_16 => rw [if_pos digit]
  all_goals exact absurd digit (by decide)

/-- nor with a letter, -/
theorem piece_alpha {c : Char} (alpha : c.isAlpha = true) (l : Lexer) : l.piece c = l.word := by
  unfold piece
  split
  case h_16 => rw [if_neg fun digit => not_isAlpha_of_isDigit digit alpha, if_pos alpha]
  all_goals exact absurd alpha (by decide)

/-- and all signs are separators. -/
theorem piece_other {c : Char} (other : isSeparator c = false) (noDigit : c.isDigit = false)
    (noAlpha : c.isAlpha = false) (l : Lexer) : l.piece c = l.unreadable := by
  unfold piece
  split
  case h_16 => rw [noDigit, noAlpha, if_neg (by decide), if_neg (by decide)]
  all_goals exact absurd other (by decide)

end Lexer

/-- What begins with none of the characters that lexemes begin with is no lexeme. -/
theorem scanPiece_other {c : Char} (other : isSeparator c = false) (noDigit : c.isDigit = false)
    (noAlpha : c.isAlpha = false) (rest : List Char) :
    scanPiece c rest = (none, (rest.takeWhile (!isSeparator ·)).length) := by
  have refused : addDigit 0 c = none := if_neg fun fits => by
    rw [noDigit] at fits
    cases fits.1
  have unread (more : List Char) : numeral? (c :: more) = none := by
    rw [numeral?]
    · rw [List.foldlM_cons, refused]
      rfl
    · exact nofun
    · rintro more same
      cases same
      cases noDigit
  rw [scanPiece_run other noAlpha, unread]
  rfl

namespace Cursor

/-- The lexer that stands where the cursor stands. -/
def lexer (cursor : Cursor) : Lexer := .facing cursor.position (Text.bytes cursor.rest)

section

variable {q : Char → Bool} {p : Position} {c : Char} {cs : List Char}

theorem position_lexer (cursor : Cursor) : cursor.lexer.position = cursor.position :=
  Lexer.position_facing _ _

theorem span_lexer (blind : Text.Blind q) (p : Position) (cs : List Char) :
    (lexer ⟨p, cs⟩).span q =
      (Text.bytes (cs.takeWhile q), lexer ⟨p.advanceAll (cs.takeWhile q), cs.dropWhile q⟩) := by
  obtain ⟨taken, left⟩ := Text.span_bytes blind cs
  rw [lexer, Lexer.span_facing, taken, left, lexer, Position.advanceAll_eq]

theorem unreadable_lexer (p : Position) (cs : List Char) :
    (lexer ⟨p, cs⟩).unreadable =
      (none, lexer ⟨p.advanceAll (cs.takeWhile (!isSeparator ·)), cs.dropWhile (!isSeparator ·)⟩) := by
  rw [Lexer.unreadable, span_lexer Text.blind_isSeparator.not]

/-- What stands ahead is seen of a character by its first byte. -/
theorem current_lexer (p : Position) (c : Char) (cs : List Char) :
    ∃ b, (lexer ⟨p, c :: cs⟩).current = some b ∧ b ∈ String.utf8EncodeChar c := by
  obtain ⟨b, bs, encoded⟩ := Text.exists_utf8EncodeChar c
  refine ⟨b, ?_, encoded ▸ List.mem_cons_self⟩
  rw [lexer, Lexer.current_facing, Text.bytes_cons, encoded]
  rfl

theorem sees_lexer (blind : Text.Blind q) (p : Position) (cs : List Char) :
    (lexer ⟨p, cs⟩).sees q = cs.head?.any q := by
  cases cs with
  | nil => rfl
  | cons c cs =>
    obtain ⟨b, ahead, among⟩ := current_lexer p c cs
    rw [Lexer.sees, ahead]
    exact blind.charOf among

theorem bump_lexer (ascii : c.toNat < 128) (p : Position) (cs : List Char) :
    (lexer ⟨p, c :: cs⟩).bump = lexer ⟨p.advance c, cs⟩ := by
  rcases Text.utf8EncodeChar_cases c with ⟨-, single⟩ | ⟨beyond, -⟩
  · rw [lexer, Text.bytes_cons, single, List.singleton_append, Lexer.bump_facing,
      Position.advance_eq, single]
    rfl
  · exact absurd ascii (Nat.not_lt_of_le beyond)

/-! ### Words -/

theorem word_lexer (p : Position) (cs : List Char) :
    (lexer ⟨p, cs⟩).word =
      (Lexeme.ofWord (String.ofList (cs.takeWhile isWordRest)),
        lexer ⟨p.advanceAll (cs.takeWhile isWordRest), cs.dropWhile isWordRest⟩) := by
  have ascii (c : Char) (among : c ∈ cs.takeWhile isWordRest) : c.toNat < 128 := by
    by_contra beyond
    have other := Text.isWordRest_beyond (Nat.le_of_not_lt beyond)
    rw [List.mem_takeWhile_imp among] at other
    cases other
  rw [Lexer.word, span_lexer Text.blind_isWordRest]
  dsimp only
  rw [Text.map_charOf_bytes ascii]

/-! ### Numerals -/

/-- One more digit does not go beyond 64 bits. -/
theorem ofNat_addDigit (value digit : Nat) :
    Int64.ofNat value * 10 + Int64.ofNat digit = Int64.ofNat (10 * value + digit) := by
  rw [Int64.ofNat_add, Int64.ofNat_mul, Int64.mul_comm]
  rfl

theorem toNat_sub_zero {c : Char} {b : UInt8} (digit : c.isDigit = true)
    (among : b ∈ String.utf8EncodeChar c) : (b - 48).toNat = c.toNat - '0'.toNat := by
  have bounds := Text.toNat_of_isDigit digit
  have same : b.toNat = c.toNat := by
    rw [← Text.charOf_eq (by omega) among, Text.toNat_charOf]
  rw [UInt8.toNat_sub_of_le b 48 (by rw [UInt8.le_iff_toNat_le, same]; exact bounds.1), same]
  rfl

/-- How reading a numeral goes on. -/
theorem digits_cons {value : Nat} (small : value ≤ maxNumber) (p : Position) (c : Char)
    (cs : List Char) :
    (lexer ⟨p, c :: cs⟩).digits (Int64.ofNat value) =
      if c.isDigit then
        if maxNumber < 10 * value + (c.toNat - '0'.toNat) then (lexer ⟨p, c :: cs⟩).unreadable
        else (lexer ⟨p.advance c, cs⟩).digits (Int64.ofNat (10 * value + (c.toNat - '0'.toNat)))
      else if isSeparator c then (some (.number value), lexer ⟨p, c :: cs⟩)
      else (lexer ⟨p, c :: cs⟩).unreadable := by
  have max : maxNumber < 2 ^ 31 := by decide
  obtain ⟨b, ahead, among⟩ := current_lexer p c cs
  rw [Lexer.digits]
  split
  · next none => cases ahead.symm.trans none
  · next b' same =>
    cases ahead.symm.trans same
    rw [Text.blind_isDigit.charOf among, Text.blind_isSeparator.charOf among,
      Int64.toNatClampNeg_ofNat_of_lt (by omega)]
    by_cases digit : c.isDigit = true
    · have ascii : c.toNat < 128 := by
        by_contra beyond
        rw [Text.isDigit_beyond (Nat.le_of_not_lt beyond)] at digit
        cases digit
      have amount : c.toNat - '0'.toNat < 128 := Nat.lt_of_le_of_lt (Nat.sub_le _ _) ascii
      have compared (n : Nat) (bound : n < 2 ^ 63) :
          Int64.ofNat maxNumber < Int64.ofNat n ↔ maxNumber < n :=
        Int64.ofNat_lt_iff_lt (by omega) bound
      rw [if_pos digit, if_pos digit, toNat_sub_zero digit among, ofNat_addDigit,
        bump_lexer ascii]
      simp only [compared _ (show 10 * value + (c.toNat - '0'.toNat) < 2 ^ 63 by omega)]
    · rw [if_neg digit, if_neg digit]

theorem run_separator {c : Char} (separates : isSeparator c = true) (cs : List Char) :
    (c :: cs).takeWhile (!isSeparator ·) = [] ∧
      (c :: cs).dropWhile (!isSeparator ·) = c :: cs := by
  simp [separates]

theorem run_other {c : Char} (other : isSeparator c = false) (cs : List Char) :
    (c :: cs).takeWhile (!isSeparator ·) = c :: cs.takeWhile (!isSeparator ·) ∧
      (c :: cs).dropWhile (!isSeparator ·) = cs.dropWhile (!isSeparator ·) := by
  simp [other]

/-- A numeral is read on as far as it goes. -/
theorem digits_lexer {value : Nat} (small : value ≤ maxNumber) (p : Position) (cs : List Char) :
    (lexer ⟨p, cs⟩).digits (Int64.ofNat value) =
      (((cs.takeWhile (!isSeparator ·)).foldlM addDigit value).map .number,
        lexer ⟨p.advanceAll (cs.takeWhile (!isSeparator ·)), cs.dropWhile (!isSeparator ·)⟩) := by
  induction cs generalizing p value with
  | nil =>
    have max : maxNumber < 2 ^ 31 := by decide
    rw [Lexer.digits]
    dsimp only
    rw [Int64.toNatClampNeg_ofNat_of_lt (by omega)]
    rfl
  | cons c cs ih =>
    rw [digits_cons small, unreadable_lexer]
    by_cases digit : c.isDigit = true
    · have other := not_isSeparator_of_isAlphanum (isAlphanum_of_isDigit digit)
      rw [if_pos digit, (run_other other cs).1, (run_other other cs).2, List.foldlM_cons]
      by_cases large : maxNumber < 10 * value + (c.toNat - '0'.toNat)
      · have refused : addDigit value c = none := if_neg fun fits => Nat.not_le_of_lt large fits.2
        rw [if_pos large, refused]
        rfl
      · have added : addDigit value c = some _ := if_pos ⟨digit, Nat.le_of_not_lt large⟩
        rw [if_neg large, ih (Nat.le_of_not_lt large), added]
        rfl
    · have refused : addDigit value c = none := if_neg fun fits => digit fits.1
      rw [if_neg digit]
      cases separates : isSeparator c with
      | true =>
        rw [if_pos rfl, (run_separator separates cs).1, (run_separator separates cs).2]
        rfl
      | false =>
        rw [if_neg (by decide), (run_other separates cs).1, (run_other separates cs).2,
          List.foldlM_cons, refused]
        rfl

theorem parted_lexer (p : Position) (cs : List Char) :
    (lexer ⟨p, cs⟩).parted = (cs.takeWhile (!isSeparator ·)).isEmpty := by
  cases cs with
  | nil => rfl
  | cons c cs =>
    obtain ⟨b, ahead, among⟩ := current_lexer p c cs
    rw [Lexer.parted, ahead, Option.all_some, Text.blind_isSeparator.charOf among,
      List.takeWhile_cons]
    cases isSeparator c <;> rfl

/-- A numeral is read as far as it goes. -/
theorem number_lexer {c : Char} (digit : c.isDigit = true) (p : Position) (cs : List Char) :
    (lexer ⟨p, c :: cs⟩).number =
      ((numeral? (c :: cs.takeWhile (!isSeparator ·))).map .number,
        lexer ⟨(p.advance c).advanceAll (cs.takeWhile (!isSeparator ·)),
          cs.dropWhile (!isSeparator ·)⟩) := by
  rw [Lexer.number, sees_lexer (Text.blind_eq (by decide)), List.head?_cons, Option.any_some]
  by_cases zero : c = '0'
  · subst zero
    rw [if_pos (by decide), bump_lexer (by decide), parted_lexer, unreadable_lexer]
    cases run : cs.takeWhile (!isSeparator ·) with
    | nil =>
      have whole := List.takeWhile_append_dropWhile (p := (!isSeparator ·)) (l := cs)
      rw [run, List.nil_append] at whole
      rw [whole]
      rfl
    | cons d ds => rfl
  · have other := not_isSeparator_of_isAlphanum (isAlphanum_of_isDigit digit)
    have read := digits_lexer (Nat.zero_le maxNumber) p (c :: cs)
    rw [if_neg (by simpa using zero), (run_other other cs).1, (run_other other cs).2] at *
    rw [numeral?]
    · exact read
    · exact nofun
    · exact fun _ same => zero (List.cons.inj same).1

/-! ### Quoted texts -/

/-- An ASCII character is one byte. -/
theorem lexer_cons {b : UInt8} (single : String.utf8EncodeChar c = [b]) (p : Position)
    (cs : List Char) : lexer ⟨p, c :: cs⟩ = .facing p (b :: Text.bytes cs) := by
  rw [lexer, Text.bytes_cons, single]
  rfl

/-- A character that neither ends the text nor goes with the quote after it is collected. -/
theorem quoted_lexer_cons (noQuote : c ≠ '"') (single : c = '\\' → cs.head? ≠ some '"')
    (p : Position) (collected : List UInt8) :
    (lexer ⟨p, c :: cs⟩).quoted collected =
      (lexer ⟨p.advance c, cs⟩).quoted (collected ++ String.utf8EncodeChar c) := by
  have differs {d : Char} (ascii : d.toNat < 128) (other : c ≠ d) {b : UInt8}
      (among : b ∈ String.utf8EncodeChar c) : Text.charOf b ≠ d := by
    have same := (Text.blind_eq ascii).charOf among
    rw [decide_eq_false other] at same
    exact of_decide_eq_false same
  by_cases backslash : c = '\\'
  · subst backslash
    have noQuoteAhead : (Text.bytes cs).head?.any (Text.charOf · = '"') = false := by
      have seen := sees_lexer (Text.blind_eq (d := '"') (by decide)) (p.advanceByte 92) cs
      rw [Lexer.sees, lexer, Lexer.current_facing] at seen
      rw [seen]
      cases cs with
      | nil => rfl
      | cons d ds => exact decide_eq_false fun same => single rfl (congrArg some same)
    rw [lexer_cons (b := 92) rfl, Lexer.quoted_cons, if_neg (by decide),
      if_neg fun both => Bool.false_ne_true (noQuoteAhead.symm.trans both.2)]
    rfl
  · rw [lexer, Text.bytes_cons, Lexer.quoted_append, Position.advance_eq]
    · rfl
    · exact fun b among => ⟨differs (by decide) noQuote among, differs (by decide) backslash among⟩

theorem quoted_lexer (collected : List UInt8) (p : Position) (cs : List Char) :
    (lexer ⟨p, cs⟩).quoted collected =
      match unquote cs with
      | some (s, n) => (some (.quoted (String.ofList (Text.decode (collected ++ Text.bytes s)))),
          lexer ⟨p.advanceAll (cs.take n), cs.drop n⟩)
      | none => (none, lexer ⟨p.advanceAll cs, []⟩) := by
  fun_induction unquote cs generalizing p collected with
  | case1 => exact Lexer.quoted_nil _ _
  | case2 rest =>
    rw [lexer_cons (b := 34) rfl, Lexer.quoted_cons, if_pos (by decide)]
    dsimp only
    rw [Text.bytes_nil, List.append_nil]
    rfl
  | case3 rest ih =>
    have bumped := bump_lexer (c := '"') (by decide) (p.advanceByte 92) rest
    rw [lexer_cons (b := 34) rfl] at bumped
    rw [lexer_cons (b := 92) rfl, Text.bytes_cons, Lexer.quoted_cons, if_neg (by decide),
      if_pos ⟨by decide, rfl⟩]
    refine (congrArg (Lexer.quoted _) bumped).trans ?_
    rw [ih]
    cases unquoted : unquote rest with
    | none => rfl
    | some found =>
      dsimp only [Option.map_some]
      rw [Text.bytes_cons, List.append_assoc]
      rfl
  | case4 c rest quote backslash ih =>
    have single (same : c = '\\') : rest.head? ≠ some '"' := fun ahead => by
      obtain ⟨rest', rfl⟩ := List.head?_eq_some_iff.1 ahead
      exact backslash rest' same rfl
    rw [quoted_lexer_cons quote single, ih]
    cases unquoted : unquote rest with
    | none => rfl
    | some found =>
      dsimp only [Option.map_some]
      rw [Text.bytes_cons, List.append_assoc]
      rfl

/-! ### Pieces -/

/-- The run of characters or bytes of a kind, counted. -/
theorem take_length_takeWhile {α : Type} (q : α → Bool) (cs : List α) :
    cs.take (cs.takeWhile q).length = cs.takeWhile q := by
  have whole := List.takeWhile_append_dropWhile (p := q) (l := cs)
  conv => lhs; arg 2; rw [← whole]
  exact List.take_left

theorem drop_length_takeWhile {α : Type} (q : α → Bool) (cs : List α) :
    cs.drop (cs.takeWhile q).length = cs.dropWhile q := by
  have whole := List.takeWhile_append_dropWhile (p := q) (l := cs)
  conv => lhs; arg 2; rw [← whole]
  exact List.drop_left

/-- What begins with a separator is a sign or a quoted text. -/
theorem piece_separator (separates : isSeparator c = true) (visible : isBlank c = false)
    (p : Position) (cs : List Char) :
    (lexer ⟨p, c :: cs⟩).piece c =
      ((scanPiece c cs).1,
        lexer ⟨p.advanceAll (c :: cs.take (scanPiece c cs).2), cs.drop (scanPiece c cs).2⟩) := by
  have bumped (ascii : c.toNat < 128) := bump_lexer ascii p cs
  rw [isSeparator, visible, Bool.or_false] at separates
  simp only [Bool.or_eq_true, decide_eq_true_eq, or_assoc] at separates
  rcases separates with rfl | rfl | rfl | rfl | rfl | rfl | rfl | rfl | rfl | rfl | rfl | rfl |
    rfl | rfl | rfl
  case inr.inr.inr.inr.inr.inr.inr.inr.inr.inr.inr.inr.inr.inl =>
    show ite _ _ _ = _
    rw [bumped (by decide), sees_lexer (Text.blind_eq (by decide))]
    cases cs with
    | nil => rfl
    | cons d ds =>
      by_cases equal : d = '='
      · subst equal
        exact congrArg (Prod.mk _) (bump_lexer (by decide) _ ds)
      · rw [if_neg (by simpa using equal), scanPiece]
        · rfl
        · exact fun _ same => equal (List.cons.inj same).1
  case inr.inr.inr.inr.inr.inr.inr.inr.inr.inr.inr.inr.inr.inr =>
    show Lexer.quoted _ _ = _
    rw [bumped (by decide), quoted_lexer, scanPiece]
    cases unquote cs with
    | none =>
      dsimp only
      rw [List.take_length, List.drop_length]
      rfl
    | some found =>
      dsimp only
      rw [List.nil_append, Text.decode_bytes]
      rfl
  all_goals exact congrArg (Prod.mk _) (bumped (by decide))

theorem piece_lexer (visible : isBlank c = false) (p : Position) (cs : List Char) {b : UInt8}
    (among : b ∈ String.utf8EncodeChar c) :
    (lexer ⟨p, c :: cs⟩).piece (Text.charOf b) =
      ((scanPiece c cs).1,
        lexer ⟨p.advanceAll (c :: cs.take (scanPiece c cs).2), cs.drop (scanPiece c cs).2⟩) := by
  have digits := Text.blind_isDigit.charOf among
  have alphas := Text.blind_isAlpha.charOf among
  have separators := Text.blind_isSeparator.charOf among
  cases separates : isSeparator c with
  | true =>
    have ascii : c.toNat < 128 := by
      by_contra beyond
      rw [Text.isSeparator_beyond (Nat.le_of_not_lt beyond)] at separates
      cases separates
    rw [Text.charOf_eq ascii among, piece_separator separates visible]
  | false =>
    rw [separates] at separators
    cases digit : c.isDigit with
    | true =>
      rw [digit] at digits
      rw [Lexer.piece_digit digits, number_lexer digit, scanPiece_digit digit]
      dsimp only
      rw [take_length_takeWhile, drop_length_takeWhile]
      rfl
    | false =>
      rw [digit] at digits
      cases alpha : c.isAlpha with
      | true =>
        rw [alpha] at alphas
        have rest : isWordRest c = true := by
          rw [isWordRest, isAlphanum_of_isAlpha alpha]
          rfl
        rw [Lexer.piece_alpha alphas, word_lexer, scanPiece_alpha alpha,
          List.takeWhile_cons_of_pos rest, List.dropWhile_cons_of_pos rest]
        dsimp only
        rw [take_length_takeWhile, drop_length_takeWhile]
      | false =>
        rw [alpha] at alphas
        rw [Lexer.piece_other separators digits alphas, unreadable_lexer,
          scanPiece_other separates digit alpha, (run_other separates cs).1,
          (run_other separates cs).2]
        dsimp only
        rw [take_length_takeWhile, drop_length_takeWhile]

/-! ### Tokens -/

theorem skipBlanks_eq (p : Position) (cs : List Char) :
    skipBlanks p cs = ⟨p.advanceAll (cs.takeWhile isBlank), cs.dropWhile isBlank⟩ := by
  fun_induction skipBlanks p cs with
  | case1 => rfl
  | case2 p c cs blank ih =>
    rw [List.takeWhile_cons_of_pos blank, List.dropWhile_cons_of_pos blank]
    exact ih
  | case3 p c cs visible =>
    rw [List.takeWhile_cons_of_neg visible, List.dropWhile_cons_of_neg visible]
    rfl

theorem skipBlanks_lexer (p : Position) (cs : List Char) :
    ((lexer ⟨p, cs⟩).span isBlank).2 = (skipBlanks p cs).lexer := by
  rw [span_lexer Text.blind_isBlank, skipBlanks_eq]

/-- Blanks are passed over up to the last. -/
theorem visible_of_skipBlanks {p p' : Position} {rest : List Char}
    (begins : skipBlanks p cs = ⟨p', c :: rest⟩) : isBlank c = false := by
  fun_induction skipBlanks p cs with
  | case1 => cases begins
  | case2 p d cs blank ih => exact ih begins
  | case3 p d cs visible =>
    cases begins
    exact Bool.eq_false_of_not_eq_true visible

/-- Wherever characters are read one by one, bytes are read the same way. -/
theorem next_lexer (cursor : Cursor) :
    cursor.lexer.next =
      match cursor.next? with
      | none => (.endOfText cursor.finish, lexer ⟨cursor.finish, []⟩)
      | some (piece, after) => (.piece piece, after.lexer) := by
  obtain ⟨p, cs⟩ := cursor
  have finish := skipBlanks_finish p cs
  rw [Lexer.next, skipBlanks_lexer, next?]
  cases begins : skipBlanks p cs with
  | mk p' rest =>
    cases rest with
    | nil =>
      rw [begins] at finish
      exact congrArg (fun p => (Lexed.endOfText p, lexer ⟨p, []⟩)) finish
    | cons c rest =>
      obtain ⟨b, ahead, among⟩ := current_lexer p' c rest
      dsimp only
      rw [ahead]
      dsimp only
      rw [piece_lexer (visible_of_skipBlanks begins) p' rest among, position_lexer]

end

end Cursor

end Logo
