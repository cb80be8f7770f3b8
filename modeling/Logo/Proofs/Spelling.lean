import Mathlib
import Logo.Scan
import Logo.Proofs.Reserved

/-!
# Spelling lexemes

Every lexeme that can come of a text can be written down so that it comes of the text again, and
lexemes that are written with blanks between them come of the text one by one.

Results:
1. `scanPiece_writable`: what is scanned can be written (`Lexeme.Writable`).
2. `scanPiece_written`: what is written is scanned.
3. `Scan.ofText_spelled`: a text in which lexemes are written one after the other, with blanks
   between them, has just these lexemes.
-/

namespace Logo

/-! ## Writing -/

/-- Puts a backslash before each quote. -/
def escape : List Char → List Char
  | [] => []
  | '"' :: cs => '\\' :: '"' :: escape cs
  | c :: cs => c :: escape cs

/-- How a lexeme is written. -/
def Lexeme.written : Lexeme → String
  | .quoted s => String.ofList ('"' :: escape s.toList ++ ['"'])
  | l => l.text

/-- How lexemes are written one after the other. -/
def spelled (ls : List Lexeme) : String := " ".intercalate (ls.map Lexeme.written)

/-- A word that begins with a letter, goes on with letters, digits and underscores, and is not
reserved. -/
structure IsIdentifier (w : String) : Prop where
  shape : ∃ c cs, w = String.ofList (c :: cs) ∧ c.isAlpha = true ∧ ∀ d ∈ cs, isWordRest d = true
  unreserved : ∀ k : Keyword, k.spelling ≠ w

/-- Whether there is a way of writing the lexeme. There is none for a number that is too large, for
a word that is no identifier, and for a text that ends in a backslash, which would be taken as part
of the quote after it. -/
def Lexeme.Writable : Lexeme → Prop
  | .number n => n ≤ maxNumber
  | .quoted s => s.toList.getLast? ≠ some '\\'
  | .word w => IsIdentifier w
  | _ => True

/-! ## Numerals -/

theorem addDigit_eq_some {value m : Nat} {c : Char} (read : addDigit value c = some m) :
    m ≤ maxNumber := by
  unfold addDigit at read
  split at read
  · next small =>
    cases read
    exact small.2
  · cases read

theorem addDigit_digitChar (value : Nat) {d : Nat} (digit : d < 10) (small : 10 * value + d ≤ maxNumber) :
    addDigit value d.digitChar = some (10 * value + d) := by
  have toNat : ∀ d < 10, d.digitChar.toNat - '0'.toNat = d := by decide
  have isDigit : d.digitChar.isDigit = true := by
    rw [Nat.isDigit_digitChar, decide_eq_true_eq]
    exact digit
  rw [addDigit, toNat d digit, if_pos ⟨isDigit, small⟩]

/-- The digits of a number that is not too large are read as that number. -/
theorem foldlM_addDigit_toDigits {n : Nat} (small : n ≤ maxNumber) :
    (Nat.toDigits 10 n).foldlM addDigit 0 = some n := by
  induction n using Nat.strongRecOn with
  | ind n ih =>
    rw [Nat.toDigits_eq_if (by decide)]
    split
    · next digit =>
      have read := addDigit_digitChar 0 digit (by omega)
      rw [Nat.mul_zero, Nat.zero_add] at read
      rw [List.foldlM_cons, read]
      rfl
    · have split : 10 * (n / 10) + n % 10 = n := Nat.div_add_mod n 10
      have read := addDigit_digitChar (n / 10) (Nat.mod_lt n (by decide)) (by omega)
      rw [List.foldlM_append, ih (n / 10) (by omega) (by omega), Option.bind_eq_bind,
        Option.bind_some, List.foldlM_cons, read, split]
      rfl

theorem head?_toDigits {n : Nat} (positive : n ≠ 0) : (Nat.toDigits 10 n).head? ≠ some '0' := by
  induction n using Nat.strongRecOn with
  | ind n ih =>
    rw [Nat.toDigits_eq_if (by decide)]
    split
    · next digit =>
      have nonzero : ∀ d < 10, d ≠ 0 → d.digitChar ≠ '0' := by decide
      exact fun same => nonzero n digit positive (Option.some.inj same)
    · have begun := ih (n / 10) (by omega) (by omega)
      cases digits : Nat.toDigits 10 (n / 10) with
      | nil => exact absurd digits Nat.toDigits_ne_nil
      | cons c cs =>
        rw [digits] at begun
        exact begun

theorem numeral?_toDigits {n : Nat} (small : n ≤ maxNumber) :
    numeral? (Nat.toDigits 10 n) = some n := by
  by_cases zero : n = 0
  · subst zero
    rfl
  · have read := foldlM_addDigit_toDigits small
    have begun := head?_toDigits zero
    unfold numeral?
    split
    · next empty => exact absurd empty Nat.toDigits_ne_nil
    · next digits =>
      rw [digits] at begun
      exact absurd rfl begun
    · exact read

theorem foldlM_addDigit_le {cs : List Char} {value n : Nat} (start : value ≤ maxNumber)
    (read : cs.foldlM addDigit value = some n) : n ≤ maxNumber := by
  induction cs generalizing value with
  | nil =>
    cases read
    exact start
  | cons c cs ih =>
    rw [List.foldlM_cons] at read
    obtain ⟨m, added, read⟩ := Option.bind_eq_some_iff.1 read
    exact ih (addDigit_eq_some added) read

theorem numeral?_eq_some {cs : List Char} {n : Nat} (read : numeral? cs = some n) :
    n ≤ maxNumber := by
  unfold numeral? at read
  split at read
  · cases read
  · split at read
    · cases read
      exact Nat.zero_le _
    · cases read
  · exact foldlM_addDigit_le (Nat.zero_le _) read

/-! ## Quoted texts -/

theorem escape_cons {c : Char} (ordinary : c ≠ '"') (cs : List Char) :
    escape (c :: cs) = c :: escape cs := by
  rw [escape]
  exact ordinary

/-- A backslash that no quote follows stands for itself, as all characters do but quotes. -/
theorem unquote_cons {c : Char} {cs : List Char} (ordinary : c ≠ '"')
    (single : c = '\\' → cs.head? ≠ some '"') :
    unquote (c :: cs) = (unquote cs).map fun (s, n) => (c :: s, n + 1) := by
  rw [unquote]
  · exact ordinary
  · rintro rest rfl rfl
    exact single rfl rfl

theorem head?_escape (c : Char) (cs more : List Char) :
    (escape (c :: cs) ++ more).head? ≠ some '"' := by
  by_cases quote : c = '"'
  · subst quote
    exact fun same => nomatch same
  · rw [escape_cons quote]
    exact fun same => quote (Option.some.inj same)

theorem getLast?_cons_ne {c d : Char} {cs : List Char} (last : cs.getLast? ≠ some d)
    (only : cs = [] → c ≠ d) : (c :: cs).getLast? ≠ some d := by
  cases cs with
  | nil => exact fun same => only rfl (Option.some.inj same)
  | cons e es =>
    rw [List.getLast?_cons_cons]
    exact last

theorem getLast?_of_cons {c d : Char} {cs : List Char} (last : (c :: cs).getLast? ≠ some d) :
    cs.getLast? ≠ some d := by
  cases cs with
  | nil => exact nofun
  | cons e es =>
    rw [List.getLast?_cons_cons] at last
    exact last

/-- What is read of an escaped text, up to the quote after it, is the text. -/
theorem unquote_escape {cs : List Char} (last : cs.getLast? ≠ some '\\') (more : List Char) :
    unquote (escape cs ++ '"' :: more) = some (cs, (escape cs).length + 1) := by
  fun_induction escape cs with
  | case1 => rfl
  | case2 cs ih =>
    rw [List.cons_append, List.cons_append, unquote, ih (getLast?_of_cons last)]
    rfl
  | case3 c cs ordinary ih =>
    rw [List.cons_append, unquote_cons ordinary, ih (getLast?_of_cons last)]
    · rfl
    · rintro rfl
      cases cs with
      | nil => exact absurd rfl last
      | cons d ds => exact head?_escape d ds _

theorem unquote_eq_nil {cs : List Char} {n : Nat} (unquoted : unquote cs = some ([], n)) :
    cs.head? = some '"' := by
  unfold unquote at unquoted
  split at unquoted
  · cases unquoted
  · rfl
  · obtain ⟨_, _, made⟩ := Option.map_eq_some_iff.1 unquoted
    cases made
  · obtain ⟨_, _, made⟩ := Option.map_eq_some_iff.1 unquoted
    cases made

theorem getLast?_of_unquote {cs read : List Char} {n : Nat} (unquoted : unquote cs = some (read, n)) :
    read.getLast? ≠ some '\\' := by
  fun_induction unquote cs generalizing read n with
  | case1 => cases unquoted
  | case2 =>
    cases unquoted
    exact nofun
  | case3 rest ih =>
    obtain ⟨⟨s, m⟩, inner, made⟩ := Option.map_eq_some_iff.1 unquoted
    cases made
    exact getLast?_cons_ne (ih inner) fun _ => by decide
  | case4 c rest quote backslash ih =>
    obtain ⟨⟨s, m⟩, inner, made⟩ := Option.map_eq_some_iff.1 unquoted
    cases made
    refine getLast?_cons_ne (ih inner) ?_
    rintro rfl rfl
    obtain ⟨more, rfl⟩ := List.head?_eq_some_iff.1 (unquote_eq_nil inner)
    exact backslash more rfl rfl

/-! ## Words -/

theorem ofWord_eq (w : String) :
    Lexeme.ofWord w = some ((Keyword.ofSpelling? w).elim (.word w) .keyword) := by
  rw [Lexeme.ofWord, Keyword.lookup_eq]
  cases Keyword.ofSpelling? w <;> rfl

theorem ofWord_spelling (k : Keyword) : Lexeme.ofWord k.spelling = some (.keyword k) := by
  rw [ofWord_eq, Keyword.ofSpelling?_eq_some.2 rfl, Option.elim_some]

theorem ofWord_unreserved {w : String} (unreserved : ∀ k : Keyword, k.spelling ≠ w) :
    Lexeme.ofWord w = some (.word w) := by
  rw [Lexeme.ofWord, Keyword.lookup_unreserved unreserved]

/-- A letter is a word: reserved words are longer. -/
theorem isIdentifier_letter {c : Char} (alpha : c.isAlpha = true) :
    IsIdentifier (String.ofList [c]) where
  shape := ⟨c, [], rfl, alpha, nofun⟩
  unreserved := by
    intro k same
    have longer : k.spelling.toList.length ≠ 1 := by cases k <;> decide
    rw [same, String.toList_ofList] at longer
    exact longer rfl

/-- A word that is scanned as a word is not reserved: the table would have found it. -/
theorem ofWord_eq_some {w : String} {l : Lexeme} (scanned : Lexeme.ofWord w = some l) :
    (∃ k : Keyword, l = .keyword k) ∨ l = .word w ∧ ∀ k : Keyword, k.spelling ≠ w := by
  rw [ofWord_eq] at scanned
  cases searched : Keyword.ofSpelling? w with
  | some k =>
    rw [searched] at scanned
    cases scanned
    exact .inl ⟨k, rfl⟩
  | none =>
    rw [searched] at scanned
    cases scanned
    refine .inr ⟨rfl, fun k written => ?_⟩
    rw [Keyword.ofSpelling?_eq_some.2 written] at searched
    cases searched

/-! ## Pieces -/

theorem not_isAlpha_of_isDigit {c : Char} (digit : c.isDigit = true) : ¬ c.isAlpha = true := by
  have : '9'.val.toNat = 57 := rfl
  have : 'A'.val.toNat = 65 := rfl
  have : 'a'.val.toNat = 97 := rfl
  simp only [Char.isDigit, Char.isAlpha, Char.isUpper, Char.isLower, Bool.and_eq_true,
    Bool.or_eq_true, decide_eq_true_eq, UInt32.le_iff_toNat_le, ge_iff_le] at *
  omega

theorem not_isSeparator_of_isAlphanum {c : Char} (alphanum : c.isAlphanum = true) :
    isSeparator c = false := by
  cases separates : isSeparator c with
  | false => rfl
  | true =>
    simp only [isSeparator, isBlank, Bool.or_eq_true, decide_eq_true_eq, or_assoc] at separates
    rcases separates with rfl | rfl | rfl | rfl | rfl | rfl | rfl | rfl | rfl | rfl | rfl | rfl |
      rfl | rfl | rfl | rfl | rfl | rfl | rfl | rfl <;> cases alphanum

theorem not_isBlank_of_isAlphanum {c : Char} (alphanum : c.isAlphanum = true) :
    isBlank c = false := by
  have other := not_isSeparator_of_isAlphanum alphanum
  rw [isSeparator, Bool.or_eq_false_iff] at other
  exact other.2

theorem isAlphanum_of_isDigit {c : Char} (digit : c.isDigit = true) : c.isAlphanum = true := by
  rw [Char.isAlphanum, digit, Bool.or_true]

theorem isAlphanum_of_isAlpha {c : Char} (alpha : c.isAlpha = true) : c.isAlphanum = true := by
  rw [Char.isAlphanum, alpha, Bool.true_or]

/-- No sign begins with a letter. -/
theorem scanPiece_alpha {c : Char} (alpha : c.isAlpha = true) (rest : List Char) :
    scanPiece c rest =
      (Lexeme.ofWord (String.ofList (c :: rest.takeWhile isWordRest)),
        (rest.takeWhile isWordRest).length) := by
  unfold scanPiece
  split
  case h_16 => rw [if_pos alpha]
  all_goals exact absurd alpha (by decide)

/-- What begins with neither a separator nor a letter goes on up to the next separator, and is a number if
all of it is a numeral. -/
theorem scanPiece_run {c : Char} (other : isSeparator c = false) (noLetter : c.isAlpha = false)
    (rest : List Char) :
    scanPiece c rest =
      ((numeral? (c :: rest.takeWhile (!isSeparator ·))).map .number,
        (rest.takeWhile (!isSeparator ·)).length) := by
  unfold scanPiece
  split
  case h_16 => rw [noLetter, if_neg (by decide)]
  all_goals exact absurd other (by decide)

theorem scanPiece_digit {c : Char} (digit : c.isDigit = true) (rest : List Char) :
    scanPiece c rest =
      ((numeral? (c :: rest.takeWhile (!isSeparator ·))).map .number,
        (rest.takeWhile (!isSeparator ·)).length) :=
  scanPiece_run (not_isSeparator_of_isAlphanum (isAlphanum_of_isDigit digit))
    (Bool.eq_false_of_not_eq_true (not_isAlpha_of_isDigit digit)) rest

/-- What is scanned can be written. -/
theorem scanPiece_writable {c : Char} {rest : List Char} {l : Lexeme} {n : Nat}
    (scanned : scanPiece c rest = (some l, n)) : l.Writable := by
  unfold scanPiece at scanned
  split at scanned
  case h_14 =>
    split at scanned <;> cases scanned
    trivial
  case h_15 =>
    split at scanned
    · next s m unquoted =>
      cases scanned
      rw [Lexeme.Writable, String.toList_ofList]
      exact getLast?_of_unquote unquoted
    · cases scanned
  case h_16 =>
    split at scanned
    · next alpha =>
      obtain ⟨scanned, -⟩ := Prod.mk.inj scanned
      obtain ⟨k, rfl⟩ | ⟨rfl, unreserved⟩ := ofWord_eq_some scanned
      · trivial
      · refine ⟨⟨c, _, rfl, alpha, fun d among => ?_⟩, unreserved⟩
        exact List.mem_takeWhile_imp among
    · obtain ⟨scanned, -⟩ := Prod.mk.inj scanned
      obtain ⟨m, read, rfl⟩ := Option.map_eq_some_iff.1 scanned
      exact numeral?_eq_some read
  all_goals
    cases scanned
    trivial

/-- What follows a lexeme that is written on its own: nothing, or a blank. -/
def Parted (more : List Char) : Prop := more = [] ∨ ∃ rest, more = ' ' :: rest

theorem Parted.takeWhile {more cs : List Char} (parted : Parted more) {p : Char → Bool}
    (blank : p ' ' = false) (all : ∀ c ∈ cs, p c = true) : (cs ++ more).takeWhile p = cs := by
  rw [List.takeWhile_append_of_pos all]
  obtain rfl | ⟨rest, rfl⟩ := parted
  · rw [List.takeWhile_nil, List.append_nil]
  · rw [List.takeWhile_cons, blank]
    exact List.append_nil cs

/-- A reserved word is written as words are. -/
theorem spelling_shape (k : Keyword) :
    ∃ c cs, k.spelling = String.ofList (c :: cs) ∧ c.isAlpha = true ∧
      ∀ d ∈ cs, isWordRest d = true := by
  have shape : (k.spelling.toList.head?.any Char.isAlpha &&
      k.spelling.toList.tail.all isWordRest) = true := by cases k <;> decide
  cases chars : k.spelling.toList with
  | nil =>
    rw [chars] at shape
    cases shape
  | cons c cs =>
    rw [chars] at shape
    obtain ⟨alpha, all⟩ := Bool.and_eq_true_iff.1 shape
    exact ⟨c, cs, by rw [← chars, String.ofList_toList], alpha, List.all_eq_true.1 all⟩

/-- What is written is scanned. -/
theorem scanPiece_written {l : Lexeme} (writable : l.Writable) :
    ∃ c cs, l.written.toList = c :: cs ∧ isBlank c = false ∧
      ∀ more, Parted more → scanPiece c (cs ++ more) = (some l, cs.length) := by
  have word {c : Char} {cs : List Char} (alpha : c.isAlpha = true)
      (all : ∀ d ∈ cs, isWordRest d = true) {l : Lexeme}
      (scanned : Lexeme.ofWord (String.ofList (c :: cs)) = some l) (more : List Char)
      (parted : Parted more) : scanPiece c (cs ++ more) = (some l, cs.length) := by
    rw [scanPiece_alpha alpha, parted.takeWhile (by decide) all, scanned]
  cases l with
  | number n =>
    have digits : (toString n).toList = Nat.toDigits 10 n := Nat.toList_repr
    have isDigit {c : Char} (among : c ∈ Nat.toDigits 10 n) : c.isDigit = true :=
      Nat.isDigit_of_mem_toDigits (by decide) (by decide) among
    have read := numeral?_toDigits writable
    cases shape : Nat.toDigits 10 n with
    | nil => exact absurd shape Nat.toDigits_ne_nil
    | cons c cs =>
      rw [shape] at read isDigit
      have first := isDigit List.mem_cons_self
      refine ⟨c, cs, digits.trans shape, ?_, fun more parted => ?_⟩
      · exact not_isBlank_of_isAlphanum (isAlphanum_of_isDigit first)
      · rw [scanPiece_digit first, parted.takeWhile (by decide) fun d among => ?_, read]
        · rfl
        · rw [not_isSeparator_of_isAlphanum
            (isAlphanum_of_isDigit (isDigit (List.mem_cons_of_mem c among)))]
          rfl
  | quoted s =>
    refine ⟨'"', escape s.toList ++ ['"'], String.toList_ofList, rfl, fun more _ => ?_⟩
    have read := unquote_escape writable more
    rw [List.append_assoc, List.singleton_append, scanPiece, read]
    dsimp only
    rw [String.ofList_toList, List.length_append, List.length_singleton]
  | word w =>
    obtain ⟨⟨c, cs, rfl, alpha, all⟩, unreserved⟩ := writable
    exact ⟨c, cs, String.toList_ofList, not_isBlank_of_isAlphanum (isAlphanum_of_isAlpha alpha),
      word alpha all (ofWord_unreserved unreserved)⟩
  | keyword k =>
    obtain ⟨c, cs, shape, alpha, all⟩ := spelling_shape k
    refine ⟨c, cs, ?_, not_isBlank_of_isAlphanum (isAlphanum_of_isAlpha alpha),
      word alpha all (shape ▸ ofWord_spelling k)⟩
    exact (congrArg String.toList shape).trans String.toList_ofList
  | addOp op => cases op <;> exact ⟨_, [], rfl, rfl, fun _ _ => rfl⟩
  | mulOp op => cases op <;> exact ⟨_, [], rfl, rfl, fun _ _ => rfl⟩
  | comparison op =>
    cases op with
    | notEqual => exact ⟨'!', ['='], rfl, rfl, fun _ _ => rfl⟩
    | _ => exact ⟨_, [], rfl, rfl, fun _ _ => rfl⟩
  | _ => exact ⟨_, [], rfl, rfl, fun _ _ => rfl⟩

/-! ## Whole texts -/

theorem toList_spelled_singleton (l : Lexeme) : (spelled [l]).toList = l.written.toList ++ [] := by
  rw [spelled, String.toList_intercalate, List.map_singleton, List.map_singleton,
    List.intercalate_singleton, List.append_nil]

theorem toList_spelled_cons_cons (l l' : Lexeme) (ls : List Lexeme) :
    (spelled (l :: l' :: ls)).toList = l.written.toList ++ ' ' :: (spelled (l' :: ls)).toList := by
  rw [spelled, String.toList_intercalate, List.map_cons, List.map_cons, List.map_cons,
    List.map_cons, List.intercalate_cons_cons, List.append_assoc]
  rw [spelled, String.toList_intercalate, List.map_cons, List.map_cons]
  rfl

namespace Cursor

theorem next?_written {l : Lexeme} (writable : l.Writable) (p : Position) {more : List Char}
    (parted : Parted more) :
    ∃ p', next? ⟨p, l.written.toList ++ more⟩ = some (⟨some l, p⟩, ⟨p', more⟩) := by
  obtain ⟨c, cs, shape, visible, scanned⟩ := scanPiece_written writable
  refine ⟨p.advanceAll (c :: cs), ?_⟩
  rw [shape, next?, List.cons_append, skipBlanks, visible]
  dsimp only
  rw [if_neg (by decide)]
  dsimp only
  rw [scanned more parted]
  dsimp only
  rw [List.take_left, List.drop_left]

theorem pieces_of_next? {cursor after : Cursor} {piece : Piece}
    (taken : cursor.next? = some (piece, after)) : cursor.pieces = piece :: after.pieces := by
  rw [pieces]
  split
  · next other => cases taken.symm.trans other
  · next other =>
    cases taken.symm.trans other
    rfl

theorem pieces_of_next?_none {cursor : Cursor} (finished : cursor.next? = none) :
    cursor.pieces = [] := by
  rw [pieces]
  split
  · rfl
  · next other => cases finished.symm.trans other

theorem pieces_nil (p : Position) : pieces ⟨p, []⟩ = [] := pieces_of_next?_none rfl

theorem pieces_congr {cursor cursor' : Cursor} (same : cursor.next? = cursor'.next?) :
    cursor.pieces = cursor'.pieces := by
  cases taken : cursor'.next? with
  | none => rw [pieces_of_next?_none (same.trans taken), pieces_of_next?_none taken]
  | some found => rw [pieces_of_next? (same.trans taken), pieces_of_next? taken]

theorem pieces_blank {c : Char} (blank : isBlank c = true) (p : Position) (cs : List Char) :
    pieces ⟨p, c :: cs⟩ = pieces ⟨p.advance c, cs⟩ := by
  refine pieces_congr ?_
  rw [next?, skipBlanks, if_pos blank, next?]

/-- Lexemes that are written one after the other are the pieces of the text. -/
theorem pieces_spelled {ls : List Lexeme} (writable : ∀ l ∈ ls, l.Writable) (p : Position) :
    ∃ ts : List Token, pieces ⟨p, (spelled ls).toList⟩ =
      ts.map (fun t => ⟨some t.lexeme, t.position⟩) ∧ ts.map Token.lexeme = ls := by
  induction ls generalizing p with
  | nil => exact ⟨[], pieces_nil p, rfl⟩
  | cons l ls ih =>
    obtain ⟨first, others⟩ := List.forall_mem_cons.1 writable
    cases ls with
    | nil =>
      obtain ⟨p', taken⟩ := next?_written first p (.inl rfl)
      refine ⟨[⟨l, p⟩], ?_, rfl⟩
      rw [toList_spelled_singleton, pieces_of_next? taken, pieces_nil]
      rfl
    | cons l' ls =>
      have parted : Parted (' ' :: (spelled (l' :: ls)).toList) := .inr ⟨_, rfl⟩
      obtain ⟨p', taken⟩ := next?_written first p parted
      obtain ⟨ts, rest, lexemes⟩ := ih others (p'.advance ' ')
      refine ⟨⟨l, p⟩ :: ts, ?_, congrArg (l :: ·) lexemes⟩
      rw [toList_spelled_cons_cons, pieces_of_next? taken, pieces_blank (by decide), rest]
      rfl

end Cursor

theorem Scan.ofPieces_tokens (finish : Position) (ts : List Token) :
    Scan.ofPieces finish (ts.map fun t => ⟨some t.lexeme, t.position⟩) =
      ⟨ts, .endOfText finish⟩ := by
  induction ts with
  | nil => rfl
  | cons t ts ih =>
    rw [List.map_cons, ofPieces]
    simp only [ih]

/-- A text in which lexemes are written one after the other has these lexemes. -/
theorem Scan.ofText_spelled {ls : List Lexeme} (writable : ∀ l ∈ ls, l.Writable) :
    (Scan.ofText (spelled ls)).tokens.map Token.lexeme = ls ∧
      ∃ finish, (Scan.ofText (spelled ls)).stop = .endOfText finish := by
  obtain ⟨ts, pieces, lexemes⟩ := Cursor.pieces_spelled writable .start
  have scanned : Scan.ofText (spelled ls) =
      ⟨ts, .endOfText (Cursor.ofText (spelled ls)).finish⟩ := by
    rw [Scan.ofText]
    show ofPieces _ (Cursor.pieces ⟨.start, (spelled ls).toList⟩) = _
    rw [pieces, Scan.ofPieces_tokens]
  rw [scanned]
  exact ⟨lexemes, _, rfl⟩

theorem Cursor.next?_writable {cursor after : Cursor} {l : Lexeme} {p : Position}
    (taken : cursor.next? = some (⟨some l, p⟩, after)) : l.Writable := by
  unfold next? at taken
  split at taken
  · cases taken
  · next c rest _ =>
    cases scanned : scanPiece c rest with
    | mk lexeme n =>
      rw [scanned] at taken
      cases taken
      exact scanPiece_writable scanned

theorem Cursor.mem_pieces_writable {cursor : Cursor} {l : Lexeme} {p : Position}
    (among : ⟨some l, p⟩ ∈ cursor.pieces) : l.Writable := by
  fun_induction pieces cursor with
  | case1 => cases among
  | case2 cursor piece after taken ih =>
    obtain rfl | among := List.mem_cons.1 among
    · exact next?_writable taken
    · exact ih among

theorem Scan.mem_ofPieces {finish : Position} {ps : List Piece} {t : Token}
    (among : t ∈ (Scan.ofPieces finish ps).tokens) : ⟨some t.lexeme, t.position⟩ ∈ ps := by
  fun_induction Scan.ofPieces finish ps with
  | case1 | case2 => cases among
  | case3 l p rest scan ih =>
    obtain rfl | among := List.mem_cons.1 among
    · exact List.mem_cons_self
    · exact List.mem_cons_of_mem _ (ih among)

/-- The lexemes of a text can be written. -/
theorem Scan.writable_of_mem {text : String} {t : Token} (among : t ∈ (Scan.ofText text).tokens) :
    t.lexeme.Writable :=
  Cursor.mem_pieces_writable (Scan.mem_ofPieces among)

end Logo
