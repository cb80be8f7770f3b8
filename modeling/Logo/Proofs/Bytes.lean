import Mathlib
import Logo.Position
import Logo.Text.Line

/-!
# Texts as bytes

A text is kept in bytes: a character below 128 is one byte, the byte of its number, and all bytes of
any other character are 128 or more. So what is below 128 can be looked for among bytes as well as among
characters, and places can be counted on either way.

Results:
1. `toList_toUTF8`: the bytes of a text are those of its characters.
2. `Position.advanceAll_eq`: places after characters and after their bytes are the same.
3. `Position.start_advanceBytes`: what a place is the number of.
-/

namespace Logo

namespace Text

/-- The numbers of the digits. -/
theorem toNat_of_isDigit {c : Char} (digit : c.isDigit = true) : 48 ≤ c.toNat ∧ c.toNat ≤ 57 := by
  simp only [Char.isDigit, Bool.and_eq_true, decide_eq_true_eq, ge_iff_le,
    UInt32.le_iff_toNat_le] at digit
  exact digit

/-- The bytes of some characters. -/
def bytes (cs : List Char) : List UInt8 := cs.flatMap String.utf8EncodeChar

@[simp] theorem bytes_nil : bytes [] = [] := rfl

@[simp] theorem bytes_cons (c : Char) (cs : List Char) :
    bytes (c :: cs) = String.utf8EncodeChar c ++ bytes cs := List.flatMap_cons

theorem bytes_append (cs ds : List Char) : bytes (cs ++ ds) = bytes cs ++ bytes ds :=
  List.flatMap_append

theorem toList_loop (bs : ByteArray) (i : Nat) (taken : List UInt8) :
    ByteArray.toList.loop bs i taken = taken.reverse ++ bs.data.toList.drop i := by
  fun_induction ByteArray.toList.loop bs i taken with
  | case1 i taken inside ih =>
    have inside' : i < bs.data.toList.length := by
      rwa [Array.length_toList]
    rw [ih, List.drop_eq_getElem_cons inside', List.reverse_cons, List.append_assoc]
    simp [ByteArray.get!, inside]
  | case2 i taken beyond =>
    have beyond' : bs.data.toList.length ≤ i := by
      rw [Array.length_toList]
      exact Nat.le_of_not_lt beyond
    rw [List.drop_eq_nil_of_le beyond', List.append_nil]

theorem toList_toUTF8 (s : String) : s.toUTF8.toList = bytes s.toList := by
  rw [String.toUTF8_eq_toByteArray, ← String.utf8Encode_toList, ByteArray.toList, toList_loop,
    List.utf8Encode, List.toList_data_toByteArray]
  rfl

/-- The bytes of characters are the text that the characters are. -/
theorem Line.text?_bytes (cs : List Char) : Line.text? (bytes cs) = some (String.ofList cs) := by
  have encoded : (⟨(bytes cs).toArray⟩ : ByteArray) = (String.ofList cs).toByteArray := by
    rw [String.toByteArray_ofList]
    refine ByteArray.ext ?_
    rw [List.utf8Encode, List.data_toByteArray]
    rfl
  have valid : (⟨(bytes cs).toArray⟩ : ByteArray).IsValidUTF8 :=
    encoded ▸ (String.ofList cs).isValidUTF8
  rw [Line.text?, String.fromUTF8?, dif_pos valid]
  refine congrArg some (String.toByteArray_inj.1 ?_)
  exact encoded

/-! ## Bytes of one character -/

/-- A character of ASCII is the byte of its number; other characters have other bytes only. -/
theorem utf8EncodeChar_cases (c : Char) :
    c.toNat < 128 ∧ String.utf8EncodeChar c = [UInt8.ofNat c.toNat] ∨
      128 ≤ c.toNat ∧ ∀ b ∈ String.utf8EncodeChar c, 128 ≤ b.toNat := by
  have number : c.toNat = c.val.toNat := rfl
  fun_cases String.utf8EncodeChar c with
  | case1 v small => exact .inl ⟨by omega, rfl⟩
  | case2 v large | case3 v large | case4 v large =>
    refine .inr ⟨by omega, ?_⟩
    simp only [List.forall_mem_cons, UInt8.toNat_ofNat', List.not_mem_nil, false_implies,
      implies_true, and_true]
    omega

theorem exists_utf8EncodeChar (c : Char) : ∃ b bs, String.utf8EncodeChar c = b :: bs := by
  refine List.exists_cons_of_length_pos ?_
  rw [String.length_utf8EncodeChar]
  exact c.utf8Size_pos

theorem ofNat_eq_newline {c : Char} (ascii : c.toNat < 128) :
    UInt8.ofNat c.toNat = 10 ↔ c = '\n' := by
  rw [← UInt8.toNat_inj, ← Char.toNat_inj, UInt8.toNat_ofNat']
  show c.toNat % 256 = 10 ↔ c.toNat = 10
  omega

/-- No other character has a line feed in it. -/
theorem ne_newline_of_mem {c : Char} (other : c ≠ '\n') {b : UInt8}
    (among : b ∈ String.utf8EncodeChar c) : b ≠ 10 := by
  rcases utf8EncodeChar_cases c with ⟨ascii, single⟩ | ⟨-, high⟩
  · rw [single, List.mem_singleton] at among
    rw [among, Ne, ofNat_eq_newline ascii]
    exact other
  · rintro rfl
    exact absurd (high 10 among) (by decide)

end Text

namespace Position

/-- The place after some more bytes. -/
def advanceBytes (p : Position) (bs : List UInt8) : Position := bs.foldl advanceByte p

@[simp] theorem advanceBytes_nil (p : Position) : p.advanceBytes [] = p := rfl

@[simp] theorem advanceBytes_cons (p : Position) (b : UInt8) (bs : List UInt8) :
    p.advanceBytes (b :: bs) = (p.advanceByte b).advanceBytes bs := rfl

theorem advanceBytes_append (p : Position) (bs bs' : List UInt8) :
    p.advanceBytes (bs ++ bs') = (p.advanceBytes bs).advanceBytes bs' := List.foldl_append

/-- Bytes without a line feed only add to the row. -/
theorem advanceBytes_row (p : Position) {bs : List UInt8} (noNewline : ∀ b ∈ bs, b ≠ 10) :
    p.advanceBytes bs = ⟨p.byte + bs.length, p.row, p.column + bs.length⟩ := by
  induction bs generalizing p with
  | nil => rfl
  | cons b bs ih =>
    obtain ⟨first, others⟩ := List.forall_mem_cons.1 noNewline
    rw [advanceBytes_cons, advanceByte, if_neg first, ih _ others, List.length_cons]
    simp only [mk.injEq, true_and]
    omega

theorem advance_eq (p : Position) (c : Char) :
    p.advance c = p.advanceBytes (String.utf8EncodeChar c) := by
  rcases Text.utf8EncodeChar_cases c with ⟨ascii, single⟩ | ⟨other, -⟩
  · have size : c.utf8Size = 1 := by rw [← String.length_utf8EncodeChar, single]; rfl
    rw [single, advance, size]
    simp only [advanceBytes_cons, advanceBytes_nil, advanceByte, Text.ofNat_eq_newline ascii]
  · have ordinary : c ≠ '\n' := by
      rintro rfl
      exact absurd other (by decide)
    have noNewline (b : UInt8) (among : b ∈ String.utf8EncodeChar c) : b ≠ 10 :=
      Text.ne_newline_of_mem ordinary among
    rw [advance, if_neg ordinary, advanceBytes_row p noNewline, String.length_utf8EncodeChar]

theorem advanceAll_eq (p : Position) (cs : List Char) :
    p.advanceAll cs = p.advanceBytes (Text.bytes cs) := by
  induction cs generalizing p with
  | nil => rfl
  | cons c cs ih => rw [advanceAll_cons, Text.bytes_cons, advanceBytes_append, ih, advance_eq]

/-- The place that comes after these bytes of a text: how many they are, how many line feeds there are
among them, and how many there are after the last of these. -/
def behind (bs : List UInt8) : Position :=
  ⟨bs.length, bs.count 10, (bs.reverse.takeWhile (· ≠ 10)).length⟩

theorem behind_snoc (bs : List UInt8) (b : UInt8) :
    behind (bs ++ [b]) = (behind bs).advanceByte b := by
  have turned : (bs ++ [b]).reverse = b :: bs.reverse := List.reverse_concat
  by_cases newline : b = 10
  · subst newline
    rw [behind, turned, List.length_append, List.count_append, List.takeWhile_cons, advanceByte,
      if_pos rfl]
    rfl
  · have single : List.count 10 [b] = 0 := List.count_eq_zero.2 (by simpa using Ne.symm newline)
    rw [behind, turned, List.length_append, List.count_append, single, advanceByte, if_neg newline,
      List.takeWhile_cons_of_pos (by simpa using newline)]
    rfl

/-- A place tells what comes before it. -/
theorem start_advanceBytes (bs : List UInt8) : start.advanceBytes bs = behind bs := by
  induction bs using List.reverseRecOn with
  | nil => rfl
  | append_singleton bs b ih =>
    rw [advanceBytes_append, ih, behind_snoc]
    rfl

end Position

end Logo
