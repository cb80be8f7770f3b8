import Mathlib
import Logo.Keyword

/-!
# The table of reserved words

A bucket of the table holds the first of the reserved words that fall into it, and a word is compared
with what its bucket holds. That no two reserved words fall into one bucket is all that is needed of the
hash: then each of them is found in its bucket, and a word that only falls into the bucket of another
one is told apart from it.

The hash is computed in 32 bits (`hashWord`). It stays below the number of buckets from byte to byte, so
that nothing of it is ever lost.

Results:
1. `getElem?_buckets`: what a bucket holds is what is found by going through the reserved words.
2. `toNat_hashWord`: in 32 bits the hash is the same.
3. `lookup_agrees`: the table knows the words that a plain search finds.
-/

namespace Logo.Keyword

/-! ## Plain search -/

theorem mem_all (k : Keyword) : k ∈ all := by
  cases k <;> decide

theorem spelling_injective {k k' : Keyword} (same : k.spelling = k'.spelling) : k = k' := by
  have all : ∀ k ∈ all, ∀ k' ∈ all, k.spelling = k'.spelling → k = k' := by decide +kernel
  exact all k (mem_all k) k' (mem_all k') same

theorem ofSpelling?_eq_some {word : String} {k : Keyword} :
    ofSpelling? word = some k ↔ k.spelling = word := by
  constructor
  · intro found
    have written := List.find?_some (show all.find? _ = some k from found)
    exact of_decide_eq_true written
  · intro written
    cases searched : ofSpelling? word with
    | none =>
      have missing := List.find?_eq_none.1 (show all.find? _ = none from searched) k (mem_all k)
      exact absurd (decide_eq_true written) missing
    | some k' =>
      have written' := List.find?_some (show all.find? _ = some k' from searched)
      exact congrArg some (spelling_injective ((of_decide_eq_true written').trans written.symm))

/-! ## Buckets -/

/-- Words are put into buckets by their hashes: of those that fall into the same one, the first stays. -/
theorem getElem?_fill (t : Std.ExtTreeMap Nat Keyword) (ks : List Keyword) (bucket : Nat) :
    (ks.foldl (fun t k => t.insertIfNew (hash k.spelling) k) t)[bucket]? =
      (t[bucket]?).or (ks.find? fun k => hash k.spelling = bucket) := by
  induction ks generalizing t with
  | nil => rw [List.foldl_nil, List.find?_nil, Option.or_none]
  | cons k ks ih =>
    rw [List.foldl_cons, ih, Std.ExtTreeMap.getElem?_insertIfNew, List.find?_cons]
    by_cases falls : hash k.spelling = bucket
    · simp only [falls, Std.compare_eq_iff_eq, true_and, decide_true]
      cases held : t[bucket]? with
      | none =>
        have free : bucket ∉ t := by rw [Std.ExtTreeMap.mem_iff_isSome_getElem?, held]; exact nofun
        rw [if_pos free]
        rfl
      | some first =>
        have taken : bucket ∈ t := by rw [Std.ExtTreeMap.mem_iff_isSome_getElem?, held]; rfl
        rw [if_neg (not_not_intro taken)]
        rfl
    · simp only [falls, Std.compare_eq_iff_eq, false_and, if_false, decide_false]

theorem getElem?_buckets (bucket : Nat) :
    buckets[bucket]? = all.find? fun k => hash k.spelling = bucket := by
  rw [buckets, getElem?_fill, Std.ExtTreeMap.getElem?_empty, Option.none_or]

/-- No two reserved words fall into one bucket. -/
theorem hash_spelling_injective {k k' : Keyword} (same : hash k.spelling = hash k'.spelling) :
    k = k' := by
  have apart : (all.map fun k => hash k.spelling).Nodup := by decide +kernel
  exact List.inj_on_of_nodup_map apart (mem_all k) (mem_all k') same

theorem getElem?_buckets_eq_some {bucket : Nat} {k : Keyword} :
    buckets[bucket]? = some k ↔ hash k.spelling = bucket := by
  rw [getElem?_buckets]
  constructor
  · intro held
    have falls := List.find?_some held
    exact of_decide_eq_true falls
  · intro falls
    cases held : all.find? fun k => hash k.spelling = bucket with
    | none => exact absurd (decide_eq_true falls) (List.find?_eq_none.1 held k (mem_all k))
    | some k' =>
      have falls' := List.find?_some held
      exact congrArg some (hash_spelling_injective ((of_decide_eq_true falls').trans falls.symm))

/-! ## Looking up -/

theorem lookup_spelling (k : Keyword) : lookup k.spelling = .keyword k := by
  unfold lookup
  rw [getElem?_buckets_eq_some.2 rfl]
  dsimp only
  rw [if_pos rfl, ofSpelling?_eq_some.2 rfl]

/-- A word that is not reserved may fall into any bucket. -/
theorem lookup_unreserved {word : String} (unreserved : ∀ k : Keyword, k.spelling ≠ word) :
    lookup word = .identifier := by
  unfold lookup
  cases buckets[hash word]? with
  | none => rfl
  | some stored => exact if_neg (unreserved stored)

theorem lookup_eq (word : String) :
    lookup word = (ofSpelling? word).elim .identifier .keyword := by
  cases searched : ofSpelling? word with
  | none =>
    refine lookup_unreserved fun k written => ?_
    rw [ofSpelling?_eq_some.2 written] at searched
    cases searched
  | some k =>
    rw [← ofSpelling?_eq_some.1 searched]
    exact lookup_spelling k

/-! ## The hash in 32 bits -/

/-- One more byte goes into the hash `h`, in 32 bits. -/
def hashStepWord (b : UInt8) (h : UInt32) : UInt32 :=
  (UInt32.ofNat hashFactor * h + b.toUInt32) % UInt32.ofNat hashModulus

/-- The hash of some bytes, in 32 bits. -/
def hashWord (bytes : List UInt8) : UInt32 := bytes.foldr hashStepWord 0

theorem hashStep_lt (b : UInt8) (h : Nat) : hashStep b h < hashModulus :=
  Nat.mod_lt _ (by decide)

theorem hash_lt (bytes : List UInt8) : bytes.foldr hashStep 0 < hashModulus := by
  cases bytes with
  | nil => decide
  | cons b bytes => exact hashStep_lt b _

/-- A step has room in 32 bits. -/
theorem step_fits {h : Nat} (bounded : h < hashModulus) (b : UInt8) :
    hashFactor * h + b.toNat < 2 ^ 32 := by
  have byte := b.toNat_lt
  unfold hashFactor hashModulus at *
  omega

theorem toNat_hashStepWord {h : UInt32} (bounded : h.toNat < hashModulus) (b : UInt8) :
    (hashStepWord b h).toNat = hashStep b h.toNat := by
  have fits := step_fits bounded b
  have factor : (UInt32.ofNat hashFactor).toNat = hashFactor := rfl
  have modulus : (UInt32.ofNat hashModulus).toNat = hashModulus := rfl
  rw [hashStepWord, hashStep, UInt32.toNat_mod, UInt32.toNat_add, UInt32.toNat_mul, factor, modulus,
    UInt8.toNat_toUInt32, Nat.mod_eq_of_lt (a := hashFactor * h.toNat) (by omega),
    Nat.mod_eq_of_lt fits]

theorem toNat_hashWord (bytes : List UInt8) : (hashWord bytes).toNat = bytes.foldr hashStep 0 := by
  induction bytes with
  | nil => rfl
  | cons b bytes ih =>
    have bounded : (hashWord bytes).toNat < hashModulus := ih ▸ hash_lt bytes
    rw [hashWord, List.foldr_cons, List.foldr_cons, ← ih]
    exact toNat_hashStepWord bounded b

/-- The table of reserved words agrees with going through all of them. It says of every word what a plain
search says of it, and never that a word is in its bucket but not reserved. Whatever bytes have gone into
the hash on the way, it is below the number of buckets, and 32 bits hold it and all that the next byte
makes of it. -/
theorem lookup_agrees (word : String) :
    (∀ k, lookup word = .keyword k ↔ ofSpelling? word = some k) ∧
    (lookup word = .identifier ↔ ofSpelling? word = none) ∧
    lookup word ≠ .unresolved ∧
    (hashWord word.toUTF8.toList).toNat = hash word ∧
    ∀ (n : Nat) (b : UInt8),
      let bytes := word.toUTF8.toList.drop n
      let h := bytes.foldr hashStep 0
      (hashWord bytes).toNat = h ∧ h < hashModulus ∧ hashFactor * h < 2 ^ 32 ∧
        hashFactor * h + b.toNat < 2 ^ 32 := by
  refine ⟨fun k => ?_, ?_, ?_, toNat_hashWord _, fun n b => ?_⟩
  · rw [lookup_eq]
    cases ofSpelling? word <;> simp
  · rw [lookup_eq]
    cases ofSpelling? word <;> simp
  · rw [lookup_eq]
    cases ofSpelling? word <;> exact nofun
  · have bounded := hash_lt (word.toUTF8.toList.drop n)
    have fits := step_fits bounded b
    exact ⟨toNat_hashWord _, bounded, Nat.lt_of_le_of_lt (Nat.le_add_right _ _) fits, fits⟩

/-- A word in the bucket of another one. -/
example : hash "fly" = hash make.spelling ∧ lookup "fly" = .identifier := by decide +kernel

end Logo.Keyword
