import Mathlib
import Logo.Proofs.Transfer

/-!
# Parsing a text again

When a text is parsed a second time, all that it defines is known from its beginning, so that a word
that was a variable may now be a call. This module says when that makes no difference: no name that the
text defines is used as one of a variable in it, as far as this would be noticed
(`Program.NamesApart`).

Results:
1. `Reads.ahead`: a program is read again by those who know its procedures from the beginning.
2. `parse_again`: so it is for whole texts, and what is known in the end is the same.
3. `parse_again_changed`: no part of the condition can be missed.
-/

namespace Logo

/-! ## Names of variables -/

namespace Mark

/-- Nothing is read or set that has the name of one of the procedures. -/
def Avoids (ps : List Procedure) : Mark → Prop
  | .variable name | .target name => ∀ p ∈ ps, p.name ≠ name.text
  | _ => True

/-- Nothing is set that has the name of one of the procedures, or read that has the name of one that
has parameters. -/
def Spares (ps : List Procedure) : Mark → Prop
  | .variable name => ∀ p ∈ ps, p.name = name.text → p.parameters = []
  | .target name => ∀ p ∈ ps, p.name ≠ name.text
  | _ => True

end Mark

/-- In a definition no parameter and no variable has the name of one of the procedures. In a statement
between the definitions no variable that is set has such a name, and none that is read has the name of a
procedure with parameters. -/
def Item.Apart (ps : List Procedure) : Item → Prop
  | .definition p => (∀ q ∈ ps, q.name ∉ p.parameters) ∧
    ∀ mark ∈ blockMarks p.body (.keyword .endDefine), mark.Avoids ps
  | .statement s => ∀ mark ∈ s.marks, mark.Spares ps

/-- The names of the procedures that a program defines are apart from those of its variables. -/
def Program.NamesApart (program : Program) : Prop :=
  ∀ item ∈ program, item.Apart program.definitions

/-! ## Knowing procedures beforehand -/

namespace Procedures

/-- The second set of procedures is ahead of the first one by some of `ps`: these, and no others, are
known in it only, and what is known in the first one takes as many inputs in it. -/
def Ahead (ps : List Procedure) (known known' : Procedures) : Prop :=
  ∀ name, known'.signature name = known.signature name ∨
    known.signature name = none ∧ ∃ p ∈ ps, p.name = name ∧ known'.signature name = some p.arity

namespace Ahead

variable {ps : List Procedure} {known known' : Procedures}

theorem within (ahead : Ahead ps known known') : known.signature.Within known'.signature := by
  intro name arity bound
  obtain same | ⟨unbound, -⟩ := ahead name
  · exact same.trans bound
  · cases unbound.symm.trans bound

/-- The same definition can be made in both. -/
theorem define (ahead : Ahead ps known known') (p : Procedure) :
    Ahead ps (known.define p) (known'.define p) := by
  intro name
  simp only [Procedures.define, signature_insert, Signature.bind]
  by_cases same : name = p.name
  · exact .inl (by rw [if_pos same, if_pos same])
  · rw [if_neg same, if_neg same]
    exact ahead name

/-- A variable that avoids the procedures is still one. -/
theorem free (ahead : Ahead ps known known') (mark : Mark) (fits : mark.Fits known.signature)
    (avoids : mark.Avoids ps) : mark.Free known'.signature := by
  have unbound {name : Name} (fits : known.signature name.text = none)
      (avoids : ∀ p ∈ ps, p.name ≠ name.text) : known'.signature name.text = none := by
    obtain same | ⟨-, p, among, same, -⟩ := ahead name.text
    · exact same.trans fits
    · exact absurd same (avoids p among)
  cases mark with
  | «variable» name | target name => exact unbound fits avoids
  | _ => trivial

theorem passes (ahead : Ahead ps known known') (mark : Mark) (fits : mark.Fits known.signature)
    (spares : mark.Spares ps) : mark.Passes known'.signature := by
  cases mark with
  | «variable» name =>
    intro arity bound
    have fits : known.signature name.text = none := fits
    obtain same | ⟨-, p, among, named, bound'⟩ := ahead name.text
    · cases (same.trans fits).symm.trans bound
    · cases bound'.symm.trans bound
      rw [Procedure.arity, spares p among named, List.length_nil]
  | target name => exact ahead.free (.target name) fits spares
  | _ => trivial

end Ahead

end Procedures

/-- Procedures of new names put those who know them ahead. -/
theorem Procedures.ahead_defineAll {known : Procedures} {ps : List Procedure}
    (new : ∀ p ∈ ps, p.name ∉ known) : Ahead ps known (known.defineAll ps) := by
  intro name
  simp only [signature, getElem?_defineAll]
  cases found : ps.reverse.find? (·.name = name) with
  | none => exact .inl rfl
  | some p =>
    have among : p ∈ ps := List.mem_reverse.1 (List.mem_of_find?_eq_some found)
    have named : p.name = name := by simpa using List.find?_some found
    have unbound : known[name]? = none := Std.ExtTreeMap.getElem?_eq_none (named ▸ new p among)
    exact .inr ⟨by rw [unbound]; rfl, p, among, named, rfl⟩

/-- What has been defined is not changed by defining the same again. -/
theorem Procedures.defineAll_defineAll (known : Procedures) (ps : List Procedure) :
    (known.defineAll ps).defineAll ps = known.defineAll ps := by
  refine Std.ExtTreeMap.ext_getElem? fun name => ?_
  simp only [getElem?_defineAll]
  cases ps.reverse.find? (·.name = name) <;> rfl

theorem Procedures.getElem?_bare (known : Procedures) (name : String) :
    known.bare[name]? = known[name]?.map Entry.bare :=
  Std.ExtTreeMap.getElem?_map

/-- Ahead of what was known, a program is read again, with the same definitions. -/
theorem Grammar.Reads.ahead {ps : List Procedure} {known known' : Procedures} {ts : List Token}
    {program : Program} (reads : Reads known ts program) (ahead : known.Ahead ps known')
    (apart : ∀ item ∈ program, item.Apart ps) :
    ∃ again, Reads known' ts again ∧ again.definitions = program.definitions := by
  induction reads generalizing known' with
  | nil => exact ⟨[], .nil, rfl⟩
  | @definition known position ts rest rest' h body program headed bodied others ih =>
    obtain ⟨⟨parameters, avoids⟩, others'⟩ := List.forall_mem_cons.1 apart
    have whole : Reads known (⟨.keyword .define, position⟩ :: ts) _ :=
      .definition headed bodied others
    have fits := (reads_written whole).2.1
    let p : Procedure := ⟨h.name, h.parameters, body⟩
    have ahead' := ahead.define p
    have headed' := header_within ahead.within headed fun w among =>
      ahead.free (.target ⟨w, .start⟩) (fits.parameters w among).2
        fun q defined same => parameters q defined (same ▸ among)
    have free (mark : Mark) (among : mark ∈ blockMarks body (.keyword .endDefine)) :
        mark.Free (known'.define p).signature :=
      ahead'.free mark (fits.body mark among) (avoids mark among)
    -- the header of a known name tells so, which makes no difference to the signature after it
    let h' : Header := { h with known := (known'.signature h.name).isSome }
    rw [known.signature_announce h body] at bodied
    obtain ⟨taken, body', rfl, kept, bodied'⟩ := body_carries ahead'.within h.name (rest.length + 1)
      (Nat.lt_succ_self _) bodied fun mark among => (free mark among).passes
    obtain rfl := kept free
    rw [← known'.signature_announce h' body'] at bodied'
    obtain ⟨again, reads, same⟩ := ih ahead' others'
    exact ⟨.definition p :: again, .definition (h := h') headed' (bodied' (.inl rfl)) reads,
      congrArg (p :: ·) same⟩
  | @statement known ts rest s program stated others ih =>
    obtain ⟨spares, others'⟩ := List.forall_mem_cons.1 apart
    have fits := (reads_written (.statement stated others)).2.1
    obtain ⟨taken, s', rfl, -, stated'⟩ := statement_carries ahead.within (block_carries ahead.within _)
      (Nat.lt_succ_self ts.length) stated fun mark among =>
        ahead.passes mark (fits mark among) (spares mark among)
    obtain ⟨again, reads, same⟩ := ih ahead others'
    exact ⟨.statement s' :: again, .statement (stated' (.inl rfl)) reads, same⟩

/-- A text that can be parsed can be parsed once more with the procedures that are known after it, and
these are the same after it again: if all that it defines was new, and the names that it defines are
apart from those of its variables. -/
theorem parse_again {known : Procedures} {text : String} {program : Program}
    (parsed : (parse known text).result = .ok program)
    (new : ∀ p ∈ program.definitions, p.name ∉ known) (apart : program.NamesApart) :
    let after := (parse known text).known
    (∃ again, (parse after text).result = .ok again ∧ again.definitions = program.definitions) ∧
      (parse after text).known = after := by
  intro after
  obtain ⟨reads, finish, stops⟩ := parse_ok_iff.1 parsed
  have learned : after = known.defineAll program.definitions := (parse_reads parsed).2
  obtain ⟨again, reads', same⟩ := reads.ahead (Procedures.ahead_defineAll new) apart
  have parsed' : (parse after text).result = .ok again := by
    rw [learned]
    exact parse_ok_iff.2 ⟨reads', finish, stops⟩
  refine ⟨⟨again, parsed', same⟩, ?_⟩
  rw [(parse_reads parsed').2, same, learned, Procedures.defineAll_defineAll]

/-- The variable `g` is read before `g` is defined, and a procedure without parameters then. -/
theorem parse_again_later :
    let text := "to f a output a + 1 end print g + f 1 to g output f 2 end"
    let after := (parse ∅ text).known
    let f : Procedure := ⟨"f", ["a"], [.output (.chain false (.single (.variable ⟨"a", ⟨14, 0, 14⟩⟩))
      .plus (.single false (.single (.number 1))))]⟩
    let g : Procedure := ⟨"g", [], [.output (.single false (.single (.call
      (.procedure ⟨"f", ⟨50, 0, 50⟩⟩ [.single false (.single (.number 2))]))))]⟩
    (∃ again : Program, (parse after text).result = .ok again ∧ again.definitions = [f, g]) ∧
      (parse after text).known = after := by
  intro text after f g
  let sum : Expr := .chain false (.single (.variable ⟨"g", ⟨30, 0, 30⟩⟩)) .plus
    (.single false (.single (.call (.procedure ⟨"f", ⟨34, 0, 34⟩⟩
      [.single false (.single (.number 1))]))))
  let program : Program :=
    [.definition f, .statement (.command (.printNumber sum)), .definition g]
  have apart : program.NamesApart := by
    simp [Program.NamesApart, Item.Apart, Mark.Avoids, Mark.Spares, program, f, g, sum, blockMarks,
      Statement.marks, Command.marks, Command.opening, Command.operands, marksOfAll, Expr.marks,
      Term.marks, Factor.marks, Call.marks, Mark.keyword]
  have parsed : (parse ∅ text).result = .ok program := by cbv
  exact parse_again parsed (fun _ _ => Std.ExtTreeMap.not_mem_empty) apart

/-- A variable that is read in the body of `g` is a call when the text is parsed again, because `x` is
a procedure then. -/
theorem body_parsed_again :
    let after := (parse ∅ "to g output x end to x end").known
    (parse after "to g output x end to x end").known.bare ≠ after.bare := by
  intro after same
  have body : (parse ∅ "to g output x end to x end").known["g"]? = some ⟨"g", [],
      some [.output (.single false (.single (.variable ⟨"x", ⟨12, 0, 12⟩⟩)))]⟩ := by cbv
  have body' : (parse (parse ∅ "to g output x end to x end").known
      "to g output x end to x end").known["g"]? = some ⟨"g", [],
      some [.output (.single false (.single (.call (.procedure ⟨"x", ⟨12, 0, 12⟩⟩ []))))]⟩ := by cbv
  have same' := congrArg (·["g"]?) same
  simp only [Procedures.getElem?_bare, body, body', after] at same'
  cases same'

/-- The text can be parsed, and it defines new procedures, each of them once; but it cannot be parsed
once more with the procedures that are known after it, or one of them is another one then. -/
def ChangesAgain (text : String) : Prop :=
  let after := (parse ∅ text).known
  (∃ program, (parse ∅ text).result = .ok program ∧
    (∀ p ∈ program.definitions, p.name ∉ (∅ : Procedures)) ∧
    (program.definitions.map Procedure.name).Nodup) ∧
  ¬ ((∃ again, (parse after text).result = .ok again) ∧ (parse after text).known.bare = after.bare)

/-- It makes a difference if a variable that is set, a parameter, a variable that is read in a body, or
one that is read between the definitions has the name of a procedure that is defined later. -/
theorem parse_again_changed :
    ChangesAgain "make \"x\" 1 to x end" ∧ ChangesAgain "to f x end to x a end" ∧
      ChangesAgain "to g output x end to x end" ∧ ChangesAgain "print x to x a end" := by
  have new (program : Program) : ∀ p ∈ program.definitions, p.name ∉ (∅ : Procedures) :=
    fun _ _ => Std.ExtTreeMap.not_mem_empty
  have refused {known : Procedures} {text : String} {e : SyntaxError} {P : Prop}
      (error : (parse known text).result = .error e) :
      ¬ ((∃ again, (parse known text).result = .ok again) ∧ P) :=
    fun ⟨⟨_, parsed⟩, _⟩ => nomatch error.symm.trans parsed
  refine ⟨⟨⟨_, by cbv, new _, ?_⟩, refused (by cbv)⟩, ⟨⟨_, by cbv, new _, ?_⟩, refused (by cbv)⟩,
    ⟨⟨_, by cbv, new _, ?_⟩, fun again => body_parsed_again again.2⟩,
    ⟨⟨_, by cbv, new _, ?_⟩, refused (by cbv)⟩⟩
  all_goals decide

end Logo
