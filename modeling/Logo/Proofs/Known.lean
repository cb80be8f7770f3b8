import Mathlib
import Logo.Grammar.Bound

/-!
# What a text does to the known procedures

While a text is read, the known procedures change: the header of a definition binds its name to an
entry without a body, and the end of the definition gives the entry its body. This module says
what comes of that.

Results:
1. `Bindings.restore_eq`: undoing gives back the bindings as they were, whatever was done.
2. `Procedures.complete_announce`: a definition that has been read to its end is bound as a whole.
3. `Grammar.program_reads`: a program that can be read is read part by part (`Grammar.Reads`), each
   part with the procedures of the parts before it, and leaves its definitions bound in order.
4. `Procedures.getElem?_defineAll`: of several definitions of a name the last one counts.
-/

namespace Logo

/-! ## Undoing -/

/-- Undoing what was done since some bindings gives back those bindings. Names that are new are
dropped by the filter, and names that were bound otherwise are bound again by the union. -/
theorem Bindings.restore_eq {α : Type} (b before : Bindings α) : b.restore before = before := by
  refine Std.ExtTreeMap.ext_getElem? fun name => ?_
  rw [restore, Std.ExtTreeMap.getElem?_union, Std.ExtTreeMap.getElem?_filter']
  cases h : before[name]? with
  | some a => rfl
  | none =>
    have hn : before.contains name = false := by
      rw [Std.ExtTreeMap.contains_eq_isSome_getElem?, h]
      rfl
    cases b[name]? <;> simp [hn]

/-! ## Definitions -/

/-- The procedures that a program defines, in order. -/
def Program.definitions (program : Program) : List Procedure :=
  program.filterMap fun
    | .definition p => some p
    | .statement _ => none

/-- The last definition of a name in a program. -/
def Program.lastDefinition? (program : Program) (name : String) : Option Procedure :=
  program.definitions.reverse.find? (·.name = name)

@[simp] theorem Program.definitions_nil : Program.definitions [] = [] := rfl

@[simp] theorem Program.definitions_definition (p : Procedure) (program : Program) :
    Program.definitions (.definition p :: program) = p :: program.definitions := rfl

@[simp] theorem Program.definitions_statement (s : Statement) (program : Program) :
    Program.definitions (.statement s :: program) = program.definitions := rfl

theorem Program.definitions_append (a b : Program) :
    Program.definitions (a ++ b) = a.definitions ++ b.definitions :=
  List.filterMap_append

@[simp] theorem Program.lastDefinition?_statement (s : Statement) (program : Program)
    (name : String) :
    Program.lastDefinition? (.statement s :: program) name = program.lastDefinition? name := rfl

theorem Program.lastDefinition?_append (a b : Program) (name : String) :
    Program.lastDefinition? (a ++ b) name =
      (b.lastDefinition? name).or (a.lastDefinition? name) := by
  simp only [lastDefinition?, definitions_append, List.reverse_append, List.find?_append]

namespace Procedures

/-- Binds procedures to their names, in order. -/
def defineAll (known : Procedures) (ps : List Procedure) : Procedures := ps.foldl define known

@[simp] theorem defineAll_nil (known : Procedures) : known.defineAll [] = known := rfl

@[simp] theorem defineAll_cons (known : Procedures) (p : Procedure) (ps : List Procedure) :
    known.defineAll (p :: ps) = (known.define p).defineAll ps := rfl

theorem defineAll_append (known : Procedures) (ps qs : List Procedure) :
    known.defineAll (ps ++ qs) = (known.defineAll ps).defineAll qs :=
  List.foldl_append

theorem getElem?_define (known : Procedures) (p : Procedure) (name : String) :
    (known.define p)[name]? = if p.name = name then some p.entry else known[name]? := by
  rw [define, Std.ExtTreeMap.getElem?_insert]
  simp only [Std.LawfulEqCmp.compare_eq_iff_eq]

/-- After some definitions a name means the last of them that has it. -/
theorem getElem?_defineAll (known : Procedures) (ps : List Procedure) (name : String) :
    (known.defineAll ps)[name]? =
      ((ps.reverse.find? (·.name = name)).map Procedure.entry).or known[name]? := by
  induction ps generalizing known with
  | nil => rfl
  | cons p ps ih =>
    rw [defineAll_cons, ih, getElem?_define, List.reverse_cons, List.find?_append]
    cases ps.reverse.find? (·.name = name) with
    | some q => rfl
    | none => by_cases hp : p.name = name <;> simp [hp]

/-- After a program a name means its last definition of that name. -/
theorem getElem?_defineAll_definitions (known : Procedures) (program : Program) (name : String) :
    (known.defineAll program.definitions)[name]? =
      ((program.lastDefinition? name).map Procedure.entry).or known[name]? :=
  known.getElem?_defineAll program.definitions name

theorem mem_defineAll {known : Procedures} {name : String} (ps : List Procedure)
    (h : name ∈ known) : name ∈ known.defineAll ps := by
  induction ps generalizing known with
  | nil => exact h
  | cons p ps ih => exact ih (Std.ExtTreeMap.mem_insert.2 (.inr h))

/-! ## Signatures -/

theorem signature_insert (known : Procedures) (name : String) (e : Entry) :
    signature (known.insert name e) = known.signature.bind name e.arity := by
  funext other
  simp only [signature, Signature.bind, Std.ExtTreeMap.getElem?_insert,
    Std.LawfulEqCmp.compare_eq_iff_eq, eq_comm (a := name)]
  split <;> rfl

/-- After a header a program is read as after the whole definition. -/
theorem signature_announce (known : Procedures) (h : Header) (body : List Statement) :
    (known.announce h).signature = (known.define ⟨h.name, h.parameters, body⟩).signature := by
  rw [announce, define, signature_insert, signature_insert]
  rfl

/-- A definition's header and its end together bind the procedure as a whole. -/
theorem complete_announce (known : Procedures) (h : Header) (body : List Statement) :
    (known.announce h).complete h.name body = known.define ⟨h.name, h.parameters, body⟩ := by
  refine Std.ExtTreeMap.ext_getElem? fun name => ?_
  simp only [complete, announce, define, Std.ExtTreeMap.getElem?_modify,
    Std.ExtTreeMap.getElem?_insert, Std.LawfulEqCmp.compare_eq_iff_eq]
  split <;> rfl

end Procedures

/-! ## Reading a program part by part -/

namespace Grammar

/-- `Reads known ts program`: with the procedures `known`, the tokens `ts` are the program, and the
parts are read one after the other. What a part may call are the procedures that were known
before the program and those that it has defined so far; a definition may also call itself. -/
inductive Reads : Procedures → List Token → Program → Prop
  | nil {known : Procedures} : Reads known [] []
  | definition {known : Procedures} {position : Position} {ts rest rest' : List Token} {h : Header}
      {body : List Statement} {program : Program} :
      header known.signature ts = .ok (h, rest) →
      Grammar.body (known.announce h).signature h.name rest = .ok (body, rest') →
      Reads (known.define ⟨h.name, h.parameters, body⟩) rest' program →
      Reads known (⟨.keyword .define, position⟩ :: ts)
        (.definition ⟨h.name, h.parameters, body⟩ :: program)
  | statement {known : Procedures} {ts rest : List Token} {s : Statement} {program : Program} :
      statement known.signature ts = .ok (s, rest) → Reads known rest program →
      Reads known ts (.statement s :: program)

/-- A program that can be read is read part by part, and what it defines is then known. -/
theorem program_reads {known : Procedures} {ts : List Token} {p : Program}
    (hp : (program known ts).result = .ok p) :
    Reads known ts p ∧ (program known ts).known = known.defineAll p.definitions := by
  -- every part takes at least one token, so what follows it is shorter
  induction hn : ts.length using Nat.strongRecOn generalizing known ts p with
  | ind n ih =>
    subst hn
    rw [program_eq] at hp ⊢
    unfold programWith at hp ⊢
    split at hp
    · cases hp
      exact ⟨.nil, rfl⟩
    · next rest =>
      unfold definitionWith at hp ⊢
      split at hp
      · cases hp
      · next h rest' h₁ =>
        dsimp only at hp ⊢
        split at hp
        · cases hp
        · next body rest'' h₂ =>
          rw [Procedures.complete_announce] at hp ⊢
          obtain ⟨p', hp', rfl⟩ := map_eq_ok.1 hp
          have := header_takes _ h₁
          have := body_takes _ _ h₂
          obtain ⟨hr, hk⟩ := ih _ (by simp only [List.length_cons]; omega) hp' rfl
          exact ⟨.definition h₁ h₂ hr, hk⟩
    · split at hp
      · cases hp
      · next s rest h₁ =>
        obtain ⟨p', hp', rfl⟩ := map_eq_ok.1 hp
        obtain ⟨hr, hk⟩ := ih _ (statement_takes _ h₁) hp' rfl
        exact ⟨.statement h₁ hr, hk⟩

end Grammar

/-- A text that can be parsed is a program that is read part by part, and what it defines is then
known. -/
theorem parse_reads {known : Procedures} {text : String} {program : Program}
    (h : (parse known text).result = .ok program) :
    Grammar.Reads known (Scan.ofText text).tokens program ∧
      (parse known text).known = known.defineAll program.definitions := by
  unfold parse at h ⊢
  dsimp only at h ⊢
  split at h
  · cases h
  · next p hp =>
    split at h
    · cases h
      exact Grammar.program_reads hp
    · cases h

end Logo
