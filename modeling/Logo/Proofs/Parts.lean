import Mathlib
import Logo.Proofs.Lookahead

/-!
# Programs part by part

A program is read one part after the other, and each part with one token of lookahead. So whether
tokens are a program, and which, depends on their lexemes only; and where a program is refused, the
tokens before the first one of `Failure.rest` decide that together with this one.

Results:
1. `Reads.again`: the same lexemes are the same program, but for the places of its names.
2. `program_error_iff`: a refused program is refused in one of its parts (`Refuses`).
3. `Refuses.decided`: whatever comes after the token that it is refused at, it is refused there, and
   what was read before that token begins a program.
4. `parse_ok_iff`: what it means that a text can be parsed.
-/

namespace Logo

/-- Only finitely many names are procedures. -/
theorem Procedures.hasRoom (known : Procedures) : known.signature.HasRoom := by
  let name (n : Nat) : String := String.ofList (List.replicate n 'a')
  have injective : Function.Injective name := by
    intro m n same
    have lists := String.ofList_injective same
    rw [← List.length_replicate (n := m) (a := 'a'), lists, List.length_replicate]
  obtain ⟨fresh, among, free⟩ :=
    (Set.infinite_range_of_injective injective).exists_notMem_finset known.keys.toFinset
  obtain ⟨n, rfl⟩ := among
  refine ⟨name n, ?_, ?_⟩
  · have absent : name n ∉ known := by
      rwa [List.mem_toFinset, Std.ExtTreeMap.mem_keys] at free
    rw [signature, Std.ExtTreeMap.getElem?_eq_none absent]
    rfl
  · rw [Lexeme.Writable, String.toList_ofList]
    intro last
    have among := List.mem_of_getLast? last
    cases List.eq_of_mem_replicate among

namespace Grammar

open Reader

variable {sig : Signature}

/-! ## Headers -/

/-- No word comes next that could be one more parameter of the procedure `name`. -/
def NoParameter (sig : Signature) (name : String) (ts : List Token) : Prop :=
  ∀ w, next ts = some (.word w) → w = name ∨ (sig w).isSome

theorem NoParameter.exchange {name : String} {ts ts' : List Token} (none : NoParameter sig name ts)
    (exchanges : Exchanges ts ts') : NoParameter sig name ts' := by
  intro w first
  obtain follows | ends := exchanges
  · exact none w (follows.trans first)
  · cases ends _ first

theorem parameters_none {name : String} {ts : List Token} (none : NoParameter sig name ts) :
    parameters sig name ts = ([], ts) := by
  cases ts with
  | nil => rfl
  | cons t ts =>
    obtain ⟨l, p⟩ := t
    cases l with
    | word w =>
      rw [parameters]
      exact if_pos (none w rfl)
    | _ => rfl

theorem parameters_cons {name w : String} (p : Position) (ts : List Token)
    (new : ¬ (w = name ∨ (sig w).isSome)) :
    parameters sig name (⟨.word w, p⟩ :: ts) =
      (w :: (parameters sig name ts).1, (parameters sig name ts).2) := by
  rw [parameters]
  exact if_neg new

/-- Parameters are read in the same way before anything that does not go on with them. -/
theorem parameters_again (sig : Signature) (name : String) (ts : List Token) :
    ∃ taken, ts = taken ++ (parameters sig name ts).2 ∧
      ∀ ⦃taken' rest' : List Token⦄, SameLexemes taken taken' →
        Exchanges (parameters sig name ts).2 rest' →
        parameters sig name (taken' ++ rest') = ((parameters sig name ts).1, rest') := by
  induction ts with
  | nil =>
    refine ⟨[], rfl, fun taken' rest' lexemes exchanges => ?_⟩
    have none : NoParameter sig name [] := nofun
    rw [lexemes.of_nil, List.nil_append, parameters_none (none.exchange exchanges),
      parameters_none none]
  | cons t ts ih =>
    by_cases none : NoParameter sig name (t :: ts)
    · rw [parameters_none none]
      refine ⟨[], rfl, fun taken' rest' lexemes exchanges => ?_⟩
      rw [lexemes.of_nil, List.nil_append, parameters_none (none.exchange exchanges)]
    · obtain ⟨l, p⟩ := t
      obtain ⟨w, first, new⟩ : ∃ w, some l = some (.word w) ∧ ¬ (w = name ∨ (sig w).isSome) := by
        simpa only [NoParameter, next_cons, not_forall, exists_prop] using none
      obtain rfl := Option.some.inj first
      obtain ⟨taken, split, again⟩ := ih
      rw [parameters_cons p ts new]
      refine ⟨⟨.word w, p⟩ :: taken, congrArg _ split, fun all rest' lexemes exchanges => ?_⟩
      obtain ⟨p', taken', rfl, others⟩ := lexemes.of_cons
      rw [List.cons_append, parameters_cons p' _ new, again others exchanges]

theorem header_ok {ts rest : List Token} {h : Header} (read : header sig ts = .ok (h, rest)) :
    ∃ taken, ts = taken ++ rest ∧ ∀ ⦃taken' rest' : List Token⦄, SameLexemes taken taken' →
      Exchanges rest rest' →
      header sig (taken' ++ rest') = .ok ({ h with ahead := rest'.length }, rest') := by
  cases ts with
  | nil => cases read
  | cons t ts =>
    obtain ⟨l, p⟩ := t
    cases l with
    | word name =>
      cases read
      obtain ⟨taken, split, again⟩ := parameters_again sig name ts
      refine ⟨⟨.word name, p⟩ :: taken, congrArg _ split, fun all rest' lexemes exchanges => ?_⟩
      obtain ⟨p', taken', rfl, others⟩ := lexemes.of_cons
      rw [List.cons_append, header]
      dsimp only
      rw [again others exchanges]
    | _ => cases read

/-- A header is refused at its first token, or not at all. -/
theorem header_error {ts : List Token} {f : Failure} (refused : header sig ts = .error f) :
    f.rest = ts ∧
      ∀ ⦃ts' : List Token⦄, next ts = next ts' → header sig ts' = .error ⟨f.cause, ts'⟩ := by
  cases ts with
  | nil =>
    cases refused
    refine ⟨rfl, fun ts' follows => ?_⟩
    cases ts' with
    | nil => rfl
    | cons t' ts' => cases follows
  | cons t ts =>
    obtain ⟨l, p⟩ := t
    cases l with
    | word name => cases refused
    | _ =>
      cases refused
      refine ⟨rfl, fun ts' follows => ?_⟩
      cases ts' with
      | nil => cases follows
      | cons t' ts' =>
        obtain ⟨l', p'⟩ := t'
        cases follows
        rfl

theorem signature_announced {known known' : Procedures} (h : Header)
    (signature : known.signature = known'.signature) :
    (known.announce h).signature = (known'.announce h).signature := by
  rw [Procedures.announce, Procedures.announce, Procedures.signature_insert,
    Procedures.signature_insert, signature]

theorem signature_defined {known known' : Procedures} {name : String} {parameters : List String}
    {body body' : List Statement} (signature : known.signature = known'.signature) :
    (known.define ⟨name, parameters, body⟩).signature =
      (known'.define ⟨name, parameters, body'⟩).signature := by
  rw [Procedures.define, Procedures.define, Procedures.signature_insert,
    Procedures.signature_insert, signature]
  rfl

/-! ## What is read -/

theorem result_definition {known : Procedures} {p : Position} {ts rest rest' : List Token}
    {h : Header} {ss : List Statement} (headed : header known.signature ts = .ok (h, rest))
    (bodied : body (known.announce h).signature h.name rest = .ok (ss, rest')) :
    (program known (⟨.keyword .define, p⟩ :: ts)).result =
      (program (known.define ⟨h.name, h.parameters, ss⟩) rest').result.map
        (.definition ⟨h.name, h.parameters, ss⟩ :: ·) := by
  rw [program_definition, definitionWith, headed]
  dsimp only
  rw [bodied]
  dsimp only [Reading.after]
  rw [Procedures.complete_announce]

theorem result_statement {known : Procedures} {ts rest : List Token} {s : Statement}
    (stated : statement known.signature ts = .ok (s, rest)) :
    (program known ts).result = (program known rest).result.map (.statement s :: ·) := by
  cases ts with
  | nil => cases stated
  | cons t ts =>
    have other : t.lexeme ≠ .keyword .define := by
      obtain ⟨l, p⟩ := t
      rintro rfl
      cases stated
    rw [program_statement other, stated]
    rfl

/-- What is read part by part is what comes of reading it as a program. -/
theorem Reads.result {known : Procedures} {ts : List Token} {p : Program} (reads : Reads known ts p) :
    (program known ts).result = .ok p := by
  induction reads with
  | nil => rfl
  | definition headed bodied _ ih =>
    rw [result_definition headed bodied, ih]
    rfl
  | statement stated _ ih =>
    rw [result_statement stated, ih]
    rfl

/-- The same lexemes are read as the same program, but for the places of its names. -/
theorem Reads.again {known : Procedures} {ts : List Token} {p : Program} (reads : Reads known ts p)
    {known' : Procedures} (signature : known.signature = known'.signature) {ts' : List Token}
    (lexemes : SameLexemes ts ts') : ∃ p', Reads known' ts' p' ∧ p.bare = p'.bare := by
  induction reads generalizing known' ts' with
  | nil => exact ⟨[], lexemes.of_nil ▸ .nil, rfl⟩
  | @definition known p ts rest rest' h ss program headed bodied _ ih =>
    obtain ⟨p', ts', rfl, others⟩ := lexemes.of_cons
    obtain ⟨taken, rfl, heads⟩ := header_ok headed
    have steady := body_steady (known.announce h).hasRoom h.name (rest.length + 1)
    obtain ⟨taken₂, rfl, reads⟩ := steady.ok (Nat.lt_succ_self _) bodied
    obtain ⟨taken', more', rfl, lexemes₁, lexemes₂₃⟩ := others.of_append
    obtain ⟨taken₂', rest'', rfl, lexemes₂, lexemes₃⟩ := lexemes₂₃.of_append
    obtain ⟨ss', same, reads⟩ := reads lexemes₂
    obtain ⟨program', reads', same'⟩ := ih (signature_defined signature) lexemes₃
    refine ⟨.definition ⟨h.name, h.parameters, ss'⟩ :: program', ?_, ?_⟩
    · have headed' := heads lexemes₁ (.inl lexemes₂₃.next_eq)
      have bodied' := reads (.inl lexemes₃.next_eq)
      rw [signature] at headed'
      rw [signature_announced h signature] at bodied'
      have whole : Reads known' (⟨.keyword .define, p'⟩ :: _) _ :=
        .definition headed' bodied' reads'
      exact whole
    · exact congrArg₂ List.cons (by rw [Item.bare, Item.bare, same]) same'
  | @statement known ts rest s program stated _ ih =>
    have steady := statement_steady known.hasRoom (block_steady known.hasRoom ts.length)
    obtain ⟨taken, rfl, reads⟩ := steady.ok (Nat.lt_succ_self _) stated
    obtain ⟨taken', rest', rfl, lexemes₁, lexemes₂⟩ := lexemes.of_append
    obtain ⟨s', same, reads⟩ := reads lexemes₁
    obtain ⟨program', reads', same'⟩ := ih signature lexemes₂
    refine ⟨.statement s' :: program', ?_, ?_⟩
    · exact .statement (signature ▸ reads (.inl lexemes₂.next_eq)) reads'
    · exact congrArg₂ List.cons (congrArg Item.statement same) same'

/-! ## What is refused -/

/-- `Refuses known ts f`: with the procedures `known`, some parts of a program are read from the
tokens `ts`, and then the next part fails with `f`. -/
inductive Refuses : Procedures → List Token → Failure → Prop
  | header {known : Procedures} {position : Position} {ts : List Token} {f : Failure} :
      header known.signature ts = .error f →
      Refuses known (⟨.keyword .define, position⟩ :: ts) f
  | body {known : Procedures} {position : Position} {ts rest : List Token} {h : Header}
      {f : Failure} :
      Grammar.header known.signature ts = .ok (h, rest) →
      body (known.announce h).signature h.name rest = .error f →
      Refuses known (⟨.keyword .define, position⟩ :: ts) f
  | definition {known : Procedures} {position : Position} {ts rest rest' : List Token} {h : Header}
      {ss : List Statement} {f : Failure} :
      Grammar.header known.signature ts = .ok (h, rest) →
      Grammar.body (known.announce h).signature h.name rest = .ok (ss, rest') →
      Refuses (known.define ⟨h.name, h.parameters, ss⟩) rest' f →
      Refuses known (⟨.keyword .define, position⟩ :: ts) f
  | here {known : Procedures} {ts : List Token} {l : Lexeme} {f : Failure} :
      next ts = some l → l ≠ .keyword .define → statement known.signature ts = .error f →
      Refuses known ts f
  | statement {known : Procedures} {ts rest : List Token} {s : Statement} {f : Failure} :
      Grammar.statement known.signature ts = .ok (s, rest) → Refuses known rest f →
      Refuses known ts f

theorem map_eq_error {ε α β : Type} {x : Except ε α} {f : α → β} {e : ε} :
    x.map f = .error e ↔ x = .error e := by
  cases x <;> simp [Except.map]

/-- A program is refused in one of its parts. -/
theorem program_error_iff {known : Procedures} {ts : List Token} {f : Failure} :
    (program known ts).result = .error f ↔ Refuses known ts f := by
  constructor
  · -- every part takes at least one token, so what follows it is shorter
    intro refused
    induction hn : ts.length using Nat.strongRecOn generalizing known ts with
    | ind n ih =>
      subst hn
      cases ts with
      | nil => cases refused
      | cons t ts =>
        by_cases first : t.lexeme = .keyword .define
        · obtain ⟨l, p⟩ := t
          obtain rfl := first
          rw [program_definition, definitionWith] at refused
          split at refused
          · next failed =>
            cases refused
            exact .header failed
          · next h rest headed =>
            dsimp only at refused
            split at refused
            · next failed =>
              cases refused
              exact .body headed failed
            · next ss rest' bodied =>
              rw [Procedures.complete_announce] at refused
              have := header_takes _ headed
              have := body_takes _ _ bodied
              have fewer : rest'.length < ts.length + 1 := by omega
              exact .definition headed bodied (ih rest'.length fewer (map_eq_error.1 refused) rfl)
        · rw [program_statement first] at refused
          split at refused
          · next failed =>
            cases refused
            exact .here rfl first failed
          · next s rest stated =>
            exact .statement stated (ih rest.length (statement_takes _ stated)
              (map_eq_error.1 refused) rfl)
  · intro refuses
    induction refuses with
    | header failed => rw [program_definition, definitionWith, failed]
    | body headed failed =>
      rw [program_definition, definitionWith, headed]
      dsimp only
      rw [failed]
    | definition headed bodied _ ih =>
      rw [result_definition headed bodied, ih]
      rfl
    | @here known ts l f comes other failed =>
      cases ts with
      | nil => cases comes
      | cons t ts =>
        obtain rfl := Option.some.inj comes
        rw [program_statement other, failed]
    | statement stated _ ih =>
      rw [result_statement stated, ih]
      rfl

/-- A failure of a reader stays what it is whatever comes after the token it fails at, and what was
read before can be completed. -/
theorem failure_decided {α γ : Type} {view : α → γ} {r : Reader α} {c : List Lexeme}
    {ts : List Token} {f : Failure} (steady : Steady (ts.length + 1) view r r)
    (completed : CompletedBy c r) (failed : r ts = .error f) :
    ∃ taken, ts = taken ++ f.rest ∧
      (∀ ⦃taken' rest' : List Token⦄, SameLexemes taken taken' → next f.rest = next rest' →
        r (taken' ++ rest') = .error ⟨f.cause, rest'⟩) ∧
      ∃ c, (∀ l ∈ c, l.Writable) ∧ ∀ ⦃ts' : List Token⦄, ts'.map Token.lexeme = c →
        Exchanges ts (taken ++ ts') ∧ ∃ a, r (taken ++ ts') = .ok (a, []) := by
  obtain ⟨taken, rfl, again⟩ := steady.error (Nat.lt_succ_self _) failed
  refine ⟨taken, rfl, fun taken' rest' lexemes => fun follows => (again lexemes).1 follows, ?_⟩
  obtain ⟨c, completion, exchanges⟩ : ∃ c, CompletedBy c (fun ts => r (taken ++ ts)) ∧
      ∀ ⦃ts' : List Token⦄, ts'.map Token.lexeme = c →
        Exchanges (taken ++ f.rest) (taken ++ ts') := by
    by_cases none : taken = []
    · subst none
      refine ⟨c, completed, fun ts' lexemes => .inr ?_⟩
      have ends := completed.ends_append lexemes ends_nil
      rwa [List.append_nil] at ends
    · obtain ⟨c, completion⟩ := (again (.refl taken)).2 none
      exact ⟨c, completion, fun ts' _ => .inl ((SameLexemes.refl taken).next_append (.inl none))⟩
  refine ⟨c, completion.writable, fun ts' lexemes => ⟨exchanges lexemes, ?_⟩⟩
  obtain ⟨a, read⟩ := completion.reads lexemes ends_nil
  rw [List.append_nil] at read
  exact ⟨a, read⟩

/-- After `to`, a name and `end` make a definition, also if the name is a procedure already. -/
theorem reads_shortest (known : Procedures) (p : Position) {ts : List Token}
    (lexemes : ts.map Token.lexeme = [.word "a", .keyword .endDefine]) :
    ∃ program, Reads known (⟨.keyword .define, p⟩ :: ts) program := by
  obtain ⟨⟨_, q⟩, ts, rfl, rfl, others⟩ := List.map_eq_cons_iff.1 lexemes
  let h : Header := ⟨"a", [], (known.signature "a").isSome, ts.length⟩
  have last : NoParameter known.signature "a" ts := by
    intro w comes
    rw [next, ← List.head?_map, others] at comes
    cases comes
  have headed : header known.signature (⟨.word "a", q⟩ :: ts) = .ok (h, ts) := by
    rw [header]
    dsimp only
    rw [parameters_none last]
  obtain ⟨ss, bodied⟩ :=
    (body_completedBy (known.announce h).signature h.name).reads others ends_nil
  rw [List.append_nil] at bodied
  exact ⟨_, .definition headed bodied .nil⟩

/-- `Decided known ts f taken`: from the tokens `ts` a program is refused with `f` after `taken`, and so
it is from all tokens that begin with these lexemes and the next one. The lexemes of `taken` begin a
program. -/
structure Decided (known : Procedures) (ts : List Token) (f : Failure) (taken : List Token) :
    Prop where
  split : ts = taken ++ f.rest
  again : ∀ ⦃known' : Procedures⦄ ⦃taken' rest' : List Token⦄, known.signature = known'.signature →
    SameLexemes taken taken' → next f.rest = next rest' →
    Refuses known' (taken' ++ rest') ⟨f.cause, rest'⟩
  completed : ∃ c, (∀ l ∈ c, l.Writable) ∧ ∀ ⦃ts' : List Token⦄, ts'.map Token.lexeme = c →
    Exchanges ts (taken ++ ts') ∧ ∃ p, Reads known (taken ++ ts') p

section

variable {known : Procedures} {p : Position} {ts rest : List Token} {h : Header} {f : Failure}

theorem decided_header (failed : header known.signature ts = .error f) :
    Decided known (⟨.keyword .define, p⟩ :: ts) f [⟨.keyword .define, p⟩] := by
  obtain ⟨rfl, again⟩ := header_error failed
  refine ⟨rfl, ?_, [.word "a", .keyword .endDefine], ?_, fun ts' lexemes => ⟨.inl rfl, ?_⟩⟩
  · intro known' all rest' signature lexemes follows
    obtain ⟨p', taken', rfl, others⟩ := lexemes.of_cons
    obtain rfl := others.of_nil
    have failed' := again follows
    rw [signature] at failed'
    exact .header failed'
  · exact List.forall_mem_cons.2 ⟨isIdentifier_letter rfl, List.forall_mem_singleton.2 trivial⟩
  · exact reads_shortest known p lexemes

theorem decided_body (headed : header known.signature ts = .ok (h, rest))
    (failed : body (known.announce h).signature h.name rest = .error f) :
    ∃ taken, Decided known (⟨.keyword .define, p⟩ :: ts) f taken := by
  obtain ⟨taken, rfl, heads⟩ := header_ok headed
  obtain ⟨taken₂, rfl, again, c, writable, completes⟩ :=
    failure_decided (body_steady (known.announce h).hasRoom h.name _)
      (body_completedBy _ h.name) failed
  refine ⟨⟨.keyword .define, p⟩ :: (taken ++ taken₂), by simp, ?_, c, writable, ?_⟩
  · intro known' all rest' signature lexemes follows
    obtain ⟨p', more', rfl, others⟩ := lexemes.of_cons
    obtain ⟨taken', taken₂', rfl, lexemes₁, lexemes₂⟩ := others.of_append
    have headed' := heads lexemes₁ (lexemes₂.exchanges_append (.inl follows))
    have failed' := again lexemes₂ follows
    rw [signature] at headed'
    rw [signature_announced h signature] at failed'
    rw [List.cons_append, List.append_assoc]
    exact .body headed' failed'
  · intro ts' lexemes
    obtain ⟨exchanges, ss, bodied⟩ := completes lexemes
    refine ⟨.inl rfl, ?_⟩
    rw [List.cons_append, List.append_assoc]
    exact ⟨_, .definition (heads rfl exchanges) bodied .nil⟩

/-- What is refused after a definition. -/
theorem Decided.definition {rest' taken₃ : List Token} {ss : List Statement}
    (headed : header known.signature ts = .ok (h, rest))
    (bodied : body (known.announce h).signature h.name rest = .ok (ss, rest'))
    (decided : Decided (known.define ⟨h.name, h.parameters, ss⟩) rest' f taken₃) :
    ∃ taken, Decided known (⟨.keyword .define, p⟩ :: ts) f taken := by
  obtain ⟨taken, rfl, heads⟩ := header_ok headed
  have steady := body_steady (known.announce h).hasRoom h.name (rest.length + 1)
  obtain ⟨taken₂, rfl, bodies⟩ := steady.ok (Nat.lt_succ_self _) bodied
  obtain ⟨rfl, again, c, writable, completes⟩ := decided
  refine ⟨⟨.keyword .define, p⟩ :: (taken ++ (taken₂ ++ taken₃)), by simp, ?_, c, writable, ?_⟩
  · intro known' all rest' signature lexemes follows
    obtain ⟨p', more', rfl, others⟩ := lexemes.of_cons
    obtain ⟨taken', more', rfl, lexemes₁, lexemes₂₃⟩ := others.of_append
    obtain ⟨taken₂', taken₃', rfl, lexemes₂, lexemes₃⟩ := lexemes₂₃.of_append
    obtain ⟨ss', _, bodies⟩ := bodies lexemes₂
    have exchanges := lexemes₃.exchanges_append (.inl follows)
    have headed' := heads lexemes₁ (lexemes₂.exchanges_append exchanges)
    have bodied' := bodies exchanges
    rw [signature] at headed'
    rw [signature_announced h signature] at bodied'
    rw [List.cons_append, List.append_assoc, List.append_assoc]
    exact .definition headed' bodied' (again (signature_defined signature) lexemes₃ follows)
  · intro ts' lexemes
    obtain ⟨exchanges, p, reads⟩ := completes lexemes
    obtain ⟨ss', _, bodies⟩ := bodies rfl
    have headed' := heads rfl ((SameLexemes.refl taken₂).exchanges_append exchanges)
    -- the body is read again with the same names and so leaves the same signature
    obtain ⟨p', reads', _⟩ := reads.again (signature_defined rfl) rfl
    refine ⟨.inl rfl, ?_⟩
    rw [List.cons_append, List.append_assoc, List.append_assoc]
    exact ⟨_, .definition headed' (bodies exchanges) reads'⟩

theorem decided_here {l : Lexeme} (comes : next ts = some l) (other : l ≠ .keyword .define)
    (failed : statement known.signature ts = .error f) : ∃ taken, Decided known ts f taken := by
  obtain ⟨taken, rfl, again, c, writable, completes⟩ :=
    failure_decided (statement_steady known.hasRoom (block_steady known.hasRoom _))
      (statement_completedBy _) failed
  refine ⟨taken, rfl, ?_, c, writable, fun ts' lexemes => ?_⟩
  · intro known' taken' rest' signature lexemes follows
    have failed' := again lexemes follows
    rw [signature] at failed'
    exact .here ((lexemes.next_append (.inr follows)).symm.trans comes) other failed'
  · obtain ⟨exchanges, s, stated⟩ := completes lexemes
    exact ⟨exchanges, _, .statement stated .nil⟩

/-- What is refused after a statement. -/
theorem Decided.statement {s : Statement} {taken₂ : List Token}
    (stated : statement known.signature ts = .ok (s, rest)) (decided : Decided known rest f taken₂) :
    ∃ taken, Decided known ts f taken := by
  have steady := statement_steady known.hasRoom (block_steady known.hasRoom ts.length)
  obtain ⟨taken, rfl, reads⟩ := steady.ok (Nat.lt_succ_self _) stated
  obtain ⟨rfl, again, c, writable, completes⟩ := decided
  refine ⟨taken ++ taken₂, (List.append_assoc ..).symm, ?_, c, writable, fun ts' lexemes => ?_⟩
  · intro known' all rest' signature lexemes follows
    obtain ⟨taken', taken₂', rfl, lexemes₁, lexemes₂⟩ := lexemes.of_append
    obtain ⟨s', _, reads⟩ := reads lexemes₁
    have stated' := reads (lexemes₂.exchanges_append (.inl follows))
    rw [signature] at stated'
    rw [List.append_assoc]
    exact .statement stated' (again signature lexemes₂ follows)
  · obtain ⟨exchanges, p, others⟩ := completes lexemes
    obtain ⟨s', _, reads⟩ := reads rfl
    rw [List.append_assoc]
    exact ⟨(SameLexemes.refl taken).exchanges_append exchanges, _,
      .statement (reads exchanges) others⟩

end

/-- What comes up to and with the first token that a program is refused at decides that it is
refused there, and what comes before that token begins a program. -/
theorem Refuses.decided {known : Procedures} {ts : List Token} {f : Failure}
    (refuses : Refuses known ts f) : ∃ taken, Decided known ts f taken := by
  induction refuses with
  | header failed => exact ⟨_, decided_header failed⟩
  | body headed failed => exact decided_body headed failed
  | definition headed bodied _ ih =>
    obtain ⟨_, decided⟩ := ih
    exact decided.definition headed bodied
  | here comes other failed => exact decided_here comes other failed
  | statement stated _ ih =>
    obtain ⟨_, decided⟩ := ih
    exact decided.statement stated

end Grammar

/-- What it means that a text can be parsed. -/
theorem parse_ok_iff {known : Procedures} {text : String} {program : Program} :
    (parse known text).result = .ok program ↔
      Grammar.Reads known (Scan.ofText text).tokens program ∧
        ∃ finish, (Scan.ofText text).stop = .endOfText finish := by
  constructor
  · intro parsed
    refine ⟨(parse_reads parsed).1, ?_⟩
    unfold parse at parsed
    dsimp only at parsed
    split at parsed
    · cases parsed
    · split at parsed
      · next finish stops => exact ⟨finish, stops⟩
      · cases parsed
  · rintro ⟨reads, finish, stops⟩
    unfold parse
    dsimp only
    rw [reads.result, stops]

end Logo
