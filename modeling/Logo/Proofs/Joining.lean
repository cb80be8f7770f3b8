import Mathlib
import Logo.Proofs.Lines
import Logo.Proofs.Places
import Logo.Proofs.Points
import Logo.Proofs.Reparsing

/-!
# Two texts in one

A text that runs to its end and a text that defines new names only can as well be submitted as one text,
with a line end between them.

The parser reads the second text with the same procedures known, whether the first one has run or has
only been parsed. When the texts are one the procedures of the second one are known while the first one
runs; but this calls none of them, since it would have failed with such a call when it was alone.

Results:
1. `Reads.append`: programs that are read one after the other are read as one.
2. `parse_lines`: so it is for texts.
3. `submit_lines`: submitting one text has the effect of submitting the two.
-/

namespace Logo

/-! ## Reading on -/

namespace Grammar

open Reader

/-- No operator comes first where a statement is read. -/
theorem statement_apart {sig : Signature} {ts rest : List Token} {s : Statement}
    (stated : statement sig ts = .ok (s, rest)) : NoOperator ts ∧ NoConnective ts := by
  cases ts with
  | nil => exact ⟨nofun, nofun⟩
  | cons t ts =>
    rw [statement_steps] at stated
    cases choice : statementAt sig t with
    | none => exact absurd (branch_none choice ts ▸ stated) missing_ne_ok
    | some r =>
      obtain ⟨l, p⟩ := t
      cases l with
      | addOp op | mulOp op => cases choice
      | keyword k =>
        refine ⟨fun l first => by cases first; rfl, fun l first => ?_⟩
        cases first
        cases k <;> first | rfl | cases choice
      | _ => exact ⟨fun l first => by cases first; rfl, fun l first => by cases first; rfl⟩

/-- No operator comes first where a program is read. -/
theorem Reads.apart {known : Procedures} {ts : List Token} {program : Program}
    (reads : Reads known ts program) : NoOperator ts ∧ NoConnective ts := by
  cases reads with
  | nil => exact ⟨nofun, nofun⟩
  | definition => exact ⟨fun l first => by cases first; rfl, fun l first => by cases first; rfl⟩
  | statement stated => exact statement_apart stated

theorem swaps_append {rest more : List Token} (apart : NoOperator more ∧ NoConnective more) :
    Swaps rest (rest ++ more) := by
  cases rest with
  | nil => exact .inr apart
  | cons t rest => exact .inl rfl

/-- What is read one after the other is read as one program. -/
theorem Reads.append {known : Procedures} {ts ts' : List Token} {program program' : Program}
    (reads : Reads known ts program)
    (reads' : Reads (known.defineAll program.definitions) ts' program') :
    Reads known (ts ++ ts') (program ++ program') := by
  have within (sig : Signature) : sig.Within sig := fun _ _ bound => bound
  have swaps (rest : List Token) : Swaps rest (rest ++ ts') := swaps_append reads'.apart
  induction reads with
  | nil => exact reads'
  | @definition known position ts rest rest' h body program headed bodied others ih =>
    have whole : Reads known (⟨.keyword .define, position⟩ :: ts) _ :=
      .definition headed bodied others
    have free (mark : Mark) (among : mark ∈ blockMarks body (.keyword .endDefine)) :
        mark.Free (known.announce h).signature := by
      rw [known.signature_announce h body]
      exact ((reads_written whole).2.1.body mark among).free
    have taken := body_takes _ _ bodied
    obtain ⟨front, rfl, headed'⟩ := header_ok headed
    obtain ⟨inner, body', rfl, kept, bodied'⟩ := body_carries (within _) h.name (rest.length + 1)
      (Nat.lt_succ_self _) bodied fun mark among => (free mark among).passes
    obtain rfl := kept free
    -- a body is not empty, so that the header is followed by the same token
    have exchanges : Exchanges (inner ++ rest') (inner ++ (rest' ++ ts')) := by
      cases inner with
      | nil => exact absurd taken (Nat.lt_irrefl _)
      | cons t inner => exact .inl rfl
    rw [List.cons_append, List.append_assoc, List.append_assoc]
    let h' : Header := { h with ahead := (inner ++ (rest' ++ ts')).length }
    exact .definition (h := h') (headed' rfl exchanges) (bodied' (swaps rest')) (ih reads')
  | @statement known ts rest s program stated others ih =>
    have fits := (reads_written (.statement stated others)).2.1
    have free (mark : Mark) (among : mark ∈ s.marks) : mark.Free known.signature :=
      (fits mark among).free
    obtain ⟨front, s', rfl, kept, stated'⟩ := statement_carries (within _)
      (block_carries (within _) _) (Nat.lt_succ_self ts.length) stated
      fun mark among => (free mark among).passes
    obtain rfl := kept free
    rw [List.append_assoc]
    exact .statement (stated' (swaps rest)) (ih reads')

end Grammar

/-- What is parsed one after the other can be parsed as one text, with a line end between. The places of
names in the second one are others then. -/
theorem parse_lines {known : Procedures} {first second : String} {earlier later : Program}
    (parsed : (parse known first).result = .ok earlier)
    (parsed' : (parse (known.defineAll earlier.definitions) second).result = .ok later) :
    ∃ later', later'.bare = later.bare ∧
      (parse known (first ++ "\n" ++ second)).result = .ok (earlier ++ later') := by
  obtain ⟨reads, finish, ends⟩ := parse_ok_iff.1 parsed
  obtain ⟨reads', finish', ends'⟩ := parse_ok_iff.1 parsed'
  have lexemes := (Scan.ofText second).lexemes_under (finish.advance '\n')
  obtain ⟨later', moved, bare⟩ := reads'.again rfl lexemes.symm
  refine ⟨later', bare.symm, parse_ok_iff.2 ?_⟩
  rw [Scan.ofText_lines ends]
  refine ⟨reads.append moved, finish'.under (finish.advance '\n'), ?_⟩
  rw [Scan.under, ends', Stop.under]

/-! ## What is known -/

theorem Program.definitions_bare (program : Program) :
    Program.definitions program.bare = program.definitions.map Procedure.bare := by
  induction program with
  | nil => rfl
  | cons item rest ih =>
    cases item with
    | definition p => exact congrArg (p.bare :: ·) ih
    | statement s => exact ih

namespace Procedures

theorem bare_define (known : Procedures) (p : Procedure) :
    (known.define p).bare = known.bare.define p.bare := by
  refine Std.ExtTreeMap.ext_getElem? fun name => ?_
  rw [getElem?_bare, getElem?_define_bare (known.getElem?_bare name)]

theorem bare_defineAll (known : Procedures) (ps : List Procedure) :
    (known.defineAll ps).bare = known.bare.defineAll (ps.map Procedure.bare) := by
  induction ps generalizing known with
  | nil => rfl
  | cons p ps ih => rw [defineAll_cons, ih, bare_define, List.map_cons, defineAll_cons]

/-- Definitions of other names do not change what a name means. -/
theorem getElem?_defineAll_of_ne {known : Procedures} {ps : List Procedure} {name : String}
    (other : ∀ p ∈ ps, p.name ≠ name) : (known.defineAll ps)[name]? = known[name]? := by
  have none : ps.reverse.find? (·.name = name) = none := by
    simpa [List.find?_eq_none] using other
  rw [getElem?_defineAll, none]
  rfl

theorem mem_defineAll_of_mem {known : Procedures} {ps : List Procedure} {p : Procedure}
    (among : p ∈ ps) : p.name ∈ known.defineAll ps := by
  obtain ⟨before, after, rfl⟩ := List.append_of_mem among
  rw [defineAll_append, defineAll_cons]
  exact mem_defineAll after Std.ExtTreeMap.mem_insert_self

/-- To define something again changes nothing if all that came after it had other names. -/
theorem defineAll_again {known : Procedures} {ps qs : List Procedure}
    (new : ∀ q ∈ qs, q.name ∉ known.defineAll ps) :
    ((known.defineAll ps).defineAll qs).defineAll ps = (known.defineAll ps).defineAll qs := by
  refine Std.ExtTreeMap.ext_getElem? fun name => ?_
  by_cases bound : name ∈ known.defineAll ps
  · have other (q : Procedure) (among : q ∈ qs) : q.name ≠ name :=
      fun same => new q among (same ▸ bound)
    rw [getElem?_defineAll, getElem?_defineAll_of_ne other, getElem?_defineAll]
    cases ps.reverse.find? (·.name = name) <;> rfl
  · have other (p : Procedure) (among : p ∈ ps) : p.name ≠ name := by
      rintro rfl
      exact bound (mem_defineAll_of_mem among)
    rw [getElem?_defineAll_of_ne other]

end Procedures

/-! ## Running on -/

/-- What is promised of running something that does not define a name. -/
def Contract.keeping (name : String) : Contract where
  Before _ := True
  Leads m m' := m'.procedures[name]? = m.procedures[name]?
  Fails _ := True
  refl _ := rfl
  trans first second := second.trans first
  keeps _ _ := trivial
  ordinary _ := trivial

theorem Program.run_keeping {program : Program} {name : String}
    (other : ∀ p ∈ program.definitions, p.name ≠ name) :
    (Contract.keeping name).Alike program.run program.run := by
  induction program with
  | nil => exact .pure _
  | cons item rest ih =>
    rw [Program.run_cons]
    cases item with
    | definition p =>
      obtain ⟨first, others⟩ := List.forall_mem_cons.1 other
      refine .bind (.bind (.modify fun m => ?_) fun _ => .pure _) fun _ => ih others
      show (m.procedures.define p)[name]? = _
      rw [Procedures.getElem?_define, if_neg first]
    | statement s =>
      refine .bind (.of_kept fun m _ => ?_) fun _ => ih other
      have alike := s.run_alike Contract.executing_permits fun site _ =>
        (Procedure.run_serves_any m site).executing
      exact (alike m ⟨rfl, rfl⟩).2.mono (fun m' same => congrArg (·[name]?) same.procedures)
        fun _ _ => trivial

/-- Whether or not a program fails, names that it does not define mean what they meant. -/
theorem Program.run_others {program : Program} {name : String}
    (other : ∀ p ∈ program.definitions, p.name ≠ name) (m : Machine) :
    (program.run.after m).procedures[name]? = m.procedures[name]? :=
  (Program.run_keeping other m trivial).2.leads_after

/-- What is promised of running anything: that no message is noted. -/
def Contract.silent : Contract where
  Before _ := True
  Leads m m' := m'.errors = m.errors
  Fails _ := True
  refl _ := rfl
  trans first second := second.trans first
  keeps _ _ := trivial
  ordinary _ := trivial

theorem Contract.silent_pervades : silent.Pervades where
  permits := {
    forward := fun _ _ => rfl
    turn := fun _ _ => rfl
    moveBy := fun _ _ _ => rfl
    moveTo := fun _ _ => rfl
    setHeading := fun _ _ => rfl
    home := fun _ => rfl
    clear := fun _ => rfl
    setPen := fun _ _ => rfl
    setColour := fun _ _ _ _ => rfl
    print := fun _ _ => rfl
    assign := fun _ _ _ _ => rfl
    ask := fun _ _ => rfl
    tell := fun _ _ => rfl }
  define _ _ := rfl
  enter _ _ := trivial
  leave := id
  fails _ := trivial

/-- Whether or not a program fails, it notes no message itself. -/
theorem Program.run_errors (program : Program) (m : Machine) :
    (program.run.after m).errors = m.errors := by
  have unseen : Contract.silent.Unseen (pure ()) := fun _ _ => rfl
  have alike := program.observed_alike Contract.silent_pervades unseen
  exact (alike m trivial).2.leads_after

theorem Program.run_append (earlier later : Program) :
    Program.run (earlier ++ later) = earlier.run >>= fun _ => later.run := by
  induction earlier with
  | nil => rfl
  | cons item rest ih => rw [List.cons_append, run_cons, ih, run_cons, bind_assoc]

/-- A text is answered without the message of an error only if it runs to its end. -/
theorem Machine.submit_fine {m : Machine} {text : String}
    (fine : (m.submit text).1.errors = m.errors) :
    ∃ program m', (parse m.procedures text).result = .ok program ∧
      program.run (m.learn text program) = .ok () m' ∧ m.submit text = m'.reply "" := by
  have told (errors message : String) : errors ++ (message ++ "\n") ≠ errors := by simp
  cases parsed : (parse m.procedures text).result with
  | error e =>
    rw [submit_eq_of_error parsed] at fine
    exact absurd fine (told _ _)
  | ok program =>
    -- messages are noted by `submit` only, so that a message is one more than there were
    have silent := program.run_errors (m.learn text program)
    unfold Exec.after at silent
    rw [submit_eq_of_ok parsed] at fine ⊢
    cases ran : program.run (m.learn text program) with
    | ok _ m' => exact ⟨program, m', rfl, ran, rfl⟩
    | error e m' =>
      rw [ran] at fine silent
      have noted : m'.errors ++ (e.message ++ "\n") = m.errors := fine
      rw [show m'.errors = m.errors from silent] at noted
      exact absurd noted (told _ _)

/-! ## One text and two -/

/-- The machines are the same, but for the journal and for the places of names in procedures. -/
structure Machine.SameButPlaces (m n : Machine) : Prop where
  turtle : n.turtle = m.turtle
  scopes : n.scopes = m.scopes
  calls : n.calls = m.calls
  canvas : n.canvas = m.canvas
  procedures : n.procedures.bare = m.procedures.bare

namespace Likeness

/-- Both machines may know all procedures. -/
def all (before : Reply) : Likeness := ⟨fun _ => True, before⟩

theorem Machines.sameButPlaces {before before' : Reply} {m n k : Machine}
    (same : (all before).Machines m k) (same' : (all before').Machines n k) : m.SameButPlaces n where
  turtle := same'.turtle.symm.trans same.turtle
  scopes := same'.scopes.symm.trans same.scopes
  calls := same'.calls.symm.trans same.calls
  canvas := same'.canvas.symm.trans same.canvas
  procedures := by
    refine Std.ExtTreeMap.ext_getElem? fun name => ?_
    rw [Procedures.getElem?_bare, Procedures.getElem?_bare, ← same.procedures trivial,
      ← same'.procedures trivial]

theorem Results.of_ok {like : Likeness} {a : Unit} {m : Machine}
    {r : EStateM.Result RuntimeError Machine Unit} (results : like.Results (.ok a m) r) :
    ∃ n, r = .ok a n ∧ like.Machines m n := by
  cases results with
  | ok same => exact ⟨_, rfl, same⟩

theorem Results.ok_of {before : Reply} {a : Unit} {n : Machine}
    {r : EStateM.Result RuntimeError Machine Unit} (results : (all before).Results r (.ok a n)) :
    ∃ m, r = .ok a m ∧ (all before).Machines m n := by
  cases results with
  | ok same => exact ⟨_, rfl, same⟩
  | unknown new => exact absurd trivial new

end Likeness

theorem Procedures.bare_defineAll_congr (known : Procedures) {program program' : Program}
    (same : program'.bare = program.bare) :
    (known.defineAll program'.definitions).bare = (known.defineAll program.definitions).bare := by
  rw [bare_defineAll, bare_defineAll, ← Program.definitions_bare, ← Program.definitions_bare, same]

/-- The same names are defined, wherever what they mean is written. -/
theorem Program.exists_definition_of_bare {program program' : Program}
    (same : program'.bare = program.bare) {p : Procedure} (among : p ∈ program'.definitions) :
    ∃ q ∈ program.definitions, q.name = p.name := by
  have bare : p.bare ∈ Program.definitions program'.bare :=
    program'.definitions_bare ▸ List.mem_map_of_mem among
  rw [same, definitions_bare] at bare
  obtain ⟨q, among', same'⟩ := List.mem_map.1 bare
  have named : q.bare.name = p.bare.name := congrArg Procedure.name same'
  exact ⟨q, among', named⟩

section

variable {m m₁ : Machine} {first : String} {earlier later later' : Program}

/-- A text has been parsed, and what it is compared with knows the same procedures, where both may know
them. -/
theorem Machine.learn_like {like : Likeness} {text : String} {program : Program} {known : Procedures}
    (before : like.before = ⟨"", ""⟩)
    (procedures : ∀ name, like.common name →
      known[name]? = (m.procedures.defineAll program.definitions)[name]?.map Entry.bare)
    (unknown : ∀ name, ¬ like.common name →
      (m.procedures.defineAll program.definitions)[name]? = none) :
    like.Machines (m.learn text program) { m with procedures := known } where
  turtle := rfl
  scopes := rfl
  calls := rfl
  canvas := rfl
  log := by
    rw [before]
    exact String.empty_append.symm
  errors := by
    rw [before]
    exact String.empty_append.symm
  procedures := procedures _
  unknown := unknown _

/-- Where the second text begins, the machines are alike: the one that was given the first text alone,
and the one that was given both. -/
theorem Machine.learn_lines (second : String)
    (ran : earlier.run (m.learn first earlier) = .ok () m₁)
    (new : ∀ p ∈ later.definitions, p.name ∉ m.procedures.defineAll earlier.definitions)
    (bare : later'.bare = later.bare) :
    ∃ m' k, earlier.run (m.learn (first ++ "\n" ++ second) (earlier ++ later')) = .ok () m' ∧
      m'.procedures = (m.procedures.defineAll earlier.definitions).defineAll later'.definitions ∧
      (Likeness.all (m₁.reply "").1).Machines ((m₁.reply "").2.learn second later) k ∧
      (Likeness.all ⟨"", ""⟩).Machines m' k := by
  let known := m.procedures.defineAll earlier.definitions
  let whole := known.defineAll later'.definitions
  have new' (p : Procedure) (among : p ∈ later'.definitions) : p.name ∉ known := by
    obtain ⟨q, among', same⟩ := Program.exists_definition_of_bare bare among
    exact same ▸ new q among'
  have split : m.procedures.defineAll (Program.definitions (earlier ++ later')) = whole := by
    rw [Program.definitions_append, Procedures.defineAll_append]
  -- what both are compared with: it knows the procedures of both texts, without their places
  let start : Machine := { m with procedures := whole.bare }
  let like : Likeness := ⟨(· ∈ known), ⟨"", ""⟩⟩
  have begins : like.Machines (m.learn first earlier) start := by
    refine learn_like rfl (fun name bound => ?_) fun name => Std.ExtTreeMap.getElem?_eq_none
    have kept : whole[name]? = known[name]? :=
      Procedures.getElem?_defineAll_of_ne fun p among same => new' p among (same ▸ bound)
    rw [Procedures.getElem?_bare, kept]
  have begins' : (Likeness.all ⟨"", ""⟩).Machines
      (m.learn (first ++ "\n" ++ second) (earlier ++ later')) start := by
    refine learn_like rfl (fun name _ => ?_) fun _ new => absurd trivial new
    rw [Procedures.getElem?_bare, split]
  -- the first text has not failed, so it has called no procedure that only the second one defines
  have results := earlier.run_like (fun _ => Procedures.mem_defineAll_of_mem) begins
  rw [ran] at results
  obtain ⟨k, ran', same⟩ := results.of_ok
  have results' := earlier.run_like (fun _ _ => trivial) begins'
  rw [ran'] at results'
  obtain ⟨m', ran'', same'⟩ := results'.ok_of
  have procedures : m₁.procedures = known :=
    (Program.run_procedures ran).trans (Procedures.defineAll_defineAll _ _)
  -- running the first text defines its procedures again, but the second text has not changed them
  have procedures' : m'.procedures = whole := by
    have again := Program.run_procedures ran''
    rw [show (m.learn (first ++ "\n" ++ second) (earlier ++ later')).procedures = whole from split]
      at again
    exact again.trans (Procedures.defineAll_again new')
  refine ⟨m', k, ran'', procedures', ?_, same'⟩
  exact {
    turtle := same.turtle
    scopes := same.scopes
    calls := same.calls
    canvas := same.canvas
    log := by
      rw [same.log]
      exact String.empty_append.trans String.append_empty.symm
    errors := by
      rw [same.errors]
      exact String.empty_append.trans (String.append_empty.symm.trans String.append_empty.symm)
    procedures := fun {name} _ => by
      show k.procedures[name]? = (m₁.procedures.defineAll later.definitions)[name]?.map Entry.bare
      rw [same'.procedures trivial, procedures', procedures, ← Procedures.getElem?_bare,
        ← Procedures.getElem?_bare, Procedures.bare_defineAll_congr known bare]
    unknown := fun new => absurd trivial new }

end

/-- Machines that are like the same one answer alike. -/
theorem Likeness.Machines.reply {before : Reply} {m n k : Machine}
    (same : (all before).Machines m k) (same' : (all ⟨"", ""⟩).Machines n k)
    (quiet : m.errors = "") (message message' : String) :
    (n.reply message').1.log = before.log ++ (m.reply message).1.log ∧
      (m.reply message).1.errors = message ∧
      (n.reply message').1.errors = before.errors ++ message' ∧
      (m.reply message).2.SameButPlaces (n.reply message').2 := by
  have log : n.log = before.log ++ m.log := (String.empty_append ▸ same'.log).symm.trans same.log
  have errors : n.errors = before.errors ++ m.errors :=
    (String.empty_append ▸ same'.errors).symm.trans same.errors
  rw [quiet, String.append_empty] at errors
  have told : m.errors ++ message = message := by rw [quiet, String.empty_append]
  have places := same.sameButPlaces same'
  exact ⟨log, told, congrArg (· ++ message') errors, places.turtle, places.scopes, places.calls,
    places.canvas, places.procedures⟩

theorem Likeness.Machines.tell {like : Likeness} {m n : Machine} (same : like.Machines m n)
    (e : Event) : like.Machines (m.tell e) n :=
  ⟨same.turtle, same.scopes, same.calls, same.canvas, same.log, same.errors, same.procedures,
    same.unknown⟩

/-- How a text that has run so is answered. -/
def Machine.answer : EStateM.Result RuntimeError Machine Unit → Reply × Machine
  | .ok _ m => m.reply ""
  | .error e m => (m.tell (.failed e.message)).reply (e.message ++ "\n")

theorem Machine.submit_eq_answer {m : Machine} {text : String} {program : Program}
    (parsed : (parse m.procedures text).result = .ok program) :
    m.submit text = answer (program.run (m.learn text program)) := by
  rw [submit_eq_of_ok parsed]
  cases program.run (m.learn text program) <;> rfl

theorem Machine.procedures_answer {x : Exec Unit} {m : Machine} :
    (answer (x m)).2.procedures = (x.after m).procedures := by
  unfold Exec.after
  cases x m <;> rfl

/-- Runs that are like the same one are answered alike. -/
theorem Likeness.Results.answer {before : Reply} {x y : Exec Unit} {m m' : Machine}
    {s : EStateM.Result RuntimeError Machine Unit} (results : (all before).Results (x m) s)
    (results' : (all ⟨"", ""⟩).Results (y m') s) (quiet : (x.after m).errors = "") :
    (Machine.answer (y m')).1.log = before.log ++ (Machine.answer (x m)).1.log ∧
    ((Machine.answer (x m)).1.errors = "" ∧ (Machine.answer (y m')).1.errors = before.errors ∨
      ∃ e e' : RuntimeError, e'.bare = e.bare ∧
        (Machine.answer (x m)).1.errors = e.message ++ "\n" ∧
        (Machine.answer (y m')).1.errors = before.errors ++ (e'.message ++ "\n")) ∧
    (Machine.answer (x m)).2.SameButPlaces (Machine.answer (y m')).2 := by
  unfold Exec.after at quiet
  generalize x m = r at *
  generalize y m' = r' at *
  generalize ended : s = s' at results'
  cases results with
  | ok same =>
    subst ended
    cases results' with
    | ok same' =>
      obtain ⟨log, errors, errors', places⟩ := same.reply same' quiet "" ""
      exact ⟨log, .inl ⟨errors, errors'.trans String.append_empty⟩, places⟩
    | unknown new => exact absurd trivial new
  | @error e _ _ same =>
    cases results' with
    | ok => cases ended
    | @error e' _ _ same' =>
      obtain ⟨alike, rfl⟩ := EStateM.Result.error.inj ended
      obtain ⟨log, errors, errors', places⟩ := (same.tell (.failed e.message)).reply
        (same'.tell (.failed e'.message)) quiet (e.message ++ "\n") (e'.message ++ "\n")
      exact ⟨log, .inr ⟨e, e', alike.symm, errors, errors'⟩, places⟩
    | unknown new => exact absurd trivial new
  | unknown new => exact absurd trivial new

/-- If a text runs to its end, and the next one can be parsed and defines new names only, then it makes
no difference that they are two, whatever was done before: submitting the one text that they are with a
line end between prints what the two print, ends with the same error, if any, and leaves turtle,
variables, canvas, answers to prompts and procedures as they are after the two. Places of names in what
the second text defines, and the place in the message of its error, are others. -/
theorem submit_lines (m : Machine) (first second : String) :
    let one := m.submit first
    let two := one.2.submit second
    let once := m.submit (first ++ "\n" ++ second)
    one.1.errors = m.errors → ∀ later : Program, (parse one.2.procedures second).result = .ok later →
    (∀ p ∈ later.definitions, p.name ∉ one.2.procedures) →
    once.1.log = one.1.log ++ two.1.log ∧
    (two.1.errors = "" ∧ once.1.errors = one.1.errors ∨
      ∃ e e' : RuntimeError, e'.bare = e.bare ∧ two.1.errors = e.message ++ "\n" ∧
        once.1.errors = one.1.errors ++ (e'.message ++ "\n")) ∧
    two.2.SameButPlaces once.2 ∧
    ∀ name ∈ one.2.procedures, once.2.procedures[name]? = two.2.procedures[name]? := by
  intro one two once fine later parsed' new
  obtain ⟨earlier, m₁, parsed, ran, replied⟩ := Machine.submit_fine fine
  have one' : one = m₁.reply "" := replied
  have learned : one.2.procedures = m.procedures.defineAll earlier.definitions := by
    rw [one']
    exact (Program.run_procedures ran).trans (Procedures.defineAll_defineAll _ _)
  -- the parser has the same procedures known at the second text, whether it is alone or not
  obtain ⟨later', bare, joined⟩ := parse_lines parsed (learned ▸ parsed')
  obtain ⟨m', k, ran', learned', same, same'⟩ :=
    Machine.learn_lines second ran (learned ▸ new) bare
  rw [← one'] at same
  have results := later.run_like (fun _ _ => trivial) same
  have results' := later'.run_like (fun _ _ => trivial) same'
  rw [bare] at results'
  have two' : two = Machine.answer (later.run (one.2.learn second later)) :=
    Machine.submit_eq_answer parsed'
  have once' : once = Machine.answer (later'.run m') := by
    rw [← Exec.bind_of_ok (f := fun _ => later'.run) ran', ← Program.run_append]
    exact Machine.submit_eq_answer joined
  have quiet : (later.run.after (one.2.learn second later)).errors = "" := by
    rw [later.run_errors, one']
    rfl
  obtain ⟨log, errors, places⟩ := results.answer results' quiet
  rw [two', once']
  refine ⟨log, errors, places, fun name bound => ?_⟩
  have other (p : Procedure) (among : p ∈ later.definitions) : p.name ≠ name :=
    fun named => new p among (named ▸ bound)
  have other' (p : Procedure) (among : p ∈ later'.definitions) : p.name ≠ name := by
    obtain ⟨q, among', named⟩ := Program.exists_definition_of_bare bare among
    exact named ▸ other q among'
  rw [Machine.procedures_answer, Machine.procedures_answer, Program.run_others other,
    Program.run_others other', learned', Procedures.getElem?_defineAll_of_ne other', ← learned]
  exact (Procedures.getElem?_defineAll_of_ne other).symm

/-- A procedure of the second text calls one of an earlier text, and the second text fails at last. -/
theorem submit_lines_prompt :
    let m := (Machine.initial (.scripted [5])).submitAll ["to f a output a + 1 end"]
    let first := "scan \"x\" print f x"
    let second := "to g b output f b end print g x print y"
    let one := m.submit first
    let two := one.2.submit second
    let once := m.submit (first ++ "\n" ++ second)
    (one.1 = ⟨"6\n", ""⟩ ∧ two.1 = ⟨"6\n", "line 1, column 39: y has no value\n"⟩ ∧
      once.1 = ⟨"6\n6\n", "line 2, column 39: y has no value\n"⟩) ∧
    once.1.log = one.1.log ++ two.1.log ∧ two.2.SameButPlaces once.2 ∧
    ∀ name ∈ one.2.procedures, once.2.procedures[name]? = two.2.procedures[name]? := by
  let call (name : String) (p : Nat) (input : String) (q : Nat) : Expr :=
    .single false (.single (.call (.procedure ⟨name, ⟨p, 0, p⟩⟩
      [.single false (.single (.variable ⟨input, ⟨q, 0, q⟩⟩))])))
  let later : Program := [.definition ⟨"g", ["b"], [.output (call "f" 14 "b" 16)]⟩,
    .statement (.command (.printNumber (call "g" 28 "x" 30))),
    .statement (.command (.printNumber (.single false (.single (.variable ⟨"y", ⟨38, 0, 38⟩⟩)))))]
  have parsed : (parse (((Machine.initial (.scripted [5])).submitAll
      ["to f a output a + 1 end"]).submit "scan \"x\" print f x").2.procedures
      "to g b output f b end print g x print y").result = .ok later := by cbv
  have new : ∀ p ∈ later.definitions, p.name ∉ (((Machine.initial (.scripted [5])).submitAll
      ["to f a output a + 1 end"]).submit "scan \"x\" print f x").2.procedures := by decide +kernel
  obtain ⟨log, -, same, kept⟩ := submit_lines _ _ _ (by decide +kernel) later parsed new
  exact ⟨by decide +kernel, log, same, kept⟩

end Logo
