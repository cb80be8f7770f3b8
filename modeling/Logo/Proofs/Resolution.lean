import Logo.Proofs.Arity
import Logo.Proofs.Session

/-!
# Calls find their procedures

A text is read against the procedures that are known, and every call in it is checked there. This
module shows that the check is enough. What was known stays known, and all bodies that have ever
been read call known names only, whatever is defined anew afterwards, and whichever texts are
refused. What can still go wrong is that a procedure has been defined anew with another number of
parameters than the calls in older bodies reckon with.

The invariant (`Procedures.Sound`) is about all definitions that have been read so far, those that
are no longer in force among them: the body of an older definition may still be running when its
name is bound anew.

Results:
1. `Procedures.Sound.reads`: reading a program keeps the invariant.
2. `Program.run_alike`: so does running it, and a failing call is explained by two definitions.
3. `session_resolved`: what this means for sessions.
-/

namespace Logo

/-- The call means a known name, which has been defined with so many parameters. -/
structure CallSite.Supported (site : CallSite) (defined : List Procedure) (known : Procedures) :
    Prop where
  bound : site.name.text ∈ known
  arity : ∃ p ∈ defined, p.name = site.name.text ∧ p.arity = site.inputs

/-- If an error is about what a call means, then two of these definitions of the name that is
called differ in the number of their parameters. -/
def RuntimeError.Explained (defined : List Procedure) : RuntimeError → Prop
  | .unknownProcedure _ => False
  | .wrongArity name expected found =>
    expected ≠ found ∧ ∃ p ∈ defined, ∃ q ∈ defined,
      p.name = name.text ∧ p.arity = expected ∧ q.name = name.text ∧ q.arity = found
  | _ => True

theorem RuntimeError.explained_of_not_ofLookup {e : RuntimeError} {defined : List Procedure}
    (other : ¬ e.OfLookup) : e.Explained defined := by
  cases e with
  | unknownProcedure name => exact absurd trivial other
  | wrongArity name expected found => exact absurd trivial other
  | _ => trivial

/-- All that is known has been defined, under the name that it is known by. -/
def Procedures.From (known : Procedures) (defined : List Procedure) : Prop :=
  ∀ (name : String) (e : Entry), known[name]? = some e →
    ∃ p ∈ defined, p.name = name ∧ p.entry = e

/-- All that is known has been defined, and all that has been defined calls known names. -/
structure Procedures.Sound (known : Procedures) (defined : List Procedure) : Prop where
  entries : known.From defined
  calls : ∀ p ∈ defined, ∀ site ∈ blockCalls p.body, site.Supported defined known

theorem CallSite.Supported.mono {site : CallSite} {defined defined' : List Procedure}
    {known known' : Procedures} (supported : site.Supported defined known)
    (more : defined ⊆ defined') (kept : ∀ name ∈ known, name ∈ known') :
    site.Supported defined' known' := by
  obtain ⟨p, among, takes⟩ := supported.arity
  exact ⟨kept _ supported.bound, p, more among, takes⟩

/-! ## Reading -/

namespace Procedures

variable {known : Procedures} {defined defined' : List Procedure} {p : Procedure}

theorem mem_define {name : String} (bound : name ∈ known) : name ∈ known.define p :=
  mem_defineAll [p] bound

theorem From.define (entries : known.From defined) (more : defined ⊆ defined')
    (among : p ∈ defined') : (known.define p).From defined' := by
  intro name e found
  rw [getElem?_define] at found
  split at found
  · next same =>
    cases found
    exact ⟨p, among, same, rfl⟩
  · obtain ⟨q, among', meant⟩ := entries name e found
    exact ⟨q, more among', meant⟩

/-- What can be read as a call is supported. -/
theorem From.supported (entries : known.From defined) {sites : List CallSite}
    (knows : known.signature.KnowsAll sites) : ∀ site ∈ sites, site.Supported defined known := by
  intro site inside
  obtain ⟨e, found, arity⟩ := Option.map_eq_some_iff.1 (knows site inside)
  obtain ⟨p, among, named, rfl⟩ := entries _ e found
  refine ⟨?_, p, among, named, arity⟩
  rw [Std.ExtTreeMap.mem_iff_isSome_getElem?, found]
  rfl

namespace Sound

theorem empty : Sound ∅ [] where
  entries name e found := by
    rw [Std.ExtTreeMap.getElem?_empty] at found
    cases found
  calls _ among := absurd among List.not_mem_nil

/-- Definitions that have been read can be bound again at any time. -/
theorem define (sound : known.Sound defined) (among : p ∈ defined) :
    (known.define p).Sound defined where
  entries := sound.entries.define (List.Subset.refl _) among
  calls q among' site inside :=
    (sound.calls q among' site inside).mono (List.Subset.refl _) fun _ => mem_define

/-- One more definition has been read, and what it calls is known. -/
theorem snoc (sound : known.Sound defined)
    (knows : (known.define p).signature.KnowsAll (blockCalls p.body)) :
    (known.define p).Sound (defined ++ [p]) := by
  have more : defined ⊆ defined ++ [p] := List.subset_append_left _ _
  have entries : (known.define p).From (defined ++ [p]) :=
    sound.entries.define more (List.mem_append_right _ List.mem_cons_self)
  refine ⟨entries, fun q among site inside => ?_⟩
  rcases List.mem_append.1 among with old | new
  · exact (sound.calls q old site inside).mono more fun _ => mem_define
  · rw [List.mem_singleton.1 new] at inside
    exact entries.supported knows site inside

/-- The first part of a program that can be read adds its definitions, and all its calls are
supported then; the rest can be read after it. -/
theorem reads_append {ts : List Token} {earlier later : Program} (sound : known.Sound defined)
    (reads : Grammar.Reads known ts (earlier ++ later)) :
    (known.defineAll earlier.definitions).Sound (defined ++ earlier.definitions) ∧
    (∀ site ∈ earlier.calls,
      site.Supported (defined ++ earlier.definitions) (known.defineAll earlier.definitions)) ∧
    ∃ rest, Grammar.Reads (known.defineAll earlier.definitions) rest later := by
  induction earlier generalizing known defined ts with
  | nil =>
    rw [Program.definitions_nil, List.append_nil]
    exact ⟨sound, fun _ inside => absurd inside List.not_mem_nil, ts, reads⟩
  | cons item earlier ih =>
    cases reads with
    | @definition known position ts rest rest' h body program header read others =>
      -- the body is read with its own header known, so it may call its own procedure
      have knows := Grammar.body_knows _ _ read
      rw [signature_announce known h body] at knows
      obtain ⟨sound', supported, left⟩ := ih (sound.snoc knows) others
      rw [List.append_assoc] at sound' supported
      refine ⟨sound', fun site inside => ?_, left⟩
      rcases List.mem_append.1 inside with own | other
      · exact sound'.calls _ (List.mem_append_right _ List.mem_cons_self) site own
      · exact supported site other
    | @statement known ts rest s program read others =>
      obtain ⟨sound', supported, left⟩ := ih sound others
      refine ⟨sound', fun site inside => ?_, left⟩
      rcases List.mem_append.1 inside with own | other
      · have here := sound.entries.supported (Grammar.statement_knows _ read) site own
        exact here.mono (List.subset_append_left _ _) fun _ => mem_defineAll _
      · exact supported site other

/-- A program that can be read adds its definitions, and all its calls are supported then. -/
theorem reads {ts : List Token} {program : Program} (sound : known.Sound defined)
    (reads : Grammar.Reads known ts program) :
    (known.defineAll program.definitions).Sound (defined ++ program.definitions) ∧
    ∀ site ∈ program.calls,
      site.Supported (defined ++ program.definitions) (known.defineAll program.definitions) := by
  rw [← List.append_nil program] at reads
  obtain ⟨sound', supported, -⟩ := sound.reads_append reads
  exact ⟨sound', supported⟩

end Sound

end Procedures

/-! ## Running -/

section Running

variable {known base : Procedures} {defined : List Procedure}

/-- Where the invariant holds, a supported call finds its procedure; if that takes another number of
inputs, this is explained. -/
theorem CallSite.Supported.resolved {site : CallSite} (supported : site.Supported defined known)
    (entries : known.From defined) :
    site.Resolved known (RuntimeError.Explained defined) fun _ => True where
  reached := trivial
  unknown missing := by
    have bound := supported.bound
    rw [Std.ExtTreeMap.mem_iff_isSome_getElem?, missing] at bound
    cases bound
  arity {e} found differ := by
    obtain ⟨p, among, named, rfl⟩ := entries _ e found
    obtain ⟨q, among', named', takes⟩ := supported.arity
    exact ⟨differ, p, among, q, among', named, rfl, named', takes⟩

theorem Procedures.Sound.resolved (sound : known.Sound defined) :
    known.Resolved (RuntimeError.Explained defined) fun _ => True := by
  intro name e _ found site inside
  obtain ⟨p, among, -, rfl⟩ := sound.entries _ e found
  exact (sound.calls p among site inside).resolved sound.entries

/-- What is promised of running a program whose definitions have all been read, when at least the
names of `base` are known: the invariant and the known names are kept. -/
def Contract.defining (defined : List Procedure) (base : Procedures) : Contract where
  Before m := m.procedures.Sound defined ∧ ∀ name ∈ base, name ∈ m.procedures
  Leads m m' := (m.procedures.Sound defined → m'.procedures.Sound defined) ∧
    ∀ name ∈ m.procedures, name ∈ m'.procedures
  Fails e := e.Explained defined
  refl _ := ⟨id, fun _ => id⟩
  trans first second := ⟨second.1 ∘ first.1, fun name bound => second.2 name (first.2 name bound)⟩
  keeps before leads := ⟨leads.1 before.1, fun name bound => leads.2 name (before.2 name bound)⟩
  ordinary := RuntimeError.explained_of_not_ofLookup

theorem Statement.run_defining {s : Statement}
    (supported : ∀ site ∈ s.calls, site.Supported defined base) :
    (Contract.defining defined base).Alike (s.run Procedure.run) (s.run Procedure.run) := by
  refine .of_kept fun m ⟨sound, bound⟩ => ?_
  have alike : (Contract.executing m.procedures m.calls (RuntimeError.Explained defined)).Alike
      (s.run Procedure.run) (s.run Procedure.run) :=
    s.run_alike Contract.executing_permits fun site inside => by
      have here := (supported site inside).mono (List.Subset.refl _) bound
      exact (Procedure.run_serves_run sound.resolved (here.resolved sound.entries)).executing
  refine (alike m ⟨rfl, rfl⟩).2.mono (fun m' same => ?_) fun e fails => ?_
  · show (_ → m'.procedures.Sound defined) ∧ ∀ name ∈ _, name ∈ m'.procedures
    rw [same.procedures]
    exact ⟨id, fun _ => id⟩
  · by_cases lookup : e.OfLookup
    · exact fails lookup
    · exact RuntimeError.explained_of_not_ofLookup lookup

/-- Running a program keeps the invariant, whether it ends or fails, and if a call fails to find
what it means, that is explained. -/
theorem Program.run_defining {program : Program} (read : program.definitions ⊆ defined)
    (supported : ∀ site ∈ program.calls, site.Supported defined base) :
    (Contract.defining defined base).Alike program.run program.run := by
  induction program with
  | nil => exact .pure _
  | cons item rest ih =>
    rw [Program.run_cons]
    have others : ∀ site ∈ Program.calls rest, site.Supported defined base :=
      fun site inside => supported site (List.mem_append_right _ inside)
    cases item with
    | definition p =>
      rw [Program.definitions_definition, List.cons_subset] at read
      refine .bind (.bind (.of_kept fun m before => ?_) fun _ => .pure _) fun _ => ih read.2 others
      exact ⟨fun sound => sound.define read.1, fun name => Procedures.mem_define⟩
    | statement s =>
      refine .bind (Statement.run_defining fun site inside => ?_) fun _ => ih read others
      exact supported site (List.mem_append_left _ inside)

end Running

/-! ## Sessions -/

namespace Machine

variable {m m₀ m' : Machine} {text : String} {program : Program} {defined : List Procedure}

/-- The definitions in a text, if it can be parsed. -/
def defines (m : Machine) (text : String) : List Procedure :=
  match (parse m.procedures text).result with
  | .ok program => program.definitions
  | .error _ => []

/-- The definitions in those of some texts that can be parsed when their turn comes. -/
def definesAll (m : Machine) : List String → List Procedure
  | [] => []
  | text :: texts => m.defines text ++ (m.submit text).2.definesAll texts

theorem definesAll_snoc (m : Machine) (texts : List String) (text : String) :
    m.definesAll (texts ++ [text]) = m.definesAll texts ++ (m.submitAll texts).defines text := by
  induction texts generalizing m with
  | nil => exact List.append_nil _
  | cons first texts ih =>
    show m.defines first ++ (m.submit first).2.definesAll (texts ++ [text]) = _
    rw [ih, ← List.append_assoc]
    rfl

theorem defines_of_read (read : m.read text = (.ok program, m₀)) :
    m.defines text = program.definitions := by
  rw [defines, (read_eq_ok read).1]

/-- A text that can be parsed keeps the invariant before it runs. -/
theorem read_sound (sound : m.procedures.Sound defined)
    (read : m.read text = (.ok program, m₀)) :
    m₀.procedures.Sound (defined ++ program.definitions) ∧
    (∀ name ∈ m.procedures, name ∈ m₀.procedures) ∧
    ∀ site ∈ program.calls, site.Supported (defined ++ program.definitions) m₀.procedures := by
  obtain ⟨parsed, rfl⟩ := read_eq_ok read
  obtain ⟨sound', supported⟩ := sound.reads (parse_reads parsed).1
  exact ⟨sound', fun _ => Procedures.mem_defineAll _, supported⟩

/-- After a text that can be parsed the procedures are those of the machine in which it ended. -/
theorem submit_procedures (read : m.read text = (.ok program, m₀)) :
    (m.submit text).2.procedures = (program.run.after m₀).procedures := by
  obtain ⟨parsed, rfl⟩ := read_eq_ok read
  rw [submit_eq_of_ok parsed, Exec.after]
  cases program.run (m.learn text program) <;> rfl

theorem submit_sound (sound : m.procedures.Sound defined) (text : String) :
    (m.submit text).2.procedures.Sound (defined ++ m.defines text) ∧
    ∀ name ∈ m.procedures, name ∈ (m.submit text).2.procedures := by
  cases parsed : (parse m.procedures text).result with
  | error e =>
    rw [submit_eq_of_error parsed, defines, parsed, List.append_nil]
    exact ⟨sound, fun _ => id⟩
  | ok program =>
    have read := read_of_ok parsed
    obtain ⟨sound', kept, supported⟩ := read_sound sound read
    have alike := Program.run_defining (List.subset_append_right _ _) supported
    have leads := (alike _ ⟨sound', fun _ => id⟩).2.leads_after
    rw [submit_procedures read, defines_of_read read]
    exact ⟨leads.1 sound', fun name bound => leads.2 name (kept name bound)⟩

theorem submitAll_sound (sound : m.procedures.Sound defined) (texts : List String) :
    (m.submitAll texts).procedures.Sound (defined ++ m.definesAll texts) := by
  induction texts generalizing m defined with
  | nil =>
    rw [definesAll, List.append_nil]
    exact sound
  | cons text texts ih =>
    rw [definesAll, ← List.append_assoc]
    exact ih (submit_sound sound text).1

end Machine

/-- Each procedure is known by its own name, its definition has been read to the end, and all that
it calls is known. -/
structure Procedures.WellBound (known : Procedures) : Prop where
  name : ∀ {name : String} {e : Entry}, known[name]? = some e → e.name = name
  body : ∀ {name : String} {e : Entry}, known[name]? = some e → e.body?.isSome
  calls : ∀ {name : String} {e : Entry}, known[name]? = some e →
    ∀ site ∈ blockCalls e.body, site.name.text ∈ known

theorem Procedures.Sound.wellBound {known : Procedures} {defined : List Procedure}
    (sound : known.Sound defined) : known.WellBound where
  name found := by
    obtain ⟨p, -, rfl, rfl⟩ := sound.entries _ _ found
    rfl
  body found := by
    obtain ⟨p, -, -, rfl⟩ := sound.entries _ _ found
    rfl
  calls found site inside := by
    obtain ⟨p, among, -, rfl⟩ := sound.entries _ _ found
    exact (sound.calls p among site inside).bound

/-- Between any two texts of a session, and between any two parts of a text that runs, all
procedures are well bound, no name is lost, and all that the text calls is known. So no call fails
for want of a procedure. If one fails for the number of its inputs, then two definitions of its
name, in texts that could be parsed, differ in the number of their parameters. -/
theorem session_resolved (answers : Answers) (texts : List String) (text : String) :
    let m := (Machine.initial answers).submitAll texts
    m.procedures.WellBound ∧
    (∀ name ∈ m.procedures, name ∈ (m.submit text).2.procedures) ∧
    ∀ program m₀, m.read text = (.ok program, m₀) →
      (∀ earlier later m', program = earlier ++ later → earlier.run m₀ = .ok () m' →
        m'.procedures.WellBound ∧ (∀ name ∈ m.procedures, name ∈ m'.procedures) ∧
        ∀ site ∈ program.calls, site.name.text ∈ m'.procedures) ∧
      ∀ e m', program.run m₀ = .error e m' →
        e.Explained ((Machine.initial answers).definesAll (texts ++ [text])) := by
  intro m
  have sound : m.procedures.Sound ([] ++ (Machine.initial answers).definesAll texts) :=
    Machine.submitAll_sound .empty texts
  rw [List.nil_append] at sound
  refine ⟨sound.wellBound, (Machine.submit_sound sound text).2, fun program m₀ read => ?_⟩
  obtain ⟨sound₀, kept, supported⟩ := Machine.read_sound sound read
  constructor
  · rintro earlier later m' rfl ran
    -- the definitions that `later` holds have been read as well, though they are not yet bound anew
    rw [Program.definitions_append] at sound₀ supported
    have alike := Program.run_defining (List.subset_append_of_subset_right _
      (List.subset_append_left _ (Program.definitions later))) fun site inside =>
        supported site (Program.calls_append earlier later ▸ List.mem_append_left _ inside)
    have leads := (alike m₀ ⟨sound₀, fun _ => id⟩).2
    rw [ran] at leads
    refine ⟨(leads.1 sound₀).wellBound, fun name bound => leads.2 name (kept name bound), ?_⟩
    exact fun site inside => leads.2 _ (supported site inside).bound
  · intro e m' failed
    rw [Machine.definesAll_snoc, Machine.defines_of_read read]
    have alike := Program.run_defining (List.subset_append_right _ _) supported
    have fails := (alike m₀ ⟨sound₀, fun _ => id⟩).2
    rw [failed] at fails
    exact fails.2

/-- The number of inputs can indeed be wrong: the body of `g` was read when `f` took none. -/
example :
    (((Machine.initial (.scripted [])).submitAll ["to f output 1 end", "to g output f end"]).submit
      "to f a output a end print g").1.errors =
        "line 1, column 13: f takes 1 inputs, but was given 0\n" := by
  decide +kernel

end Logo
