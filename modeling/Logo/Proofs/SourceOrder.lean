import Logo.Proofs.Resolution

/-!
# Which definition a call runs

A text that can be parsed leaves all its definitions known before anything of it runs, the last one
of each name; a definition that is run then binds its name once more. So a statement runs the last
definition of a name that stands before it in the text. If there is none, it does not run what the
name meant before the text, as reading in order would have it, but the last definition that stands
after it.

Which definitions a statement runs cannot be read off what it does. So it is said by watching
(`Statement.OnlyRuns`): whatever a watch does when it sees another definition, nothing comes of it.

Results:
1. `Statement.onlyRuns_of_reached`: a statement runs what is known by the names that its calls
   reach.
2. `statement_runs_inForce`: which definitions a statement runs, at any depth of calls, and when
   they are the ones that reading in order would give.
-/

namespace Logo

/-! ## Which definitions a statement runs -/

/-- Every procedure that is entered while the statement runs, whatever calls lead there, is the one
that `meant` gives for the name by which it is called. -/
def Statement.OnlyRuns (s : Statement) (m : Machine) (meant : String → Option Entry) : Prop :=
  ∀ watch : String → Entry → Exec Unit,
    (∀ {name p}, meant name = some p → watch name p = pure ()) →
      s.run (Procedure.watched watch) m = s.run Procedure.run m

/-- If the calls of a statement, and those in the procedures that they run, reach only some names,
then the statement runs only what is known by these names. -/
theorem Statement.onlyRuns_of_reached {s : Statement} {m : Machine} {reached : String → Prop}
    {meant : String → Option Entry} (calls : ∀ site ∈ s.calls, reached site.name.text)
    (closed : m.procedures.Resolved (fun _ => True) reached)
    (same : ∀ {name p}, reached name → m.procedures[name]? = some p → meant name = some p) :
    s.OnlyRuns m meant := by
  intro watch silent
  have unseen : m.procedures.Unseen watch reached := fun among bound => silent (same among bound)
  have alike : (Contract.executing m.procedures m.calls fun _ => True).Alike (s.run Procedure.run)
      (s.run (Procedure.watched watch)) :=
    s.run_alike Contract.executing_permits fun site inside =>
      have meant := ⟨calls site inside, fun _ => trivial, fun _ _ => trivial⟩
      (Procedure.run_serves closed unseen meant).executing
  exact (alike m ⟨rfl, rfl⟩).1

namespace Procedures

/-- What a name means to a statement that stands after `earlier` and before `later`. -/
def inForce (known : Procedures) (earlier later : Program) (name : String) : Option Entry :=
  (((earlier.lastDefinition? name).or (later.lastDefinition? name)).map Procedure.entry).or
    known[name]?

/-- What a name would mean there if definitions counted from where they stand. -/
def inSourceOrder (known : Procedures) (earlier : Program) (name : String) : Option Entry :=
  ((earlier.lastDefinition? name).map Procedure.entry).or known[name]?

/-- No definition after the statement changes what a name means to it: the name is defined before
the statement, or not after it, or there as it was known. -/
def KeptUntil (known : Procedures) (earlier later : Program) (name : String) : Prop :=
  (earlier.lastDefinition? name).isSome ∨ later.lastDefinition? name = none ∨
    (later.lastDefinition? name).map Procedure.entry = known[name]?

theorem inForce_eq_inSourceOrder_iff {known : Procedures} {earlier later : Program}
    {name : String} :
    known.inForce earlier later name = known.inSourceOrder earlier name ↔
      known.KeptUntil earlier later name := by
  unfold inForce inSourceOrder KeptUntil
  cases earlier.lastDefinition? name <;> cases later.lastDefinition? name <;> simp

theorem getElem?_inSourceOrder (known : Procedures) (earlier : Program) (name : String) :
    (known.defineAll earlier.definitions)[name]? = known.inSourceOrder earlier name :=
  known.getElem?_defineAll_definitions earlier name

/-- If this holds for what was known, it holds for what has been defined since as well. -/
theorem keptUntil_of_mem {known : Procedures} {earlier later : Program} {name : String}
    (kept : ∀ name ∈ known, known.KeptUntil earlier later name)
    (bound : name ∈ known.defineAll earlier.definitions) :
    known.KeptUntil earlier later name := by
  cases defined : earlier.lastDefinition? name with
  | some p => exact .inl (by rw [defined]; rfl)
  | none =>
    refine kept name ?_
    rw [Std.ExtTreeMap.mem_iff_isSome_getElem?, getElem?_inSourceOrder, inSourceOrder, defined]
      at bound
    exact Std.ExtTreeMap.mem_iff_isSome_getElem?.2 bound

end Procedures

/-- What is known when the turn of a statement comes. -/
theorem Machine.procedures_before {m m₀ m' : Machine} {text : String} {earlier later : Program}
    {s : Statement} (read : m.read text = (.ok (earlier ++ .statement s :: later), m₀))
    (ran : earlier.run m₀ = .ok () m') (name : String) :
    m'.procedures[name]? = m.procedures.inForce earlier later name := by
  obtain ⟨-, rfl⟩ := Machine.read_eq_ok read
  rw [Program.run_procedures ran, Procedures.getElem?_defineAll_definitions, Machine.learn,
    Procedures.getElem?_defineAll_definitions, Program.lastDefinition?_append,
    Program.lastDefinition?_statement, Procedures.inForce]
  cases earlier.lastDefinition? name <;> cases later.lastDefinition? name <;> rfl

/-- If what was known before is kept, a statement runs what reading in order gives. By then all that
its calls reach is known, so that other definitions after it do not matter. -/
theorem Procedures.Sound.onlyRuns_inSourceOrder {known : Procedures} {defined : List Procedure}
    {ts : List Token} {earlier later : Program} {s : Statement} {m : Machine}
    (sound : known.Sound defined)
    (reads : Grammar.Reads known ts (earlier ++ .statement s :: later))
    (inForce : ∀ name, m.procedures[name]? = known.inForce earlier later name)
    (kept : ∀ name ∈ known, known.KeptUntil earlier later name) :
    s.OnlyRuns m (known.inSourceOrder earlier) := by
  obtain ⟨sound', -, rest, others⟩ := sound.reads_append reads
  have same {name : String} {p : Entry} (bound : name ∈ known.defineAll earlier.definitions)
      (found : m.procedures[name]? = some p) : known.inSourceOrder earlier name = some p := by
    rw [← found, inForce]
    exact (inForce_eq_inSourceOrder_iff.2 (keptUntil_of_mem kept bound)).symm
  cases others with
  | statement read _ =>
    have here := sound'.entries.supported (Grammar.statement_knows _ read)
    refine Statement.onlyRuns_of_reached (fun site inside => (here site inside).bound) ?_ same
    intro name p bound found site inside
    have meant : (known.defineAll earlier.definitions)[name]? = some p :=
      (known.getElem?_inSourceOrder earlier name).trans (same bound found)
    exact ⟨sound'.wellBound.calls meant site inside, fun _ => trivial, fun _ _ => trivial⟩

/-- Take a text of a session, and a statement at its top whose turn comes. Whatever it calls, at
any depth, runs the last definition of its name before the statement, or else the last one after
it, or else the one that was known before the text. For a name this is what reading in order would
give just if it is defined before the statement, or not after it, or there as it was before. If
that is so for all that was known before the text, then reading in order tells what runs. -/
theorem statement_runs_inForce (answers : Answers) (texts : List String) {text : String}
    {earlier later : Program} {s : Statement} {m₀ m' : Machine}
    (read : ((Machine.initial answers).submitAll texts).read text =
      (.ok (earlier ++ .statement s :: later), m₀))
    (ran : earlier.run m₀ = .ok () m') :
    let known := ((Machine.initial answers).submitAll texts).procedures
    s.OnlyRuns m' (known.inForce earlier later) ∧
    (∀ name, known.inForce earlier later name = known.inSourceOrder earlier name ↔
      known.KeptUntil earlier later name) ∧
    ((∀ name ∈ known, known.KeptUntil earlier later name) →
      s.OnlyRuns m' (known.inSourceOrder earlier)) := by
  intro known
  have inForce := Machine.procedures_before read ran
  have sound : known.Sound ([] ++ (Machine.initial answers).definesAll texts) :=
    Machine.submitAll_sound .empty texts
  have reads := (parse_reads (Machine.read_eq_ok read).1).1
  refine ⟨?_, fun name => Procedures.inForce_eq_inSourceOrder_iff, fun kept => ?_⟩
  · exact Statement.onlyRuns_of_reached (fun _ _ => trivial) m'.procedures.resolved_of_any
      fun _ found => (inForce _).symm.trans found
  · exact sound.onlyRuns_inSourceOrder reads inForce kept

/-- The call runs the definition that stands after it, which has a body, and not the one that was
known before, which has none. -/
theorem call_runs_later_definition :
    let m := (Machine.initial (.scripted [])).submitAll ["to f end"]
    let call : Statement := .call (.procedure ⟨"f", ⟨0, 0, 0⟩⟩ [])
    let later : Program := [.definition ⟨"f", [], [.command .penUp]⟩]
    m.read "f to f pu end" = (.ok (.statement call :: later), (m.read "f to f pu end").2) ∧
    call.OnlyRuns (m.read "f to f pu end").2 (m.procedures.inForce [] later) ∧
    m.procedures.inForce [] later "f" = some ⟨"f", [], some [.command .penUp]⟩ := by
  dsimp only
  have ran (m : Machine) : Program.run [] m = .ok () m := rfl
  refine ⟨?read, (statement_runs_inForce _ _ ?read (ran _)).1, rfl⟩
  exact Prod.ext (by cbv) rfl

/-- Read in order, this would print 1, 2 and 3. -/
theorem redefined_twice_prints :
    let m := (Machine.initial (.scripted [])).submitAll ["to f output 1 end"]
    (m.submit "print f to f output 2 end print f to f output 3 end print f").1 =
      ⟨"3\n2\n3\n", ""⟩ := by
  decide +kernel

end Logo
