import Logo.Interpreter
import Logo.Proofs.Frame
import Logo.Proofs.Known

/-!
# Sessions

A session submits texts one after the other to a machine that begins with nothing done. Here it is
said what a submission comes to, for a text that is refused and for one that can be parsed, what
holds between any two texts of a session, and which procedures are known while a text runs.

Results:
1. `Machine.submit_eq_of_error`, `Machine.submit_eq_of_ok`: the two ways of a submission.
2. `submitAll_quiet`: between texts nothing is left to be handed out.
3. `Program.run_procedures`: which procedures are known after a part of a program.
4. `submit_refused`: a text that is refused changes nothing.
-/

namespace Logo

namespace Machine

/-- The machine after some texts. -/
def submitAll (m : Machine) (texts : List String) : Machine :=
  texts.foldl (fun m text => (m.submit text).2) m

/-- Nothing is left to be handed out. -/
structure Quiet (m : Machine) : Prop where
  log : m.log = ""
  errors : m.errors = ""

/-! ## One text -/

/-- The machine after a text that can be parsed, before it runs. -/
def learn (m : Machine) (text : String) (program : Program) : Machine :=
  { m with
    procedures := m.procedures.defineAll program.definitions
    journal := m.journal ++ (parse m.procedures text).events }

theorem read_of_error {m : Machine} {text : String} {e : SyntaxError}
    (h : (parse m.procedures text).result = .error e) :
    m.read text =
      (.error e, { m with journal := m.journal ++ (parse m.procedures text).events }) := by
  simp only [read, h, Bindings.restore_eq]

theorem read_of_ok {m : Machine} {text : String} {program : Program}
    (h : (parse m.procedures text).result = .ok program) :
    m.read text = (.ok program, m.learn text program) := by
  simp only [read, learn, h, (parse_reads h).2]

theorem read_eq_ok {m m' : Machine} {text : String} {program : Program}
    (h : m.read text = (.ok program, m')) :
    (parse m.procedures text).result = .ok program ∧ m' = m.learn text program := by
  have parsed : (parse m.procedures text).result = .ok program := congrArg Prod.fst h
  rw [read_of_ok parsed] at h
  exact ⟨parsed, (congrArg Prod.snd h).symm⟩

/-- A text that is refused only adds to what is handed out, and to the journal. -/
theorem submit_eq_of_error {m : Machine} {text : String} {e : SyntaxError}
    (h : (parse m.procedures text).result = .error e) :
    m.submit text =
      ({ m with journal := m.journal ++ (parse m.procedures text).events } : Machine).reply
        (e.message ++ "\n") := by
  rw [submit, read_of_error h]

/-- A text that can be parsed runs with its definitions known. -/
theorem submit_eq_of_ok {m : Machine} {text : String} {program : Program}
    (h : (parse m.procedures text).result = .ok program) :
    m.submit text =
      match program.run (m.learn text program) with
      | .ok _ m => m.reply ""
      | .error e m => (m.tell (.failed e.message)).reply (e.message ++ "\n") := by
  cases ran : program.run (m.learn text program) <;> simp only [submit, read_of_ok h, ran]

/-- Where nothing was left, a reply hands out just what it is told. -/
theorem Quiet.reply_eq {m : Machine} (h : m.Quiet) (errors : String) :
    m.reply errors = (⟨"", errors⟩, m) := by
  obtain ⟨hl, he⟩ := h
  cases m
  subst hl he
  simp only [reply, complain, takeLogs, String.empty_append]

theorem reply_quiet (m : Machine) (errors : String) : (m.reply errors).2.Quiet := ⟨rfl, rfl⟩

theorem submit_quiet (m : Machine) (text : String) : (m.submit text).2.Quiet := by
  unfold submit
  split
  · exact reply_quiet _ _
  · split <;> exact reply_quiet _ _

/-! ## Many texts -/

@[simp] theorem submitAll_nil (m : Machine) : m.submitAll [] = m := rfl

@[simp] theorem submitAll_cons (m : Machine) (text : String) (texts : List String) :
    m.submitAll (text :: texts) = (m.submit text).2.submitAll texts := rfl

/-- What holds at the beginning of a session and is kept by each text holds between texts. -/
theorem submitAll_induction {I : Machine → Prop} {m : Machine} (hm : I m)
    (step : ∀ m text, I m → I (m.submit text).2) (texts : List String) : I (m.submitAll texts) := by
  induction texts generalizing m with
  | nil => exact hm
  | cons text texts ih => exact ih (step m text hm)

/-- Between texts nothing is left to be handed out. -/
theorem submitAll_quiet (answers : Answers) (texts : List String) :
    ((Machine.initial answers).submitAll texts).Quiet :=
  submitAll_induction ⟨rfl, rfl⟩ (fun m text _ => m.submit_quiet text) texts

end Machine

/-! ## Running a program part by part -/

theorem Exec.bind_of_ok {α β : Type} {x : Exec α} {f : α → Exec β} {a : α} {m m' : Machine}
    (ran : x m = .ok a m') : (x >>= f) m = f a m' := by
  show EStateM.bind x f m = _
  rw [EStateM.bind, ran]

theorem Exec.bind_of_error {α β : Type} {x : Exec α} {f : α → Exec β} {e : RuntimeError}
    {m m' : Machine} (failed : x m = .error e m') : (x >>= f) m = .error e m' := by
  show EStateM.bind x f m = _
  rw [EStateM.bind, failed]

theorem Exec.bind_eq_ok {α β : Type} {x : Exec α} {f : α → Exec β} {b : β} {m m' : Machine} :
    (x >>= f) m = .ok b m' ↔ ∃ a m₁, x m = .ok a m₁ ∧ f a m₁ = .ok b m' := by
  show EStateM.bind x f m = _ ↔ _
  unfold EStateM.bind
  constructor
  · intro ran
    split at ran
    · next a m₁ first => exact ⟨a, m₁, first, ran⟩
    · cases ran
  · rintro ⟨a, m₁, first, next⟩
    rw [first]
    exact next

theorem Exec.bind_eq_error {α β : Type} {x : Exec α} {f : α → Exec β} {e : RuntimeError}
    {m m' : Machine} : (x >>= f) m = .error e m' ↔
      x m = .error e m' ∨ ∃ a m₁, x m = .ok a m₁ ∧ f a m₁ = .error e m' := by
  cases ran : x m with
  | ok a m₁ =>
    rw [Exec.bind_of_ok ran]
    refine ⟨fun failed => .inr ⟨a, m₁, rfl, failed⟩, ?_⟩
    rintro (⟨⟨⟩⟩ | ⟨_, _, ⟨⟩, failed⟩)
    exact failed
  | error e' m₁ =>
    rw [Exec.bind_of_error ran]
    refine ⟨fun failed => .inl (by cases failed; rfl), ?_⟩
    rintro (⟨⟨⟩⟩ | ⟨_, _, ⟨⟩, _⟩)
    rfl

theorem Program.run_cons (item : Item) (rest : Program) :
    Program.run (item :: rest) = item.run >>= fun _ => Program.run rest := by
  unfold Program.run
  rw [List.forM_eq_forM, List.forM_cons, Functor.discard, map_const]
  exact bind_map_left _ _ _

/-- Only definitions change what is known, each by binding its own name. -/
theorem Item.run_procedures {item : Item} {outcome : Outcome} {m m' : Machine}
    (ran : item.run m = .ok outcome m') :
    m'.procedures = m.procedures.defineAll (Program.definitions [item]) := by
  cases item with
  | definition p =>
    cases ran
    rfl
  | statement s =>
    have same := s.run_sameOutside m
    rw [Exec.after, show s.run Procedure.run m = .ok outcome m' from ran] at same
    exact same.procedures

/-- A program that runs to its end binds its definitions in order. -/
theorem Program.run_procedures {program : Program} {m m' : Machine}
    (ran : program.run m = .ok () m') :
    m'.procedures = m.procedures.defineAll program.definitions := by
  induction program generalizing m with
  | nil =>
    cases ran
    rfl
  | cons item rest ih =>
    rw [Program.run_cons] at ran
    obtain ⟨outcome, m₁, first, others⟩ := Exec.bind_eq_ok.1 ran
    show _ = m.procedures.defineAll (Program.definitions ([item] ++ rest))
    rw [ih others, Item.run_procedures first, Program.definitions_append,
      Procedures.defineAll_append]

/-! ## Texts that are refused -/

/-- A text that is refused, at whatever token and after whatever definitions, is answered by its
error alone, and changes nothing but the journal: the procedures are those that were known, and
turtle, variables, canvas and answers to prompts are as they were. -/
theorem submit_refused (answers : Answers) (texts : List String) (text : String) (e : SyntaxError)
    (h : (parse ((Machine.initial answers).submitAll texts).procedures text).result = .error e) :
    let m := (Machine.initial answers).submitAll texts
    (m.submit text).1 = ⟨"", e.message ++ "\n"⟩ ∧
    (m.submit text).2 = { m with journal := m.journal ++ (parse m.procedures text).events } := by
  intro m
  have quiet : m.Quiet := Machine.submitAll_quiet answers texts
  have told :
      ({ m with journal := m.journal ++ (parse m.procedures text).events } : Machine).Quiet :=
    ⟨quiet.log, quiet.errors⟩
  rw [Machine.submit_eq_of_error h, told.reply_eq]
  exact ⟨rfl, rfl⟩

/-- The text is refused at its last word, after it has defined `g`, and `f`, which was known. -/
theorem submit_refused_redefinition :
    let m := (Machine.initial (.scripted [])).submitAll ["to f end"]
    let text := "to g end to f pu end x"
    let e : SyntaxError := ⟨⟨21, 0, 21⟩, .expected .statement (.word "x")⟩
    (parse m.procedures text).result = .error e ∧
    (m.submit text).1 = ⟨"", e.message ++ "\n"⟩ ∧
    (m.submit text).2 = { m with journal := m.journal ++ (parse m.procedures text).events } :=
  have h : (parse ((Machine.initial (.scripted [])).submitAll ["to f end"]).procedures
      "to g end to f pu end x").result =
        .error ⟨⟨21, 0, 21⟩, .expected .statement (.word "x")⟩ := by cbv
  ⟨h, submit_refused _ _ _ _ h⟩

/-- Where the parser gives up, `g` is known: it is the machine that takes it back. -/
example :
    let m := (Machine.initial (.scripted [])).submitAll ["to f end"]
    let text := "to g end to f pu end x"
    (parse m.procedures text).known.keys = ["f", "g"] ∧
    (m.submit text).2.procedures.keys = ["f"] := by
  decide +kernel

end Logo
