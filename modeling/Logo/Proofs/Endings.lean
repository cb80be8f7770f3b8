import Logo.Proofs.Unrolling

/-!
# Where the value of a call comes from

A call in an expression takes its value from how the body of its procedure ended. There are three
ways to end (`Ending`): an `output` stopped the body, the last statement that was run was a
reporter, or neither. The relations `Statement.EndsBy`, `Block.EndsBy` and `Turns.EndBy` trace an
ending to the statement that it comes from, through conditionals, loops and procedures that are
called as statements.

A reporter that stands as a statement is to have its value thrown away, but its ending counts as a
value.

Results:
1. `Block.run_eq_ok`: a list of statements that does not fail ends in exactly one of these ways, and
   its outcome tells in which.
2. `call_value`: what a call in an expression comes to, by the ending of the body, and when its
   value can only come from an `output`.
-/

namespace Logo

/-! ## Endings -/

/-- How statements can end. -/
inductive Ending where
  /-- An `output` statement was met, whose expression had this value. -/
  | output (value : Int32)
  /-- The last statement that was run was a reporter, which said this. -/
  | reporter (value : Int32)
  /-- The last statement that was run, if there was one, was neither. -/
  | other
  deriving DecidableEq, Repr

/-- What is handed on after an ending. -/
def Ending.outcome : Ending → Outcome
  | .output value => .output value
  | .reporter value => .ended (some value)
  | .other => .done

/-- No `output` was met. -/
def Ending.GoesOn (ending : Ending) : Prop := ∀ value, ending ≠ .output value

theorem Ending.outcome_injective : Function.Injective Ending.outcome := by
  intro a b same
  cases a <;> cases b <;> cases same <;> rfl

theorem Ending.goesOn_iff {ending : Ending} : ending.GoesOn ↔ ending.outcome.isOutput = false := by
  cases ending with
  | output value => exact ⟨fun goes => absurd rfl (goes value), fun stays => nomatch stays⟩
  | reporter value => exact ⟨fun _ => rfl, fun _ _ same => nomatch same⟩
  | other => exact ⟨fun _ => rfl, fun _ _ same => nomatch same⟩

mutual

/-- `s.EndsBy m ending m'`: run in `m`, the statement `s` ends by `ending`, in `m'`. -/
inductive Statement.EndsBy : Statement → Machine → Ending → Machine → Prop
  | command {c m m'} : Command.run Procedure.run c m = .ok () m' →
      Statement.EndsBy (.command c) m .other m'
  | reporter {what m} :
      Statement.EndsBy (.call (.reporter what)) m (.reporter (what.report m.turtle)) m
  | procedure {name arguments p inputs ending m m₁ m₂} :
      m.procedures[name.text]? = some p → p.arity = arguments.length →
      evalAll Procedure.run arguments m = .ok inputs m₁ → m₁.calls < maxDepth →
      Block.EndsBy p.body (m₁.enter (p.locals inputs)) ending m₂ →
      Statement.EndsBy (.call (.procedure name arguments)) m ending m₂.leave
  | output {e value m m'} : Expr.eval Procedure.run e m = .ok value m' →
      Statement.EndsBy (.output e) m (.output value) m'
  | passed {condition body m m'} : Condition.eval Procedure.run condition m = .ok false m' →
      Statement.EndsBy (.ifTrue condition body) m .other m'
  | taken {condition body ending m m₁ m'} :
      Condition.eval Procedure.run condition m = .ok true m₁ → Block.EndsBy body m₁ ending m' →
      Statement.EndsBy (.ifTrue condition body) m ending m'
  | idle {count m} : Statement.EndsBy (.loop count []) m .other m
  | loop {count body ending m m'} : body ≠ [] → Turns.EndBy count body 0 .other m ending m' →
      Statement.EndsBy (.loop count body) m ending m'

/-- `Block.EndsBy ss m ending m'`: run in `m`, the statements `ss` end by `ending`, in `m'`. -/
inductive Block.EndsBy : List Statement → Machine → Ending → Machine → Prop
  | nil {m} : Block.EndsBy [] m .other m
  | last {s ending m m'} : Statement.EndsBy s m ending m' → Block.EndsBy [s] m ending m'
  | output {s rest value m m'} : Statement.EndsBy s m (.output value) m' →
      Block.EndsBy (s :: rest) m (.output value) m'
  | next {s s' rest first ending m m₁ m'} : Statement.EndsBy s m first m₁ → first.GoesOn →
      Block.EndsBy (s' :: rest) m₁ ending m' → Block.EndsBy (s :: s' :: rest) m ending m'

/-- `Turns.EndBy count body k last m ending m'`: a loop that was run `k` times, the last time with
the ending `last`, goes on in `m` and ends by `ending`, in `m'`. -/
inductive Turns.EndBy : Expr → List Statement → Nat → Ending → Machine → Ending → Machine → Prop
  | finished {count body last limit m m'} {k : Nat} :
      Expr.eval Procedure.run count m = .ok limit m' → ¬ (k : Int) < limit.toInt →
      Turns.EndBy count body k last m last m'
  | output {count body last limit value m m₁ m'} {k : Nat} :
      Expr.eval Procedure.run count m = .ok limit m₁ → (k : Int) < limit.toInt →
      Block.EndsBy body m₁ (.output value) m' →
      Turns.EndBy count body k last m (.output value) m'
  | again {count body last limit turn ending m m₁ m₂ m'} {k : Nat} :
      Expr.eval Procedure.run count m = .ok limit m₁ → (k : Int) < limit.toInt →
      Block.EndsBy body m₁ turn m₂ → turn.GoesOn →
      Turns.EndBy count body (k + 1) turn m₂ ending m' → Turns.EndBy count body k last m ending m'

end

/-! ## What ends so is run so -/

theorem Exec.procedure_eq_ok {name : Name} {inputs : Nat} {p : Entry} {m m' : Machine} :
    Exec.procedure name inputs m = .ok p m' ↔
      m.procedures[name.text]? = some p ∧ p.arity = inputs ∧ m = m' := by
  rw [Exec.procedure, Exec.bind_eq_ok]
  constructor
  · rintro ⟨_, _, ⟨⟩, ran⟩
    cases found : m.procedures[name.text]? with
    | none =>
      rw [found] at ran
      cases ran
    | some q =>
      rw [found] at ran
      by_cases arity : q.arity = inputs
      · cases (congrFun (if_neg (not_not.2 arity)) m).symm.trans ran
        exact ⟨rfl, arity, rfl⟩
      · cases (congrFun (if_pos arity) m).symm.trans ran
  · rintro ⟨found, arity, rfl⟩
    refine ⟨m, m, rfl, ?_⟩
    rw [found]
    exact congrFun (if_neg (not_not.2 arity)) m

theorem Exec.withScope_eq_ok {α : Type} {locals : Bindings Int32} {x : Exec α} {a : α}
    {m m' : Machine} : Exec.withScope locals x m = .ok a m' ↔
      ∃ m₁, x (m.enter locals) = .ok a m₁ ∧ m₁.leave = m' := by
  unfold Exec.withScope
  cases x (m.enter locals) with
  | ok b m₁ =>
    constructor
    · rintro ⟨⟩
      exact ⟨m₁, rfl, rfl⟩
    · rintro ⟨_, ⟨⟩, rfl⟩
      rfl
  | error e m₁ =>
    constructor
    · rintro ⟨⟩
    · rintro ⟨_, ⟨⟩, _⟩

/-- A call whose inputs are there runs the body of its procedure, if there is room for it. -/
theorem Call.run_of_inputs {name : Name} {arguments : List Expr} {p : Entry} {inputs : List Int32}
    {m m₁ : Machine} (found : m.procedures[name.text]? = some p)
    (arity : p.arity = arguments.length)
    (given : evalAll Procedure.run arguments m = .ok inputs m₁) :
    Call.run Procedure.run (.procedure name arguments) m =
      Exec.within name.text (p.locals inputs) (runBlock Procedure.run .done p.body) m₁ := by
  rw [Call.run, Exec.bind_of_ok (Exec.procedure_eq_ok.2 ⟨found, arity, rfl⟩),
    Exec.bind_of_ok given, Procedure.run_eq]

/-- A call ends if it finds its procedure, the inputs can be evaluated, there is room for one more
procedure, and the body ends. -/
theorem Call.run_eq_ok {name : Name} {arguments : List Expr} {outcome : Outcome} {m m' : Machine} :
    Call.run Procedure.run (.procedure name arguments) m = .ok outcome m' ↔
      ∃ p inputs m₁ m₂, m.procedures[name.text]? = some p ∧ p.arity = arguments.length ∧
        evalAll Procedure.run arguments m = .ok inputs m₁ ∧ m₁.calls < maxDepth ∧
        runBlock Procedure.run .done p.body (m₁.enter (p.locals inputs)) = .ok outcome m₂ ∧
        m₂.leave = m' := by
  constructor
  · intro ran
    rw [Call.run, Exec.bind_eq_ok] at ran
    obtain ⟨p, _, meant, ran⟩ := ran
    obtain ⟨found, arity, rfl⟩ := Exec.procedure_eq_ok.1 meant
    obtain ⟨inputs, m₁, given, ran⟩ := Exec.bind_eq_ok.1 ran
    rw [Procedure.run_eq] at ran
    by_cases full : maxDepth ≤ m₁.calls
    · rw [Exec.within_full full] at ran
      cases ran
    · rw [Exec.within_room full] at ran
      obtain ⟨m₂, body, left⟩ := Exec.withScope_eq_ok.1 ran
      exact ⟨p, inputs, m₁, m₂, found, arity, given, Nat.not_le.1 full, body, left⟩
  · rintro ⟨p, inputs, m₁, m₂, found, arity, given, room, body, left⟩
    rw [Call.run_of_inputs found arity given, Exec.within_room (Nat.not_le.2 room)]
    exact Exec.withScope_eq_ok.2 ⟨m₂, body, left⟩

mutual

theorem Statement.EndsBy.run {s : Statement} {ending : Ending} {m m' : Machine} :
    s.EndsBy m ending m' → s.run Procedure.run m = .ok ending.outcome m'
  | .command ran => by
    rw [Statement.run, Exec.bind_of_ok ran]
    rfl
  | .reporter => by
    rw [Statement.run, Call.run]
    rfl
  | .procedure found arity given room ends => by
    rw [Statement.run]
    exact Call.run_eq_ok.2 ⟨_, _, _, _, found, arity, given, room, ends.run, rfl⟩
  | .output evaluated => by
    rw [Statement.run, Exec.bind_of_ok evaluated]
    rfl
  | .passed fails => by
    rw [Statement.run, Exec.bind_of_ok fails]
    rfl
  | .taken holds ends => by
    rw [Statement.run, Exec.bind_of_ok holds]
    exact ends.run
  | .idle => Statement.run_loop_nil _ _ _
  | .loop busy ends => by
    rw [Statement.run_loop_of_ne_nil busy]
    exact ends.run

theorem Block.EndsBy.run {ss : List Statement} {ending : Ending} {m m' : Machine} :
    Block.EndsBy ss m ending m' → runBlock Procedure.run .done ss m = .ok ending.outcome m'
  | .nil => rfl
  | .last ends => by
    rw [runBlock, Exec.bind_of_ok ends.run, runBlock, ite_self]
    rfl
  | .output ends => by
    rw [runBlock, Exec.bind_of_ok ends.run]
    rfl
  | .next first goes ends => by
    rw [runBlock, Exec.bind_of_ok first.run, Ending.goesOn_iff.1 goes]
    exact ends.run

theorem Turns.EndBy.run {count : Expr} {body : List Statement} {k : Nat} {last ending : Ending}
    {m m' : Machine} : Turns.EndBy count body k last m ending m' →
      loopFrom (count.eval Procedure.run) (runBlock Procedure.run .done body) k last.outcome m =
        .ok ending.outcome m'
  | .finished counted reached => by
    rw [loopFrom, Exec.bind_of_ok counted, dif_neg reached]
    rfl
  | .output counted below ends => by
    rw [loopFrom, Exec.bind_of_ok counted, dif_pos below, Exec.bind_of_ok ends.run]
    rfl
  | .again counted below turn goes ends => by
    rw [loopFrom, Exec.bind_of_ok counted, dif_pos below, Exec.bind_of_ok turn.run,
      Ending.goesOn_iff.1 goes]
    exact ends.run

end

/-! ## What is run ends so -/

/-- Where `x` is run without failing, `ends` says how it ended. -/
def Explained (ends : Machine → Ending → Machine → Prop) (x : Exec Outcome) (m : Machine) : Prop :=
  ∀ ⦃outcome m'⦄, x m = .ok outcome m' → ∃ ending, ends m ending m' ∧ ending.outcome = outcome

/-- The bodies of procedures that are called inside `calls` others end as `Block.EndsBy` tells. -/
def BodiesExplained (calls : Nat) : Prop :=
  calls < maxDepth → ∀ {m : Machine}, m.calls = calls + 1 →
    ∀ ss, Explained (Block.EndsBy ss) (runBlock Procedure.run .done ss) m

theorem runBlock_cons (run : Runner) (last : Outcome) (s : Statement) (rest : List Statement) :
    runBlock run last (s :: rest) = runBlock run .done (s :: rest) := by
  rw [runBlock, runBlock]

theorem Exec.calls_of_ok {α : Type} {x : Exec α} {a : α} {m m' : Machine} {calls : Nat}
    (kept : (x.after m).calls = m.calls) (counted : m.calls = calls) (ran : x m = .ok a m') :
    m'.calls = calls := by
  rw [Exec.after, ran] at kept
  exact kept.trans counted

section

variable {calls : Nat}

theorem turns_explained {count : Expr} {body : List Statement}
    (block : ∀ {m}, m.calls = calls →
      Explained (Block.EndsBy body) (runBlock Procedure.run .done body) m)
    {k : Nat} {last : Outcome} {m : Machine} {r : Ran}
    (unrolls : Unrolls (count.eval Procedure.run) (runBlock Procedure.run .done body) k last m r) :
    m.calls = calls → ∀ before {outcome m'}, Ending.outcome before = last → r = .ok outcome m' →
      ∃ ending, Turns.EndBy count body k before m ending m' ∧ ending.outcome = outcome := by
  induction unrolls with
  | uncounted | failed => exact fun _ _ _ _ _ failed => by cases failed
  | finished counts reached =>
    rintro - before _ _ same ⟨⟩
    exact ⟨before, .finished counts reached, same⟩
  | output counts below ran =>
    rintro counted before _ _ - ⟨⟩
    have counted := Exec.calls_of_ok (count.eval_sameOwn _).calls counted counts
    obtain ⟨ending, ends, same⟩ := block counted ran
    cases Ending.outcome_injective (same.trans (rfl : _ = (Ending.output _).outcome))
    exact ⟨_, .output counts below ends, rfl⟩
  | again counts below ran _ ih =>
    intro counted _ outcome m' _ result
    have counted := Exec.calls_of_ok (count.eval_sameOwn _).calls counted counts
    obtain ⟨turn, ends, same⟩ := block counted ran
    have counted := Exec.calls_of_ok (runBlock_sameOutside .done body _).calls counted ran
    obtain ⟨ending, later, handed⟩ := ih counted turn same result
    have goes : turn.GoesOn := Ending.goesOn_iff.2 (congrArg Outcome.isOutput same)
    exact ⟨ending, .again counts below ends goes later, handed⟩

mutual

theorem Statement.explained (inner : BodiesExplained calls) :
    (s : Statement) → {m : Machine} → m.calls = calls →
      Explained s.EndsBy (s.run Procedure.run) m
  | .command c, m, _ => by
    intro outcome m' ran
    rw [Statement.run] at ran
    obtain ⟨⟨⟩, _, ran, ⟨⟩⟩ := Exec.bind_eq_ok.1 ran
    exact ⟨.other, .command ran, rfl⟩
  | .call (.reporter what), m, _ => by
    intro outcome m' ran
    rw [Statement.run, Call.run] at ran
    cases ran
    exact ⟨_, .reporter, rfl⟩
  | .call (.procedure name arguments), m, counted => by
    intro outcome m' ran
    rw [Statement.run] at ran
    obtain ⟨p, inputs, m₁, m₂, found, arity, given, room, body, rfl⟩ := Call.run_eq_ok.1 ran
    have counted := Exec.calls_of_ok (evalAll_sameOwn arguments m).calls counted given
    obtain ⟨ending, ends, same⟩ :=
      inner (m := m₁.enter (p.locals inputs)) (counted ▸ room) (congrArg (· + 1) counted) _ body
    exact ⟨ending, .procedure found arity given room ends, same⟩
  | .output e, m, _ => by
    intro outcome m' ran
    rw [Statement.run] at ran
    obtain ⟨value, _, evaluated, ⟨⟩⟩ := Exec.bind_eq_ok.1 ran
    exact ⟨_, .output evaluated, rfl⟩
  | .ifTrue condition body, m, counted => by
    intro outcome m' ran
    rw [Statement.run] at ran
    obtain ⟨holds, m₁, decided, ran⟩ := Exec.bind_eq_ok.1 ran
    have counted := Exec.calls_of_ok (condition.eval_sameOwn m).calls counted decided
    cases holds with
    | false =>
      cases ran
      exact ⟨.other, .passed decided, rfl⟩
    | true =>
      obtain ⟨ending, ends, same⟩ := block_explained inner body counted ran
      exact ⟨ending, .taken decided ends, same⟩
  | .loop count [], m, _ => by
    intro outcome m' ran
    rw [Statement.run_loop_nil] at ran
    cases ran
    exact ⟨.other, .idle, rfl⟩
  | .loop count (s :: rest), m, counted => by
    intro outcome m' ran
    rw [Statement.run_loop_of_ne_nil (List.cons_ne_nil s rest), loopFrom_eq_iff] at ran
    obtain ⟨ending, ends, same⟩ :=
      turns_explained (block_explained inner (s :: rest)) ran counted .other rfl rfl
    exact ⟨ending, .loop (List.cons_ne_nil s rest) ends, same⟩

theorem block_explained (inner : BodiesExplained calls) :
    (ss : List Statement) → {m : Machine} → m.calls = calls →
      Explained (Block.EndsBy ss) (runBlock Procedure.run .done ss) m
  | [], m, _ => by
    intro outcome m' ran
    cases ran
    exact ⟨.other, .nil, rfl⟩
  | s :: rest, m, counted => by
    intro outcome m' ran
    rw [runBlock] at ran
    obtain ⟨handed, m₁, first, ran⟩ := Exec.bind_eq_ok.1 ran
    have kept := Exec.calls_of_ok (s.run_sameOutside m).calls counted first
    obtain ⟨ending, ends, rfl⟩ := s.explained inner counted first
    cases rest with
    | nil =>
      rw [runBlock, ite_self] at ran
      cases ran
      exact ⟨ending, .last ends, rfl⟩
    | cons s' rest =>
      by_cases goes : ending.GoesOn
      · rw [Ending.goesOn_iff.1 goes, runBlock_cons] at ran
        obtain ⟨later, follows, same⟩ := block_explained inner (s' :: rest) kept ran
        exact ⟨later, .next ends goes follows, same⟩
      · obtain ⟨value, rfl⟩ : ∃ value, ending = .output value := by simpa [Ending.GoesOn] using goes
        cases ran
        exact ⟨_, .output ends, rfl⟩

end

end

theorem Block.explained (ss : List Statement) (m : Machine) :
    Explained (Block.EndsBy ss) (runBlock Procedure.run .done ss) m := by
  induction room : maxDepth - m.calls generalizing ss m with
  | zero => exact block_explained (fun less => by omega) ss rfl
  | succ n ih => exact block_explained (fun _ _ deeper ss => ih ss _ (by omega)) ss rfl

/-- Statements end in exactly one way if they do not fail. -/
theorem Block.run_eq_ok {ss : List Statement} {ending : Ending} {m m' : Machine} :
    runBlock Procedure.run .done ss m = .ok ending.outcome m' ↔ Block.EndsBy ss m ending m' := by
  refine ⟨fun ran => ?_, Block.EndsBy.run⟩
  obtain ⟨found, ends, same⟩ := Block.explained ss m ran
  rwa [Ending.outcome_injective same] at ends

/-! ## Calls in expressions -/

/-- What a call in an expression makes of an outcome. -/
theorem Factor.eval_call {c : Call} {outcome : Outcome} {m m' : Machine}
    (ran : c.run Procedure.run m = .ok outcome m') :
    (Factor.call c).eval Procedure.run m =
      match outcome.value? with
      | some value => .ok value m'
      | none => .error (.noOutput c.name) m' := by
  rw [Factor.eval, Exec.bind_of_ok ran]
  cases outcome.value? <;> rfl

/-- A call in an expression whose body does not fail has a value just if the body ended by an
`output`, or by a reporter that was run as a statement, of that value; otherwise the call fails,
since no value was handed on. So its value comes from an `output` only, just if no reporter ended the
body. -/
theorem call_value {name : Name} {arguments : List Expr} {p : Entry} {inputs : List Int32}
    {outcome : Outcome} {m m₁ m₂ : Machine} (found : m.procedures[name.text]? = some p)
    (arity : p.arity = arguments.length)
    (given : evalAll Procedure.run arguments m = .ok inputs m₁) (room : m₁.calls < maxDepth)
    (finished : runBlock Procedure.run .done p.body (m₁.enter (p.locals inputs)) =
      .ok outcome m₂) :
    let result := (Factor.call (.procedure name arguments)).eval Procedure.run m
    let ends := fun ending => Block.EndsBy p.body (m₁.enter (p.locals inputs)) ending m₂
    (∃! ending, ends ending) ∧
    (∀ value, result = .ok value m₂.leave ↔ ends (.output value) ∨ ends (.reporter value)) ∧
    (result = .error (.noOutput name.text) m₂.leave ↔ ends .other) ∧
    ((∀ value, result = .ok value m₂.leave ↔ ends (.output value)) ↔
      ∀ value, ¬ ends (.reporter value)) := by
  intro result ends
  obtain ⟨ending, ended, rfl⟩ := Block.explained _ _ finished
  have only {ending' : Ending} : ends ending' ↔ ending = ending' := by
    refine ⟨fun also => Ending.outcome_injective ?_, fun same => same ▸ ended⟩
    exact (EStateM.Result.ok.inj (finished.symm.trans also.run)).1
  have ran : Call.run Procedure.run (.procedure name arguments) m = .ok ending.outcome m₂.leave :=
    Call.run_eq_ok.2 ⟨p, inputs, m₁, m₂, found, arity, given, room, finished, rfl⟩
  have valued : result = _ := Factor.eval_call ran
  refine ⟨⟨ending, ended, fun _ also => (only.1 also).symm⟩, ?_⟩
  simp only [only, valued]
  cases ending with
  | output value | reporter value => simp [Ending.outcome, Outcome.value?]
  | other => simp [Ending.outcome, Outcome.value?, Outcome.done, Call.name]

/-- An `output` in a procedure that is called as a statement gives `f` its value, before `getx` is
run. -/
theorem call_value_output :
    let name (text : String) : Name := ⟨text, .start⟩
    let g : Procedure := ⟨"g", [], [.output (.single false (.single (.number 7)))]⟩
    let f : Procedure := ⟨"f", [],
      [.ifTrue (.single (.constant true)) [.call (.procedure (name "g") [])], .call (.reporter .x)]⟩
    let m := ((Machine.initial (.scripted [])).define g).define f
    (Factor.call (.procedure (name "f") [])).eval Procedure.run m = .ok 7 m := by
  intro name g f m
  have f_known : m.procedures[(name "f").text]? = some f.entry :=
    Std.ExtTreeMap.getElem?_insert_self
  let entered := m.enter (f.entry.locals [])
  have g_known : entered.procedures[(name "g").text]? = some g.entry :=
    Std.ExtTreeMap.getElem?_insert.trans
      ((if_neg (by decide)).trans Std.ExtTreeMap.getElem?_insert_self)
  have no_inputs (m : Machine) : evalAll Procedure.run [] m = .ok [] m := rfl
  have inside : Block.EndsBy g.entry.body (entered.enter (g.entry.locals [])) (.output 7)
      (entered.enter (g.entry.locals [])) :=
    .last (.output rfl)
  have ends : Block.EndsBy f.entry.body entered (.output 7) entered :=
    .output (.taken rfl (.last (.procedure g_known rfl (no_inputs _) (by decide) inside)))
  exact ((call_value f_known rfl (no_inputs m) (by decide) ends.run).2.1 7).2 (.inl ends)

/-- In `to f getx end print f`, no `output` ends the body of `f`, and yet `f` has a value. -/
theorem call_value_reporter :
    let f : Procedure := ⟨"f", [], [.call (.reporter .x)]⟩
    let m := (Machine.initial (.scripted [])).define f
    (Factor.call (.procedure ⟨"f", .start⟩ [])).eval Procedure.run m = .ok 250 m ∧
    (∀ value m', ¬ Block.EndsBy f.body (m.enter ∅) (.output value) m') ∧
    ((Machine.initial (.scripted [])).submit "to f getx end print f").1 = ⟨"250\n", ""⟩ := by
  intro f m
  have known : m.procedures["f"]? = some f.entry := Std.ExtTreeMap.getElem?_insert_self
  have ends : Block.EndsBy f.body (m.enter ∅) (.reporter 250) (m.enter ∅) := .last .reporter
  have ran : Call.run Procedure.run (.procedure ⟨"f", .start⟩ []) m = .ok (.ended (some 250)) m :=
    Call.run_eq_ok.2 ⟨_, [], m, _, known, rfl, rfl, by decide, ends.run, rfl⟩
  refine ⟨Factor.eval_call ran, ?_, by decide +kernel⟩
  rintro value m' (_ | never | never)
  · cases never
  · cases never

end Logo
