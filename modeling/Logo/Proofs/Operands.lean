import Mathlib
import Logo.Proofs.Session
import Logo.Proofs.Writing

/-!
# Operands first

A statement that runs no other statements evaluates its operands, from left to right as they are
written, and then does one thing with their values (`Statement.act`). That one thing is done or
refused as a whole: a time can be negative, and a question can find no answer left.

So a statement that fails does nothing itself. What it leaves is what its operands have left, up to
the one that failed; and operands in which no procedure is called leave everything as it was.

Results:
1. `Statement.run_eq`: such a statement evaluates its operands and then acts.
2. `evalAll_eq_error`: operands are evaluated up to the first that fails.
3. `evalAll_still`: what calls no procedure changes nothing.
4. `failure_undoes_nothing`: why such a statement fails, and what it leaves.
-/

namespace Logo

/-! ## Acting on values -/

/-- What a command does with the values of its operands. -/
def Command.act : Command → List Int32 → Exec Unit
  | .forward _, [length] => modify (·.forward length)
  | .back _, [length] => modify (·.forward (-length))
  | .right _, [angle] => modify (·.turn (-angle))
  | .left _, [angle] => modify (·.turn angle)
  | .moveBy _ _, [dx, dy] => modify (·.moveBy dx dy)
  | .moveTo _ _, [x, y] => modify (·.moveTo ⟨x, y⟩)
  | .setHeading _, [heading] => modify (·.setHeading heading)
  | .home, [] => modify (·.home)
  | .clearScreen, [] => modify (·.clear)
  | .penUp, [] => modify (·.setPen false)
  | .penDown, [] => modify (·.setPen true)
  | .setColor _ _ _, [red, green, blue] => modify (·.setColour red green blue)
  | .printText text, [] => modify (·.print (text ++ "\n"))
  | .printNumber _, [value] => modify (·.print (toString value.toInt ++ "\n"))
  | .scan reach target, [] => do
    let value ← Exec.prompt target
    modify (·.assign reach target.text value)
  | .make reach target _, [value] => modify (·.assign reach target.text value)
  | .sleep _, [ms] =>
    if ms < 0 then throw (.negativeSleep ms) else modify (·.tell (.sleeping ms.toInt))
  -- there are as many values as operands
  | _, _ => return

/-- The operands of a statement that runs no other statements: a command, an `output`, or a
reporter. -/
def Statement.operands? : Statement → Option (List Expr)
  | .command c => some c.operands
  | .output value => some [value]
  | .call (.reporter _) => some []
  | .call (.procedure _ _) | .ifTrue _ _ | .loop _ _ => none

/-- What such a statement does with the values of its operands. -/
def Statement.act : Statement → List Int32 → Exec Outcome
  | .command c, values => do
    c.act values
    return .done
  | .output _, [value] => return .output value
  | .call (.reporter what), [] => return .ended (some (what.report (← get).turtle))
  | _, _ => return .done

theorem Command.run_eq (run : Runner) (c : Command) :
    c.run run = evalAll run c.operands >>= c.act := by
  cases c <;>
    simp only [Command.run, Command.operands, evalAll, bind_assoc, pure_bind, Command.act]

variable {s : Statement} {operands : List Expr}

theorem Statement.operands?_cases (plain : s.operands? = some operands) :
    (∃ c, s = .command c ∧ c.operands = operands) ∨
      (∃ value, s = .output value ∧ [value] = operands) ∨
      ∃ what, s = .call (.reporter what) ∧ [] = operands := by
  cases s with
  | command c => exact .inl ⟨c, rfl, Option.some.inj plain⟩
  | output value => exact .inr (.inl ⟨value, rfl, Option.some.inj plain⟩)
  | call c =>
    cases c with
    | reporter what => exact .inr (.inr ⟨what, rfl, Option.some.inj plain⟩)
    | procedure name arguments => cases plain
  | ifTrue condition body => cases plain
  | loop count body => cases plain

/-- A statement that runs no other statements evaluates its operands and then acts. -/
theorem Statement.run_eq (run : Runner) (plain : s.operands? = some operands) :
    s.run run = evalAll run operands >>= s.act := by
  obtain ⟨c, rfl, rfl⟩ | ⟨value, rfl, rfl⟩ | ⟨what, rfl, rfl⟩ := operands?_cases plain
  · rw [Statement.run, Command.run_eq, bind_assoc]
    rfl
  · simp only [Statement.run, evalAll, bind_assoc, pure_bind, Statement.act]
  · simp only [Statement.run, Call.run, evalAll, pure_bind, Statement.act]

theorem Statement.calls_eq (plain : s.operands? = some operands) :
    s.calls = callsInAll operands := by
  obtain ⟨c, rfl, rfl⟩ | ⟨value, rfl, rfl⟩ | ⟨what, rfl, rfl⟩ := operands?_cases plain
  · rfl
  · rw [Statement.calls, callsInAll, callsInAll, List.append_nil]
  · rfl

/-- The writing of such a statement ends with that of its operands, one after the other. -/
theorem Statement.operands_written (plain : s.operands? = some operands) :
    marksOfAll operands <:+ s.marks := by
  obtain ⟨c, rfl, rfl⟩ | ⟨value, rfl, rfl⟩ | ⟨what, rfl, rfl⟩ := operands?_cases plain
  · exact List.suffix_append _ _
  · rw [marksOfAll, marksOfAll, List.append_nil, Statement.marks]
    exact List.suffix_cons _ _
  · exact List.nil_suffix

/-! ## Evaluating operands -/

section

variable {run : Runner} {m m' : Machine}

theorem evalAll_cons_eq_ok {e : Expr} {es : List Expr} {values : List Int32} :
    evalAll run (e :: es) m = .ok values m' ↔
      ∃ value m₁ others, e.eval run m = .ok value m₁ ∧ evalAll run es m₁ = .ok others m' ∧
        value :: others = values := by
  rw [evalAll, Exec.bind_eq_ok]
  refine exists_congr fun value => exists_congr fun m₁ => ?_
  rw [Exec.bind_eq_ok]
  constructor
  · rintro ⟨first, others, _, following, ⟨⟩⟩
    exact ⟨others, first, following, rfl⟩
  · rintro ⟨others, first, following, rfl⟩
    exact ⟨first, others, m', following, rfl⟩

/-- Operands are evaluated one after the other, up to the first that fails. -/
theorem evalAll_eq_error {es : List Expr} {e : RuntimeError} :
    evalAll run es m = .error e m' ↔
      ∃ before x after values m₁, es = before ++ x :: after ∧
        evalAll run before m = .ok values m₁ ∧ x.eval run m₁ = .error e m' := by
  induction es generalizing m with
  | nil =>
    refine ⟨nofun, ?_⟩
    rintro ⟨before, x, after, _, _, none, _⟩
    cases before <;> cases none
  | cons first es ih =>
    rw [evalAll, Exec.bind_eq_error]
    simp only [Exec.bind_eq_error (x := evalAll run es), ih]
    constructor
    · rintro (failed | ⟨value, m₁, evaluated, later | ⟨_, _, _, ⟨⟩⟩⟩)
      · exact ⟨[], first, es, [], m, rfl, rfl, failed⟩
      · obtain ⟨before, x, after, values, m₂, rfl, earlier, failed⟩ := later
        exact ⟨first :: before, x, after, value :: values, m₂, rfl,
          evalAll_cons_eq_ok.2 ⟨value, m₁, values, evaluated, earlier, rfl⟩, failed⟩
    · rintro ⟨_ | ⟨first', before⟩, x, after, values, m₂, split, earlier, failed⟩
      · cases split
        cases earlier
        exact .inl failed
      · cases split
        obtain ⟨value, m₁, others, evaluated, following, rfl⟩ := evalAll_cons_eq_ok.1 earlier
        exact .inr ⟨value, m₁, evaluated, .inl ⟨before, x, after, others, m₂, rfl, following, failed⟩⟩

end

/-- What is promised of computations that only look at the machine. -/
def Contract.looking : Contract where
  Before _ := True
  Leads m m' := m' = m
  Fails _ := True
  refl _ := rfl
  trans first second := second.trans first
  keeps _ _ := trivial
  ordinary _ := trivial

/-- What calls no procedure changes nothing, whether or not it fails. -/
theorem evalAll_still {run : Runner} {es : List Expr} (uncalled : callsInAll es = [])
    (m : Machine) : (evalAll run es).after m = m := by
  have alike : Contract.looking.Alike (evalAll run es) (evalAll run es) :=
    evalAll_alike es fun site inside => by
      rw [uncalled] at inside
      cases inside
  exact (alike m trivial).2.leads_after

/-! ## Statements that fail -/

/-- Why a statement is not done although its operands have these values: a time is negative, or
no answer is left for a question. -/
inductive Statement.Refused : Statement → List Int32 → Machine → RuntimeError → Prop
  | sleep {e ms m} : ms < 0 → Refused (.command (.sleep e)) [ms] m (.negativeSleep ms)
  | scan {reach target m} : m.canvas.answers = .scripted [] →
      Refused (.command (.scan reach target)) [] m (.noInput target)

/-- Where no answer is left, asking changes nothing. -/
theorem Exec.prompt_eq_error {name : Name} {answers : List Int32} {e : RuntimeError}
    {m m' : Machine} (scripted : m.canvas.answers = .scripted answers) :
    Exec.prompt name m = .error e m' ↔ answers = [] ∧ e = .noInput name ∧ m' = m := by
  obtain ⟨turtle, scopes, procedures, calls, ⟨ops, _⟩, log, errors, journal⟩ := m
  cases scripted
  rw [Exec.prompt_eq]
  cases answers with
  | nil =>
    constructor
    · rintro ⟨⟩
      exact ⟨rfl, rfl, rfl⟩
    · rintro ⟨-, rfl, rfl⟩
      rfl
  | cons value values => exact ⟨nofun, nofun⟩

/-- Acting fails in two ways. -/
theorem Command.act_failed {c : Command} {values : List Int32} {e : RuntimeError} {m m' : Machine}
    (failed : c.act values m = .error e m') :
    (∃ x ms, c = .sleep x ∧ values = [ms] ∧ ms < 0 ∧ e = .negativeSleep ms ∧ m' = m) ∨
      ∃ reach target, c = .scan reach target ∧ values = [] ∧ Exec.prompt target m = .error e m' := by
  revert failed
  fun_cases Command.act c values
  case case15 reach target =>
    intro failed
    obtain unanswered | ⟨_, _, _, ⟨⟩⟩ := Exec.bind_eq_error.1 failed
    exact .inr ⟨reach, target, rfl, rfl, unanswered⟩
  case case17 x ms below =>
    rintro ⟨⟩
    exact .inl ⟨x, ms, rfl, rfl, below, rfl, rfl⟩
  all_goals exact nofun

/-- Acting fails only where it is refused, and then changes nothing. A question is asked where the
statement begins, since `scan` has no operands. -/
theorem Statement.act_eq_error {run : Runner} {answers values : List Int32} {e : RuntimeError}
    {m m₁ m' : Machine} (plain : s.operands? = some operands)
    (scripted : m.canvas.answers = .scripted answers)
    (given : evalAll run operands m = .ok values m₁) :
    s.act values m₁ = .error e m' ↔ s.Refused values m₁ e ∧ m' = m₁ := by
  constructor
  · intro failed
    obtain ⟨c, rfl, rfl⟩ | ⟨value, rfl, rfl⟩ | ⟨what, rfl, rfl⟩ := operands?_cases plain
    · obtain failed | ⟨_, _, _, ⟨⟩⟩ := Exec.bind_eq_error.1 failed
      obtain ⟨x, ms, rfl, rfl, below, rfl, rfl⟩ | ⟨reach, target, rfl, rfl, unanswered⟩ :=
        Command.act_failed failed
      · exact ⟨.sleep below, rfl⟩
      · cases given
        obtain ⟨rfl, rfl, rfl⟩ := (Exec.prompt_eq_error scripted).1 unanswered
        exact ⟨.scan scripted, rfl⟩
    · obtain ⟨_, _, _, -, ⟨⟩, rfl⟩ := evalAll_cons_eq_ok.1 given
      cases failed
    · cases given
      cases failed
  · rintro ⟨refused, rfl⟩
    cases refused with
    | sleep below =>
      rw [Statement.act, Command.act, if_pos below]
      rfl
    | scan unanswered =>
      rw [Statement.act, Command.act, bind_assoc]
      exact Exec.bind_of_error ((Exec.prompt_eq_error unanswered).2 ⟨rfl, rfl, rfl⟩)

section

variable {answers : List Int32} {m : Machine}

/-- What a statement that fails leaves is what its operands have left. -/
theorem Statement.after_of_error {e : RuntimeError} {m' : Machine}
    (plain : s.operands? = some operands) (scripted : m.canvas.answers = .scripted answers)
    (failed : s.run Procedure.run m = .error e m') :
    m' = (evalAll Procedure.run operands).after m := by
  rw [run_eq _ plain, Exec.bind_eq_error] at failed
  obtain failed | ⟨values, m₁, given, failed⟩ := failed
  · exact (Exec.after_of_error failed).symm
  · obtain ⟨-, rfl⟩ := (act_eq_error plain scripted given).1 failed
    exact (Exec.after_of_ok given).symm

/-- A statement that runs no other statements fails just if one of its operands does, after those
that stand before it in the text have been evaluated, or if it is refused when all have been. It
leaves what its operands have left; and so everything as it was, if they call no procedure. -/
theorem failure_undoes_nothing (plain : s.operands? = some operands)
    (scripted : m.canvas.answers = .scripted answers) :
    marksOfAll operands <:+ s.marks ∧
    (∀ e m', s.run Procedure.run m = .error e m' ↔
      (∃ before x after values m₁, operands = before ++ x :: after ∧
        evalAll Procedure.run before m = .ok values m₁ ∧
        x.eval Procedure.run m₁ = .error e m') ∨
      ∃ values, evalAll Procedure.run operands m = .ok values m' ∧ s.Refused values m' e) ∧
    (∀ e m', s.run Procedure.run m = .error e m' →
      m' = (evalAll Procedure.run operands).after m) ∧
    (s.calls = [] → ∀ e m', s.run Procedure.run m = .error e m' → m' = m) := by
  refine ⟨Statement.operands_written plain, fun e m' => ?_,
    fun e m' => Statement.after_of_error plain scripted, fun uncalled e m' failed => ?_⟩
  · rw [Statement.run_eq _ plain, Exec.bind_eq_error, evalAll_eq_error]
    refine or_congr_right ⟨?_, ?_⟩
    · rintro ⟨values, m₁, given, failed⟩
      obtain ⟨refused, rfl⟩ := (Statement.act_eq_error plain scripted given).1 failed
      exact ⟨values, given, refused⟩
    · rintro ⟨values, given, refused⟩
      exact ⟨values, m', given, (Statement.act_eq_error plain scripted given).2 ⟨refused, rfl⟩⟩
  · rw [Statement.after_of_error plain scripted failed]
    exact evalAll_still ((Statement.calls_eq plain).symm.trans uncalled) m

end

/-- The first operand takes the turtle elsewhere before the second fails: there the turtle stays, and
it is not moved by the command. -/
theorem failure_undoes_nothing_move :
    let called : Expr := .single false (.single (.call (.procedure ⟨"f", .start⟩ [])))
    let quotient : Expr := .single false (.chain (.number 1) .over (.single (.number 0)))
    let s : Statement := .command (.moveBy called quotient)
    let m := (Machine.initial (.scripted [])).submitAll ["to f setxy 1 2 output 3 end"]
    s.operands? = some [called, quotient] ∧ m.canvas.answers = .scripted [] ∧
    s.run Procedure.run m = .error .divisionByZero (m.moveTo ⟨1, 2⟩) := by
  dsimp only
  have scripted : ((Machine.initial (.scripted [])).submitAll
      ["to f setxy 1 2 output 3 end"]).canvas.answers = .scripted [] := by cbv
  have first : evalAll Procedure.run
      [.single false (.single (.call (.procedure ⟨"f", .start⟩ [])))]
      ((Machine.initial (.scripted [])).submitAll ["to f setxy 1 2 output 3 end"]) =
        .ok [3] (((Machine.initial (.scripted [])).submitAll
          ["to f setxy 1 2 output 3 end"]).moveTo ⟨1, 2⟩) := by cbv
  refine ⟨rfl, scripted, ?_⟩
  exact ((failure_undoes_nothing rfl scripted).2.1 _ _).2
    (.inl ⟨_, _, [], [3], _, rfl, first, rfl⟩)

end Logo
