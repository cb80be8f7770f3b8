import Logo.Proofs.Session

/-!
# Loops

A loop counts the times its body was run, from zero. Before each time it evaluates its count, in the
context that the time before has left; it ends when the counter is not below what it found, when
evaluating or running fails, and when an `output` is met. `Unrolls` says so turn by turn, and does
not say why a loop comes to an end: that there is a result, and only one, follows from what
`loopFrom` does.

A loop without statements is the exception. It ends at once, without evaluating its count, so that
the effects and the errors of its count are missing.

Results:
1. `loopFrom_eq_iff`: a loop with statements does what its turns do.
2. `loop_unrolls`: what every loop does, and for which of them that is what its turns do.
-/

namespace Logo

/-- What comes of running a statement. -/
abbrev Ran := EStateM.Result RuntimeError Machine Outcome

/-- `Unrolls count body k last m r`: a loop whose body was run `k` times, the last time with the
outcome `last`, goes on in `m` and comes to `r`. -/
inductive Unrolls (count : Exec Int32) (body : Exec Outcome) :
    Nat → Outcome → Machine → Ran → Prop
  | uncounted {k : Nat} {last m e m'} : count m = .error e m' →
      Unrolls count body k last m (.error e m')
  | finished {k : Nat} {last m limit m'} : count m = .ok limit m' →
      ¬ (k : Int) < limit.toInt → Unrolls count body k last m (.ok last m')
  | failed {k : Nat} {last m limit m₁ e m'} : count m = .ok limit m₁ → (k : Int) < limit.toInt →
      body m₁ = .error e m' → Unrolls count body k last m (.error e m')
  | output {k : Nat} {last m limit m₁ value m'} : count m = .ok limit m₁ → (k : Int) < limit.toInt →
      body m₁ = .ok (.output value) m' → Unrolls count body k last m (.ok (.output value) m')
  | again {k : Nat} {last m limit m₁ value m₂ r} : count m = .ok limit m₁ →
      (k : Int) < limit.toInt → body m₁ = .ok (.ended value) m₂ →
      Unrolls count body (k + 1) (.ended value) m₂ r → Unrolls count body k last m r

section

variable {count : Exec Int32} {body : Exec Outcome} {k : Nat} {last : Outcome} {m : Machine}
  {r : Ran}

/-- A count is below `2 ^ 31`, so that the counter comes closer to that with every turn. -/
theorem unrolls_loopFrom (count : Exec Int32) (body : Exec Outcome) (k : Nat) (last : Outcome)
    (m : Machine) : Unrolls count body k last m (loopFrom count body k last m) := by
  induction left : 2147483648 - k using Nat.strongRecOn generalizing k last m with
  | ind n ih =>
    rw [loopFrom]
    cases counted : count m with
    | error e m' =>
      rw [Exec.bind_of_error counted]
      exact .uncounted counted
    | ok limit m₁ =>
      rw [Exec.bind_of_ok counted]
      by_cases below : (k : Int) < limit.toInt
      · rw [dif_pos below]
        cases ran : body m₁ with
        | error e m' =>
          rw [Exec.bind_of_error ran]
          exact .failed counted below ran
        | ok outcome m₂ =>
          rw [Exec.bind_of_ok ran]
          cases outcome with
          | output value => exact .output counted below ran
          | ended value =>
            have small := limit.toInt_lt
            exact .again counted below ran (ih _ (by omega) (k + 1) (.ended value) m₂ rfl)
      · rw [dif_neg below]
        exact .finished counted below

/-- There is one thing that the turns of a loop can come to. -/
theorem Unrolls.eq_loopFrom (unrolls : Unrolls count body k last m r) :
    r = loopFrom count body k last m := by
  induction unrolls with
  | uncounted counted => rw [loopFrom, Exec.bind_of_error counted]
  | finished counted reached =>
    rw [loopFrom, Exec.bind_of_ok counted, dif_neg reached]
    rfl
  | failed counted below ran =>
    rw [loopFrom, Exec.bind_of_ok counted, dif_pos below, Exec.bind_of_error ran]
  | output counted below ran =>
    rw [loopFrom, Exec.bind_of_ok counted, dif_pos below, Exec.bind_of_ok ran]
    rfl
  | again counted below ran _ ih =>
    rw [loopFrom, Exec.bind_of_ok counted, dif_pos below, Exec.bind_of_ok ran]
    exact ih

theorem loopFrom_eq_iff : loopFrom count body k last m = r ↔ Unrolls count body k last m r :=
  ⟨fun same => same ▸ unrolls_loopFrom count body k last m, fun unrolls => unrolls.eq_loopFrom.symm⟩

end

theorem Statement.run_loop_nil (run : Runner) (count : Expr) (m : Machine) :
    (Statement.loop count []).run run m = .ok .done m := by
  rw [Statement.run]
  rfl

theorem Statement.run_loop_of_ne_nil {run : Runner} {count : Expr} {body : List Statement}
    (some : body ≠ []) :
    (Statement.loop count body).run run =
      loopFrom (count.eval run) (runBlock run .done body) 0 .done := by
  rw [Statement.run, if_neg (by rwa [List.isEmpty_iff])]

/-- A loop with statements does what its turns do, and one without statements does nothing. A loop
without statements thus does what its turns would do just if that is nothing. -/
theorem loop_unrolls (count : Expr) (body : List Statement) (m : Machine) :
    let turns := Unrolls (count.eval Procedure.run) (runBlock Procedure.run .done body) 0 .done m
    (∀ r, (Statement.loop count body).run Procedure.run m = r ↔
      if body = [] then r = .ok .done m else turns r) ∧
    ((∀ r, (Statement.loop count body).run Procedure.run m = r ↔ turns r) ↔
      body ≠ [] ∨ turns (.ok .done m)) := by
  intro turns
  by_cases none : body = []
  · subst none
    have nothing := Statement.run_loop_nil Procedure.run count m
    have only {r} : turns r ↔ loopFrom _ _ 0 .done m = r := loopFrom_eq_iff.symm
    refine ⟨fun r => ?_, fun same => .inr ((same _).1 nothing), fun stays r => ?_⟩
    · rw [nothing, if_pos rfl, eq_comm]
    · have stays := only.1 (stays.resolve_left (absurd rfl))
      rw [nothing, only, stays]
  · have same (r : Ran) : (Statement.loop count body).run Procedure.run m = r ↔ turns r := by
      rw [Statement.run_loop_of_ne_nil none]
      exact loopFrom_eq_iff
    refine ⟨fun r => ?_, fun _ => .inl none, fun _ => same⟩
    rw [if_neg none]
    exact same r

/-- Dividing by zero ends the turns of a loop, but not the loop if it has no statements. -/
theorem loop_empty_uncounted :
    let m := Machine.initial (.scripted [])
    let count := Expr.single false (.chain (.number 1) .over (.single (.number 0)))
    Unrolls (count.eval Procedure.run) (runBlock Procedure.run .done []) 0 .done m
      (.error .divisionByZero m) ∧
    (Statement.loop count []).run Procedure.run m = .ok .done m ∧
    (m.submit "repeat 1 / 0 []").1 = ⟨"", ""⟩ ∧
    (m.submit "repeat 1 / 0 [print 1]").1 = ⟨"", "division by zero\n"⟩ :=
  ⟨.uncounted rfl, Statement.run_loop_nil _ _ _, by decide +kernel, by decide +kernel⟩

end Logo
