import Mathlib
import Logo.Proofs.Drawing
import Logo.Proofs.Operands

/-!
# What turns add up to

Turning left adds to the heading, turning right takes away from it, and both are computed with 32 bits
before the sum is reduced to less than a full turn. Since 2 ^ 32 is not a multiple of a full turn, a
sum that overflows leads to another heading than the exact sum does. It overflows only upwards,
because the heading it starts from is not negative.

`Course` keeps the exact sum together with the number of turns that overflowed. Where these are a
multiple of 225, they cancel, since 225 is a full turn over its greatest common divisor with 2 ^ 32.

Results:
1. `Course.shown_after`: one turn.
2. `Turned.heading_eq`: turns one after the other.
3. `turns_add_up`: how far headings are exact, from all machines that can be reached.
-/

namespace Logo

/-! ## Turns -/

/-- What a command that turns does, with the value of its operand. -/
inductive Turn where
  | left (angle : Int32)
  | right (angle : Int32)
  | head (heading : Int32)
  | home
  deriving DecidableEq, Repr

/-- The turn that a command makes when its operands have these values. -/
def Command.turn? : Command → List Int32 → Option Turn
  | .left _, [angle] => some (.left angle)
  | .right _, [angle] => some (.right angle)
  | .setHeading _, [heading] => some (.head heading)
  | .home, [] => some .home
  | _, _ => none

/-- The heading after a turn, as it is computed. -/
def Turn.heading (heading : Int32) : Turn → Int32
  | .left angle => modulo (heading + angle) Turtle.fullTurn
  | .right angle => modulo (heading + -angle) Turtle.fullTurn
  | .head heading => modulo heading Turtle.fullTurn
  | .home => Turtle.homeHeading

/-- The heading after a turn, with nothing reduced. -/
def Turn.exact (heading : Int) : Turn → Int
  | .left angle => heading + angle.toInt
  | .right angle => heading - angle.toInt
  | .head heading => heading.toInt
  | .home => 900

/-- Commands made these turns on the way from one machine to another. The turns that a command makes
come after those that are made while its operands are evaluated; whatever else is done does not
turn. -/
inductive Turned : Machine → List Turn → Machine → Prop
  | still {m m'} : m'.turtle.heading = m.turtle.heading → Turned m [] m'
  | append {m m₁ m' ts us} : Turned m ts m₁ → Turned m₁ us m' → Turned m (ts ++ us) m'
  | command {c : Command} {values t m m₁ m' ts} :
      evalAll Procedure.run c.operands m = .ok values m₁ → Turned m ts m₁ →
      c.turn? values = some t → c.run Procedure.run m = .ok () m' → Turned m (ts ++ [t]) m'

/-- A command whose operands turn nothing makes one turn. -/
theorem Turned.once {c : Command} {values : List Int32} {t : Turn} {m m₁ m' : Machine}
    (given : evalAll Procedure.run c.operands m = .ok values m₁)
    (still : m₁.turtle.heading = m.turtle.heading) (turns : c.turn? values = some t)
    (ran : c.run Procedure.run m = .ok () m') : Turned m [t] m' :=
  .command given (.still still) turns ran

theorem Command.heading_act {c : Command} {values : List Int32} {t : Turn} {m m' : Machine}
    (turns : c.turn? values = some t) (ran : c.act values m = .ok () m') :
    m'.turtle.heading = t.heading m.turtle.heading := by
  revert turns
  fun_cases Command.turn? c values
  case case5 => exact nofun
  all_goals
    rintro ⟨⟩
    cases ran
    rfl

/-- One if the sum needs more than 32 bits. There is no sum where a heading is set. -/
def Turn.overflow (heading : Int) : Turn → Nat
  | .left angle => if 2147483648 ≤ heading + angle.toInt then 1 else 0
  | .right angle => if 2147483648 ≤ heading - angle.toInt then 1 else 0
  | .head _ | .home => 0

/-- What is computed for a turn is exact, but for the overflow. -/
theorem Turn.toInt_heading (t : Turn) {heading : Int32}
    (range : 0 ≤ heading.toInt ∧ heading.toInt < 3600) :
    (t.heading heading).toInt =
      (t.exact heading.toInt - 4294967296 * t.overflow heading.toInt) % 3600 := by
  have reduced (value : Int32) : (modulo value Turtle.fullTurn).toInt = value.toInt % 3600 := by
    rw [modulo, Turtle.fullTurn, Int32.toInt_ofInt_of_le (by omega) (by omega)]
    rfl
  cases t with
  | left angle =>
    have lower := angle.le_toInt
    have upper := angle.toInt_lt
    rw [Turn.heading, reduced, Int32.toInt_add, Int.bmod_def, Turn.exact, Turn.overflow]
    split <;> split <;> omega
  | right angle =>
    have lower := angle.le_toInt
    have upper := angle.toInt_lt
    rw [Turn.heading, reduced, ← Int32.sub_eq_add_neg, Int32.toInt_sub, Int.bmod_def, Turn.exact,
      Turn.overflow]
    split <;> split <;> omega
  | head value =>
    rw [Turn.heading, reduced, Turn.exact, Turn.overflow, Nat.cast_zero, mul_zero, sub_zero]
  | home => rfl

/-! ## Counting overflows -/

/-- What turns have added up to. -/
structure Course where
  /-- The heading that was set last, with all that was added and taken away since then. -/
  exact : Int
  /-- How many turns have overflowed since then. -/
  overflows : Nat
  deriving DecidableEq, Repr

namespace Course

/-- The heading in which the turtle is seen. -/
def shown (c : Course) : Int := (c.exact - 4294967296 * c.overflows) % 3600

/-- The course after one more turn. -/
def after (c : Course) (t : Turn) : Course where
  exact := t.exact c.exact
  overflows :=
    match t with
    | .left _ | .right _ => c.overflows + t.overflow c.shown
    | .head _ | .home => 0

theorem shown_range (c : Course) : 0 ≤ c.shown ∧ c.shown < 3600 :=
  ⟨Int.emod_nonneg _ (by decide), Int.emod_lt_of_pos _ (by decide)⟩

/-- One turn. What it starts from need not be known exactly. -/
theorem shown_after (c : Course) (t : Turn) :
    (c.after t).shown = (t.exact c.shown - 4294967296 * t.overflow c.shown) % 3600 := by
  cases t with
  | left angle =>
    simp only [after, Turn.exact, shown]
    omega
  | right angle =>
    simp only [after, Turn.exact, shown]
    omega
  | head value => rfl
  | home => rfl

theorem exact_foldl (c : Course) (ts : List Turn) :
    (ts.foldl after c).exact = ts.foldl Turn.exact c.exact := by
  induction ts generalizing c with
  | nil => rfl
  | cons t ts ih => exact ih (c.after t)

theorem shown_start {heading : Int} (range : 0 ≤ heading ∧ heading < 3600) :
    shown ⟨heading, 0⟩ = heading := by
  rw [shown, Nat.cast_zero, mul_zero, sub_zero, Int.emod_eq_of_lt range.1 range.2]

/-- The overflows cancel just if there are a multiple of 225 of them. -/
theorem shown_eq_exact_iff (c : Course) : c.shown = c.exact % 3600 ↔ 225 ∣ c.overflows := by
  rw [shown]
  omega

/-- One overflow does not cancel, nor do two. -/
theorem shown_back {heading : Int} (range : 0 ≤ heading ∧ heading < 3600) (angle : Int32) :
    ([.right angle, .left angle].foldl after ⟨heading, 0⟩).shown = heading ↔
      heading - angle.toInt < 2147483648 ∧
      (heading - angle.toInt) % 3600 + angle.toInt < 2147483648 := by
  have first := shown_after ⟨heading, 0⟩ (.right angle)
  rw [shown_start range, Turn.exact, Turn.overflow] at first
  rw [List.foldl_cons, List.foldl_cons, List.foldl_nil, shown_after, first, Turn.exact,
    Turn.overflow]
  split <;> split <;> omega

end Course

/-- An angle that makes no heading overflow. -/
def Turn.Modest : Turn → Prop
  | .left angle => angle.toInt ≤ 2147480048
  | .right angle => -2147480048 ≤ angle.toInt
  | .head _ | .home => True

theorem Turn.Modest.overflow_eq_zero {t : Turn} (modest : t.Modest) {heading : Int}
    (below : heading < 3600) : t.overflow heading = 0 := by
  cases t with
  | left angle => exact if_neg (by have small : angle.toInt ≤ 2147480048 := modest; omega)
  | right angle => exact if_neg (by have small : -2147480048 ≤ angle.toInt := modest; omega)
  | head value => rfl
  | home => rfl

theorem Course.overflows_eq_zero {c : Course} {ts : List Turn} (modest : ∀ t ∈ ts, t.Modest)
    (none : c.overflows = 0) : (ts.foldl after c).overflows = 0 := by
  induction ts generalizing c with
  | nil => exact none
  | cons t ts ih =>
    refine ih (fun t among => modest t (List.mem_cons_of_mem _ among)) ?_
    have added := (modest t List.mem_cons_self).overflow_eq_zero c.shown_range.2
    cases t with
    | left angle => rw [after, added, none]
    | right angle => rw [after, added, none]
    | head value => rfl
    | home => rfl

/-! ## Turns one after the other -/

theorem Turned.heading_eq {m m' : Machine} {ts : List Turn} (turned : Turned m ts m') {c : Course}
    (start : m.turtle.heading.toInt = c.shown) :
    m'.turtle.heading.toInt = (ts.foldl Course.after c).shown := by
  induction turned generalizing c with
  | still same => rwa [same]
  | append _ _ first second =>
    rw [List.foldl_append]
    exact second (first start)
  | @command x values t m m₁ m' ts given _ turns ran operands =>
    have acted : x.act values m₁ = .ok () m' := by rwa [Command.run_eq, Exec.bind_of_ok given] at ran
    have between := operands start
    rw [Command.heading_act turns acted, List.foldl_append, List.foldl_cons, List.foldl_nil,
      Course.shown_after, ← between]
    exact t.toInt_heading (between ▸ Course.shown_range _)

/-- How headings follow from the turns that are made from here on. -/
structure Machine.Steered (m : Machine) : Prop where
  /-- A heading is less than a full turn, and not negative. -/
  range : 0 ≤ m.turtle.heading.toInt ∧ m.turtle.heading.toInt < 3600
  turned : ∀ {ts m'}, Turned m ts m' →
    let heading := m.turtle.heading.toInt
    let exact := ts.foldl Turn.exact heading
    let overflows := (ts.foldl Course.after ⟨heading, 0⟩).overflows
    m'.turtle.heading.toInt = (exact - 4294967296 * overflows) % 3600 ∧
    (m'.turtle.heading.toInt = exact % 3600 ↔ 225 ∣ overflows) ∧
    ((∀ t ∈ ts, t.Modest) → overflows = 0)
  /-- Turning back undoes a turn, as far as neither of the two overflows. -/
  back : ∀ {angle m'}, Turned m [.right angle, .left angle] m' →
    (m'.turtle.heading = m.turtle.heading ↔
      m.turtle.heading.toInt - angle.toInt < 2147483648 ∧
      (m.turtle.heading.toInt - angle.toInt) % 3600 + angle.toInt < 2147483648)

theorem Machine.steered_of_range {m : Machine}
    (range : 0 ≤ m.turtle.heading.toInt ∧ m.turtle.heading.toInt < 3600) : m.Steered where
  range := range
  turned := by
    intro ts m' turned heading exact overflows
    have sum : (ts.foldl Course.after ⟨heading, 0⟩).exact = exact := Course.exact_foldl _ _
    rw [turned.heading_eq (Course.shown_start range).symm, ← sum]
    exact ⟨rfl, Course.shown_eq_exact_iff _, fun modest => Course.overflows_eq_zero modest rfl⟩
  back := by
    intro angle m' turned
    rw [← Int32.toInt_inj, turned.heading_eq (Course.shown_start range).symm]
    exact Course.shown_back range angle

/-- From all machines that can be reached, and at every point of running a text: a heading is the
exact sum of the turns since one was set, less 2 ^ 32 for each of them that overflowed. So it is
exact but for full turns just if these are a multiple of 225. -/
theorem turns_add_up (answers : Answers) (actions : List Action) :
    let m := (Machine.initial answers).actAll actions
    m.Steered ∧ ∀ text, m.Throughout text Machine.Steered := by
  intro m
  have agrees : m.Agrees := Machine.actAll_agrees (Machine.initial_agrees answers) actions
  exact ⟨Machine.steered_of_range agrees.heading, fun text =>
    (Machine.throughout_drawing agrees text).mono fun _ held =>
      Machine.steered_of_range held.1.heading⟩

/-- A turn by 1 and one by the largest number there is add up to 2147483648, which is 848 and full
turns; but the turtle heads elsewhere. Turning back does not undo a turn by the least number. -/
theorem turns_inexact :
    let m := Machine.initial (.scripted [])
    let m' := (m.submit "lt 1 lt 2147483647").2
    let m'' := (m.submit "rt -2147483647 - 1 lt -2147483647 - 1").2
    (Turned m [.left 1, .left 2147483647] m' ∧ m'.turtle.heading.toInt = 2752 ∧
      ([.left 1, .left 2147483647].foldl Turn.exact m.turtle.heading.toInt) % 3600 = 848) ∧
    Turned m [.right (-2147483648), .left (-2147483648)] m'' ∧
      m''.turtle.heading.toInt = 1904 ∧ m.turtle.heading.toInt = 0 := by
  intro m m' m''
  have one : Turned m [.left 1] (m.turn 1) :=
    .once (c := .left (.single false (.single (.number 1)))) rfl rfl rfl rfl
  have largest : Turned (m.turn 1) [.left 2147483647] ((m.turn 1).turn 2147483647) :=
    .once (c := .left (.single false (.single (.number 2147483647)))) rfl rfl rfl rfl
  let least : Expr :=
    .chain true (.single (.number 2147483647)) .minus (.single false (.single (.number 1)))
  have away : Turned m [.right (-2147483648)] (m.turn (-2147483648)) :=
    .once (c := .right least) rfl rfl rfl rfl
  have back : Turned (m.turn (-2147483648)) [.left (-2147483648)]
      ((m.turn (-2147483648)).turn (-2147483648)) :=
    .once (c := .left least) rfl rfl rfl rfl
  refine ⟨⟨(one.append largest).append (.still ?_), ?_, ?_⟩, (away.append back).append (.still ?_),
    ?_, ?_⟩
  all_goals decide +kernel

end Logo
