import Mathlib
import Logo.Proofs.Plans
import Logo.Proofs.Points

/-!
# The turtle is where the drawing ends

Where the turtle is, and what colour its pen has, is known twice: the machine says so, and so do the
operations on the canvas. `Machine.Agrees` says that they say the same, and that each line begins
where the turtle was.

A machine can be told to do things one by one as well as by a text (`Action`), and a text goes through
many points, one after each of its deeds (`Machine.points`). Whatever the machine is told, and whether or
not it fails on the way, the turtle and the canvas agree at every point, and from each point to every
later one operations are only added at the end (`Machine.Draws`). Where going straight on ends does not
matter for this: `Machine.forward_eq` makes it a way of going to some point.

Results:
1. `Machine.undergo_draws`: one deed.
2. `Machine.along_draws`: the points of one text.
3. `turtle_on_canvas`: the points of a whole run.
-/

namespace Logo

/-! ## What the canvas tells -/

namespace CanvasOp

/-- Where the turtle is after the operation, if that moves it. -/
def finish? : CanvasOp → Option Point
  | .moveTo target => some target
  | .line _ finish => some finish
  | .clear | .setColour _ => none

/-- The colour of the pen after the operation, if that changes it. -/
def colour? : CanvasOp → Option Colour
  | .setColour colour => some colour
  | .moveTo _ | .line _ _ | .clear => none

end CanvasOp

/-- Where the last operation that moved the turtle took it, from its place at the beginning. -/
def positionAfter (ops : List CanvasOp) : Point :=
  (ops.reverse.findSome? CanvasOp.finish?).getD ⟨250, 250⟩

/-- The colour that was set last, or else the one at the beginning. -/
def colourAfter (ops : List CanvasOp) : Colour :=
  (ops.reverse.findSome? CanvasOp.colour?).getD ⟨0, 0, 0⟩

/-- Each component is one of the shades. -/
structure Colour.InRange (c : Colour) : Prop where
  red : 0 ≤ c.red.toInt ∧ c.red.toInt < 256
  green : 0 ≤ c.green.toInt ∧ c.green.toInt < 256
  blue : 0 ≤ c.blue.toInt ∧ c.blue.toInt < 256

/-- Operations in which each line begins where the turtle is, and each colour is made of shades. -/
structure Connected (ops : List CanvasOp) : Prop where
  lines : ∀ {before start finish after}, ops = before ++ .line start finish :: after →
    start = positionAfter before
  colours : ∀ {colour}, .setColour colour ∈ ops → colour.InRange

/-- The turtle is as the operations on the canvas tell. -/
structure Machine.Agrees (m : Machine) : Prop where
  connected : Connected m.canvas.ops.toList
  position : m.turtle.position = positionAfter m.canvas.ops.toList
  colour : m.turtle.colour = colourAfter m.canvas.ops.toList
  shades : m.turtle.colour.InRange
  heading : 0 ≤ m.turtle.heading.toInt ∧ m.turtle.heading.toInt < 3600

/-! ## One more operation -/

theorem positionAfter_snoc (ops : List CanvasOp) (op : CanvasOp) :
    positionAfter (ops ++ [op]) = op.finish?.getD (positionAfter ops) := by
  rw [positionAfter, List.reverse_append, List.reverse_singleton, List.singleton_append,
    List.findSome?_cons]
  cases op.finish? <;> rfl

theorem colourAfter_snoc (ops : List CanvasOp) (op : CanvasOp) :
    colourAfter (ops ++ [op]) = op.colour?.getD (colourAfter ops) := by
  rw [colourAfter, List.reverse_append, List.reverse_singleton, List.singleton_append,
    List.findSome?_cons]
  cases op.colour? <;> rfl

/-- A line from where the turtle is, or anything that is no line, keeps operations connected. -/
theorem Connected.snoc {ops : List CanvasOp} {op : CanvasOp} (connected : Connected ops)
    (line : ∀ {start finish}, op = .line start finish → start = positionAfter ops)
    (colour : ∀ {colour}, op = .setColour colour → colour.InRange) : Connected (ops ++ [op]) where
  lines := by
    intro before start finish after split
    rcases List.eq_nil_or_concat after with rfl | ⟨more, last, rfl⟩
    · obtain ⟨rfl, same⟩ := List.append_inj' split rfl
      exact line (List.singleton_inj.1 same)
    · rw [List.concat_eq_append, ← List.cons_append, ← List.append_assoc] at split
      exact connected.lines (List.append_inj' split rfl).1
  colours := by
    intro c among
    rcases List.mem_append.1 among with old | new
    · exact connected.colours old
    · exact colour (List.mem_singleton.1 new).symm

theorem modulo_range (value : Int32) {n : Nat} (positive : 0 < n) (small : n ≤ 2147483647) :
    0 ≤ (modulo value n).toInt ∧ (modulo value n).toInt < n := by
  have nonneg := Int.emod_nonneg value.toInt (b := n) (by omega)
  have less := Int.emod_lt_of_pos value.toInt (b := n) (by omega)
  rw [modulo, Int32.toInt_ofInt_of_le (by omega) (by omega)]
  exact ⟨nonneg, less⟩

theorem Colour.inRange_ofShades (red green blue : Int32) :
    (Colour.ofShades red green blue).InRange :=
  have shade (value : Int32) := modulo_range value (n := Turtle.shades) (by decide) (by decide)
  ⟨shade red, shade green, shade blue⟩

namespace Machine

/-- Going straight on is going to some point. -/
theorem forward_eq (m : Machine) (length : Int32) :
    m.forward length = m.moveTo (endpoint m.turtle.position length m.turtle.heading) := rfl

namespace Agrees

variable {m m' : Machine}

/-- All that matters is the turtle and what was done to the canvas. -/
theorem of_same (agrees : m.Agrees) (turtle : m'.turtle = m.turtle)
    (ops : m'.canvas.ops = m.canvas.ops) : m'.Agrees := by
  obtain ⟨connected, position, colour, shades, heading⟩ := agrees
  rw [← turtle] at position colour shades heading
  rw [← ops] at connected position colour
  exact ⟨connected, position, colour, shades, heading⟩

/-- What one more operation tells is what the turtle has to be like after it. -/
theorem of_record (agrees : m.Agrees) (op : CanvasOp) (ops : m'.canvas.ops = m.canvas.ops.push op)
    (line : ∀ {start finish}, op = .line start finish → start = m.turtle.position)
    (position : m'.turtle.position = op.finish?.getD m.turtle.position)
    (colour : m'.turtle.colour = op.colour?.getD m.turtle.colour)
    (shades : m'.turtle.colour.InRange)
    (heading : 0 ≤ m'.turtle.heading.toInt ∧ m'.turtle.heading.toInt < 3600) : m'.Agrees := by
  have list : m'.canvas.ops.toList = m.canvas.ops.toList ++ [op] := by rw [ops, Array.toList_push]
  rw [agrees.position] at position line
  rw [agrees.colour] at colour
  refine ⟨?_, ?_, ?_, shades, heading⟩ <;> rw [list]
  · refine agrees.connected.snoc line fun same => ?_
    rw [same] at colour
    rwa [colour] at shades
  · rw [positionAfter_snoc, position]
  · rw [colourAfter_snoc, colour]

theorem moveTo (agrees : m.Agrees) (target : Point) : (m.moveTo target).Agrees := by
  cases down : m.turtle.penDown with
  | true =>
    refine agrees.of_record (.line m.turtle.position target) ?_ ?_ rfl rfl agrees.shades
      agrees.heading
    · rw [Machine.moveTo, down]
      rfl
    · rintro start finish ⟨⟩
      rfl
  | false =>
    refine agrees.of_record (.moveTo target) ?_ nofun rfl rfl agrees.shades agrees.heading
    rw [Machine.moveTo, down]
    rfl

theorem setHeading (agrees : m.Agrees) (heading : Int32) : (m.setHeading heading).Agrees :=
  { agrees with heading := modulo_range heading (n := Turtle.fullTurn) (by decide) (by decide) }

theorem setPen (agrees : m.Agrees) (down : Bool) : (m.setPen down).Agrees := { agrees with }

theorem home (agrees : m.Agrees) : m.home.Agrees :=
  have upwards : 0 ≤ Turtle.homeHeading.toInt ∧ Turtle.homeHeading.toInt < 3600 := by decide
  { agrees.moveTo Turtle.homePosition with heading := upwards }

theorem clear (agrees : m.Agrees) : m.clear.Agrees :=
  agrees.of_record .clear rfl nofun rfl rfl agrees.shades agrees.heading

theorem setColour (agrees : m.Agrees) (red green blue : Int32) :
    (m.setColour red green blue).Agrees :=
  agrees.of_record (.setColour (.ofShades red green blue)) rfl nofun rfl rfl
    (Colour.inRange_ofShades red green blue) agrees.heading

end Agrees

/-- Nothing has happened yet. -/
theorem initial_agrees (answers : Answers) : (initial answers).Agrees where
  connected := {
    lines := fun split => nomatch (List.append_eq_nil_iff.1 split.symm).2
    colours := fun among => nomatch among }
  position := rfl
  colour := rfl
  shades :=
    have zero : 0 ≤ (0 : Int32).toInt ∧ (0 : Int32).toInt < 256 := by decide
    ⟨zero, zero, zero⟩
  heading :=
    have zero : 0 ≤ (0 : Int32).toInt ∧ (0 : Int32).toInt < 3600 := by decide
    zero

/-! ## What running does to a drawing -/

variable {m m' m'' : Machine}

/-- Operations have been added at the end, or none. -/
def Extends (m m' : Machine) : Prop := m.canvas.ops.toList <+: m'.canvas.ops.toList

/-- Operations have been added at the end, or none, and turtle and canvas have gone on to agree. -/
def Draws (m m' : Machine) : Prop := (m.Agrees → m'.Agrees) ∧ m.Extends m'

theorem Draws.refl (m : Machine) : m.Draws m := ⟨id, List.prefix_rfl⟩

theorem Draws.trans (first : m.Draws m') (second : m'.Draws m'') : m.Draws m'' :=
  ⟨second.1 ∘ first.1, first.2.trans second.2⟩

theorem Draws.of_same (turtle : m'.turtle = m.turtle) (ops : m'.canvas.ops = m.canvas.ops) :
    m.Draws m' :=
  ⟨fun agrees => agrees.of_same turtle ops, by rw [Extends, ops]⟩

theorem Draws.of_record {op : CanvasOp} (agrees : m.Agrees → m'.Agrees)
    (ops : m'.canvas.ops = m.canvas.ops.push op) : m.Draws m' := by
  refine ⟨agrees, ?_⟩
  rw [Extends, ops, Array.toList_push]
  exact List.prefix_append _ _

end Machine

/-- What is promised of everything that starts where the canvas agrees with the turtle and extends
that of `start`. -/
def Contract.drawing (start : Machine) : Contract where
  Before m := m.Agrees ∧ start.Extends m
  Leads := Machine.Draws
  Fails _ := True
  refl := Machine.Draws.refl
  trans := Machine.Draws.trans
  keeps before leads := ⟨leads.1 before.1, before.2.trans leads.2⟩
  ordinary _ := trivial

theorem Contract.drawing_pervades (start : Machine) : (drawing start).Pervades where
  permits := {
    forward := fun length m => by
      rw [Machine.forward_eq]
      exact .of_record (fun agrees => agrees.moveTo _) rfl
    turn := fun _ _ => ⟨fun agrees => agrees.setHeading _, List.prefix_rfl⟩
    moveBy := fun _ _ _ => .of_record (fun agrees => agrees.moveTo _) rfl
    moveTo := fun _ _ => .of_record (fun agrees => agrees.moveTo _) rfl
    setHeading := fun _ _ => ⟨fun agrees => agrees.setHeading _, List.prefix_rfl⟩
    home := fun _ => .of_record (fun agrees => agrees.home) rfl
    clear := fun _ => .of_record (fun agrees => agrees.clear) rfl
    setPen := fun down _ => ⟨fun agrees => agrees.setPen down, List.prefix_rfl⟩
    setColour := fun red green blue _ => .of_record (fun agrees => agrees.setColour red green blue) rfl
    print := fun _ _ => .of_same rfl rfl
    assign := fun _ _ _ _ => .of_same rfl rfl
    ask := fun _ _ => .of_same rfl rfl
    tell := fun _ _ => .of_same rfl rfl }
  define _ _ := .of_same rfl rfl
  enter _ before := ⟨before.1.of_same rfl rfl, before.2⟩
  leave {m m' locals} leads :=
    have entered : m.Draws (m.enter locals) := .of_same rfl rfl
    have left : m'.Draws m'.leave := .of_same rfl rfl
    (entered.trans leads).trans left
  fails _ := trivial

/-! ## Whatever is done -/

/-- Something that a machine is told to do. -/
inductive Action where
  | submit (text : String)
  | forward (length : Int32)
  | turn (angle : Int32)
  | setHeading (heading : Int32)
  | moveTo (target : Point)
  | moveBy (dx dy : Int32)
  | home
  | clear
  | setPen (down : Bool)
  | setColour (red green blue : Int32)
  deriving DecidableEq, Repr

namespace Machine

/-- The machine after it has done something. -/
def act (m : Machine) : Action → Machine
  | .submit text => (m.submit text).2
  | .forward length => m.forward length
  | .turn angle => m.turn angle
  | .setHeading heading => m.setHeading heading
  | .moveTo target => m.moveTo target
  | .moveBy dx dy => m.moveBy dx dy
  | .home => m.home
  | .clear => m.clear
  | .setPen down => m.setPen down
  | .setColour red green blue => m.setColour red green blue

/-- The machine after it has done some things one after the other. -/
def actAll (m : Machine) (actions : List Action) : Machine := actions.foldl act m

/-- The property holds at every point of running the text, if it can be parsed: before and after each
statement, at any depth of calls. Whatever one would do who looks there and finds that it fails, the
text runs in the same way. -/
def Throughout (m : Machine) (text : String) (holds : Machine → Prop) : Prop :=
  ∀ program m₀, m.read text = (.ok program, m₀) → ∀ look : Exec Unit,
    (∀ between, holds between → look between = .ok () between) →
      program.observed look m₀ = program.run m₀

theorem Throughout.mono {m : Machine} {text : String} {holds holds' : Machine → Prop}
    (throughout : m.Throughout text holds) (weaker : ∀ m, holds m → holds' m) :
    m.Throughout text holds' :=
  fun program m₀ read look unseen =>
    throughout program m₀ read look fun between held => unseen between (weaker between held)

/-- A contract that allows all that can happen applies at every point of a text, if it applies at the
beginning. -/
theorem throughout_before {c : Contract} (pervades : c.Pervades) {m : Machine} {text : String}
    (before : ∀ program, c.Before (m.learn text program)) : m.Throughout text c.Before := by
  intro program m₀ read look unseen
  obtain ⟨-, rfl⟩ := read_eq_ok read
  exact (Program.observed_alike pervades unseen program _ (before program)).1

theorem throughout_drawing {m : Machine} (agrees : m.Agrees) (text : String) :
    m.Throughout text fun between => between.Agrees ∧ m.Extends between :=
  throughout_before (Contract.drawing_pervades m) fun _ => ⟨agrees.of_same rfl rfl, List.prefix_rfl⟩

end Machine

/-! ## One deed after the other -/

/-- A contract that allows all that can happen allows each change. -/
theorem Contract.Pervades.change {c : Contract} (pervades : c.Pervades) {f : Machine → Machine}
    (changes : Machine.Change f) (m : Machine) : c.Leads m (f m) := by
  have permits := pervades.permits
  cases changes with
  | forward length => exact permits.forward length m
  | turn angle => exact permits.turn angle m
  | moveBy dx dy => exact permits.moveBy dx dy m
  | moveTo target => exact permits.moveTo target m
  | setHeading heading => exact permits.setHeading heading m
  | home => exact permits.home m
  | clear => exact permits.clear m
  | setPen down => exact permits.setPen down m
  | setColour red green blue => exact permits.setColour red green blue m
  | print text => exact permits.print text m
  | assign reach name value => exact permits.assign reach name value m
  | tell e => exact permits.tell e m
  | define p => exact pervades.define p m

namespace Machine

/-- One deed adds operations at the end, if any, and turtle and canvas go on to agree. -/
theorem undergo_draws (m : Machine) (d : Deed) : m.Draws (m.undergo d) := by
  have pervades := Contract.drawing_pervades m
  cases d with
  | change f changes => exact pervades.change changes m
  | prompt name =>
    rw [undergo_prompt]
    exact pervades.permits.ask name.text m
  | enter locals => exact .of_same rfl rfl
  | leave => exact .of_same rfl rfl

/-- The points of a text, from when it has been read on: each of them leads to all that come later, and
to the end. -/
theorem along_draws (m : Machine) (text : String) :
    ((m.read text).2.along (m.deeds text)).Pairwise Draws ∧
      ∀ between ∈ (m.read text).2.along (m.deeds text),
        m.Draws between ∧ between.Draws (m.submit text).2 := by
  obtain ⟨turtle₀, canvas₀⟩ := m.read_still text
  obtain ⟨turtle, canvas⟩ := m.submit_deeds text
  have begins : m.Draws (m.read text).2 := .of_same turtle₀ (congrArg Canvas.ops canvas₀)
  have ends : ((m.deeds text).foldl undergo (m.read text).2).Draws (m.submit text).2 :=
    .of_same turtle (congrArg Canvas.ops canvas)
  obtain ⟨later, between⟩ := pairwise_along Draws.refl Draws.trans undergo_draws (m.read text).2
    (m.deeds text)
  exact ⟨later, fun here among =>
    ⟨begins.trans (between here among).1, (between here among).2.trans ends⟩⟩

theorem submit_draws (m : Machine) (text : String) : m.Draws (m.submit text).2 :=
  have first := (m.along_draws text).2 _ (self_mem_along _ _)
  first.1.trans first.2

theorem act_draws (m : Machine) (action : Action) : m.Draws (m.act action) := by
  have permits := (Contract.drawing_pervades m).permits
  cases action with
  | submit text => exact m.submit_draws text
  | forward length => exact permits.forward length m
  | turn angle => exact permits.turn angle m
  | setHeading heading => exact permits.setHeading heading m
  | moveTo target => exact permits.moveTo target m
  | moveBy dx dy => exact permits.moveBy dx dy m
  | home => exact permits.home m
  | clear => exact permits.clear m
  | setPen down => exact permits.setPen down m
  | setColour red green blue => exact permits.setColour red green blue m

theorem actAll_agrees {m : Machine} (agrees : m.Agrees) (actions : List Action) :
    (m.actAll actions).Agrees := by
  induction actions generalizing m with
  | nil => exact agrees
  | cons action actions ih => exact ih ((m.act_draws action).1 agrees)

/-! ## Whole runs -/

/-- The points inside of something that the machine does: those of a text are when it has been read, and
after each of its deeds. -/
def inside (m : Machine) : Action → List Machine
  | .submit text => (m.read text).2.along (m.deeds text)
  | .forward _ | .turn _ | .setHeading _ | .moveTo _ | .moveBy _ _ | .home | .clear | .setPen _
  | .setColour _ _ _ => []

/-- The points of a run: before and after each thing that is done, and inside of it. -/
def points (m : Machine) : List Action → List Machine
  | [] => [m]
  | action :: actions => m :: (m.inside action ++ (m.act action).points actions)

theorem inside_draws (m : Machine) (action : Action) :
    (m.inside action).Pairwise Draws ∧
      ∀ between ∈ m.inside action, m.Draws between ∧ between.Draws (m.act action) := by
  cases action with
  | submit text => exact m.along_draws text
  | _ => exact ⟨.nil, fun between among => nomatch among⟩

/-- Each point leads to all that come later. -/
theorem points_draws (m : Machine) (actions : List Action) :
    (m.points actions).Pairwise Draws ∧ ∀ between ∈ m.points actions, m.Draws between := by
  induction actions generalizing m with
  | nil => exact ⟨List.pairwise_singleton _ _, List.forall_mem_singleton.2 (.refl m)⟩
  | cons action actions ih =>
    obtain ⟨first, inner⟩ := m.inside_draws action
    obtain ⟨rest, later⟩ := ih (m.act action)
    have onwards : ∀ between ∈ m.inside action ++ (m.act action).points actions, m.Draws between :=
      List.forall_mem_append.2 ⟨fun between among => (inner between among).1,
        fun between among => (m.act_draws action).trans (later between among)⟩
    have apart : ∀ here ∈ m.inside action, ∀ there ∈ (m.act action).points actions,
        here.Draws there :=
      fun here among there among' => (inner here among).2.trans (later there among')
    exact ⟨List.pairwise_cons.2 ⟨onwards, List.pairwise_append.2 ⟨first, rest, apart⟩⟩,
      List.forall_mem_cons.2 ⟨.refl m, onwards⟩⟩

end Machine

/-- Whatever a machine is told to do one after the other, by texts or directly, and whether or not texts
fail: at every point, those inside of texts among them, the turtle is where the operations on the canvas
tell, in the colour that they tell, each line begins where the turtle was, colours are made of shades and
the heading is less than a full turn. From each point to every later one operations are only added at the
end. -/
theorem turtle_on_canvas (answers : Answers) (actions : List Action) :
    let points := (Machine.initial answers).points actions
    (∀ m ∈ points, m.Agrees) ∧ points.Pairwise Machine.Extends := by
  intro points
  obtain ⟨later, draws⟩ := (Machine.initial answers).points_draws actions
  exact ⟨fun m among => (draws m among).1 (Machine.initial_agrees answers), later.imp And.right⟩

/-- A text that fails has gone through the points before its error, and what it drew stays. -/
example :
    let points := (Machine.initial (.scripted [])).points [.submit "setxy 1 2 print 1 / 0 home", .clear]
    points.map (·.canvas.ops.toList) =
      [[], [], [.line ⟨250, 250⟩ ⟨1, 2⟩], [.line ⟨250, 250⟩ ⟨1, 2⟩],
        [.line ⟨250, 250⟩ ⟨1, 2⟩, .clear]] := by
  decide +kernel

end Logo
