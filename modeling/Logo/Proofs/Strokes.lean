import Mathlib
import Logo.Proofs.Drawing
import Logo.Proofs.Svg

/-!
# What a picture shows

A stroke is a line in a colour. A drawing is to show the lines after its last `clear`, each in the
colour that was set last before it, be that before the `clear` or after it (`visible`). A document
shows what its paths draw, step by step (`shown?`).

The renderer leaves out the move to where the line before ended. `Sketch.Shows` says why that is
right: after each operation, the last point is where the steps of the current path have led.

Result: `render_shows`.
-/

namespace Logo

/-- A line in a colour. -/
structure Stroke where
  start : Point
  finish : Point
  colour : Colour
  deriving DecidableEq, Repr

/-! ## What is to be seen -/

/-- What an operation draws. -/
def CanvasOp.strokes (colour : Colour) : CanvasOp → List Stroke
  | .line start finish => [⟨start, finish, colour⟩]
  | .moveTo _ | .clear | .setColour _ => []

/-- What is drawn by operations that follow `before`, each line in the colour that was set last. -/
def strokesAfter (before : List CanvasOp) : List CanvasOp → List Stroke
  | [] => []
  | op :: rest => op.strokes (colourAfter before) ++ strokesAfter (before ++ [op]) rest

/-- What is drawn after the last `clear`. -/
def visible (ops : List CanvasOp) : List Stroke :=
  strokesAfter (ops.rdropWhile (· ≠ .clear)) (ops.rtakeWhile (· ≠ .clear))

/-! ## What a document shows -/

/-- What steps draw from a point on. There has to be one for a line. -/
def drawn? (colour : Colour) : Option Point → List PathStep → Option (List Stroke)
  | _, [] => some []
  | _, .moveTo target :: steps => drawn? colour (some target) steps
  | none, .lineTo _ :: _ => none
  | some start, .lineTo target :: steps =>
    (drawn? colour (some target) steps).map (⟨start, target, colour⟩ :: ·)

/-- Where steps lead. -/
def placeAfter : Option Point → List PathStep → Option Point
  | place, [] => place
  | _, .moveTo target :: steps | _, .lineTo target :: steps => placeAfter (some target) steps

/-- What a path draws. -/
def Path.strokes? (p : Path) : Option (List Stroke) := drawn? p.colour none p.steps

/-- What each path of a document draws. -/
def shown? (doc : String) : Option (List (List Stroke)) := do (← Svg.paths? doc).mapM Path.strokes?

/-! ## One more operation -/

theorem strokesAfter_snoc (before ops : List CanvasOp) (op : CanvasOp) :
    strokesAfter before (ops ++ [op]) =
      strokesAfter before ops ++ op.strokes (colourAfter (before ++ ops)) := by
  induction ops generalizing before with
  | nil =>
    rw [List.nil_append, List.append_nil, strokesAfter, strokesAfter, strokesAfter,
      List.nil_append, List.append_nil]
  | cons first rest ih =>
    rw [List.cons_append, strokesAfter, ih, strokesAfter, List.append_assoc, List.append_assoc,
      List.singleton_append]

theorem visible_clear (ops : List CanvasOp) : visible (ops ++ [.clear]) = [] := by
  rw [visible, List.rtakeWhile_concat_neg (· ≠ .clear) ops _ (by simp), strokesAfter]

theorem visible_snoc (ops : List CanvasOp) (op : CanvasOp) (other : op ≠ .clear) :
    visible (ops ++ [op]) = visible ops ++ op.strokes (colourAfter ops) := by
  have kept : decide (op ≠ .clear) = true := decide_eq_true other
  rw [visible, List.rtakeWhile_concat_pos (· ≠ .clear) ops op kept,
    List.rdropWhile_concat_pos (· ≠ .clear) ops op kept, strokesAfter_snoc,
    List.rdropWhile_append_rtakeWhile, visible]

theorem drawn?_append {colour : Colour} {place : Option Point} {first second : List PathStep}
    {strokes strokes' : List Stroke} (before : drawn? colour place first = some strokes)
    (after : drawn? colour (placeAfter place first) second = some strokes') :
    drawn? colour place (first ++ second) = some (strokes ++ strokes') := by
  induction first generalizing place strokes with
  | nil =>
    cases before
    exact after
  | cons step first ih =>
    cases step with
    | moveTo target =>
      rw [List.cons_append, drawn?]
      rw [drawn?] at before
      exact ih before after
    | lineTo target =>
      cases place with
      | none => cases before
      | some start =>
        rw [drawn?, Option.map_eq_some_iff] at before
        obtain ⟨others, drawn, rfl⟩ := before
        rw [List.cons_append, drawn?, ih drawn after]
        rfl

theorem placeAfter_append (place : Option Point) (first second : List PathStep) :
    placeAfter place (first ++ second) = placeAfter (placeAfter place first) second := by
  induction first generalizing place with
  | nil => rfl
  | cons step first ih => cases step <;> exact ih _

/-! ## Sketches -/

/-- A sketch shows what is visible after some operations: the groups that its finished paths draw,
and `here`, which its current path draws. -/
structure Sketch.Shows (s : Sketch) (ops : List CanvasOp) (groups : List (List Stroke))
    (here : List Stroke) : Prop where
  colour : s.colour = colourAfter ops
  last : s.last = placeAfter none s.current.toList
  finished : s.finished.toList.mapM Path.strokes? = some groups
  current : drawn? s.colour none s.current.toList = some here
  visible : groups.flatten ++ here = visible ops
  nonempty : [] ∉ groups
  drawn : here = [] → s.current = #[]

namespace Sketch.Shows

variable {s : Sketch} {ops : List CanvasOp} {groups : List (List Stroke)} {here : List Stroke}

theorem empty : Sketch.empty.Shows [] [] [] :=
  ⟨rfl, rfl, rfl, rfl, rfl, List.not_mem_nil, fun _ => rfl⟩

/-- Finishing the current path loses nothing. -/
theorem finish (shown : s.Shows ops groups here) :
    ∃ groups, s.finish.toList.mapM Path.strokes? = some groups ∧
      groups.flatten = Logo.visible ops ∧ [] ∉ groups := by
  rw [Sketch.finish]
  by_cases none : s.current.isEmpty = true
  · have nothing : here = [] := by
      have current := shown.current
      rw [Array.isEmpty_iff.1 none] at current
      exact (Option.some.inj current).symm
    have whole := shown.visible
    rw [nothing, List.append_nil] at whole
    exact ⟨groups, by rw [if_pos none]; exact shown.finished, whole, shown.nonempty⟩
  · refine ⟨groups ++ [here], ?_, ?_, ?_⟩
    · have last : Path.strokes? ⟨s.current.toList, s.colour⟩ = some here := shown.current
      rw [if_neg none, Array.toList_push, List.mapM_append, shown.finished, List.mapM_cons, last]
      rfl
    · rw [List.flatten_append, List.flatten_singleton, shown.visible]
    · rw [List.mem_append, List.mem_singleton]
      rintro (among | same)
      · exact shown.nonempty among
      · exact none (Array.isEmpty_iff.2 (shown.drawn same.symm))

/-- A line is drawn from its beginning, whether or not a move to there is written. -/
theorem line (shown : s.Shows ops groups here) (start finish : Point) :
    (s.add (.line start finish)).Shows (ops ++ [.line start finish]) groups
      (here ++ [⟨start, finish, colourAfter ops⟩]) := by
  obtain ⟨steps, added, drawn, place⟩ : ∃ steps : Array PathStep,
      (s.add (.line start finish)).current = steps.push (.lineTo finish) ∧
      drawn? s.colour none steps.toList = some here ∧
      placeAfter none steps.toList = some start := by
    refine ⟨if s.last = some start then s.current else s.current.push (.moveTo start), rfl, ?_⟩
    split
    · next reached => exact ⟨shown.current, shown.last.symm.trans reached⟩
    · rw [Array.toList_push]
      refine ⟨?_, placeAfter_append _ _ _⟩
      rw [← List.append_nil here]
      exact drawn?_append shown.current rfl
  have unchanged : colourAfter (ops ++ [.line start finish]) = colourAfter ops :=
    colourAfter_snoc ops _
  refine ⟨shown.colour.trans unchanged.symm, ?_, shown.finished, ?_, ?_, shown.nonempty, ?_⟩
  · rw [added, Array.toList_push, placeAfter_append]
    rfl
  · rw [added, Array.toList_push]
    refine drawn?_append drawn ?_
    rw [place, ← shown.colour]
    rfl
  · rw [visible_snoc ops _ (by simp), ← shown.visible, List.append_assoc]
    rfl
  · intro nothing
    cases List.append_eq_nil_iff.1 nothing |>.2

theorem add (shown : s.Shows ops groups here) (op : CanvasOp) :
    ∃ groups here, (s.add op).Shows (ops ++ [op]) groups here := by
  have colour := colourAfter_snoc ops op
  cases op with
  | moveTo target =>
    have whole := visible_snoc ops (.moveTo target) (by simp)
    rw [CanvasOp.strokes, List.append_nil] at whole
    exact ⟨groups, here, shown.colour.trans colour.symm, shown.last, shown.finished, shown.current,
      shown.visible.trans whole.symm, shown.nonempty, shown.drawn⟩
  | line start finish => exact ⟨_, _, shown.line start finish⟩
  | clear =>
    exact ⟨[], [], shown.colour.trans colour.symm, rfl, rfl, rfl, (visible_clear ops).symm,
      List.not_mem_nil, fun _ => rfl⟩
  | setColour new =>
    have whole := visible_snoc ops (.setColour new) (by simp)
    rw [CanvasOp.strokes, List.append_nil] at whole
    obtain ⟨groups, drawn, same, nonempty⟩ := shown.finish
    exact ⟨groups, [], colour.symm, rfl, drawn, rfl,
      (List.append_nil _).trans (same.trans whole.symm), nonempty, fun _ => rfl⟩

end Sketch.Shows

theorem Sketch.shows_foldl (ops : List CanvasOp) :
    ∃ groups here, (ops.foldl Sketch.add Sketch.empty).Shows ops groups here := by
  induction ops using List.reverseRecOn with
  | nil => exact ⟨[], [], .empty⟩
  | append_singleton ops op ih =>
    obtain ⟨groups, here, shown⟩ := ih
    rw [List.foldl_append]
    exact shown.add op

/-- A picture shows the lines after the last `clear`, in order and each in the colour that was set
last before it; it can be read as a list of paths, and none of them is without a line. -/
theorem render_shows (ops : List CanvasOp) (size : Nat) :
    ∃ groups, shown? (render ops size) = some groups ∧ groups.flatten = visible ops ∧
      [] ∉ groups := by
  obtain ⟨_, _, shown⟩ := Sketch.shows_foldl ops
  obtain ⟨groups, drawn, whole, nonempty⟩ := shown.finish
  refine ⟨groups, ?_, whole, nonempty⟩
  rw [shown?, render, Svg.paths?_document]
  exact drawn

/-- A `clear` takes away what was drawn, but not the colour. -/
example :
    visible [.setColour ⟨9, 0, 0⟩, .line ⟨0, 0⟩ ⟨1, 0⟩, .clear, .line ⟨1, 0⟩ ⟨1, 1⟩] =
      [⟨⟨1, 0⟩, ⟨1, 1⟩, ⟨9, 0, 0⟩⟩] := by
  decide

end Logo
