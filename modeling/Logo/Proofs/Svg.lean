import Mathlib
import Logo.Picture

/-!
# Reading a picture

`document` writes paths as a document. Here such a document is read. What stands between `<` and the
next `>` is a tag: a name, and attributes whose values stand between quotation marks. The tags named
`path` are the paths of the document; their steps are in the attribute `d`, their colour is in the
attribute `stroke`.

Result: `Svg.paths?_document`: what is read from a document are the paths that were written.
-/

namespace Logo

namespace Svg

/-! ## Values of attributes -/

/-- A number of 32 bits. -/
def number? (cs : List Char) : Option Int32 := do
  let value ← (String.ofList cs).toInt?
  if (Int32.ofInt value).toInt = value then some (Int32.ofInt value) else none

/-- Two coordinates. -/
def point? (cs : List Char) : Option Point :=
  match cs.splitOn ',' with
  | [x, y] => do return ⟨← number? x, ← number? y⟩
  | _ => none

/-- A letter and the point that it applies to. -/
def step? : List Char → Option PathStep
  | 'M' :: cs => (point? cs).map .moveTo
  | 'L' :: cs => (point? cs).map .lineTo
  | _ => none

/-- Steps with a blank between two of them, or none at all. -/
def steps? (cs : List Char) : Option (List PathStep) :=
  if cs = [] then some [] else (cs.splitOn ' ').mapM step?

/-- Three components. -/
def colour? : List Char → Option Colour
  | 'r' :: 'g' :: 'b' :: '(' :: cs =>
    match (cs.takeWhile (· ≠ ')')).splitOn ',' with
    | [red, green, blue] => do return ⟨← number? red, ← number? green, ← number? blue⟩
    | _ => none
  | _ => none

/-! ## Documents -/

/-- What stands between each `<` and the next `>`. -/
def tags (doc : List Char) : List (List Char) :=
  (doc.splitOn '<').tail.map (·.takeWhile (· ≠ '>'))

/-- What the tag begins with. -/
def name (tag : List Char) : List Char := tag.takeWhile (· ≠ ' ')

/-- Each first and second of two that follow each other. -/
def pairs {α : Type} : List α → List (α × α)
  | first :: second :: rest => (first, second) :: pairs rest
  | _ => []

/-- The value of an attribute of a tag. -/
def attribute? (tag : List Char) (key : String) : Option (List Char) :=
  (pairs ((tag.dropWhile (· ≠ ' ')).splitOn '"')).lookup (' ' :: key.toList ++ ['='])

/-- The path that a tag says. -/
def path? (tag : List Char) : Option Path := do
  return ⟨← steps? (← attribute? tag "d"), ← colour? (← attribute? tag "stroke")⟩

/-- The paths of a document, in order. -/
def paths? (doc : String) : Option (List Path) :=
  ((tags doc.toList).filter (name · = "path".toList)).mapM path?

/-! ## What is written with -/

/-- Besides digits there are only characters of `others`. -/
def Written (others : List Char) (cs : List Char) : Prop :=
  ∀ c ∈ cs, c.isDigit = true ∨ c ∈ others

theorem Written.not_mem {others cs : List Char} {c : Char} (written : Written others cs)
    (foreign : c.isDigit = false ∧ c ∉ others) : c ∉ cs := by
  intro among
  rcases written c among with digit | other
  · rw [foreign.1] at digit
    cases digit
  · exact foreign.2 other

theorem Written.mono {others others' cs : List Char} (written : Written others cs)
    (more : others ⊆ others') : Written others' cs :=
  fun c among => (written c among).imp_right (@more c)

theorem Written.append {others cs cs' : List Char} (first : Written others cs)
    (second : Written others cs') : Written others (cs ++ cs') := by
  intro c among
  rcases List.mem_append.1 among with among | among
  · exact first c among
  · exact second c among

theorem written_of_subset {others cs : List Char} (sub : cs ⊆ others) : Written others cs :=
  fun _ among => .inr (sub among)

theorem Written.intercalate {others : List Char} {separator : Char} {texts : List (List Char)}
    (each : ∀ cs ∈ texts, Written others cs) (allowed : separator ∈ others) :
    Written others ([separator].intercalate texts) := by
  induction texts with
  | nil => exact fun c never => nomatch never
  | cons cs texts ih =>
    obtain ⟨first, others⟩ := List.forall_mem_cons.1 each
    cases texts with
    | nil => rwa [List.intercalate_singleton]
    | cons cs' texts =>
      rw [List.intercalate_cons_cons]
      have between : Written _ [separator] :=
        written_of_subset (List.cons_subset.2 ⟨allowed, List.nil_subset _⟩)
      exact (first.append between).append (ih others)

theorem written_nat (n : Nat) : Written [] (toString n).toList := by
  intro c among
  rw [Nat.toString_eq_repr, Nat.toList_repr] at among
  exact .inl (Nat.isDigit_of_mem_toDigits (by decide) (by decide) among)

theorem written_int (n : Int) : Written ['-'] (toString n).toList := by
  rw [Int.toString_eq_repr, Int.repr_eq_if]
  split
  · exact (written_nat n.toNat).mono (by decide)
  · rw [String.toList_append]
    exact (written_of_subset (by decide)).append ((written_nat (-n).toNat).mono (by decide))

theorem written_point (p : Point) : Written ['-', ','] p.text.toList := by
  rw [Point.text, String.toList_append, String.toList_append]
  have number (n : Int) : Written ['-', ','] (toString n).toList := (written_int n).mono (by decide)
  exact ((number _).append (written_of_subset (by decide))).append (number _)

theorem written_step (step : PathStep) : Written ['-', ',', 'M', 'L'] step.text.toList := by
  cases step <;> rw [PathStep.text, String.toList_append] <;>
    exact (written_of_subset (by decide)).append ((written_point _).mono (by decide))

theorem toList_data (p : Path) :
    p.data.toList = [' '].intercalate (p.steps.map (·.text.toList)) := by
  rw [Path.data, String.toList_intercalate, List.map_map]
  rfl

theorem written_data (p : Path) : Written ['-', ',', 'M', 'L', ' '] p.data.toList := by
  rw [toList_data]
  refine Written.intercalate (fun cs among => ?_) (by decide)
  obtain ⟨step, -, rfl⟩ := List.mem_map.1 among
  exact (written_step step).mono (by decide)

theorem written_colour (c : Colour) :
    Written ['-', ',', 'r', 'g', 'b', '(', ')'] c.text.toList := by
  have number (n : Int) : Written ['-', ',', 'r', 'g', 'b', '(', ')'] (toString n).toList :=
    (written_int n).mono (by decide)
  have between {cs : List Char} (sub : cs ⊆ ['-', ',', 'r', 'g', 'b', '(', ')']) :=
    written_of_subset sub
  simp only [Colour.text, String.toList_append]
  exact ((((((between (by decide)).append (number _)).append (between (by decide))).append
    (number _)).append (between (by decide))).append (number _)).append (between (by decide))

/-! ## Reading values back -/

theorem mapM_map_eq_some {α β : Type} {write : α → β} {read : β → Option α}
    (inverse : ∀ a, read (write a) = some a) (as : List α) :
    (as.map write).mapM read = some as := by
  have same : read ∘ write = pure := funext inverse
  rw [List.mapM_map, same]
  simpa using List.mapM_pure (m := Option) (l := as) (f := id)

theorem number?_toString (n : Int32) : number? (toString n.toInt).toList = some n := by
  rw [number?, String.ofList_toList, Int.toString_eq_repr, Int.toInt?_repr]
  simp only [Option.bind_eq_bind, Option.bind_some, Int32.ofInt_toInt, if_true]

theorem point?_text (p : Point) : point? p.text.toList = some p := by
  have split : p.text.toList.splitOn ',' =
      [(toString p.x.toInt).toList, (toString p.y.toInt).toList] := by
    rw [Point.text, String.toList_append, String.toList_append, List.append_assoc]
    show List.splitOn ',' (_ ++ ',' :: (toString p.y.toInt).toList) = _
    have comma (n : Int) : ',' ∉ (toString n).toList := (written_int n).not_mem (by decide)
    rw [List.splitOn_append_cons_self_of_not_mem (comma _), List.splitOn_eq_singleton (comma _)]
  rw [point?, split]
  simp only [number?_toString]
  rfl

theorem step?_text (step : PathStep) : step? step.text.toList = some step := by
  cases step <;> rw [PathStep.text, String.toList_append] <;>
    exact congrArg (Option.map _) (point?_text _)

theorem steps?_data (p : Path) : steps? p.data.toList = some p.steps := by
  have inverse := mapM_map_eq_some step?_text p.steps
  rw [toList_data, steps?]
  cases steps : p.steps with
  | nil => rfl
  | cons first rest =>
    rw [← steps]
    have split : ([' '].intercalate (p.steps.map (·.text.toList))).splitOn ' ' =
        p.steps.map (·.text.toList) := by
      refine List.splitOn_intercalate ' ' (fun cs among => ?_) (by simp [steps])
      obtain ⟨step, -, rfl⟩ := List.mem_map.1 among
      exact (written_step step).not_mem (by decide)
    -- no step is written as nothing, for nothing could be read back
    have nonempty : [' '].intercalate (p.steps.map (·.text.toList)) ≠ [] := by
      intro empty
      rw [empty, List.splitOn_nil, steps, List.map_cons] at split
      have back := step?_text first
      rw [← (List.cons.inj split).1] at back
      cases back
    rw [if_neg nonempty, split, inverse]

theorem takeWhile_ne {c : Char} {cs : List Char} (absent : c ∉ cs) (rest : List Char) :
    (cs ++ c :: rest).takeWhile (· ≠ c) = cs := by
  have others : ∀ d ∈ cs, decide (d ≠ c) = true := fun d among =>
    decide_eq_true fun same => absent (same ▸ among)
  rw [List.takeWhile_append_of_pos others, List.takeWhile_cons_of_neg (by simp), List.append_nil]

theorem colour?_text (c : Colour) : colour? c.text.toList = some c := by
  have bare (n : Int) {d : Char} (foreign : d.isDigit = false ∧ d ∉ ['-']) :
      d ∉ (toString n).toList := (written_int n).not_mem foreign
  let shades := (toString c.red.toInt).toList ++ ',' :: ((toString c.green.toInt).toList ++
    ',' :: (toString c.blue.toInt).toList)
  have text : c.text.toList = 'r' :: 'g' :: 'b' :: '(' :: (shades ++ [')']) := by
    simp [Colour.text, shades]
  have inside : ')' ∉ shades := by
    have number (n : Int) : ')' ∉ (toString n).toList := bare n (by decide)
    simp only [shades, List.mem_append, List.mem_cons, number, false_or, or_false]
    decide
  have split : shades.splitOn ',' = [(toString c.red.toInt).toList,
      (toString c.green.toInt).toList, (toString c.blue.toInt).toList] := by
    rw [List.splitOn_append_cons_self_of_not_mem (bare _ (by decide)),
      List.splitOn_append_cons_self_of_not_mem (bare _ (by decide)),
      List.splitOn_eq_singleton (bare _ (by decide))]
  rw [text, colour?, takeWhile_ne inside, split]
  simp only [number?_toString]
  rfl

/-! ## Reading documents back -/

/-- An attribute, as it stands in a tag. -/
def assigned (a : String × String) : List Char :=
  ' ' :: a.1.toList ++ '=' :: '"' :: a.2.toList ++ ['"']

theorem toList_tag (name : String) (attributes : List (String × String)) :
    (tag name attributes).toList = '<' :: (name.toList ++ attributes.flatMap assigned) := by
  have same (a : String × String) :
      (" " ++ a.1 ++ "=\"" ++ a.2 ++ "\"").toList = assigned a := by
    simp [assigned]
  simp only [tag, String.toList_append, String.toList_join, List.flatMap_map]
  simp only [← String.toList_append, same]
  rw [String.toList_append]
  rfl

/-- Attributes without quotation marks are read back. -/
theorem pairs_splitOn {attributes : List (String × String)} {rest : List Char}
    (bare : ∀ a ∈ attributes, '"' ∉ a.1.toList ∧ '"' ∉ a.2.toList) (last : '"' ∉ rest) :
    pairs ((attributes.flatMap assigned ++ rest).splitOn '"') =
      attributes.map fun a => (' ' :: a.1.toList ++ ['='], a.2.toList) := by
  induction attributes with
  | nil =>
    show pairs (rest.splitOn '"') = []
    rw [List.splitOn_eq_singleton last]
    rfl
  | cons a attributes ih =>
    obtain ⟨⟨key, value⟩, others⟩ := List.forall_mem_cons.1 bare
    have grouped : (a :: attributes).flatMap assigned ++ rest =
        (' ' :: a.1.toList ++ ['=']) ++ '"' :: (a.2.toList ++ '"' ::
          (attributes.flatMap assigned ++ rest)) := by
      simp [assigned]
    rw [grouped, List.splitOn_append_cons_self_of_not_mem (by simpa using key),
      List.splitOn_append_cons_self_of_not_mem value, pairs, ih others]
    rfl

/-- A document, cut at each `<`. -/
theorem splitOn_elements {before : List Char} {elements : List (List Char)} (first : '<' ∉ before)
    (others : ∀ e ∈ elements, '<' ∉ e) :
    (before ++ elements.flatMap (fun e => '\n' :: '<' :: e) ++ "\n</svg>".toList).splitOn '<' =
      (before :: elements).map (· ++ ['\n']) ++ ["/svg>".toList] := by
  induction elements generalizing before with
  | nil =>
    have cut : before ++ "\n</svg>".toList = (before ++ ['\n']) ++ '<' :: "/svg>".toList := by
      simp
    rw [List.flatMap_nil, List.append_nil, cut,
      List.splitOn_append_cons_self_of_not_mem (by simpa using first)]
    rfl
  | cons e elements ih =>
    obtain ⟨next, others⟩ := List.forall_mem_cons.1 others
    have cut : before ++ (e :: elements).flatMap (fun e => '\n' :: '<' :: e) ++ "\n</svg>".toList =
        (before ++ ['\n']) ++ '<' ::
          (e ++ elements.flatMap (fun e => '\n' :: '<' :: e) ++ "\n</svg>".toList) := by
      simp
    rw [cut, List.splitOn_append_cons_self_of_not_mem (by simpa using first), ih next others]
    rfl

theorem lookup_assigned (attributes : List (String × String)) (key : String) :
    (attributes.map fun a => (' ' :: a.1.toList ++ ['='], a.2.toList)).lookup
      (' ' :: key.toList ++ ['=']) = (attributes.lookup key).map String.toList := by
  induction attributes with
  | nil => rfl
  | cons a attributes ih =>
    rw [List.map_cons, List.lookup_cons, List.lookup_cons, ih]
    by_cases same : key = a.1
    · simp [same]
    · have differ : ' ' :: key.toList ++ ['='] ≠ ' ' :: a.1.toList ++ ['='] := by
        simpa using fun equal => same (String.toList_injective equal)
      rw [beq_eq_false_iff_ne.2 differ, beq_eq_false_iff_ne.2 same]

/-- The attributes of the tag that a path is written as. -/
def attributes (p : Path) : List (String × String) :=
  [("d", p.data), ("fill", "none"), ("stroke", p.colour.text), ("stroke-linecap", "round"),
    ("stroke-width", "1")]

/-- What a path is written as, after the `<` and before what closes it. -/
def inside (p : Path) : List Char := "path".toList ++ (attributes p).flatMap assigned

theorem toList_element (p : Path) : p.element.toList = '<' :: (inside p ++ "/>".toList) := by
  rw [Path.element, String.toList_append, toList_tag]
  rfl

theorem not_mem_inside (p : Path) {c : Char} (bracket : c = '<' ∨ c = '>') : c ∉ inside p := by
  have data : c ∉ p.data.toList :=
    (written_data p).not_mem (by rcases bracket with rfl | rfl <;> decide)
  have colour : c ∉ p.colour.text.toList :=
    (written_colour p.colour).not_mem (by rcases bracket with rfl | rfl <;> decide)
  rcases bracket with rfl | rfl <;> simp [inside, attributes, assigned, data, colour]

theorem attribute?_inside (p : Path) (key : String) :
    attribute? (inside p ++ ['/']) key = ((attributes p).lookup key).map String.toList := by
  have data : '"' ∉ p.data.toList := (written_data p).not_mem (by decide)
  have colour : '"' ∉ p.colour.text.toList := (written_colour p.colour).not_mem (by decide)
  have after : (inside p ++ ['/']).dropWhile (· ≠ ' ') =
      (attributes p).flatMap assigned ++ ['/'] := rfl
  rw [attribute?, after, pairs_splitOn (by simp [attributes, data, colour]) (by decide)]
  exact lookup_assigned _ _

theorem path?_inside (p : Path) : path? (inside p ++ ['/']) = some p := by
  have data : attribute? (inside p ++ ['/']) "d" = some p.data.toList := attribute?_inside p "d"
  have colour : attribute? (inside p ++ ['/']) "stroke" = some p.colour.text.toList :=
    attribute?_inside p "stroke"
  simp only [path?, data, colour, Option.bind_eq_bind, Option.bind_some, steps?_data, colour?_text]
  rfl

/-- The opening tag of a document, after the `<` and before what closes it. -/
def outer (side : String) : List Char :=
  "svg".toList ++ [("height", side), ("viewBox", "0 0 " ++ side ++ " " ++ side), ("width", side),
    ("xmlns", "http://www.w3.org/2000/svg")].flatMap assigned

theorem not_mem_outer {side : String} {c : Char} (absent : c ∉ side.toList)
    (bracket : c = '<' ∨ c = '>') : c ∉ outer side := by
  rcases bracket with rfl | rfl <;> simp [outer, assigned, absent]

theorem toList_document (size : Nat) (ps : List Path) :
    (document size ps).toList = '<' :: (outer (toString size) ++ if ps = [] then "/>".toList else
      '>' :: ((ps.map (inside · ++ "/>".toList)).flatMap (fun e => '\n' :: '<' :: e) ++
        "\n</svg>".toList)) := by
  have opening : (tag "svg" [("height", toString size),
      ("viewBox", "0 0 " ++ toString size ++ " " ++ toString size), ("width", toString size),
      ("xmlns", "http://www.w3.org/2000/svg")]).toList = '<' :: outer (toString size) := by
    rw [toList_tag]
    rfl
  have element (p : Path) :
      ("\n" ++ p.element).toList = '\n' :: '<' :: (inside p ++ "/>".toList) := by
    rw [String.toList_append, toList_element]
    rfl
  rw [document]
  by_cases none : ps = []
  · rw [if_pos (List.isEmpty_iff.2 none), if_pos none, String.toList_append, opening]
    rfl
  · rw [if_neg (mt List.isEmpty_iff.1 none), if_neg none]
    simp only [String.toList_append, opening, String.toList_join, List.flatMap_map]
    simp only [← String.toList_append, element, List.append_assoc]
    rfl

theorem tags_cons (doc : List Char) :
    tags ('<' :: doc) = (doc.splitOn '<').map (·.takeWhile (· ≠ '>')) :=
  congrArg (fun pieces => pieces.tail.map (·.takeWhile (· ≠ '>')))
    (List.splitOn_append_cons_self_of_not_mem (List.not_mem_nil : '<' ∉ []) doc)

/-- The tags of a document: the outer one, one for each path, and the one that closes the outer. -/
theorem tags_document (size : Nat) (ps : List Path) :
    tags (document size ps).toList = if ps = [] then [outer (toString size) ++ ['/']] else
      outer (toString size) :: ps.map (inside · ++ ['/']) ++ ["/svg".toList] := by
  have side {c : Char} (bracket : c = '<' ∨ c = '>') : c ∉ outer (toString size) :=
    not_mem_outer
      ((written_nat size).not_mem (by rcases bracket with rfl | rfl <;> decide)) bracket
  rw [toList_document, tags_cons]
  by_cases none : ps = []
  · have closed : outer (toString size) ++ "/>".toList =
        (outer (toString size) ++ ['/']) ++ '>' :: [] := by simp
    rw [if_pos none, if_pos none, List.splitOn_eq_singleton (by simpa using side (.inl rfl)),
      List.map_singleton, closed, takeWhile_ne (by simpa using side (.inr rfl))]
  · have opened (rest : List Char) :
        outer (toString size) ++ '>' :: rest = (outer (toString size) ++ ['>']) ++ rest := by simp
    have others : ∀ e ∈ ps.map (inside · ++ "/>".toList), '<' ∉ e := by
      simpa using fun p _ => not_mem_inside p (.inl rfl)
    have inner (p : Path) :
        (inside p ++ "/>".toList ++ ['\n']).takeWhile (· ≠ '>') = inside p ++ ['/'] := by
      have closed : inside p ++ "/>".toList ++ ['\n'] = (inside p ++ ['/']) ++ '>' :: ['\n'] := by
        simp
      rw [closed, takeWhile_ne (by simpa using not_mem_inside p (.inr rfl))]
    rw [if_neg none, if_neg none, opened, ← List.append_assoc,
      splitOn_elements (by simpa using side (.inl rfl)) others]
    have first : (outer (toString size) ++ ['>'] ++ ['\n']).takeWhile (· ≠ '>') =
        outer (toString size) := by
      rw [List.append_assoc, List.singleton_append, takeWhile_ne (side (.inr rfl))]
    simp only [List.map_append, List.map_map, List.map_cons, List.map_nil, Function.comp_def,
      first, inner]
    rfl

theorem paths?_document (size : Nat) (ps : List Path) : paths? (document size ps) = some ps := by
  have among : (ps.map (inside · ++ ['/'])).filter (name · = "path".toList) =
      ps.map (inside · ++ ['/']) := by
    refine List.filter_eq_self.2 fun tag among => ?_
    obtain ⟨p, -, rfl⟩ := List.mem_map.1 among
    rfl
  rw [paths?, tags_document]
  by_cases none : ps = []
  · rw [if_pos none, none]
    rfl
  · have outermost : ¬ decide (name (outer (toString size)) = "path".toList) = true :=
      Bool.false_ne_true
    rw [if_neg none, List.cons_append,
      List.filter_cons_of_neg (p := fun tag => name tag = "path".toList) outermost,
      List.filter_append, among]
    exact (congrArg (List.mapM path?) (List.append_nil _)).trans (mapM_map_eq_some path?_inside ps)

end Svg

end Logo
