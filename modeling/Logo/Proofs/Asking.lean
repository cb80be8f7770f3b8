import Mathlib
import Logo.Proofs.Bytes
import Logo.Proofs.Plans

/-!
# What questions take

A question takes lines up to the first that is an integer or no text at all, and so passes over texts that
are no integers. `Terminal.Asked` says that questions are asked one after the other, each taking its lines
from what the one before it has left.

The prompts of a run are known from its deeds (`Machine.prompts`). `Terminal.Serves` says which question
each of them asks: the first prompt finds the terminal as it was at the beginning, each gets its question's
value and leaves the lines that the question left, and there the next prompt finds it. So nothing but
prompts takes lines, and no prompt takes other lines than its question.

Results:
1. `Terminal.ask_asks`: asking asks a question.
2. `Terminal.Asked.integers`: where all lines are texts, the questions get the integers among them, one by
   one, and then nothing any more.
3. `Machine.submit_serves`: the prompts of a text ask questions one after the other.
-/

namespace Logo

open Text (Line)

namespace Text.Line

/-- The integer that a line is, if it is one. -/
def integer? (line : Line) : Option Int32 := line.text?.bind fun s => Text.integer? (trim s.toList)

/-- The line is a text, but no integer. -/
def Passed (line : Line) : Prop := line.text?.isSome = true ∧ line.integer? = none

end Text.Line

/-- A question, and the lines that it took. -/
structure Question where
  label : String
  /-- The lines that it passed over. -/
  passed : List Line
  /-- The line after those, unless there was none. -/
  last : Option Line
  deriving DecidableEq

namespace Question

def taken (q : Question) : List Line := q.passed ++ q.last.toList

/-- What came of it. -/
def value (q : Question) : Option Int32 := q.last.bind Line.integer?

/-- What is shown when a line is passed over. -/
def remark (label : String) (line : Line) : String :=
  Terminal.request label ++ Terminal.complaint (Text.trim (line.text?.getD "").toList)

/-- What it has shown. -/
def shown (q : Question) : String :=
  String.join (q.passed.map (remark q.label)) ++ Terminal.request q.label

end Question

namespace Terminal

/-- The question is asked, and takes lines up to the first that is not passed over. -/
structure Asks (t : Terminal) (q : Question) (t' : Terminal) : Prop where
  lines : t.lines = q.taken ++ t'.lines
  shown : t'.shown = t.shown ++ q.shown
  passed : ∀ line ∈ q.passed, line.Passed
  last : ∀ line, q.last = some line → ¬ line.Passed
  ended : q.last = none → t'.lines = []

/-- The questions are asked one after the other. -/
inductive Asked : Terminal → List Question → Terminal → Prop
  | nil (t : Terminal) : Asked t [] t
  | cons {t t' t'' : Terminal} {q : Question} {qs : List Question} :
      t.Asks q t' → Asked t' qs t'' → Asked t (q :: qs) t''

theorem askFrom_asks (label shown : String) (lines : List Line) :
    ∃ q : Question, q.label = label ∧
      Asks ⟨lines, shown⟩ q (askFrom label shown lines).terminal ∧
      (askFrom label shown lines).value = q.value := by
  fun_induction askFrom label shown lines with
  | case1 shown => exact ⟨⟨label, [], none⟩, rfl, ⟨rfl, rfl, nofun, nofun, fun _ => rfl⟩, rfl⟩
  | case2 shown line lines noText =>
    refine ⟨⟨label, [], some line⟩, rfl, ⟨rfl, rfl, nofun, ?_, nofun⟩, ?_⟩
    · rintro _ ⟨⟩ ⟨text, -⟩
      rw [noText] at text
      cases text
    · exact (congrArg (Option.bind · _) noText).symm
  | case3 shown line lines text isText trimmed n integer =>
    have read : line.integer? = some n := by
      rw [Line.integer?, isText]
      exact integer
    refine ⟨⟨label, [], some line⟩, rfl, ⟨rfl, rfl, nofun, ?_, nofun⟩, read.symm⟩
    rintro _ ⟨⟩ ⟨-, other⟩
    cases read.symm.trans other
  | case4 shown line lines text isText trimmed other ih =>
    obtain ⟨q, rfl, asks, value⟩ := ih
    have passes : line.Passed := by
      rw [Line.Passed, Line.integer?, isText]
      exact ⟨rfl, other⟩
    refine ⟨⟨q.label, line :: q.passed, q.last⟩, rfl, ⟨?_, ?_, ?_, asks.last, asks.ended⟩, value⟩
    · exact congrArg (line :: ·) asks.lines
    · have remark : Question.remark q.label line = request q.label ++ complaint trimmed := by
        rw [Question.remark, isText]
        rfl
      rw [asks.shown, Question.shown, Question.shown, List.map_cons, String.join_cons, remark]
      simp only [String.append_assoc]
    · exact List.forall_mem_cons.2 ⟨passes, asks.passed⟩

/-- Asking asks a question, whose value is the answer. -/
theorem ask_asks (t : Terminal) (label : String) :
    ∃ q : Question, q.label = label ∧ t.Asks q (t.ask label).terminal ∧
      (t.ask label).value = q.value :=
  askFrom_asks label t.shown t.lines

/-- A line that is no integer is passed over, and the line after the integer is left. -/
example :
    let t : Terminal := ⟨Text.Line.split "abc\n 12 \n7".toUTF8.toList, ""⟩
    (t.ask "x").value = some 12 ∧ (t.ask "x").terminal.lines = Text.Line.split "7".toUTF8.toList := by
  decide +kernel

/-- Each line is taken by one question only, or is left. -/
theorem Asked.lines {t t' : Terminal} {qs : List Question} (asked : t.Asked qs t') :
    t.lines = qs.flatMap Question.taken ++ t'.lines := by
  induction asked with
  | nil => rfl
  | cons asks _ ih => rw [asks.lines, ih, List.flatMap_cons, List.append_assoc]

/-! ## Lines that are texts -/

/-- Of lines that are texts, a question takes just one integer, or finds none in all of them. -/
theorem Asks.integers {t t' : Terminal} {q : Question} (asks : t.Asks q t')
    (texts : ∀ line ∈ t.lines, line.text?.isSome = true) :
    t.lines.filterMap Line.integer? = q.value.toList ++ t'.lines.filterMap Line.integer? ∧
      (q.value = none → t'.lines = []) := by
  have passed : q.passed.filterMap Line.integer? = [] :=
    List.filterMap_eq_nil_iff.2 fun line among => (asks.passed line among).2
  rw [asks.lines, Question.taken, List.filterMap_append, List.filterMap_append, passed]
  cases last : q.last with
  | none =>
    have value : q.value = none := by rw [Question.value, last]; rfl
    rw [value]
    exact ⟨rfl, fun _ => asks.ended last⟩
  | some line =>
    have text := texts line (by simp [asks.lines, Question.taken, last])
    have value : q.value = line.integer? := by rw [Question.value, last]; rfl
    cases read : line.integer? with
    | none => exact absurd ⟨text, read⟩ (asks.last line last)
    | some n =>
      rw [value, read]
      refine ⟨?_, nofun⟩
      rw [Option.toList_some, List.filterMap_cons_some read]
      rfl

/-- Questions get the integers among the lines, one after the other. -/
theorem Asked.integers {t t' : Terminal} {qs : List Question} (asked : t.Asked qs t')
    (texts : ∀ line ∈ t.lines, line.text?.isSome = true) :
    (∀ (i : Nat) (q : Question), qs[i]? = some q → q.value = (t.lines.filterMap Line.integer?)[i]?) ∧
      t'.lines.filterMap Line.integer? = (t.lines.filterMap Line.integer?).drop qs.length := by
  induction asked with
  | nil t =>
    refine ⟨fun i q found => ?_, rfl⟩
    cases found
  | @cons t t' t'' q qs asks _ ih =>
    obtain ⟨taken, dry⟩ := asks.integers texts
    obtain ⟨values, left⟩ := ih fun line among => texts line (by
      rw [asks.lines]
      exact List.mem_append_right _ among)
    rw [taken, left]
    cases value : q.value with
    | none =>
      rw [dry value] at values ⊢
      refine ⟨?_, by simp⟩
      rintro (_ | i) q' found
      · cases found
        exact value
      · exact values i q' found
    | some n =>
      refine ⟨?_, rfl⟩
      rintro (_ | i) q' found
      · cases found
        exact value
      · exact values i q' found

end Terminal

namespace Text

/-- Bytes without a line feed belong to one line. -/
theorem Line.split_append {bs : List UInt8} (some' : bs ≠ []) (single : ∀ b ∈ bs, b ≠ 10)
    (more : List UInt8) :
    Line.split (bs ++ more) =
      (bs ++ (Line.split more).headD []) :: (Line.split more).tail := by
  induction bs with
  | nil => exact absurd rfl some'
  | cons b bs ih =>
    obtain ⟨first, others⟩ := List.forall_mem_cons.1 single
    rw [List.cons_append, Line.split, if_neg first]
    cases bs with
    | nil =>
      rw [List.nil_append]
      cases Line.split more <;> rfl
    | cons b' bs =>
      rw [ih (List.cons_ne_nil _ _) others]
      rfl

/-- The lines of a text are texts. -/
theorem Line.split_bytes (cs : List Char) :
    ∃ css : List (List Char), Line.split (bytes cs) = css.map bytes := by
  induction cs with
  | nil => exact ⟨[], rfl⟩
  | cons c cs ih =>
    obtain ⟨css, lines⟩ := ih
    by_cases newline : c = '\n'
    · subst newline
      refine ⟨['\n'] :: css, ?_⟩
      show Line.split (10 :: bytes cs) = _
      rw [Line.split, if_pos rfl, lines]
      rfl
    · have single : ∀ b ∈ String.utf8EncodeChar c, b ≠ 10 := fun b => ne_newline_of_mem newline
      refine ⟨(c :: css.headD []) :: css.tail, ?_⟩
      obtain ⟨b, bs, encoded⟩ := exists_utf8EncodeChar c
      rw [bytes_cons, split_append (by rw [encoded]; exact List.cons_ne_nil _ _) single, lines]
      cases css <;> rfl

theorem Line.isSome_text?_of_mem_split {input : String} {line : Line}
    (among : line ∈ Line.split input.toUTF8.toList) : line.text?.isSome = true := by
  obtain ⟨css, lines⟩ := split_bytes input.toList
  rw [toList_toUTF8, lines] at among
  obtain ⟨cs, -, rfl⟩ := List.mem_map.1 among
  rw [text?_bytes]
  rfl

end Text

/-! ## Programs -/

/-- A prompt that is made while something runs. -/
structure Prompt where
  name : Name
  /-- The machine that it is made in. -/
  machine : Machine

/-- The prompt finds the terminal `t` and asks the question there: its value is the question's, or it
fails if there is none, and it leaves the terminal `t'`. -/
structure Prompt.Poses (p : Prompt) (t : Terminal) (q : Question) (t' : Terminal) : Prop where
  typed : p.machine.canvas.answers = .typed t
  label : q.label = p.name.text
  asks : t.Asks q t'
  result : ∃ after : Machine, after.canvas.answers = .typed t' ∧
    Exec.prompt p.name p.machine =
      match q.value with
      | some value => .ok value after
      | none => .error (.noInput p.name) after

/-- The prompts are made one after the other, and these are their questions: each finds the terminal as
the one before it left it. -/
inductive Terminal.Serves : Terminal → List Prompt → List Question → Terminal → Prop
  | nil (t : Terminal) : Serves t [] [] t
  | cons {t t' t'' : Terminal} {p : Prompt} {ps : List Prompt} {q : Question} {qs : List Question} :
      p.Poses t q t' → Serves t' ps qs t'' → Serves t (p :: ps) (q :: qs) t''

theorem Terminal.Serves.append {t t' t'' : Terminal} {ps ps' : List Prompt} {qs qs' : List Question}
    (first : t.Serves ps qs t') (second : t'.Serves ps' qs' t'') :
    t.Serves (ps ++ ps') (qs ++ qs') t'' := by
  induction first with
  | nil => exact second
  | cons poses _ ih => exact .cons poses (ih second)

theorem Terminal.Serves.asked {t t' : Terminal} {ps : List Prompt} {qs : List Question}
    (serves : t.Serves ps qs t') : t.Asked qs t' := by
  induction serves with
  | nil t => exact .nil t
  | cons poses _ ih => exact .cons poses.asks ih

/-- A prompt asks a question of the terminal that it finds. -/
theorem Prompt.exists_poses (p : Prompt) {t : Terminal} (typed : p.machine.canvas.answers = .typed t) :
    ∃ q t', p.Poses t q t' ∧ (p.machine.undergo (.prompt p.name)).canvas.answers = .typed t' := by
  obtain ⟨q, label, asks, value⟩ := t.ask_asks p.name.text
  have asked : p.machine.canvas.ask p.name.text =
      (q.value, { p.machine.canvas with answers := .typed (t.ask p.name.text).terminal },
        (t.ask p.name.text).events) := by
    rw [Canvas.ask, typed, Answers.ask, value]
  have after : (p.machine.asked p.name.text).canvas.answers = .typed (t.ask p.name.text).terminal := by
    rw [Machine.asked, asked]
  refine ⟨q, _, ⟨typed, label, asks, _, after, ?_⟩, ?_⟩
  · cases found : q.value with
    | some value => simp only [Exec.prompt_eq, asked, found]
    | none => simp only [Exec.prompt_eq, asked, found]
  · rw [Machine.undergo_prompt, after]

/-- The prompt that a deed is, if it is one. -/
def Deed.prompt? (m : Machine) : Deed → Option Prompt
  | .prompt name => some ⟨name, m⟩
  | .change _ _ | .enter _ | .leave => none

namespace Machine

/-- The prompts among what is done. -/
def promptsAmong (m : Machine) : List Deed → List Prompt
  | [] => []
  | d :: deeds => (d.prompt? m).toList ++ (m.undergo d).promptsAmong deeds

/-- The prompts that are made when a text is submitted. -/
def prompts (m : Machine) (text : String) : List Prompt :=
  (m.read text).2.promptsAmong (m.deeds text)

/-- The machine with other answers. -/
def answered (m : Machine) (answers : Answers) : Machine :=
  { m with canvas := { m.canvas with answers } }

theorem Change.answers {f : Machine → Machine} (changes : Change f) (m : Machine) :
    (f m).canvas.answers = m.canvas.answers := by
  cases changes <;> rfl

variable {m : Machine} {t : Terminal}

/-- A deed takes no lines, unless it is a prompt. -/
theorem undergo_serves (typed : m.canvas.answers = .typed t) (d : Deed) :
    ∃ qs t', t.Serves (d.prompt? m).toList qs t' ∧ (m.undergo d).canvas.answers = .typed t' := by
  cases d with
  | change f changes => exact ⟨[], t, .nil t, (changes.answers m).trans typed⟩
  | prompt name =>
    obtain ⟨q, t', poses, typed'⟩ := Prompt.exists_poses ⟨name, m⟩ typed
    exact ⟨[q], t', .cons poses (.nil t'), typed'⟩
  | enter locals => exact ⟨[], t, .nil t, typed⟩
  | leave => exact ⟨[], t, .nil t, typed⟩

theorem promptsAmong_serves (typed : m.canvas.answers = .typed t) (deeds : List Deed) :
    ∃ qs t', t.Serves (m.promptsAmong deeds) qs t' ∧
      (deeds.foldl undergo m).canvas.answers = .typed t' := by
  induction deeds generalizing m t with
  | nil => exact ⟨[], t, .nil t, typed⟩
  | cons d deeds ih =>
    obtain ⟨qs, t₁, first, typed₁⟩ := undergo_serves typed d
    obtain ⟨qs', t', others, typed'⟩ := ih typed₁
    exact ⟨qs ++ qs', t', first.append others, typed'⟩

/-- The prompts of a text ask questions one after the other, from the terminal that the text begins with to
the one that it leaves. -/
theorem submit_serves (typed : m.canvas.answers = .typed t) (text : String) :
    ∃ qs t', t.Serves (m.prompts text) qs t' ∧ (m.submit text).2.canvas.answers = .typed t' := by
  obtain ⟨-, canvas₀⟩ := m.read_still text
  obtain ⟨-, canvas⟩ := m.submit_deeds text
  rw [canvas]
  exact promptsAmong_serves (by rw [canvas₀, typed]) (m.deeds text)

/-- Prompts in a loop and in a procedure, of which the last gets nothing. -/
example :
    let m := Machine.initial (.typed ⟨Line.split "abc\n 12 \n7\n3".toUTF8.toList, ""⟩)
    (m.prompts "to f scan a end repeat 2 [ scan b if b > 3 [ f ] ] scan c scan d").map (·.name.text) =
      ["b", "a", "b", "c"] := by
  decide +kernel

end Machine

end Logo
