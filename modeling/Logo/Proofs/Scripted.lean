import Mathlib
import Logo.Proofs.Asking
import Logo.Proofs.Raising

/-!
# Typed answers and answers known beforehand

Where texts are typed, a program cannot tell whether its prompts are answered by the terminal, which passes
over lines and asks again, or from a list of the integers among the lines (`Machine.Scripted`). A prompt
takes the next integer off both; and when there is none any more, the terminal has taken all lines.

Results:
1. `Machine.session_scripted`: the replies are the same, and the machines stay the same but for their
   answers.
2. `Machine.promptsAll_serves`: the prompts of a whole session ask questions one after the other.
3. `typed_as_scripted`: both together.
-/

namespace Logo

open Text (Line)

namespace Terminal

/-- The journal is told only of lines that are no texts. -/
theorem askFrom_events (label shown : String) {lines : List Line}
    (texts : ∀ line ∈ lines, line.text?.isSome = true) :
    (askFrom label shown lines).events = [] := by
  fun_induction askFrom label shown lines with
  | case1 | case3 => rfl
  | case2 shown line lines noText =>
    have text := texts line List.mem_cons_self
    rw [noText] at text
    cases text
  | case4 shown line lines text isText trimmed other ih =>
    exact ih (List.forall_mem_cons.1 texts).2

/-- These prompts, asking these questions, have been made of the lines one after the other, and what they
left is at the terminal. -/
structure Served (lines : List Line) (ps : List Prompt) (qs : List Question) (t : Terminal) : Prop where
  serves : Serves ⟨lines, ""⟩ ps qs t
  /-- The questions got the integers among the lines, in order. -/
  values : ∀ (i : Nat) (q : Question), qs[i]? = some q →
    q.value = (lines.filterMap Line.integer?)[i]?
  /-- Once a question got nothing, so did those after it. -/
  dry : ∀ (i j : Nat) (q q' : Question), i ≤ j → qs[i]? = some q → qs[j]? = some q' →
    q.value = none → q'.value = none

theorem Serves.served {lines : List Line} (texts : ∀ line ∈ lines, line.text?.isSome = true)
    {ps : List Prompt} {qs : List Question} {t : Terminal} (serves : Serves ⟨lines, ""⟩ ps qs t) :
    Served lines ps qs t := by
  have values := (serves.asked.integers texts).1
  refine ⟨serves, values, fun i j q q' later first second none => ?_⟩
  rw [values i q first, List.getElem?_eq_none_iff] at none
  rw [values j q' second, List.getElem?_eq_none_iff]
  exact Nat.le_trans none later

end Terminal

namespace Machine

/-- Both machines are the same, but the answers of the second are the integers among the lines of the
first. -/
def Scripted (m n : Machine) : Prop :=
  ∃ t, m.canvas.answers = .typed t ∧ (∀ line ∈ t.lines, line.text?.isSome = true) ∧
    n = m.answered (.scripted (t.lines.filterMap Line.integer?))

theorem scripted_ask {m n : Machine} (label : String) (same : m.Scripted n) :
    (n.canvas.ask label).1 = (m.canvas.ask label).1 ∧ (m.asked label).Scripted (n.asked label) := by
  obtain ⟨t, typed, texts, rfl⟩ := same
  obtain ⟨q, -, asks, value⟩ := t.ask_asks label
  obtain ⟨taken, dry⟩ := asks.integers texts
  have quiet : (t.ask label).events = [] := Terminal.askFrom_events label t.shown texts
  have typedAsk : m.canvas.ask label =
      (q.value, { m.canvas with answers := .typed (t.ask label).terminal }, []) := by
    rw [Canvas.ask, typed, Answers.ask, value, quiet]
  have scriptedAsk : (m.answered (.scripted (t.lines.filterMap Line.integer?))).canvas.ask label =
      (q.value, { m.canvas with
        answers := .scripted ((t.ask label).terminal.lines.filterMap Line.integer?) }, []) := by
    rw [taken]
    cases found : q.value with
    | none =>
      rw [dry found]
      rfl
    | some n => rfl
  refine ⟨?_, (t.ask label).terminal, ?_, ?_, ?_⟩
  · rw [typedAsk, scriptedAsk]
  · rw [asked, typedAsk]
  · intro line among
    refine texts line ?_
    rw [asks.lines]
    exact List.mem_append_right _ among
  · rw [asked, asked, scriptedAsk, typedAsk]
    rfl

theorem scripted_indistinct : Indistinct Scripted where
  view := by
    rintro m _ ⟨t, typed, texts, rfl⟩
    rfl
  change := by
    rintro f m _ changes ⟨t, typed, texts, rfl⟩
    cases changes <;> exact ⟨t, typed, texts, rfl⟩
  ask label same := scripted_ask label same
  enter := by
    rintro m _ locals ⟨t, typed, texts, rfl⟩
    exact ⟨t, typed, texts, rfl⟩
  leave := by
    rintro m _ ⟨t, typed, texts, rfl⟩
    exact ⟨t, typed, texts, rfl⟩

theorem scripted_learn {m n : Machine} (same : m.Scripted n) (text : String) (program : Program) :
    (m.learn text program).Scripted (n.learn text program) := by
  obtain ⟨t, typed, texts, rfl⟩ := same
  exact ⟨t, typed, texts, rfl⟩

theorem scripted_reply {m n : Machine} (same : m.Scripted n) (errors : String) :
    (n.reply errors).1 = (m.reply errors).1 ∧ (m.reply errors).2.Scripted (n.reply errors).2 := by
  obtain ⟨t, typed, texts, rfl⟩ := same
  exact ⟨rfl, t, typed, texts, rfl⟩

theorem submit_scripted {m n : Machine} (same : m.Scripted n) (text : String) :
    (n.submit text).1 = (m.submit text).1 ∧ (m.submit text).2.Scripted (n.submit text).2 := by
  have known : n.procedures = m.procedures := congrArg View.procedures (scripted_indistinct.view same)
  cases parsed : (parse m.procedures text).result with
  | error e =>
    rw [submit_eq_of_error parsed, submit_eq_of_error (known ▸ parsed)]
    refine scripted_reply ?_ _
    obtain ⟨t, typed, texts, rfl⟩ := same
    exact ⟨t, typed, texts, rfl⟩
  | ok program =>
    rw [submit_eq_of_ok parsed, submit_eq_of_ok (known ▸ parsed)]
    have results := program.plan.related scripted_indistinct (scripted_learn same text program)
    generalize program.run (m.learn text program) = r, program.run (n.learn text program) = s
      at results
    cases results with
    | ok same => exact scripted_reply same ""
    | error same => exact scripted_reply (scripted_indistinct.change (.tell _) same) _

theorem session_scripted {m n : Machine} (same : m.Scripted n) (texts : List String) :
    (session submit n texts).1 = (session submit m texts).1 ∧
      (session submit m texts).2.Scripted (session submit n texts).2 := by
  induction texts generalizing m n with
  | nil => exact ⟨rfl, same⟩
  | cons text texts ih =>
    obtain ⟨reply, same⟩ := submit_scripted same text
    obtain ⟨replies, same⟩ := ih same
    exact ⟨congrArg₂ List.cons reply replies, same⟩

/-- The prompts that are made when texts are submitted one after the other. -/
def promptsAll (m : Machine) : List String → List Prompt
  | [] => []
  | text :: texts => m.prompts text ++ (m.submit text).2.promptsAll texts

theorem promptsAll_serves {m : Machine} {t : Terminal} (typed : m.canvas.answers = .typed t)
    (texts : List String) :
    ∃ qs t', t.Serves (m.promptsAll texts) qs t' ∧
      (session submit m texts).2.canvas.answers = .typed t' := by
  induction texts generalizing m t with
  | nil => exact ⟨[], t, .nil t, typed⟩
  | cons text texts ih =>
    obtain ⟨qs, t₁, first, typed₁⟩ := submit_serves typed text
    obtain ⟨qs', t', others, typed'⟩ := ih typed₁
    exact ⟨qs ++ qs', t', first.append others, typed'⟩

end Machine

/-- Typing answers comes to the same as knowing them beforehand. Whatever text is typed, and whatever is
submitted: the replies are those to a session that knows the integers among the lines, and after it the
machines are the same but for their answers. Each prompt of the session finds the lines as the one before
it left them, and takes them up to the line that it gets its value from; so the prompts get these integers
one by one, and once a prompt gets nothing, no prompt after it gets anything. -/
theorem typed_as_scripted (input : String) (texts : List String) :
    let lines : List Line := Line.split input.toUTF8.toList
    let integers : List Int32 := lines.filterMap Line.integer?
    let start := Machine.initial (.typed ⟨lines, ""⟩)
    let typed := session Machine.submit start texts
    let scripted := session Machine.submit (.initial (.scripted integers)) texts
    scripted.1 = typed.1 ∧
    ∃ qs t, Terminal.Served lines (start.promptsAll texts) qs t ∧
      typed.2.canvas.answers = .typed t ∧
      scripted.2 = typed.2.answered (.scripted (integers.drop qs.length)) := by
  intro lines integers start typed scripted
  have all : ∀ line ∈ lines, line.text?.isSome = true :=
    fun line among => Text.Line.isSome_text?_of_mem_split among
  have begun : start.Scripted (.initial (.scripted integers)) := ⟨_, rfl, all, rfl⟩
  obtain ⟨replies, t, answers, -, same⟩ := Machine.session_scripted begun texts
  obtain ⟨qs, t', serves, answers'⟩ := start.promptsAll_serves rfl texts
  cases answers.symm.trans answers'
  refine ⟨replies, qs, t, serves.served all, answers, ?_⟩
  rw [(serves.asked.integers all).2] at same
  exact same

end Logo
