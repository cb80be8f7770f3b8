import Mathlib
import Logo.Proofs.Completion
import Logo.Proofs.Known

/-!
# One token of lookahead

What a reader does depends on the lexemes it takes and on the one that comes next, and on nothing
else: not on where they stand, and not on what comes later. Places only come back as the places of
names, so programs are compared without them (`bare`).

A reader that succeeds does so again if what follows is exchanged for something else that begins
with the same lexeme, or that what it read ends before. A reader that fails at a token fails
whatever comes after that token, and what it took before the token can be completed.

Results:
1. `Steady`: that a reader is so, with `Steady.andThen`, `Steady.branch`, `Steady.refuse`.
2. `expr_steady`, `condition_steady`, `statement_steady`, `block_steady`, `body_steady`: the rules are
   so.
-/

namespace Logo

/-! ## Programs without places -/

/-- The name, without the place where it stands. -/
def Name.bare (name : Name) : Name := ⟨name.text, .start⟩

mutual

def Factor.bare : Factor → Factor
  | .number n => .number n
  | .variable name => .variable name.bare
  | .call c => .call c.bare
  | .grouped e => .grouped e.bare

def Call.bare : Call → Call
  | .reporter what => .reporter what
  | .procedure name arguments => .procedure name.bare (bareAll arguments)

def bareAll : List Expr → List Expr
  | [] => []
  | e :: es => e.bare :: bareAll es

def Term.bare : Term → Term
  | .single f => .single f.bare
  | .chain f op rest => .chain f.bare op rest.bare

def Expr.bare : Expr → Expr
  | .single negated t => .single negated t.bare
  | .chain negated t op rest => .chain negated t.bare op rest.bare

end

mutual

def Clause.bare : Clause → Clause
  | .constant value => .constant value
  | .negation c => .negation c.bare
  | .braced c => .braced c.bare
  | .compared left op right => .compared left.bare op right.bare

def Condition.bare : Condition → Condition
  | .single c => .single c.bare
  | .chain c op rest => .chain c.bare op rest.bare

end

def Command.bare : Command → Command
  | .forward e => .forward e.bare
  | .back e => .back e.bare
  | .right e => .right e.bare
  | .left e => .left e.bare
  | .moveBy dx dy => .moveBy dx.bare dy.bare
  | .moveTo x y => .moveTo x.bare y.bare
  | .setHeading e => .setHeading e.bare
  | .home => .home
  | .clearScreen => .clearScreen
  | .penUp => .penUp
  | .penDown => .penDown
  | .setColor red green blue => .setColor red.bare green.bare blue.bare
  | .printText text => .printText text
  | .printNumber e => .printNumber e.bare
  | .scan reach target => .scan reach target.bare
  | .make reach target value => .make reach target.bare value.bare
  | .sleep e => .sleep e.bare

mutual

def Statement.bare : Statement → Statement
  | .command c => .command c.bare
  | .call c => .call c.bare
  | .output e => .output e.bare
  | .ifTrue c body => .ifTrue c.bare (bareBlock body)
  | .loop count body => .loop count.bare (bareBlock body)

def bareBlock : List Statement → List Statement
  | [] => []
  | s :: rest => s.bare :: bareBlock rest

end

def Item.bare : Item → Item
  | .definition p => .definition ⟨p.name, p.parameters, bareBlock p.body⟩
  | .statement s => .statement s.bare

/-- The program, without the places where its names stand. -/
def Program.bare (program : Program) : Program := program.map Item.bare

def Entry.bare (e : Entry) : Entry := { e with body? := e.body?.map bareBlock }

/-- The procedures, without the places where names stand in their bodies. -/
def Procedures.bare (known : Procedures) : Procedures := known.map fun _ => Entry.bare

/-! ## Tokens that differ in their places only -/

/-- The same lexemes, perhaps elsewhere. -/
def SameLexemes (ts ts' : List Token) : Prop := ts.map Token.lexeme = ts'.map Token.lexeme

/-- What stands before `rest` is read in the same way before `rest'`. -/
def Exchanges (rest rest' : List Token) : Prop := next rest = next rest' ∨ Ends rest'

namespace SameLexemes

variable {t : Token} {ts ts' taken taken' rest rest' : List Token}

theorem refl (ts : List Token) : SameLexemes ts ts := rfl

theorem of_nil (same : SameLexemes [] ts') : ts' = [] := List.map_eq_nil_iff.1 same.symm

theorem of_cons (same : SameLexemes (t :: ts) ts') :
    ∃ p' rest', ts' = ⟨t.lexeme, p'⟩ :: rest' ∧ SameLexemes ts rest' := by
  obtain ⟨⟨l', p'⟩, rest', rfl, rfl, others⟩ := List.map_eq_cons_iff.1 same.symm
  exact ⟨p', rest', rfl, others.symm⟩

theorem of_append (same : SameLexemes (taken ++ rest) ts') :
    ∃ taken' rest', ts' = taken' ++ rest' ∧ SameLexemes taken taken' ∧ SameLexemes rest rest' := by
  obtain ⟨taken', rest', rfl, first, second⟩ :=
    List.map_eq_append_iff.1 (same.symm.trans List.map_append)
  exact ⟨taken', rest', rfl, first.symm, second.symm⟩

theorem next_eq (same : SameLexemes ts ts') : next ts = next ts' := by
  have first := congrArg List.head? same
  rw [List.head?_map, List.head?_map] at first
  exact first

theorem next_append (same : SameLexemes taken taken')
    (follows : taken ≠ [] ∨ next rest = next rest') :
    next (taken ++ rest) = next (taken' ++ rest') := by
  cases taken with
  | nil =>
    obtain rfl := of_nil same
    exact follows.resolve_left (absurd rfl)
  | cons t taken =>
    obtain ⟨p', rest', rfl, _⟩ := of_cons same
    rfl

/-- What comes after lexemes that are the same can be exchanged if what comes after these can. -/
theorem exchanges_append (same : SameLexemes taken taken') (exchanges : Exchanges rest rest') :
    Exchanges (taken ++ rest) (taken' ++ rest') := by
  cases taken with
  | nil =>
    obtain rfl := of_nil same
    exact exchanges
  | cons t taken => exact .inl (next_append same (.inl (List.cons_ne_nil t taken)))

end SameLexemes

/-! ## Steps -/

namespace Reader

variable {α β γ δ : Type} {n : Nat} {view : α → γ}

/-- The reader takes the lexemes of `taken` again, wherever they stand and whatever comes in place of
`rest`. What it gives is the same to `view` as `a`. -/
def ReadsAgain (view : α → γ) (r : Reader α) (a : α) (taken rest : List Token) : Prop :=
  ∀ ⦃taken' : List Token⦄, SameLexemes taken taken' → ∃ a', view a = view a' ∧
    ∀ ⦃rest' : List Token⦄, Exchanges rest rest' → r (taken' ++ rest') = .ok (a', rest')

/-- The reader takes the lexemes of `taken` again and then fails at the same lexeme for the same
reason. Unless there are none, there is a way to complete them. -/
def FailsAgain (r : Reader α) (f : Failure) (taken : List Token) : Prop :=
  ∀ ⦃taken' : List Token⦄, SameLexemes taken taken' →
    (∀ ⦃rest' : List Token⦄, next f.rest = next rest' →
      r (taken' ++ rest') = .error ⟨f.cause, rest'⟩) ∧
    (taken ≠ [] → ∃ c, CompletedBy c fun ts => r (taken' ++ ts))

/-- What `r` does with fewer than `n` tokens, `r'` does with the same lexemes, whatever comes after the
next of them. -/
structure Steady (n : Nat) (view : α → γ) (r r' : Reader α) : Prop where
  ok : ∀ ⦃ts : List Token⦄ ⦃a : α⦄ ⦃rest : List Token⦄, ts.length < n → r ts = .ok (a, rest) →
    ∃ taken, ts = taken ++ rest ∧ ReadsAgain view r' a taken rest
  error : ∀ ⦃ts : List Token⦄ ⦃f : Failure⦄, ts.length < n → r ts = .error f →
    ∃ taken, ts = taken ++ f.rest ∧ FailsAgain r' f taken

/-- Two choices of how to go on: both none, or two readers that are alike and can be completed. -/
inductive Choices (n : Nat) (view : α → γ) : Option (Reader α) → Option (Reader α) → Prop
  | none : Choices n view none none
  | some {r r' : Reader α} : Steady n view r r' → (∃ c, CompletedBy c r') →
      Choices n view (some r) (some r')

theorem steady_zero {r r' : Reader α} : Steady 0 view r r' :=
  ⟨fun _ _ _ short => absurd short (Nat.not_lt_zero _),
    fun _ _ short => absurd short (Nat.not_lt_zero _)⟩

theorem steady_give {a a' : α} (same : view a = view a') : Steady n view (give a) (give a') where
  ok := by
    intro ts b rest _ read
    cases read
    refine ⟨[], rfl, fun taken' lexemes => ⟨a', same, fun rest' _ => ?_⟩⟩
    rw [lexemes.of_nil]
    rfl
  error := fun _ _ _ read => nomatch read

theorem steady_fail (why : Option Lexeme → Failure.Cause) :
    Steady n view (fail why : Reader α) (fail why) where
  ok := fun _ _ _ _ read => nomatch read
  error := by
    intro ts f _ read
    cases read
    refine ⟨[], rfl, fun taken' lexemes => ⟨fun rest' follows => ?_, fun some => absurd rfl some⟩⟩
    rw [lexemes.of_nil, follows]
    rfl

/-- A reader can be completed as another one can be that does the same with what completes it. -/
theorem CompletedBy.of_eq {c : List Lexeme} {r r' : Reader α} (completed : CompletedBy c r)
    (eq : ∀ ts more, ts.map Token.lexeme = c → Ends more → r' (ts ++ more) = r (ts ++ more)) :
    CompletedBy c r' where
  writable := completed.writable
  ends := completed.ends
  reads := by
    intro ts more lexemes ends
    obtain ⟨a, read⟩ := completed.reads lexemes ends
    exact ⟨a, (eq ts more lexemes ends).trans read⟩

/-! ### One reader after another -/

section

variable {w : β → δ} {r r' : Reader α} {more more' : α → Reader β} {a : α} {b : β} {f : Failure}
  {taken taken₂ rest : List Token}

theorem ReadsAgain.andThen (first : ReadsAgain view r a taken (taken₂ ++ rest))
    (second : ∀ a', view a = view a' → ReadsAgain w (more a') b taken₂ rest) :
    ReadsAgain w (r.andThen more) b (taken ++ taken₂) rest := by
  intro all lexemes
  obtain ⟨taken', taken₂', rfl, lexemes₁, lexemes₂⟩ := lexemes.of_append
  obtain ⟨a', same, begins⟩ := first lexemes₁
  obtain ⟨b', same₂, ends⟩ := second a' same lexemes₂
  refine ⟨b', same₂, fun rest' exchanges => ?_⟩
  rw [List.append_assoc, andThen_ok (begins (lexemes₂.exchanges_append exchanges))]
  exact ends exchanges

theorem FailsAgain.andThen (first : FailsAgain r f taken)
    (completed : ∃ c, ∀ a, CompletedBy c (more a)) : FailsAgain (r.andThen more) f taken := by
  intro taken' lexemes
  obtain ⟨refused, completes⟩ := first lexemes
  refine ⟨fun rest' follows => andThen_error (refused follows), fun some => ?_⟩
  obtain ⟨c, completion⟩ := completes some
  obtain ⟨c', completion'⟩ := completed
  exact ⟨c ++ c', completion.andThen completion'⟩

theorem ReadsAgain.andThen_fails (first : ReadsAgain view r a taken (taken₂ ++ f.rest))
    (second : ∀ a', view a = view a' → FailsAgain (more a') f taken₂)
    (completed : ∃ c, ∀ a, CompletedBy c (more a)) :
    FailsAgain (r.andThen more) f (taken ++ taken₂) := by
  intro all lexemes
  obtain ⟨taken', taken₂', rfl, lexemes₁, lexemes₂⟩ := lexemes.of_append
  obtain ⟨a', same, begins⟩ := first lexemes₁
  obtain ⟨refused, completes⟩ := second a' same lexemes₂
  refine ⟨fun rest' follows => ?_, fun _ => ?_⟩
  · rw [List.append_assoc, andThen_ok (begins (lexemes₂.exchanges_append (.inl follows)))]
    exact refused follows
  · -- a failure at the first token: what goes on is completed from its beginning
    by_cases none : taken₂ = []
    · subst none
      obtain rfl := lexemes₂.of_nil
      obtain ⟨c, completion⟩ := completed
      refine ⟨c, (completion a').of_eq fun ts more lexemes ends => ?_⟩
      rw [List.append_nil]
      exact andThen_ok (begins (.inr ((completion a').ends_append lexemes ends)))
    · obtain ⟨c, completion⟩ := completes none
      refine ⟨c, completion.of_eq fun ts more _ _ => ?_⟩
      rw [List.append_assoc]
      exact andThen_ok (begins (.inl (lexemes₂.next_append (.inl none))))

end

/-! ### Choices -/

section

variable {choose choose' : Token → Option (Reader α)} {otherwise otherwise' : Reader α} {l : Lexeme}
  {p : Position} {a : α} {f : Failure} {taken rest : List Token}

theorem readsAgain_chosen
    (again : ∀ p', ∃ r, choose ⟨l, p'⟩ = some r ∧ ReadsAgain view r a taken rest) :
    ReadsAgain view (branch choose otherwise) a (⟨l, p⟩ :: taken) rest := by
  intro all lexemes
  obtain ⟨p', taken', rfl, others⟩ := lexemes.of_cons
  obtain ⟨r, chosen, again⟩ := again p'
  obtain ⟨a', same, reads⟩ := again others
  refine ⟨a', same, fun rest' exchanges => ?_⟩
  rw [List.cons_append, branch_some chosen, reads exchanges]

theorem failsAgain_chosen
    (again : ∀ p', ∃ r, choose ⟨l, p'⟩ = some r ∧ FailsAgain r f taken ∧ ∃ c, CompletedBy c r) :
    FailsAgain (branch choose otherwise) f (⟨l, p⟩ :: taken) := by
  intro all lexemes
  obtain ⟨p', taken', rfl, others⟩ := lexemes.of_cons
  obtain ⟨r, chosen, again, start⟩ := again p'
  obtain ⟨refused, completes⟩ := again others
  refine ⟨fun rest' follows => ?_, fun _ => ?_⟩
  · rw [List.cons_append, branch_some chosen, refused follows]
  -- a failure right after the token that was chosen: `r` is completed from its beginning
  · obtain ⟨c, completion⟩ : ∃ c, CompletedBy c fun ts => r (taken' ++ ts) := by
      by_cases none : taken = []
      · subst none
        obtain rfl := others.of_nil
        exact start
      · exact completes none
    exact ⟨c, completion.of_eq fun ts more _ _ => branch_some chosen _⟩

theorem ReadsAgain.unchosen (reads : ReadsAgain view otherwise a taken rest)
    (unchosen : ∀ ⦃taken' rest'⦄, SameLexemes taken taken' → Exchanges rest rest' →
      Unchosen choose (taken' ++ rest')) :
    ReadsAgain view (branch choose otherwise) a taken rest := by
  intro taken' lexemes
  obtain ⟨a', same, reads⟩ := reads lexemes
  refine ⟨a', same, fun rest' exchanges => ?_⟩
  rw [branch_unchosen (unchosen lexemes exchanges), reads exchanges]

theorem FailsAgain.unchosen (fails : FailsAgain otherwise f taken)
    (unchosen : ∀ ⦃ts⦄, next (taken ++ f.rest) = next ts → Unchosen choose ts) :
    FailsAgain (branch choose otherwise) f taken := by
  intro taken' lexemes
  obtain ⟨refused, completes⟩ := fails lexemes
  refine ⟨fun rest' follows => ?_, fun some => ?_⟩
  · rw [branch_unchosen (unchosen (lexemes.next_append (.inr follows))), refused follows]
  · obtain ⟨c, completion⟩ := completes some
    refine ⟨c, completion.of_eq fun ts more _ _ => branch_unchosen ?_⟩
    exact unchosen (lexemes.next_append (.inl some))

/-- Whether a token is taken depends on its lexeme. -/
theorem unchosen_again {ts ts' : List Token}
    (agree : ∀ l p p', Choices n view (choose ⟨l, p⟩) (choose' ⟨l, p'⟩))
    (unchosen : Unchosen choose ts) (same : next ts = next ts') : Unchosen choose' ts' := by
  refine unchosen_of_next fun l p' first => ?_
  obtain ⟨⟨l', p⟩, head, comes⟩ := Option.map_eq_some_iff.1 (same.trans first)
  obtain rfl : l' = l := comes
  have choices := agree l' p p'
  rw [unchosen _ head] at choices
  generalize choose' ⟨l', p'⟩ = chosen at choices ⊢
  cases choices
  rfl

theorem exists_chosen {ts : List Token} (chosen : ¬ Unchosen choose ts) :
    ∃ l p rest r, ts = ⟨l, p⟩ :: rest ∧ choose ⟨l, p⟩ = some r := by
  cases ts with
  | nil => exact absurd (fun _ among => nomatch among) chosen
  | cons t rest =>
    cases choice : choose t with
    | none => exact absurd (fun _ among => Option.some.inj among ▸ choice) chosen
    | some r => exact ⟨t.lexeme, t.position, rest, r, rfl, choice⟩

theorem chosen_again {r : Reader α}
    (agree : ∀ l p p', Choices n view (choose ⟨l, p⟩) (choose' ⟨l, p'⟩))
    (chosen : choose ⟨l, p⟩ = some r) (p' : Position) :
    ∃ r', choose' ⟨l, p'⟩ = some r' ∧ Steady n view r r' ∧ ∃ c, CompletedBy c r' := by
  have choices := agree l p p'
  rw [chosen] at choices
  generalize choose' ⟨l, p'⟩ = again at choices ⊢
  cases choices with
  | some steady completed => exact ⟨_, rfl, steady, completed⟩

end

/-! ### Steady readers -/

namespace Steady

theorem reads {r r' : Reader α} {taken rest : List Token} {a : α} (steady : Steady n view r r')
    (short : (taken ++ rest).length < n) (read : r (taken ++ rest) = .ok (a, rest)) :
    ReadsAgain view r' a taken rest := by
  obtain ⟨_, split, again⟩ := steady.ok short read
  obtain rfl := List.append_cancel_right split
  exact again

theorem fails {r r' : Reader α} {taken : List Token} {f : Failure} (steady : Steady n view r r')
    (short : (taken ++ f.rest).length < n) (read : r (taken ++ f.rest) = .error f) :
    FailsAgain r' f taken := by
  obtain ⟨_, split, again⟩ := steady.error short read
  obtain rfl := List.append_cancel_right split
  exact again

theorem mono {m : Nat} {r r' : Reader α} (steady : Steady n view r r') (le : m ≤ n) :
    Steady m view r r' :=
  ⟨fun _ _ _ short => steady.ok (Nat.lt_of_lt_of_le short le),
    fun _ _ short => steady.error (Nat.lt_of_lt_of_le short le)⟩

section

variable {m : Nat} {w : β → δ} {r r' : Reader α} {more more' : α → Reader β}

/-- What goes on after a reader may be known to be steady for fewer tokens, if there are fewer. -/
theorem andThen_fewer (first : Steady n view r r')
    (fewer : ∀ ⦃ts a rest⦄, ts.length < n → r ts = .ok (a, rest) → rest.length < m)
    (second : ∀ a a', view a = view a' → Steady m w (more a) (more' a'))
    (completed : ∃ c, ∀ a, CompletedBy c (more' a)) :
    Steady n w (r.andThen more) (r'.andThen more') where
  ok := by
    intro ts b rest short read
    obtain ⟨a, between, begun, goes⟩ := andThen_eq_ok.1 read
    have short' := fewer short begun
    obtain ⟨taken, rfl, begins⟩ := first.ok short begun
    obtain ⟨taken₂, rfl, _⟩ := (second a a rfl).ok short' goes
    refine ⟨taken ++ taken₂, (List.append_assoc ..).symm, ?_⟩
    exact begins.andThen fun a' same => (second a a' same).reads short' goes
  error := by
    intro ts f short read
    cases begun : r ts with
    | error f' =>
      obtain rfl := Except.error.inj ((andThen_error begun).symm.trans read)
      obtain ⟨taken, split, fails⟩ := first.error short begun
      exact ⟨taken, split, fails.andThen completed⟩
    | ok given =>
      obtain ⟨a, between⟩ := given
      have goes := (andThen_ok begun).symm.trans read
      have short' := fewer short begun
      obtain ⟨taken, rfl, begins⟩ := first.ok short begun
      obtain ⟨taken₂, rfl, _⟩ := (second a a rfl).error short' goes
      refine ⟨taken ++ taken₂, (List.append_assoc ..).symm, ?_⟩
      exact begins.andThen_fails (fun a' same => (second a a' same).fails short' goes) completed

theorem andThen (first : Steady n view r r')
    (second : ∀ a a', view a = view a' → Steady n w (more a) (more' a'))
    (completed : ∃ c, ∀ a, CompletedBy c (more' a)) :
    Steady n w (r.andThen more) (r'.andThen more') := by
  refine first.andThen_fewer (fun ts a rest short begun => ?_) second completed
  obtain ⟨taken, rfl, _⟩ := first.ok short begun
  rw [List.length_append] at short
  omega

/-- What goes on after a reader that takes a token has one token less. -/
theorem andThen_takes (first : Steady (n + 1) view r r') (takes : r.Takes)
    (second : ∀ a a', view a = view a' → Steady n w (more a) (more' a'))
    (completed : ∃ c, ∀ a, CompletedBy c (more' a)) :
    Steady (n + 1) w (r.andThen more) (r'.andThen more') :=
  first.andThen_fewer
    (fun _ _ _ short begun => Nat.lt_of_lt_of_le (takes begun) (Nat.le_of_lt_succ short))
    second completed

end

theorem map {w : β → δ} {r r' : Reader α} {f f' : α → β} (first : Steady n view r r')
    (same : ∀ a a', view a = view a' → w (f a) = w (f' a')) :
    Steady n w (r.andThen fun a => give (f a)) (r'.andThen fun a => give (f' a)) :=
  first.andThen (fun a a' alike => steady_give (same a a' alike)) ⟨[], fun _ => .give⟩

/-- A branch is steady if its choices are, and what is read otherwise takes a token or ends before
all tokens that would be chosen. -/
theorem branch {choose choose' : Token → Option (Reader α)} {otherwise otherwise' : Reader α}
    (agree : ∀ l p p', Choices n view (choose ⟨l, p⟩) (choose' ⟨l, p'⟩))
    (quiet : otherwise.Takes ∨ ∀ t : Token, t.lexeme.continues = false → choose' t = none)
    (other : Steady (n + 1) view otherwise otherwise') :
    Steady (n + 1) view (branch choose otherwise) (branch choose' otherwise') where
  ok := by
    intro ts a rest short read
    by_cases unchosen : Unchosen choose ts
    · rw [branch_unchosen unchosen] at read
      obtain ⟨taken, rfl, again⟩ := other.ok short read
      refine ⟨taken, rfl, again.unchosen fun taken' rest' lexemes exchanges => ?_⟩
      by_cases none : taken = []
      · subst none
        obtain rfl := lexemes.of_nil
        obtain follows | ends := exchanges
        · exact unchosen_again agree unchosen follows
        · obtain takes | quiet := quiet
          · exact absurd (takes read) (Nat.lt_irrefl _)
          · exact ends.unchosen quiet
      · exact unchosen_again agree unchosen (lexemes.next_append (.inl none))
    · obtain ⟨l, p, ts, r, rfl, chosen⟩ := exists_chosen unchosen
      have short' := Nat.lt_of_succ_lt_succ short
      -- what is taken is the same for all places where the token may stand again
      obtain ⟨_, _, steady, _⟩ := chosen_again agree chosen p
      rw [branch_some chosen] at read
      obtain ⟨taken, rfl, _⟩ := steady.ok short' read
      refine ⟨⟨l, p⟩ :: taken, rfl, readsAgain_chosen fun p' => ?_⟩
      obtain ⟨r', chosen', steady, _⟩ := chosen_again agree chosen p'
      exact ⟨r', chosen', steady.reads short' read⟩
  error := by
    intro ts f short read
    by_cases unchosen : Unchosen choose ts
    · rw [branch_unchosen unchosen] at read
      obtain ⟨taken, rfl, again⟩ := other.error short read
      exact ⟨taken, rfl, again.unchosen fun _ same => unchosen_again agree unchosen same⟩
    · obtain ⟨l, p, ts, r, rfl, chosen⟩ := exists_chosen unchosen
      have short' := Nat.lt_of_succ_lt_succ short
      obtain ⟨_, _, steady, _⟩ := chosen_again agree chosen p
      rw [branch_some chosen] at read
      obtain ⟨taken, rfl, _⟩ := steady.error short' read
      refine ⟨⟨l, p⟩ :: taken, rfl, failsAgain_chosen fun p' => ?_⟩
      obtain ⟨r', chosen', steady, start⟩ := chosen_again agree chosen p'
      exact ⟨r', chosen', steady.fails short' read, start⟩

theorem refuse_none {why : Option Lexeme → Option Failure.Cause} {r : Reader α} {ts : List Token}
    (unrefused : why (next ts) = none) : refuse why r ts = r ts := by
  simp only [Reader.refuse, unrefused]

theorem refuse_some {why : Option Lexeme → Option Failure.Cause} {r : Reader α} {ts : List Token}
    {cause : Failure.Cause} (refused : why (next ts) = some cause) :
    refuse why r ts = .error ⟨cause, ts⟩ := by
  simp only [Reader.refuse, refused]

theorem refuse {why : Option Lexeme → Option Failure.Cause} {r r' : Reader α}
    (steady : Steady n view r r') (takes : r.Takes) :
    Steady n view (refuse why r) (refuse why r') where
  ok := by
    intro ts a rest short read
    cases reason : why (next ts) with
    | some cause => cases (refuse_some reason).symm.trans read
    | none =>
      rw [refuse_none reason] at read
      obtain ⟨taken, rfl, again⟩ := steady.ok short read
      have some : taken ≠ [] := by
        rintro rfl
        exact Nat.lt_irrefl _ (takes read)
      refine ⟨taken, rfl, fun taken' lexemes => ?_⟩
      obtain ⟨a', same, reads⟩ := again lexemes
      refine ⟨a', same, fun rest' exchanges => ?_⟩
      rw [refuse_none (lexemes.next_append (.inl some) ▸ reason), reads exchanges]
  error := by
    intro ts f short read
    cases reason : why (next ts) with
    | some cause =>
      obtain rfl := Except.error.inj ((refuse_some reason).symm.trans read)
      refine ⟨[], rfl, fun taken' lexemes => ⟨fun rest' follows => ?_, fun some => absurd rfl some⟩⟩
      rw [lexemes.of_nil]
      exact refuse_some (follows ▸ reason)
    | none =>
      rw [refuse_none reason] at read
      obtain ⟨taken, rfl, again⟩ := steady.error short read
      refine ⟨taken, rfl, fun taken' lexemes => ?_⟩
      obtain ⟨refused, completes⟩ := again lexemes
      refine ⟨fun rest' follows => ?_, fun some => ?_⟩
      · rw [refuse_none (lexemes.next_append (.inr follows) ▸ reason), refused follows]
      · obtain ⟨c, completion⟩ := completes some
        refine ⟨c, completion.of_eq fun ts more _ _ => refuse_none ?_⟩
        rw [← lexemes.next_append (.inl some), reason]

end Steady

theorem Choices.give {a a' : α} (same : view a = view a') :
    Choices n view (Option.some (Reader.give a)) (Option.some (Reader.give a')) :=
  .some (steady_give same) ⟨[], .give⟩

theorem Keeps.andThen {r : Reader α} {more : α → Reader β} (first : r.Keeps)
    (second : ∀ a, (more a).Keeps) : (r.andThen more).Keeps := by
  intro ts b rest read
  obtain ⟨a, between, begun, goes⟩ := andThen_eq_ok.1 read
  exact Nat.le_trans (second a goes) (first begun)

theorem Takes.andThen {r : Reader α} {more : α → Reader β} (first : r.Takes)
    (second : ∀ a, (more a).Keeps) : (r.andThen more).Takes := by
  intro ts b rest read
  obtain ⟨a, between, begun, goes⟩ := andThen_eq_ok.1 read
  exact Nat.lt_of_le_of_lt (second a goes) (first begun)

theorem Takes.refuse {why : Option Lexeme → Option Failure.Cause} {r : Reader α} (takes : r.Takes) :
    (Reader.refuse why r).Takes := by
  intro ts a rest read
  unfold Reader.refuse at read
  split at read
  · cases read
  · exact takes read

theorem give_keeps (a : α) : (give a).Keeps := by
  intro ts b rest read
  cases read
  exact Nat.le_refl _

end Reader

namespace Grammar

open Reader

variable {sig : Signature} {n : Nat}

theorem missing_takes {α : Type} (what : Expectation) : (missing what : Reader α).Takes := by
  rw [missing_eq]
  exact fail_takes _

theorem missing_steady {α γ : Type} {view : α → γ} (what : Expectation) :
    Steady n view (missing what) (missing what) := by
  rw [missing_eq]
  exact steady_fail _

theorem expect_steady (l : Lexeme) (what : Expectation) :
    Steady n id (expect l what) (expect l what) := by
  rw [expect_steps]
  refine (Steady.branch (fun l' p p' => ?_) (.inl (missing_takes _)) (missing_steady _)).mono n.le_succ
  dsimp only
  split
  · exact .give rfl
  · exact .none

/-- What stands before the lexeme that closes it. -/
theorem enclosed_steady {α β γ δ : Type} {view : α → γ} {w : β → δ} {r : Reader α} {f : α → β}
    {c : List Lexeme} {l : Lexeme} (what : Expectation) (inner : Steady n view r r)
    (same : ∀ a a', view a = view a' → w (f a) = w (f a')) (completed : CompletedBy c r)
    (writable : l.Writable) (final : l.continues = false) :
    Choices n w (some (r.andThen fun a => (expect l what).andThen fun _ => give (f a)))
      (some (r.andThen fun a => (expect l what).andThen fun _ => give (f a))) := by
  have closes (a : α) : CompletedBy [l] ((expect l what).andThen fun _ => give (f a)) :=
    (expect_completedBy writable final what).map _
  refine .some ?_ ⟨_, completed.andThen closes⟩
  exact inner.andThen (fun a a' alike => (expect_steady l what).map fun _ _ _ => same a a' alike)
    ⟨_, closes⟩

/-! ## Expressions -/

section

variable (e : Steady n Expr.bare (expr sig) (expr sig))

include e

theorem argumentsWith_steady (arity : Nat) :
    Steady n bareAll (argumentsWith (expr sig) arity) (argumentsWith (expr sig) arity) := by
  induction arity with
  | zero => exact steady_give rfl
  | succ arity ih =>
    rw [argumentsWith_succ]
    refine e.andThen (fun a a' same => ih.map fun es es' sames => ?_)
      ⟨_, fun a => (argumentsWith_completedBy sig arity).map _⟩
    rw [bareAll, bareAll, same, sames]

/-- A call is read in the same way wherever its name stands. -/
theorem call_steady (callee : Callee) (p p' : Position) :
    Steady n Call.bare (call sig callee p) (call sig callee p') := by
  cases callee with
  | reporter what => exact steady_give rfl
  | procedure name arity =>
    rw [call_procedure, call_procedure]
    refine (argumentsWith_steady e arity).map fun es es' same => ?_
    rw [Call.bare, Call.bare, same]
    rfl

theorem factor_steady : Steady (n + 1) Factor.bare (factor sig) (factor sig) := by
  rw [factor_steps]
  refine .branch (fun l p p' => ?_) (.inl (missing_takes _)) (missing_steady _)
  unfold factorAt
  dsimp only
  cases callee? sig l with
  | some callee =>
    obtain ⟨c, completed⟩ := call_completedBy sig callee p'
    exact .some ((call_steady e callee p p').map fun _ _ same => congrArg Factor.call same)
      ⟨c, completed.map _⟩
  | none =>
    cases l with
    | number value => exact .give rfl
    | word w => exact .give rfl
    | parenOpen =>
      exact enclosed_steady _ e (fun _ _ same => congrArg Factor.grouped same)
        (expr_completedBy sig) trivial rfl
    | _ => exact .none

end

theorem term_steady (f : Steady (n + 1) Factor.bare (factor sig) (factor sig))
    (t : Steady n Term.bare (term sig) (term sig)) :
    Steady (n + 1) Term.bare (term sig) (term sig) := by
  rw [term_steps]
  refine f.andThen (fun a a' same => ?_)
    ⟨_, fun a => .branch_other (termAfter_quiet sig a) .give⟩
  refine .branch (fun l p p' => ?_) (.inr (termAfter_quiet sig a'))
    (steady_give (congrArg Term.single same))
  cases l with
  | mulOp op =>
    refine .some (t.map fun rest rest' same' => ?_) ⟨_, (term_completedBy sig).map _⟩
    rw [Term.bare, Term.bare, same, same']
  | _ => exact .none

theorem sum_steady (t : Steady (n + 1) Term.bare (term sig) (term sig))
    (e : Steady n Expr.bare (expr sig) (expr sig)) (negated : Bool) :
    Steady (n + 1) Expr.bare (sum sig negated) (sum sig negated) := by
  rw [sum_steps]
  refine t.andThen (fun a a' same => ?_)
    ⟨_, fun a => .branch_other (sumAfter_quiet sig negated a) .give⟩
  refine .branch (fun l p p' => ?_) (.inr (sumAfter_quiet sig negated a'))
    (steady_give (congrArg (Expr.single negated) same))
  cases l with
  | addOp op =>
    refine .some (e.map fun rest rest' same' => ?_) ⟨_, (expr_completedBy sig).map _⟩
    rw [Expr.bare, Expr.bare, same, same']
  | _ => exact .none

theorem expr_step_steady (t : Steady (n + 1) Term.bare (term sig) (term sig))
    (e : Steady n Expr.bare (expr sig) (expr sig)) :
    Steady (n + 1) Expr.bare (expr sig) (expr sig) := by
  rw [expr_steps]
  refine .branch (fun l p p' => ?_) (.inr (exprAt_quiet sig)) (sum_steady t e false)
  cases l with
  | addOp sign =>
    exact .some ((sum_steady t e _).mono n.le_succ) ⟨_, sum_completedBy sig _⟩
  | _ => exact .none

theorem expr_steady (sig : Signature) (n : Nat) : Steady n Expr.bare (expr sig) (expr sig) := by
  suffices both : Steady n Term.bare (term sig) (term sig) ∧
      Steady n Expr.bare (expr sig) (expr sig) from both.2
  -- on the number of tokens: products and sums come back to each other only after a token
  induction n with
  | zero => exact ⟨steady_zero, steady_zero⟩
  | succ n ih =>
    have t := term_steady (factor_steady ih.2) ih.1
    exact ⟨t, expr_step_steady t ih.2⟩

/-! ## Conditions -/

theorem comparison_steady (sig : Signature) (n : Nat) :
    Steady (n + 1) Clause.bare (comparison sig) (comparison sig) := by
  rw [comparison_steps]
  refine (expr_steady sig (n + 1)).andThen (fun left left' same => ?_)
    ⟨_, comparisonAfter_completedBy sig⟩
  refine .branch (fun l p p' => ?_) (.inl (missing_takes _)) (missing_steady _)
  cases l with
  | comparison op =>
    refine .some ((expr_steady sig n).map fun right right' same' => ?_)
      ⟨_, (expr_completedBy sig).map _⟩
    rw [Clause.bare, Clause.bare, same, same']
  | _ => exact .none

theorem clause_steady (c : Steady n Condition.bare (condition sig) (condition sig)) :
    Steady (n + 1) Clause.bare (clause sig) (clause sig) := by
  rw [clause_steps]
  refine .branch (fun l p p' => ?_) (.inl (comparison_takes sig)) (comparison_steady sig n)
  cases l with
  | keyword k =>
    cases k with
    | truth | falsehood => exact .give rfl
    | not =>
      exact .some (c.map fun _ _ same => congrArg Clause.negation same)
        ⟨_, (condition_completedBy sig).map _⟩
    | _ => exact .none
  | braceOpen =>
    exact enclosed_steady _ c (fun _ _ same => congrArg Clause.braced same)
      (condition_completedBy sig) trivial rfl
  | _ => exact .none

theorem condition_steady (sig : Signature) (n : Nat) :
    Steady n Condition.bare (condition sig) (condition sig) := by
  induction n with
  | zero => exact steady_zero
  | succ n ih =>
    rw [condition_steps]
    refine (clause_steady ih).andThen (fun first first' same => ?_)
      ⟨_, fun a => .branch_other (conditionAfter_quiet sig a) .give⟩
    refine .branch (fun l p p' => ?_) (.inr (conditionAfter_quiet sig first'))
      (steady_give (congrArg Condition.single same))
    unfold conditionAfter
    dsimp only
    cases connective? l with
    | none => exact .none
    | some op =>
      refine .some (ih.map fun rest rest' same' => ?_) ⟨_, (condition_completedBy sig).map _⟩
      rw [Condition.bare, Condition.bare, same, same']

/-! ## Statements -/

theorem target_steady (sig : Signature) (n : Nat) :
    Steady n Name.bare (target sig) (target sig) := by
  rw [target_steps]
  refine (Steady.branch (fun l p p' => ?_) (.inl (fail_takes _)) (steady_fail _)).mono n.le_succ
  cases l with
  | word name | quoted name =>
    simp only [targetAt]
    split
    · exact .none
    · exact .give rfl
  | _ => exact .none

section

variable {α γ : Type} {view : α → γ}

theorem operand_steady {make make' : Expr → α}
    (same : ∀ e e', e.bare = e'.bare → view (make e) = view (make' e')) :
    Steady n view (operand sig make) (operand sig make') := by
  rw [operand_eq, operand_eq]
  exact (expr_steady sig n).map same

theorem operands₂_steady {make make' : Expr → Expr → α}
    (same : ∀ a a' b b', a.bare = a'.bare → b.bare = b'.bare →
      view (make a b) = view (make' a' b')) :
    Steady n view (operands₂ sig make) (operands₂ sig make') := by
  rw [operands₂_eq, operands₂_eq]
  exact (expr_steady sig n).andThen
    (fun a a' alike => operand_steady fun b b' alike' => same a a' b b' alike alike')
    ⟨_, fun a => operand_completedBy sig (make' a)⟩

theorem operands₃_steady {make : Expr → Expr → Expr → α}
    (same : ∀ a a' b b' c c', a.bare = a'.bare → b.bare = b'.bare → c.bare = c'.bare →
      view (make a b c) = view (make a' b' c')) :
    Steady n view (operands₃ sig make) (operands₃ sig make) := by
  rw [operands₃_eq]
  exact (expr_steady sig n).andThen
    (fun a a' alike => operands₂_steady fun b b' c c' alike' alike'' =>
      same a a' b b' c c' alike alike' alike'')
    ⟨_, fun a => operands₂_completedBy sig (make a)⟩

end

theorem scan_steady (reach : Reach) :
    Steady n Command.bare (scan sig reach) (scan sig reach) := by
  rw [scan_eq]
  exact (target_steady sig n).map fun _ _ same => congrArg (Command.scan reach) same

theorem make_steady (reach : Reach) :
    Steady n Command.bare (make sig reach) (make sig reach) := by
  rw [make_eq]
  refine (target_steady sig n).andThen (fun name name' same => ?_)
    ⟨_, fun name => operand_completedBy sig (Command.make reach name)⟩
  refine (expr_steady sig n).map fun value value' same' => ?_
  rw [Command.bare, Command.bare, same, same']

theorem localTo_steady (room : sig.HasRoom) :
    Steady (n + 1) Command.bare (localTo sig) (localTo sig) := by
  rw [localTo_steps]
  refine .branch (fun l p p' => ?_) (.inl (missing_takes _)) (missing_steady _)
  cases l with
  | keyword k =>
    cases k with
    | make => exact .some (make_steady .own) (make_completedBy room .own)
    | scan => exact .some (scan_steady .own) (scan_completedBy room .own)
    | _ => exact .none
  | _ => exact .none

theorem print_steady (sig : Signature) (n : Nat) :
    Steady (n + 1) Command.bare (print sig) (print sig) := by
  rw [print_steps]
  refine .branch (fun l p p' => ?_) (.inl (operand_takes sig _))
    (operand_steady fun _ _ same => congrArg Command.printNumber same)
  cases l with
  | quoted text => exact .give rfl
  | _ => exact .none

theorem command?_steady (room : sig.HasRoom) {k : Keyword} {r : Reader Command}
    (begins : command? sig k = some r) : Steady n Command.bare r r := by
  refine Steady.mono (n := n + 1) ?_ n.le_succ
  cases k <;> cases begins
  case forward => exact operand_steady fun _ _ same => congrArg Command.forward same
  case back => exact operand_steady fun _ _ same => congrArg Command.back same
  case right => exact operand_steady fun _ _ same => congrArg Command.right same
  case left => exact operand_steady fun _ _ same => congrArg Command.left same
  case head => exact operand_steady fun _ _ same => congrArg Command.setHeading same
  case sleep => exact operand_steady fun _ _ same => congrArg Command.sleep same
  case move => exact operands₂_steady fun _ _ _ _ same same' => congrArg₂ Command.moveBy same same'
  case setXY => exact operands₂_steady fun _ _ _ _ same same' => congrArg₂ Command.moveTo same same'
  case setColor =>
    refine operands₃_steady fun _ _ _ _ _ _ same same' same'' => ?_
    rw [Command.bare, Command.bare, same, same', same'']
  case home | clearScreen | penUp | penDown => exact steady_give rfl
  case print => exact print_steady sig n
  case localTo => exact localTo_steady room
  case scan => exact scan_steady .shared
  case make => exact make_steady .shared

section

variable (room : sig.HasRoom) (b : Steady n bareBlock (block sig) (block sig))

include b

theorem bracketed_steady : Steady n bareBlock (bracketed sig) (bracketed sig) :=
  (expect_steady _ _).andThen (fun _ _ _ => b) ⟨_, fun _ => block_completedBy sig⟩

include room

theorem keywordStatement?_steady {k : Keyword} {r : Reader Statement}
    (begins : keywordStatement? sig (block sig) k = some r) : Steady n Statement.bare r r := by
  obtain ⟨rfl, rfl⟩ | ⟨rfl, rfl⟩ | ⟨rfl, rfl⟩ | ⟨command, found, rfl⟩ :=
    keywordStatement?_cases begins
  · exact operand_steady fun _ _ same => congrArg Statement.output same
  · refine (condition_steady sig n).andThen (fun c c' same => ?_)
      ⟨_, fun c => (bracketed_completedBy sig).map _⟩
    refine (bracketed_steady b).map fun body body' same' => ?_
    rw [Statement.bare, Statement.bare, same, same']
  · refine (expr_steady sig n).andThen (fun count count' same => ?_)
      ⟨_, fun count => (bracketed_completedBy sig).map _⟩
    refine (bracketed_steady b).map fun body body' same' => ?_
    rw [Statement.bare, Statement.bare, same, same']
  · exact (command?_steady room found).map fun _ _ same => congrArg Statement.command same

theorem statement_steady : Steady (n + 1) Statement.bare (statement sig) (statement sig) := by
  rw [statement_steps]
  refine .branch (fun l p p' => ?_) (.inl (missing_takes _)) (missing_steady _)
  unfold statementAt
  dsimp only
  cases callee? sig l with
  | some callee =>
    obtain ⟨c, completed⟩ := call_completedBy sig callee p'
    exact .some ((call_steady (expr_steady sig n) callee p p').map
      fun _ _ same => congrArg Statement.call same) ⟨c, completed.map _⟩
  | none =>
    cases l with
    | keyword k =>
      dsimp only
      cases begins : keywordStatement? sig (block sig) k with
      | none => exact .none
      | some r =>
        exact .some (keywordStatement?_steady room b begins)
          (keywordStatement?_completedBy room begins)
    | _ => exact .none

end

/-- What ends a list of statements is recognized by its lexeme. -/
theorem closeAt_choices (close l : Lexeme) (p p' : Position) :
    Choices n bareBlock (closeAt close ⟨l, p⟩) (closeAt close ⟨l, p'⟩) := by
  unfold closeAt
  dsimp only
  split
  · exact .give rfl
  · exact .none

/-- A statement and what follows it. -/
theorem statements_steady {r : Reader (List Statement)} {c : List Lexeme} (room : sig.HasRoom)
    (b : Steady n bareBlock (block sig) (block sig)) (more : Steady n bareBlock r r)
    (completed : CompletedBy c r) :
    Steady (n + 1) bareBlock ((statement sig).andThen fun s => r.andThen fun ss => give (s :: ss))
      ((statement sig).andThen fun s => r.andThen fun ss => give (s :: ss)) := by
  refine (statement_steady room b).andThen_takes (statement_takes sig) (fun s s' same => ?_)
    ⟨c, fun s => completed.map (s :: ·)⟩
  refine more.map fun ss ss' same' => ?_
  rw [bareBlock, bareBlock, same, same']

theorem statements_takes (sig : Signature) {r : Reader (List Statement)} (takes : r.Takes) :
    ((statement sig).andThen fun s => r.andThen fun ss => give (s :: ss)).Takes :=
  (statement_takes sig).andThen fun _ => takes.keeps.andThen fun _ => give_keeps _

theorem block_steady (room : sig.HasRoom) (n : Nat) :
    Steady n bareBlock (block sig) (block sig) := by
  induction n with
  | zero => exact steady_zero
  | succ n ih =>
    rw [block_steps]
    have takes := statements_takes sig (block_takes sig)
    exact .branch (closeAt_choices _) (.inl takes.refuse)
      ((statements_steady room ih ih (block_completedBy sig)).refuse takes)

theorem body_steady (room : sig.HasRoom) (outer : String) (n : Nat) :
    Steady n bareBlock (body sig outer) (body sig outer) := by
  induction n with
  | zero => exact steady_zero
  | succ n ih =>
    rw [body_steps]
    have takes := statements_takes sig (body_takes sig outer)
    exact .branch (closeAt_choices _) (.inl takes.refuse)
      ((statements_steady room (block_steady room n) ih (body_completedBy sig outer)).refuse takes)

end Grammar

end Logo
