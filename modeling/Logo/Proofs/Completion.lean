import Mathlib
import Logo.Proofs.Spelling
import Logo.Proofs.Steps

/-!
# What can always be read

For each rule of the grammar there are a few lexemes that it can be satisfied with, whatever stands
after them as long as that does not go on with what they say. An operand is satisfied with `0`, a
statement with `pu`, a block with its closing bracket. So whatever a reader still has to read, a
text can be written that it reads.

Results: `CompletedBy.andThen`, `CompletedBy.branch_chosen`, `CompletedBy.branch_other`, and a lemma
`*_completedBy` for each rule.
-/

namespace Logo

/-- Lexemes that can go on with something that could also end before them: operators, and the words
among the parameters of a procedure. -/
def Lexeme.continues : Lexeme → Bool
  | .word _ | .addOp _ | .mulOp _ => true
  | .keyword .and | .keyword .or | .keyword .xor => true
  | _ => false

/-- What stands before these tokens ends before them. -/
def Ends (ts : List Token) : Prop := ∀ l ∈ next ts, l.continues = false

/-- Some variable can be set: not every text that can be written names a procedure. -/
def Signature.HasRoom (sig : Signature) : Prop :=
  ∃ name, sig name = none ∧ (Lexeme.quoted name).Writable

theorem ends_nil : Ends [] := fun _ among => nomatch among

theorem ends_cons {t : Token} {ts : List Token} : Ends (t :: ts) ↔ t.lexeme.continues = false :=
  ⟨fun ends => ends t.lexeme rfl, fun final _ among => Option.some.inj among ▸ final⟩

theorem Ends.unchosen {α : Type} {choose : Token → Option (Reader α)} {ts : List Token}
    (ends : Ends ts) (quiet : ∀ t : Token, t.lexeme.continues = false → choose t = none) :
    Reader.Unchosen choose ts :=
  Reader.unchosen_of_next fun l p first => quiet ⟨l, p⟩ (ends l first)

namespace Reader

variable {α β : Type} {c c' : List Lexeme}

/-- The reader reads the lexemes `c` to their end and succeeds, if what follows does not go on. -/
structure CompletedBy (c : List Lexeme) (r : Reader α) : Prop where
  writable : ∀ l ∈ c, l.Writable
  ends : ∀ l ∈ c.head?, l.continues = false
  reads : ∀ ⦃ts more : List Token⦄, ts.map Token.lexeme = c → Ends more →
    ∃ a, r (ts ++ more) = .ok (a, more)

namespace CompletedBy

/-- Before the lexemes, what stands before them ends. -/
theorem ends_append {r : Reader α} (completed : CompletedBy c r) {ts more : List Token}
    (lexemes : ts.map Token.lexeme = c) (ends : Ends more) : Ends (ts ++ more) := by
  cases ts with
  | nil => exact ends
  | cons t ts =>
    refine ends_cons.2 (completed.ends t.lexeme ?_)
    rw [← lexemes]
    rfl

theorem give {a : α} : CompletedBy [] (give a) where
  writable := fun _ among => nomatch among
  ends := fun _ among => nomatch among
  reads := by
    intro ts more lexemes _
    rw [List.map_eq_nil_iff.1 lexemes]
    exact ⟨a, rfl⟩

theorem result {r : Reader α} (completed : CompletedBy c r) : Nonempty α := by
  have lexemes : (c.map fun l => (⟨l, .start⟩ : Token)).map Token.lexeme = c := by
    rw [List.map_map]
    exact List.map_id c
  obtain ⟨a, _⟩ := completed.reads lexemes ends_nil
  exact ⟨a⟩

theorem andThen {r : Reader α} {more : α → Reader β} (first : CompletedBy c r)
    (second : ∀ a, CompletedBy c' (more a)) : CompletedBy (c ++ c') (r.andThen more) := by
  obtain ⟨a₀⟩ := first.result
  refine ⟨List.forall_mem_append.2 ⟨first.writable, (second a₀).writable⟩, ?_, ?_⟩
  · cases c with
    | nil => exact (second a₀).ends
    | cons l c => exact first.ends
  · intro ts rest lexemes ends
    obtain ⟨ts₁, ts₂, rfl, lexemes₁, lexemes₂⟩ := List.map_eq_append_iff.1 lexemes
    obtain ⟨a, begun⟩ := first.reads lexemes₁ ((second a₀).ends_append lexemes₂ ends)
    rw [List.append_assoc, andThen_ok begun]
    exact (second a).reads lexemes₂ ends

theorem map {r : Reader α} (completed : CompletedBy c r) (f : α → β) :
    CompletedBy c (r.andThen fun a => Reader.give (f a)) :=
  List.append_nil c ▸ completed.andThen fun _ => give

theorem branch_chosen {choose : Token → Option (Reader α)} {otherwise : Reader α} {l : Lexeme}
    (writable : l.Writable) (final : l.continues = false)
    (chosen : ∀ p, ∃ r, choose ⟨l, p⟩ = some r ∧ CompletedBy c r) :
    CompletedBy (l :: c) (branch choose otherwise) where
  writable := by
    obtain ⟨_, _, completed⟩ := chosen .start
    exact List.forall_mem_cons.2 ⟨writable, completed.writable⟩
  ends := fun _ among => Option.some.inj among ▸ final
  reads := by
    intro ts more lexemes ends
    obtain ⟨⟨l, p⟩, ts, rfl, rfl, others⟩ := List.map_eq_cons_iff.1 lexemes
    obtain ⟨r, choice, completed⟩ := chosen p
    rw [List.cons_append, branch_some choice]
    exact completed.reads others ends

theorem branch_other {choose : Token → Option (Reader α)} {otherwise : Reader α}
    (quiet : ∀ t : Token, t.lexeme.continues = false → choose t = none)
    (other : CompletedBy c otherwise) : CompletedBy c (branch choose otherwise) where
  writable := other.writable
  ends := other.ends
  reads := by
    intro ts more lexemes ends
    obtain ⟨a, read⟩ := other.reads lexemes ends
    -- the first token, of the lexemes or of what follows them, is not taken by `choose`
    have begins := other.ends_append lexemes ends
    exact ⟨a, (branch_unchosen (begins.unchosen quiet)).trans read⟩

end CompletedBy

end Reader

namespace Grammar

open Reader

variable {sig : Signature}

theorem expect_completedBy {l : Lexeme} (writable : l.Writable) (final : l.continues = false)
    (what : Expectation) : CompletedBy [l] (expect l what) := by
  rw [expect_steps]
  exact .branch_chosen writable final fun _ => ⟨_, if_pos rfl, .give⟩

/-! ## Expressions -/

/-- No operator between operands is taken where the operand ends. -/
theorem termAfter_quiet (sig : Signature) (f : Factor) (t : Token)
    (final : t.lexeme.continues = false) : termAfter sig f t = none := by
  obtain ⟨l, p⟩ := t
  cases l <;> first | rfl | cases final

theorem sumAfter_quiet (sig : Signature) (negated : Bool) (first : Term) (t : Token)
    (final : t.lexeme.continues = false) : sumAfter sig negated first t = none := by
  obtain ⟨l, p⟩ := t
  cases l <;> first | rfl | cases final

theorem exprAt_quiet (sig : Signature) (t : Token) (final : t.lexeme.continues = false) :
    exprAt sig t = none := by
  obtain ⟨l, p⟩ := t
  cases l <;> first | rfl | cases final

theorem conditionAfter_quiet (sig : Signature) (first : Clause) (t : Token)
    (final : t.lexeme.continues = false) : conditionAfter sig first t = none := by
  obtain ⟨l, p⟩ := t
  cases l with
  | keyword k => cases k <;> first | rfl | cases final
  | _ => rfl

theorem factor_completedBy (sig : Signature) : CompletedBy [.number 0] (factor sig) := by
  rw [factor_steps]
  exact .branch_chosen (Nat.zero_le _) rfl fun _ => ⟨_, rfl, .give⟩

theorem term_completedBy (sig : Signature) : CompletedBy [.number 0] (term sig) := by
  rw [term_steps]
  exact (factor_completedBy sig).andThen fun f => .branch_other (termAfter_quiet sig f) .give

theorem sum_completedBy (sig : Signature) (negated : Bool) :
    CompletedBy [.number 0] (sum sig negated) := by
  rw [sum_steps]
  exact (term_completedBy sig).andThen fun t =>
    .branch_other (sumAfter_quiet sig negated t) .give

theorem expr_completedBy (sig : Signature) : CompletedBy [.number 0] (expr sig) := by
  rw [expr_steps]
  exact .branch_other (exprAt_quiet sig) (sum_completedBy sig false)

theorem argumentsWith_completedBy (sig : Signature) (n : Nat) :
    CompletedBy (List.replicate n (.number 0)) (argumentsWith (expr sig) n) := by
  induction n with
  | zero => exact .give
  | succ n ih =>
    rw [argumentsWith_succ]
    exact (expr_completedBy sig).andThen fun e => ih.map (e :: ·)

theorem call_completedBy (sig : Signature) (callee : Callee) (p : Position) :
    ∃ c, CompletedBy c (call sig callee p) := by
  cases callee with
  | reporter what => exact ⟨[], .give⟩
  | procedure name arity =>
    rw [call_procedure]
    exact ⟨_, (argumentsWith_completedBy sig arity).map _⟩

/-! ## Conditions -/

theorem comparisonAfter_completedBy (sig : Signature) (left : Expr) :
    CompletedBy [.comparison .equal, .number 0]
      (branch (comparisonAfter sig left) (missing .comparison)) :=
  .branch_chosen trivial rfl fun _ => ⟨_, rfl, (expr_completedBy sig).map _⟩

theorem clause_completedBy (sig : Signature) : CompletedBy [.keyword .truth] (clause sig) := by
  rw [clause_steps]
  exact .branch_chosen trivial rfl fun _ => ⟨_, rfl, .give⟩

theorem condition_completedBy (sig : Signature) : CompletedBy [.keyword .truth] (condition sig) := by
  rw [condition_steps]
  exact (clause_completedBy sig).andThen fun c => .branch_other (conditionAfter_quiet sig c) .give

/-! ## Statements -/

theorem target_completedBy (room : sig.HasRoom) : ∃ c, CompletedBy c (target sig) := by
  obtain ⟨name, free, writable⟩ := room
  rw [target_steps]
  refine ⟨_, .branch_chosen writable rfl fun p => ⟨give ⟨name, p⟩, ?_, .give⟩⟩
  simp only [targetAt, free, Option.isSome_none, Bool.false_eq_true, if_false]

theorem operand_completedBy (sig : Signature) {α : Type} (make : Expr → α) :
    CompletedBy [.number 0] (operand sig make) := by
  rw [operand_eq]
  exact (expr_completedBy sig).map make

theorem operands₂_completedBy (sig : Signature) {α : Type} (make : Expr → Expr → α) :
    CompletedBy [.number 0, .number 0] (operands₂ sig make) := by
  rw [operands₂_eq]
  exact (expr_completedBy sig).andThen fun e => operand_completedBy sig (make e)

theorem operands₃_completedBy (sig : Signature) {α : Type} (make : Expr → Expr → Expr → α) :
    CompletedBy [.number 0, .number 0, .number 0] (operands₃ sig make) := by
  rw [operands₃_eq]
  exact (expr_completedBy sig).andThen fun e => operands₂_completedBy sig (make e)

theorem scan_completedBy (room : sig.HasRoom) (reach : Reach) :
    ∃ c, CompletedBy c (scan sig reach) := by
  obtain ⟨c, completed⟩ := target_completedBy room
  rw [scan_eq]
  exact ⟨c, completed.map _⟩

theorem make_completedBy (room : sig.HasRoom) (reach : Reach) :
    ∃ c, CompletedBy c (make sig reach) := by
  obtain ⟨c, completed⟩ := target_completedBy room
  rw [make_eq]
  exact ⟨_, completed.andThen fun name => (expr_completedBy sig).map _⟩

theorem localTo_completedBy (room : sig.HasRoom) : ∃ c, CompletedBy c (localTo sig) := by
  obtain ⟨c, completed⟩ := scan_completedBy room .own
  rw [localTo_steps]
  exact ⟨_, .branch_chosen (l := .keyword .scan) trivial rfl fun _ => ⟨_, rfl, completed⟩⟩

theorem print_completedBy (sig : Signature) : CompletedBy [.quoted ""] (print sig) := by
  rw [print_steps]
  have writable : (Lexeme.quoted "").Writable := nofun
  exact .branch_chosen writable rfl fun _ => ⟨_, rfl, .give⟩

theorem command?_completedBy (room : sig.HasRoom) {k : Keyword} {r : Reader Command}
    (begins : command? sig k = some r) : ∃ c, CompletedBy c r := by
  cases k <;> cases begins
  case forward | back | right | left | head | sleep => exact ⟨_, operand_completedBy sig _⟩
  case move | setXY => exact ⟨_, operands₂_completedBy sig _⟩
  case setColor => exact ⟨_, operands₃_completedBy sig _⟩
  case home | clearScreen | penUp | penDown => exact ⟨_, .give⟩
  case print => exact ⟨_, print_completedBy sig⟩
  case localTo => exact localTo_completedBy room
  case scan => exact scan_completedBy room .shared
  case make => exact make_completedBy room .shared

theorem block_completedBy (sig : Signature) : CompletedBy [.bracketClose] (block sig) := by
  rw [block_steps]
  exact .branch_chosen trivial rfl fun _ => ⟨_, if_pos rfl, .give⟩

theorem bracketed_completedBy (sig : Signature) :
    CompletedBy [.bracketOpen, .bracketClose] (bracketed sig) :=
  (expect_completedBy (l := .bracketOpen) trivial rfl _).andThen fun _ => block_completedBy sig

theorem keywordStatement?_completedBy (room : sig.HasRoom) {k : Keyword} {r : Reader Statement}
    (begins : keywordStatement? sig (block sig) k = some r) : ∃ c, CompletedBy c r := by
  obtain ⟨rfl, rfl⟩ | ⟨rfl, rfl⟩ | ⟨rfl, rfl⟩ | ⟨command, found, rfl⟩ :=
    keywordStatement?_cases begins
  · exact ⟨_, operand_completedBy sig _⟩
  · exact ⟨_, (condition_completedBy sig).andThen fun c => (bracketed_completedBy sig).map _⟩
  · exact ⟨_, (expr_completedBy sig).andThen fun count => (bracketed_completedBy sig).map _⟩
  · obtain ⟨c, completed⟩ := command?_completedBy room found
    exact ⟨c, completed.map _⟩

theorem statement_completedBy (sig : Signature) : CompletedBy [.keyword .penUp] (statement sig) := by
  rw [statement_steps]
  refine .branch_chosen trivial rfl fun _ => ⟨_, rfl, ?_⟩
  exact CompletedBy.give.map _

theorem body_completedBy (sig : Signature) (outer : String) :
    CompletedBy [.keyword .endDefine] (body sig outer) := by
  rw [body_steps]
  exact .branch_chosen trivial rfl fun _ => ⟨_, if_pos rfl, .give⟩

end Grammar

end Logo
