import Mathlib
import Logo.Proofs.Pulling
import Logo.Proofs.Termination
import Logo.Proofs.Tiling

/-!
# One token at a time

A parser that has taken some of the tokens of a text has asked its lexer for these and for the one ahead, in
this order (`Feed.facing`). From there each rule goes on as the rule that has all the tokens in a list:
it succeeds with the same, or gives up with the same error at the same token, and what it has asked for is
told by the tokens that are left (`Matches`).

There is one difference. Where a text ends in what cannot be read, a parser that is behind the last token has
seen that already, and gives up although the rule was done. So a rule is only compared with the other where
the parser can go on (`Stop.refusal`), and what comes of it may be that it cannot any more (`answer`).

Results:
1. `Lexer.load_gives`: what a lexer gives of a text is what `Scan.ofText` lists.
2. `MatchesAt.bind`: what matches step by step matches.
3. `rules_match`: the rules match.
-/

namespace Logo

open Filter

/-! ## What a lexer gives of a text -/

/-- A call gives the token. -/
def Token.lexed (t : Token) : Lexed := .piece ⟨some t.lexeme, t.position⟩

/-- A call gives what ends the tokens. -/
def Stop.lexed : Stop → Lexed
  | .endOfText p => .endOfText p
  | .unreadable p => .piece ⟨none, p⟩

@[simp] theorem Token.token?_lexed (t : Token) : t.lexed.token? = some t := rfl

@[simp] theorem Stop.token?_lexed (stop : Stop) : stop.lexed.token? = none := by
  cases stop <;> rfl

/-- The calls give the tokens one by one, and then what ends them. -/
def Lexer.Gives (l : Lexer) (scan : Scan) : Prop :=
  ∀ n ≤ scan.tokens.length, l.token n = scan.tokens[n]?.elim scan.stop.lexed Token.lexed

theorem Scan.ofPieces_lexed (finish : Position) (ps : List Piece) {n : Nat}
    (inside : n ≤ (ofPieces finish ps).tokens.length) :
    ps[n]?.elim (.endOfText finish) .piece =
      (ofPieces finish ps).tokens[n]?.elim (ofPieces finish ps).stop.lexed Token.lexed := by
  induction ps generalizing n with
  | nil => rfl
  | cons p ps ih =>
    obtain ⟨_ | l, p⟩ := p
    · rw [Nat.le_zero.1 inside]
      rfl
    · cases n with
      | zero => rfl
      | succ n => exact ih (Nat.le_of_succ_le_succ inside)

theorem Lexer.load_gives (held : Lexer) (text : String) :
    (held.load text).Gives (Scan.ofText text) := by
  intro n inside
  rw [Lexer.load_eq]
  exact (Cursor.token_lexer (Cursor.ofText text) n).trans (Scan.ofPieces_lexed _ _ inside)

/-- One call more. -/
theorem Lexer.next_after (l : Lexer) (n : Nat) :
    (l.after n).next = (l.token n, l.after (n + 1)) := by
  refine Prod.ext rfl ?_
  induction n generalizing l with
  | zero => rfl
  | succ n ih => exact ih l.next.2

/-! ## What a parser has at hand -/

/-- A parser has these tokens left, the first of which is ahead: all calls up to that one have been made. -/
def Feed.facing (l : Lexer) (scan : Scan) (known : Procedures) (ts : List Token) : Feed :=
  let taken := scan.tokens.length - ts.length
  ⟨l.after (taken + 1), l.token taken, (List.range (taken + 1)).map l.token, known⟩

/-- The error that a parser has come upon where it has no tokens left. -/
def Stop.refusal (stop : Stop) : List Token → Option SyntaxError
  | [] =>
    match stop with
    | .unreadable p => some ⟨p, .unrecognized⟩
    | .endOfText _ => none
  | _ :: _ => none

theorem Stop.toError_of_refusal {stop : Stop} {f : Failure} {e : SyntaxError}
    (refused : stop.refusal f.rest = some e) : f.toError stop = e := by
  obtain ⟨cause, rest⟩ := f
  cases rest with
  | cons t rest => cases refused
  | nil =>
    cases stop with
    | endOfText p => cases refused
    | unreadable p =>
      cases refused
      rfl

theorem Stop.eq_nil_of_refusal {stop : Stop} {ts : List Token} {e : SyntaxError}
    (refused : stop.refusal ts = some e) : ts = [] := by
  cases ts with
  | nil => rfl
  | cons t ts => cases refused

theorem Stop.refusal_of_suffix {stop : Stop} {ts rest : List Token} {e : SyntaxError}
    (refused : stop.refusal ts = some e) (suffix : rest <:+ ts) : stop.refusal rest = some e := by
  obtain rfl := Stop.eq_nil_of_refusal refused
  rw [List.suffix_nil.1 suffix, refused]

namespace Pull

variable {α β : Type} {l : Lexer} {scan : Scan} {known : Procedures}

/-- The tokens that are left. -/
def left : Except Failure (α × List Token) → List Token
  | .ok (_, rest) => rest
  | .error f => f.rest

/-- What comes of reading some tokens, where they are asked for one by one. What ends them may have been
asked for without need, and if it cannot be read, then that is the error. -/
def answer (l : Lexer) (scan : Scan) (known : Procedures) :
    Except Failure (α × List Token) → Except SyntaxError α × Feed
  | .ok (a, rest) =>
    ((scan.stop.refusal rest).elim (.ok a) .error, .facing l scan known rest)
  | .error f => (.error (f.toError scan.stop), .facing l scan known f.rest)

theorem answer_live {a : α} {rest : List Token} (live : scan.stop.refusal rest = none) :
    answer l scan known (.ok (a, rest)) = (.ok a, .facing l scan known rest) := by
  rw [answer, live]
  rfl

/-- Where what ends the tokens cannot be read, nothing else is of account. -/
theorem answer_refused {outcome : Except Failure (α × List Token)} {e : SyntaxError}
    (refused : scan.stop.refusal (left outcome) = some e) :
    answer l scan known outcome = (.error e, .facing l scan known []) := by
  have none : left outcome = [] := Stop.eq_nil_of_refusal refused
  cases outcome with
  | ok taken =>
    obtain ⟨a, rest⟩ := taken
    obtain rfl : rest = [] := none
    rw [answer, show scan.stop.refusal [] = some e from refused]
    rfl
  | error f =>
    rw [answer, Stop.toError_of_refusal refused, show f.rest = [] from none]

theorem answer_dead {a : α} {rest : List Token} {e : SyntaxError}
    (refused : scan.stop.refusal rest = some e) :
    answer l scan known (.ok (a, rest)) = (.error e, .facing l scan known []) :=
  answer_refused refused

/-- From these tokens, `p` gives what `x` gives. -/
def MatchesAt (l : Lexer) (scan : Scan) (known : Procedures) (x : Search α) (p : Pull α)
    (ts : List Token) : Prop :=
  ∀ ⦃outcome⦄, x ts = some outcome → left outcome <:+ ts ∧
    (scan.stop.refusal ts = none →
      p (.facing l scan known ts) = some (answer l scan known outcome))

/-- Wherever a parser stands among the tokens of the text, `p` gives what `x` gives. -/
def Matches (l : Lexer) (scan : Scan) (known : Procedures) (x : Search α) (p : Pull α) : Prop :=
  ∀ ⦃ts : List Token⦄, ts <:+ scan.tokens → MatchesAt l scan known x p ts

theorem matches_none (p : Pull α) : Matches l scan known (fun _ => none) p := nofun

theorem matches_pure (a : α) : Matches l scan known (pure a) (pure a) := by
  rintro ts - outcome ⟨⟩
  refine ⟨List.suffix_rfl, fun live => ?_⟩
  rw [answer, live]
  rfl

theorem MatchesAt.congr {x y : Search α} {p q : Pull α} {ts : List Token} (read : x ts = y ts)
    (asked : p (.facing l scan known ts) = q (.facing l scan known ts))
    (same : MatchesAt l scan known y q ts) : MatchesAt l scan known x p ts := by
  intro outcome done
  rw [asked]
  exact same (read.symm.trans done)

/-- What goes on alike after what is read alike is read alike. -/
theorem MatchesAt.bind_at {x : Search α} {p : Pull α} {f : α → Search β} {g : α → Pull β}
    {ts : List Token} (first : MatchesAt l scan known x p ts)
    (more : ∀ ⦃a rest⦄, x ts = some (.ok (a, rest)) → MatchesAt l scan known (f a) (g a) rest) :
    MatchesAt l scan known (x >>= f) (p >>= g) ts := by
  intro outcome done
  cases begun : x ts with
  | none =>
    have stuck : (x >>= f) ts = none := by
      show (x ts).bind _ = _
      rw [begun]
      rfl
    cases stuck.symm.trans done
  | some outcome' =>
    obtain ⟨suffix, goes⟩ := first begun
    cases outcome' with
    | error e =>
      cases (Search.bind_error begun).symm.trans done
      exact ⟨suffix, fun live => bind_error (goes live)⟩
    | ok taken =>
      obtain ⟨a, rest⟩ := taken
      rw [Search.bind_ok begun] at done
      obtain ⟨suffix', goes'⟩ := more begun done
      refine ⟨suffix'.trans suffix, fun live => ?_⟩
      have begun' := goes live
      cases refused : scan.stop.refusal rest with
      | none =>
        rw [answer_live refused] at begun'
        rw [bind_ok begun']
        exact goes' refused
      | some e =>
        -- All tokens are taken, and `p` has come upon what ends them.
        rw [answer_dead refused] at begun'
        rw [bind_error begun', answer_refused (Stop.refusal_of_suffix refused suffix')]

theorem MatchesAt.bind {x : Search α} {p : Pull α} {f : α → Search β} {g : α → Pull β}
    {ts : List Token} (within : ts <:+ scan.tokens) (first : MatchesAt l scan known x p ts)
    (more : ∀ a, Matches l scan known (f a) (g a)) :
    MatchesAt l scan known (x >>= f) (p >>= g) ts :=
  first.bind_at fun a _ begun => more a ((first begun).1.trans within)

theorem Matches.bind {x : Search α} {p : Pull α} {f : α → Search β} {g : α → Pull β}
    (first : Matches l scan known x p) (more : ∀ a, Matches l scan known (f a) (g a)) :
    Matches l scan known (x >>= f) (p >>= g) :=
  fun _ within => (first within).bind within more

section

variable (gives : l.Gives scan)

include gives

theorem token_facing (known : Procedures) {ts : List Token} (within : ts <:+ scan.tokens) :
    (Feed.facing l scan known ts).ahead = ts.head?.elim scan.stop.lexed Token.lexed := by
  obtain ⟨taken, whole⟩ := within
  have count : scan.tokens.length - ts.length = taken.length := by
    rw [← whole, List.length_append, Nat.add_sub_cancel]
  have inside : taken.length ≤ scan.tokens.length := by
    rw [← whole, List.length_append]
    exact Nat.le_add_right _ _
  show l.token (scan.tokens.length - ts.length) = _
  rw [count, gives _ inside]
  conv => lhs; rw [← whole, List.getElem?_append_right (Nat.le_refl _), Nat.sub_self]
  rw [List.head?_eq_getElem?]

theorem peek_facing (known : Procedures) {ts : List Token} (within : ts <:+ scan.tokens) :
    peek (.facing l scan known ts) = some (.ok ts.head?, .facing l scan known ts) := by
  show some (Except.ok (Feed.facing l scan known ts).ahead.token?, _) = _
  rw [token_facing gives known within]
  cases ts with
  | nil => exact congrArg (fun ahead => some (Except.ok ahead, _)) scan.stop.token?_lexed
  | cons t ts => rfl

theorem expected_facing {ts : List Token} (within : ts <:+ scan.tokens) (what : Expectation) :
    (expected what : Pull α) (.facing l scan known ts) =
      some (answer l scan known (.error ⟨.expected what, ts⟩)) := by
  have ahead := token_facing gives known within
  show some (Except.error ((Feed.facing l scan known ts).ahead.fault what), _) = _
  rw [ahead, answer]
  cases ts with
  | cons t ts => rfl
  | nil =>
    rw [List.head?_nil, Option.elim_none]
    cases scan.stop <;> rfl

omit gives in
theorem call_facing {t : Token} {rest : List Token} (within : t :: rest <:+ scan.tokens) :
    (Feed.facing l scan known (t :: rest)).call = .facing l scan known rest := by
  have count : scan.tokens.length - (t :: rest).length + 1 = scan.tokens.length - rest.length := by
    have := within.length_le
    simp only [List.length_cons] at this ⊢
    omega
  simp only [Feed.call, Feed.facing, count, Lexer.next_after]
  simp only [List.range_succ, List.map_append, List.map_cons, List.map_nil]

/-- Asking for the first of these tokens. -/
theorem advance_of_call {s : Feed} {ts : List Token} (within : ts <:+ scan.tokens)
    (asked : s.call = .facing l scan known ts) :
    advance s = some (answer l scan known (.ok ((), ts))) := by
  have ahead := token_facing gives known within
  rw [← asked] at ahead
  rw [advance_eq, show s.lexer.next.1 = s.call.ahead from rfl, ahead, asked, answer]
  cases ts with
  | cons t rest => rfl
  | nil =>
    rw [List.head?_nil, Option.elim_none]
    cases scan.stop <;> rfl

theorem advance_facing {t : Token} {rest : List Token} (within : t :: rest <:+ scan.tokens) :
    advance (.facing l scan known (t :: rest)) = some (answer l scan known (.ok ((), rest))) :=
  advance_of_call gives ((List.suffix_cons t rest).trans within) (call_facing within)

theorem matches_expected (what : Expectation) :
    Matches l scan known (Search.of (Grammar.missing what) : Search α) (expected what) := by
  rintro ts within outcome ⟨⟩
  exact ⟨List.suffix_rfl, fun _ => expected_facing gives within what⟩

omit gives in
/-- Looking at the token ahead changes nothing, -/
theorem MatchesAt.look {f : Option Token → Search α} {p : Pull α} {ts : List Token}
    (goes : MatchesAt l scan known (f ts.head?) p ts) :
    MatchesAt l scan known (Search.peek >>= f) p ts := by
  intro outcome done
  rw [Search.bind_ok (s := Search.peek) rfl] at done
  exact goes done

/-- also where it has been asked for. -/
theorem MatchesAt.peek {x : Search α} {g : Option Token → Pull α} {ts : List Token}
    (within : ts <:+ scan.tokens) (goes : MatchesAt l scan known x (g ts.head?) ts) :
    MatchesAt l scan known x (Pull.peek >>= g) ts := by
  intro outcome done
  rw [bind_ok (peek_facing gives known within)]
  exact goes done

/-- The token ahead decides how to go on. -/
theorem matches_branch {f : Option Token → Search α} {g : Option Token → Pull α}
    (last : MatchesAt l scan known (f none) (g none) [])
    (more : ∀ t rest, t :: rest <:+ scan.tokens →
      MatchesAt l scan known (f (some t)) (g (some t)) (t :: rest)) :
    Matches l scan known (Search.peek >>= f) (peek >>= g) := by
  intro ts within
  refine .look (.peek gives within ?_)
  cases ts with
  | nil => exact last
  | cons t rest => exact more t rest within

theorem MatchesAt.advance_at {x : Search α} {p : Pull α} {t : Token} {rest : List Token}
    (within : t :: rest <:+ scan.tokens) (more : MatchesAt l scan known x p rest) :
    MatchesAt l scan known (Search.advance >>= fun _ => x) (Pull.advance >>= fun _ => p)
      (t :: rest) := by
  refine MatchesAt.bind_at (x := Search.advance) ?_ ?_
  · rintro outcome ⟨⟩
    exact ⟨List.suffix_cons t rest, fun _ => advance_facing gives within⟩
  · rintro _ _ ⟨⟩
    exact more

theorem MatchesAt.advance {x : Search α} {p : Pull α} (more : Matches l scan known x p)
    {t : Token} {rest : List Token} (within : t :: rest <:+ scan.tokens) :
    MatchesAt l scan known (Search.advance >>= fun _ => x) (Pull.advance >>= fun _ => p)
      (t :: rest) :=
  .advance_at gives within (more ((List.suffix_cons t rest).trans within))

theorem matches_expect (lexeme : Lexeme) (what : Expectation) :
    Matches l scan known (Search.of (Grammar.expect lexeme what)) (expect lexeme what) := by
  intro ts within outcome done
  rw [expect, bind_ok (peek_facing gives known within)]
  cases ts with
  | nil => exact matches_expected gives what within done
  | cons t rest =>
    have failed : Search.of (Grammar.expect lexeme what) (t :: rest) =
        some (if t.lexeme = lexeme then .ok ((), rest) else .error ⟨.expected what, t :: rest⟩) :=
      rfl
    rw [failed] at done
    dsimp only [List.head?_cons]
    split at done
    · next same =>
      cases done
      rw [if_pos same]
      exact ⟨List.suffix_cons t rest, fun _ => advance_facing gives within⟩
    · next other =>
      rw [if_neg other]
      cases done
      exact ⟨List.suffix_rfl, fun _ => expected_facing gives within what⟩

/-- A name that is to be set is taken, unless it is one of a procedure. -/
theorem name_match {lexeme : Lexeme} {name : String} {p : Position} {rest : List Token}
    (within : ⟨lexeme, p⟩ :: rest <:+ scan.tokens)
    (read : Grammar.target known.signature (⟨lexeme, p⟩ :: rest) =
      if (known.signature name).isSome then .error ⟨.notAVariable name, ⟨lexeme, p⟩ :: rest⟩
      else .ok (⟨name, p⟩, rest)) :
    MatchesAt l scan known (Search.of (Grammar.target known.signature))
      (signature >>= fun sig =>
        if (sig name).isSome then throw ⟨p, .notAVariable name⟩
        else advance >>= fun _ => pure ⟨name, p⟩) (⟨lexeme, p⟩ :: rest) := by
  rintro outcome ⟨⟩
  rw [read, bind_ok (p := signature) rfl]
  show _ ∧ (_ → (if (known.signature name).isSome then _ else _ : Pull Name) _ = _)
  by_cases taken : (known.signature name).isSome
  · rw [if_pos taken, if_pos taken]
    exact ⟨List.suffix_rfl, fun _ => rfl⟩
  · rw [if_neg taken, if_neg taken]
    exact MatchesAt.advance gives (matches_pure (⟨name, p⟩ : Name)) within rfl

theorem matches_target :
    Matches l scan known (Search.of (Grammar.target known.signature)) target := by
  intro ts within
  refine .peek gives within ?_
  rcases ts with _ | ⟨⟨lexeme, p⟩, rest⟩
  · exact matches_expected gives _ within
  · cases lexeme with
    | word name | quoted name => exact name_match gives within rfl
    | _ => exact matches_expected gives _ within

end

/-! ## The rules -/

namespace Rules

/-- Two sets of rules read the same. -/
structure Match (l : Lexer) (scan : Scan) (known : Procedures) (r : Search.Rules) (r' : Rules) :
    Prop where
  arguments : ∀ n, Matches l scan known (r.arguments n) (r'.arguments n)
  /-- A call is taken together with its name. -/
  call : ∀ ⦃t : Token⦄ ⦃rest : List Token⦄ ⦃callee⦄, t :: rest <:+ scan.tokens →
    Grammar.callee? known.signature t.lexeme = some callee →
    MatchesAt l scan known
      (Search.advance >>= fun _ => r.call callee t.position >>= fun c => pure (some c)) r'.call
      (t :: rest)
  factor : Matches l scan known r.factor r'.factor
  term : Matches l scan known r.term r'.term
  sum : ∀ negated, Matches l scan known (r.sum negated) (r'.sum negated)
  expr : Matches l scan known r.expr r'.expr
  clause : Matches l scan known r.clause r'.clause
  condition : Matches l scan known r.condition r'.condition
  statement : Matches l scan known r.statement r'.statement
  bracketed : Matches l scan known r.bracketed r'.bracketed
  block : Matches l scan known r.block r'.block
  body : ∀ name, Matches l scan known (r.body name) (r'.body name)

variable {r : Search.Rules} {r' : Rules}

section

variable (m : Match l scan known r r')

include m

theorem Match.operand (make : Expr → α) :
    Matches l scan known (r.operand make) (r'.operand make) :=
  m.expr.bind fun _ => matches_pure _

theorem Match.operands₂ (make : Expr → Expr → α) :
    Matches l scan known (r.operands₂ make) (r'.operands₂ make) :=
  m.expr.bind fun _ => m.expr.bind fun _ => matches_pure _

theorem Match.operands₃ (make : Expr → Expr → Expr → α) :
    Matches l scan known (r.operands₃ make) (r'.operands₃ make) :=
  m.expr.bind fun _ => m.expr.bind fun _ => m.expr.bind fun _ => matches_pure _

theorem Match.arguments_once (n : Nat) :
    Matches l scan known ((r.once known.signature).arguments n) (r'.once.arguments n) := by
  cases n with
  | zero => exact matches_pure _
  | succ n => exact m.expr.bind fun _ => (m.arguments n).bind fun _ => matches_pure _

/-- What begins with a call, where one begins. -/
theorem Match.call_some {t : Token} {rest : List Token} {callee : Grammar.Callee}
    (within : t :: rest <:+ scan.tokens)
    (called : Grammar.callee? known.signature t.lexeme = some callee) {f : Call → α}
    {g : Option Call → Pull α} (found : ∀ c, g (some c) = pure (f c)) :
    MatchesAt l scan known
      (Search.advance >>= fun _ => r.call callee t.position >>= fun c => pure (f c))
      (r'.call >>= g) (t :: rest) := by
  have goes := MatchesAt.bind (g := g)
    (f := fun c => c.elim (fun _ => Option.none) fun c => pure (f c)) within (m.call within called)
    fun c => by
      cases c with
      | none => exact matches_none _
      | some c =>
        rw [found]
        exact matches_pure _
  simp only [bind_assoc] at goes
  exact goes

end

section

variable (gives : l.Gives scan)

include gives

/-- Where no call begins, nothing is taken. -/
theorem call_none {ts : List Token} (within : ts <:+ scan.tokens)
    (none : ∀ t ∈ ts.head?, Grammar.callee? known.signature t.lexeme = Option.none) :
    r'.call (.facing l scan known ts) = some (.ok Option.none, .facing l scan known ts) := by
  rw [call, bind_ok (peek_facing gives known within)]
  cases ts with
  | nil => rfl
  | cons t rest =>
    dsimp only [List.head?_cons]
    rw [bind_ok (p := signature) rfl]
    show r'.callAt t.position (Grammar.callee? known.signature t.lexeme) _ = _
    rw [none t rfl]
    rfl

/-- What begins with a call, where none begins. -/
theorem uncalled {x : Search α} {f : Option Call → Pull α} {ts : List Token}
    (within : ts <:+ scan.tokens)
    (none : ∀ t ∈ ts.head?, Grammar.callee? known.signature t.lexeme = Option.none)
    (other : MatchesAt l scan known x (f Option.none) ts) :
    MatchesAt l scan known x (r'.call >>= f) ts := by
  intro outcome done
  rw [bind_ok (Rules.call_none gives within none)]
  exact other done

theorem matches_scan (reach : Reach) :
    Matches l scan known (Search.Rules.scan known.signature reach) (Pull.scan reach) :=
  (matches_target gives).bind fun _ => matches_pure _

theorem call_once (inputs : ∀ n, Matches l scan known (r.arguments n) (r'.arguments n)) {t : Token}
    {rest : List Token} {callee : Grammar.Callee} (within : t :: rest <:+ scan.tokens)
    (called : Grammar.callee? known.signature t.lexeme = some callee) :
    MatchesAt l scan known
      (Search.advance >>= fun _ => (r.once known.signature).call callee t.position >>= fun c =>
        pure (some c)) r'.call (t :: rest) := by
  intro outcome done
  rw [call, bind_ok (peek_facing gives known within)]
  dsimp only [List.head?_cons]
  rw [bind_ok (p := signature) rfl]
  show _ ∧ (_ → r'.callAt t.position (Grammar.callee? known.signature t.lexeme) _ = _)
  rw [called]
  cases callee with
  | reporter what => exact MatchesAt.advance gives (matches_pure _) within done
  | procedure name arity =>
    refine MatchesAt.advance gives (x := r.arguments arity >>= fun es =>
      pure (some (Call.procedure ⟨name, t.position⟩ es))) ((inputs arity).bind fun _ => matches_pure _)
      within ?_
    simpa [Search.Rules.once] using done

end

section

variable (gives : l.Gives scan) (m : Match l scan known r r')

include gives m

theorem Match.comparison : Matches l scan known r.comparison r'.comparison := by
  refine m.expr.bind fun left =>
    matches_branch gives (matches_expected gives _ List.nil_suffix) fun ⟨lexeme, p⟩ rest within => ?_
  cases lexeme with
  | comparison op => exact .advance gives (m.expr.bind fun _ => matches_pure _) within
  | _ => exact matches_expected gives _ within

theorem Match.make (reach : Reach) :
    Matches l scan known (r.make known.signature reach) (r'.make reach) :=
  (matches_target gives).bind fun _ => m.expr.bind fun _ => matches_pure _

theorem Match.localTo : Matches l scan known (r.localTo known.signature) r'.localTo := by
  refine matches_branch gives (matches_expected gives _ List.nil_suffix)
    fun ⟨lexeme, p⟩ rest within => ?_
  cases lexeme with
  | keyword k =>
    cases k with
    | make => exact .advance gives (m.make gives .own) within
    | scan => exact .advance gives (matches_scan gives .own) within
    | _ => exact matches_expected gives _ within
  | _ => exact matches_expected gives _ within

theorem Match.print : Matches l scan known r.print r'.print := by
  refine matches_branch gives (m.operand Command.printNumber List.nil_suffix)
    fun ⟨lexeme, p⟩ rest within => ?_
  cases lexeme with
  | quoted text => exact .advance gives (matches_pure _) within
  | _ => exact m.operand Command.printNumber within

/-- The same words begin commands. -/
theorem Match.command (k : Keyword) :
    (r.command? known.signature k = Option.none ∧ r'.command? k = Option.none) ∨
      ∃ x p, r.command? known.signature k = some x ∧ r'.command? k = some p ∧
        Matches l scan known x p := by
  cases k with
  | forward | back | right | left | head | sleep => exact .inr ⟨_, _, rfl, rfl, m.operand _⟩
  | move | setXY => exact .inr ⟨_, _, rfl, rfl, m.operands₂ _⟩
  | setColor => exact .inr ⟨_, _, rfl, rfl, m.operands₃ _⟩
  | home | clearScreen | penUp | penDown => exact .inr ⟨_, _, rfl, rfl, matches_pure _⟩
  | print => exact .inr ⟨_, _, rfl, rfl, m.print gives⟩
  | scan => exact .inr ⟨_, _, rfl, rfl, matches_scan gives .shared⟩
  | make => exact .inr ⟨_, _, rfl, rfl, m.make gives .shared⟩
  | localTo => exact .inr ⟨_, _, rfl, rfl, m.localTo gives⟩
  | _ => exact .inl ⟨rfl, rfl⟩

theorem Match.factor_once :
    Matches l scan known (r.once known.signature).factor r'.once.factor := by
  have refused {ts : List Token} (within : ts <:+ scan.tokens) :
      MatchesAt l scan known (Search.of (Grammar.missing .operand) : Search Factor)
        (expected .operand) ts := matches_expected gives _ within
  refine matches_branch gives ?_ fun ⟨lexeme, p⟩ rest within => ?_
  · exact uncalled gives List.nil_suffix nofun (.peek gives List.nil_suffix (refused List.nil_suffix))
  · cases lexeme with
    | number n => exact .advance gives (matches_pure _) within
    | parenOpen =>
      exact .advance gives (m.expr.bind fun _ => (matches_expect gives _ _).bind fun _ =>
        matches_pure _) within
    | word w =>
      cases called : Grammar.callee? known.signature (.word w) with
      | some callee =>
        simp only [called]
        exact m.call_some within called fun _ => rfl
      | none =>
        simp only [called]
        refine uncalled gives within (fun t first => ?_)
          (.peek gives within (.advance gives (matches_pure _) within))
        cases first
        exact called
    | keyword k =>
      cases called : Grammar.callee? known.signature (.keyword k) with
      | some callee =>
        simp only [called]
        exact m.call_some within called fun _ => rfl
      | none =>
        simp only [called]
        refine uncalled gives within (fun t first => ?_) (.peek gives within (refused within))
        cases first
        exact called
    | _ =>
      refine uncalled gives within (fun t first => ?_) (.peek gives within (refused within))
      cases first
      rfl

theorem Match.term_once : Matches l scan known (r.once known.signature).term r'.once.term := by
  refine m.factor.bind fun f => matches_branch gives (matches_pure _ List.nil_suffix)
    fun ⟨lexeme, p⟩ rest within => ?_
  cases lexeme with
  | mulOp op => exact .advance gives (m.term.bind fun _ => matches_pure _) within
  | _ => exact matches_pure _ within

theorem Match.sum_once (negated : Bool) :
    Matches l scan known ((r.once known.signature).sum negated) (r'.once.sum negated) := by
  refine m.term.bind fun t => matches_branch gives (matches_pure _ List.nil_suffix)
    fun ⟨lexeme, p⟩ rest within => ?_
  cases lexeme with
  | addOp op => exact .advance gives (m.expr.bind fun _ => matches_pure _) within
  | _ => exact matches_pure _ within

theorem Match.expr_once : Matches l scan known (r.once known.signature).expr r'.once.expr := by
  refine matches_branch gives (m.sum false List.nil_suffix) fun ⟨lexeme, p⟩ rest within => ?_
  cases lexeme with
  | addOp sign => exact .advance gives (m.sum _) within
  | _ => exact m.sum false within

theorem Match.clause_once : Matches l scan known (r.once known.signature).clause r'.once.clause := by
  have other := m.comparison gives
  refine matches_branch gives (other List.nil_suffix) fun ⟨lexeme, p⟩ rest within => ?_
  cases lexeme with
  | keyword k =>
    cases k with
    | truth | falsehood => exact .advance gives (matches_pure _) within
    | not => exact .advance gives (m.condition.bind fun _ => matches_pure _) within
    | _ => exact other within
  | braceOpen =>
    exact .advance gives (m.condition.bind fun _ => (matches_expect gives _ _).bind fun _ =>
      matches_pure _) within
  | _ => exact other within

theorem Match.condition_once :
    Matches l scan known (r.once known.signature).condition r'.once.condition := by
  refine m.clause.bind fun first => matches_branch gives (matches_pure _ List.nil_suffix)
    fun ⟨lexeme, p⟩ rest within => ?_
  simp only [Option.bind_some]
  cases Grammar.connective? lexeme with
  | some op => exact .advance gives (m.condition.bind fun _ => matches_pure _) within
  | none => exact matches_pure _ within

theorem Match.statement_once :
    Matches l scan known (r.once known.signature).statement r'.once.statement := by
  have refused {ts : List Token} (within : ts <:+ scan.tokens) :
      MatchesAt l scan known (Search.of (Grammar.missing .statement) : Search Statement)
        (expected .statement) ts := matches_expected gives _ within
  intro ts within
  refine .look ?_
  rcases ts with _ | ⟨⟨lexeme, p⟩, rest⟩
  · exact uncalled gives within nofun (.peek gives within (refused within))
  · cases called : Grammar.callee? known.signature lexeme with
    | some callee =>
      simp only [List.head?_cons, called]
      exact m.call_some within called fun _ => rfl
    | none =>
      simp only [List.head?_cons, called]
      refine uncalled gives within (fun t first => ?_) (.peek gives within ?_)
      · cases first
        exact called
      cases lexeme with
      | keyword k =>
        have begun := m.command gives k
        cases k with
        | output => exact .advance gives (m.operand _) within
        | ifTrue =>
          exact .advance gives (m.condition.bind fun _ => m.bracketed.bind fun _ => matches_pure _)
            within
        | loop =>
          exact .advance gives (m.expr.bind fun _ => m.bracketed.bind fun _ => matches_pure _) within
        | _ =>
          obtain ⟨read, asked⟩ | ⟨x, p, read, asked, goes⟩ := begun
          · simp only [List.head?_cons, read, asked]
            exact refused within
          · simp only [List.head?_cons, read, asked]
            exact .advance gives (goes.bind fun _ => matches_pure _) within
      | _ => exact refused within

theorem Match.bracketed_once :
    Matches l scan known (r.once known.signature).bracketed r'.once.bracketed :=
  (matches_expect gives _ _).bind fun _ => m.block

theorem Match.block_once : Matches l scan known (r.once known.signature).block r'.once.block := by
  refine matches_branch gives (matches_expected gives _ List.nil_suffix)
    fun ⟨lexeme, p⟩ rest within => ?_
  cases lexeme with
  | bracketClose => exact .advance gives (matches_pure _) within
  | _ => exact (m.statement.bind fun _ => m.block.bind fun _ => matches_pure _) within

theorem Match.body_once (name : String) :
    Matches l scan known ((r.once known.signature).body name) (r'.once.body name) := by
  have more := m.statement.bind fun s => (m.body name).bind fun ss => matches_pure (s :: ss)
  refine matches_branch gives (matches_expected gives _ List.nil_suffix)
    fun ⟨lexeme, p⟩ rest within => ?_
  cases lexeme with
  | keyword k =>
    cases k with
    | endDefine => exact .advance gives (matches_pure _) within
    | define =>
      rintro outcome ⟨⟩
      exact ⟨List.suffix_rfl, fun _ => rfl⟩
    | _ => exact more within
  | _ => exact more within

/-- Rules that use rules that read the same read the same. -/
theorem Match.once (inputs : ∀ n, Matches l scan known (r.arguments n) (r'.once.arguments n)) :
    Match l scan known (r.once known.signature) r'.once where
  arguments := m.arguments_once
  call _ _ _ within called := call_once gives inputs within called
  factor := m.factor_once gives
  term := m.term_once gives
  sum := m.sum_once gives
  expr := m.expr_once gives
  clause := m.clause_once gives
  condition := m.condition_once gives
  statement := m.statement_once gives
  bracketed := m.bracketed_once gives
  block := m.block_once gives
  body := m.body_once gives

end

end Rules

/-- Where tokens are asked for one by one, the rules need not go deeper than elsewhere. -/
theorem rules_match (gives : l.Gives scan) {depth deep : Nat} (enough : depth ≤ deep) :
    Rules.Match l scan known (Search.rules known.signature depth) (rules deep) := by
  induction depth generalizing deep with
  | zero =>
    have out {α : Type} (p : Pull α) : Matches l scan known (fun _ => none) p := matches_none p
    exact ⟨fun _ => out _, fun _ _ _ _ _ _ done => (nomatch done), out _, out _, fun _ => out _, out _,
      out _, out _, out _, out _, out _, fun _ => out _⟩
  | succ depth ih =>
    obtain ⟨deep, rfl⟩ := Nat.exists_eq_add_one_of_ne_zero (Nat.ne_zero_of_lt enough)
    have here := ih (Nat.le_of_succ_le enough)
    exact (ih (Nat.le_of_succ_le_succ enough)).once gives here.arguments

end Pull

end Logo
