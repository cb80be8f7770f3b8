import Mathlib
import Logo.Proofs.Parts

/-!
# Errors stand where a text goes wrong

The place of an error is the first one at which a text cannot be a program any more. What stands
before it could still become one: some text begins in the same way and is a program. With what
stands there it could not: no text that goes on in this way is one. An error at the end of a text
says that the text is not finished.

Result: `parse_error_first`.
-/

namespace Logo

/-! ## What a text consists of -/

/-- What stands at a place of a text: a lexeme, something that is none, or the end. -/
inductive Kind where
  | lexeme (l : Lexeme)
  | unreadable
  | endOfText
  deriving DecidableEq, Repr

/-- What stands at a place, and the place. -/
structure Stretch where
  kind : Kind
  position : Position
  deriving DecidableEq, Repr

def Piece.stretch (p : Piece) : Stretch :=
  match p.lexeme with
  | some l => ⟨.lexeme l, p.position⟩
  | none => ⟨.unreadable, p.position⟩

def Token.stretch (t : Token) : Stretch := ⟨.lexeme t.lexeme, t.position⟩

def Stop.stretch : Stop → Stretch
  | .endOfText p => ⟨.endOfText, p⟩
  | .unreadable p => ⟨.unreadable, p⟩

/-- All that a text consists of, its end included. -/
def stretches (text : String) : List Stretch :=
  let cursor := Cursor.ofText text
  cursor.pieces.map Piece.stretch ++ [⟨.endOfText, cursor.finish⟩]

/-- What a text consists of, without the places. -/
def kinds (text : String) : List Kind := (stretches text).map Stretch.kind

/-- `FirstFault known text before found`: in the text, `found` comes right after `before`. What stands
before it are lexemes that some program begins with, and unless it is the end of the text, no program
begins with these and with what is found. -/
structure FirstFault (known : Procedures) (text : String) (before : List Stretch) (found : Stretch) :
    Prop where
  stands : ∃ after, stretches text = before ++ found :: after
  valid : ∀ s ∈ before, ∃ l, s.kind = .lexeme l
  possible : ∃ text' program, before.map Stretch.kind <+: kinds text' ∧
    (parse known text').result = .ok program
  impossible : found.kind ≠ .endOfText → ∀ text' program,
    (before ++ [found]).map Stretch.kind <+: kinds text' → (parse known text').result ≠ .ok program

/-! ## Texts and their tokens -/

theorem stretches_ofPieces (finish : Position) (ps : List Piece) :
    ∃ after, ps.map Piece.stretch ++ [⟨.endOfText, finish⟩] =
      (Scan.ofPieces finish ps).tokens.map Token.stretch ++
        (Scan.ofPieces finish ps).stop.stretch :: after := by
  fun_induction Scan.ofPieces finish ps with
  | case1 => exact ⟨[], rfl⟩
  | case2 p rest => exact ⟨rest.map Piece.stretch ++ [⟨.endOfText, finish⟩], rfl⟩
  | case3 l p rest scan ih =>
    obtain ⟨after, same⟩ := ih
    exact ⟨after, congrArg (Stretch.mk (.lexeme l) p :: ·) same⟩

/-- A text consists of its tokens, of what ends them, and of what a parser never comes to. -/
theorem stretches_eq (text : String) :
    ∃ after, stretches text = (Scan.ofText text).tokens.map Token.stretch ++
      (Scan.ofText text).stop.stretch :: after :=
  stretches_ofPieces _ _

theorem Stop.stretch_kind_ne (stop : Stop) (l : Lexeme) : stop.stretch.kind ≠ .lexeme l := by
  cases stop <;> exact nofun

/-- What begins with some lexemes begins with tokens of these lexemes. -/
theorem tokens_of_prefix {ls : List Lexeme} {tail after : List Kind} {ts : List Token}
    {stop : Stop}
    (begins : ls.map Kind.lexeme ++ tail <+:
      (ts.map Token.stretch).map Stretch.kind ++ stop.stretch.kind :: after) :
    ∃ taken rest, ts = taken ++ rest ∧ taken.map Token.lexeme = ls ∧
      tail <+: (rest.map Token.stretch).map Stretch.kind ++ stop.stretch.kind :: after := by
  induction ls generalizing ts with
  | nil => exact ⟨[], ts, rfl, rfl, begins⟩
  | cons l ls ih =>
    cases ts with
    | nil => exact absurd (List.cons_prefix_cons.1 begins).1.symm (stop.stretch_kind_ne l)
    | cons t ts =>
      obtain ⟨first, others⟩ := List.cons_prefix_cons.1 begins
      obtain ⟨taken, rest, rfl, lexemes, tail⟩ := ih others
      exact ⟨t :: taken, rest, rfl, congrArg₂ List.cons (Kind.lexeme.inj first).symm lexemes, tail⟩

theorem kinds_eq (text : String) :
    ∃ after, kinds text = ((Scan.ofText text).tokens.map Token.stretch).map Stretch.kind ++
      (Scan.ofText text).stop.stretch.kind :: after := by
  obtain ⟨after, same⟩ := stretches_eq text
  refine ⟨after.map Stretch.kind, ?_⟩
  rw [kinds, same, List.map_append, List.map_cons]

theorem map_kind_stretch (ts : List Token) :
    (ts.map Token.stretch).map Stretch.kind = (ts.map Token.lexeme).map Kind.lexeme := by
  rw [List.map_map, List.map_map]
  rfl

/-! ## Parsing -/

/-- What it means that a text cannot be parsed. -/
theorem parse_error_cases {known : Procedures} {text : String} {e : SyntaxError}
    (refused : (parse known text).result = .error e) :
    (∃ f, Grammar.Refuses known (Scan.ofText text).tokens f ∧
      e = f.toError (Scan.ofText text).stop) ∨
    ∃ program p, Grammar.Reads known (Scan.ofText text).tokens program ∧
      (Scan.ofText text).stop = .unreadable p ∧ e.position = p := by
  unfold parse at refused
  dsimp only at refused
  split at refused
  · next f failed =>
    cases refused
    exact .inl ⟨f, Grammar.program_error_iff.1 failed, rfl⟩
  · next program read =>
    split at refused
    · cases refused
    · next p stops =>
      cases refused
      exact .inr ⟨program, p, (Grammar.program_reads read).1, stops, rfl⟩

/-! ## The first fault -/

section

variable {known : Procedures} {text text' : String} {program : Program}

/-- Tokens that can be completed begin a program that can be written. -/
theorem exists_program {ts : List Token} {c : List Lexeme} (first : ∀ t ∈ ts, t.lexeme.Writable)
    (second : ∀ l ∈ c, l.Writable)
    (completes : ∀ ts', ts'.map Token.lexeme = c → ∃ p, Grammar.Reads known (ts ++ ts') p) :
    ∃ text' program, (ts.map Token.stretch).map Stretch.kind <+: kinds text' ∧
      (parse known text').result = .ok program := by
  have writable : ∀ l ∈ ts.map Token.lexeme ++ c, l.Writable :=
    List.forall_mem_append.2 ⟨List.forall_mem_map.2 first, second⟩
  obtain ⟨lexemes, ends⟩ := Scan.ofText_spelled writable
  have completion : (c.map fun l => (⟨l, .start⟩ : Token)).map Token.lexeme = c := by
    rw [List.map_map]
    exact List.map_id c
  obtain ⟨p, reads⟩ := completes _ completion
  have same : SameLexemes (ts ++ c.map fun l => ⟨l, .start⟩)
      (Scan.ofText (spelled (ts.map Token.lexeme ++ c))).tokens := by
    rw [SameLexemes, List.map_append, completion, lexemes]
  obtain ⟨program, again, _⟩ := reads.again rfl same
  refine ⟨_, program, ?_, parse_ok_iff.2 ⟨again, ends⟩⟩
  obtain ⟨after, whole⟩ := kinds_eq (spelled (ts.map Token.lexeme ++ c))
  rw [whole, map_kind_stretch, map_kind_stretch, lexemes, List.map_append, List.append_assoc]
  exact List.prefix_append ..

/-- No program goes on with a token that tokens like it are refused at. -/
theorem not_parsed_token {taken rest : List Token} {t : Token} {cause : Failure.Cause}
    (again : ∀ ⦃taken' rest'⦄, SameLexemes taken taken' → next (t :: rest) = next rest' →
      Grammar.Refuses known (taken' ++ rest') ⟨cause, rest'⟩)
    (begins : (taken.map Token.stretch).map Stretch.kind ++ [.lexeme t.lexeme] <+: kinds text') :
    (parse known text').result ≠ .ok program := by
  intro parsed
  have reads := (parse_ok_iff.1 parsed).1
  obtain ⟨after, same⟩ := kinds_eq text'
  rw [same, map_kind_stretch] at begins
  obtain ⟨taken', rest', split, lexemes, tail⟩ := tokens_of_prefix begins
  cases rest' with
  | nil => exact absurd (List.cons_prefix_cons.1 tail).1.symm (Stop.stretch_kind_ne _ _)
  | cons t' rest' =>
    have comes : t.lexeme = t'.lexeme := Kind.lexeme.inj (List.cons_prefix_cons.1 tail).1
    have next_eq : next (t :: rest) = next (t' :: rest') := congrArg some comes
    have refuses := again lexemes.symm next_eq
    rw [← split] at refuses
    cases (Grammar.program_error_iff.2 refuses).symm.trans reads.result

/-- No program goes on with something unreadable. -/
theorem not_parsed_unreadable {taken : List Token}
    (begins : (taken.map Token.stretch).map Stretch.kind ++ [.unreadable] <+: kinds text') :
    (parse known text').result ≠ .ok program := by
  intro parsed
  obtain ⟨finish, stops⟩ := (parse_ok_iff.1 parsed).2
  obtain ⟨after, same⟩ := kinds_eq text'
  rw [same, map_kind_stretch, stops] at begins
  obtain ⟨taken', rest', split, lexemes, tail⟩ := tokens_of_prefix begins
  cases rest' with
  | nil => cases (List.cons_prefix_cons.1 tail).1
  | cons t' rest' => cases (List.cons_prefix_cons.1 tail).1

theorem valid_tokens (ts : List Token) : ∀ s ∈ ts.map Token.stretch, ∃ l, s.kind = .lexeme l :=
  List.forall_mem_map.2 fun t _ => ⟨t.lexeme, rfl⟩

/-- What ends the tokens is the first fault if a program begins with all of them. -/
theorem firstFault_stop
    (possible : ∃ text' program, ((Scan.ofText text).tokens.map Token.stretch).map Stretch.kind <+:
      kinds text' ∧ (parse known text').result = .ok program) :
    FirstFault known text ((Scan.ofText text).tokens.map Token.stretch)
      (Scan.ofText text).stop.stretch where
  stands := stretches_eq text
  valid := valid_tokens _
  possible := possible
  impossible := by
    intro other text' program begins
    cases stops : (Scan.ofText text).stop with
    | endOfText p =>
      rw [stops] at other
      exact absurd rfl other
    | unreadable p =>
      rw [stops, List.map_append] at begins
      exact not_parsed_unreadable begins

end

theorem Failure.position_toError_nil {f : Failure} (none : f.rest = []) (stop : Stop) :
    stop.stretch.position = (f.toError stop).position := by
  obtain ⟨cause, rest⟩ := f
  obtain rfl := none
  cases stop <;> cases cause <;> rfl

theorem Failure.position_toError_cons {f : Failure} {t : Token} {rest : List Token}
    (some : f.rest = t :: rest) (stop : Stop) :
    t.stretch.position = (f.toError stop).position := by
  obtain ⟨cause, rest⟩ := f
  obtain rfl := some
  cases cause <;> rfl

/-- The error of a text that is refused stands at its first fault: at the first of all that the text
consists of with which no program can begin any more, or at the end of a text that could have gone on. -/
theorem parse_error_first {known : Procedures} {text : String} {e : SyntaxError}
    (refused : (parse known text).result = .error e) :
    ∃ before found, FirstFault known text before found ∧ found.position = e.position := by
  have writable (t : Token) (among : t ∈ (Scan.ofText text).tokens) : t.lexeme.Writable :=
    Scan.writable_of_mem among
  obtain ⟨f, refuses, rfl⟩ | ⟨program, p, reads, stops, rfl⟩ := parse_error_cases refused
  · obtain ⟨taken, ⟨split, again, c, writable', completes⟩⟩ := refuses.decided
    rw [split] at writable
    have possible := exists_program (fun t among => writable t (List.mem_append_left _ among))
      writable' fun ts' lexemes => (completes lexemes).2
    cases rest : f.rest with
    | nil =>
      -- all tokens were taken, so the reader failed at what ends them
      rw [rest, List.append_nil] at split
      rw [← split] at possible
      exact ⟨_, _, firstFault_stop possible, Failure.position_toError_nil rest _⟩
    | cons t more =>
      rw [rest] at split again
      refine ⟨taken.map Token.stretch, t.stretch, ⟨?_, valid_tokens taken, possible, ?_⟩,
        Failure.position_toError_cons rest _⟩
      · obtain ⟨after, whole⟩ := stretches_eq text
        rw [whole, split, List.map_append, List.map_cons, List.append_assoc, List.cons_append]
        exact ⟨_, rfl⟩
      · intro _ text' program begins
        rw [List.map_append] at begins
        exact not_parsed_token (fun _ _ => again rfl) begins
  · -- the tokens are a program already, and only what ends them is wrong
    have possible := exists_program (c := []) writable (fun _ among => nomatch among) fun ts' none =>
      ⟨program, by rw [List.map_eq_nil_iff.1 none, List.append_nil]; exact reads⟩
    refine ⟨_, _, firstFault_stop possible, ?_⟩
    rw [stops]
    rfl

/-- An opening bracket where a repetition has one already. -/
theorem parse_error_first_bracket :
    ∃ before found, FirstFault ∅ "repeat 2 [[" before found ∧ found.position = ⟨10, 0, 10⟩ :=
  parse_error_first (e := ⟨⟨10, 0, 10⟩, .expected .statement .bracketOpen⟩) (by cbv)

end Logo
