import Mathlib
import Logo.Proofs.Feeding

/-!
# A parser asks for each token once

Parsing a text token by token ends, and gives what `parse` gives. By then the lexer has been called for the
tokens of the text from the first on, for each of them once, and for none behind the one at which the parser
gave up or the end of the text. The journal, in which `parse` writes down the tokens that a parser comes to,
tells the same ones.

The rules for statements are `rules_match`. Definitions change the known procedures on the way, so programs
are followed part by part (`EndsAs`), by induction on the number of tokens.

Results:
1. `Pull.parse_eventually`: parsing ends, with what reading the tokens as a program gives.
2. `parse_asks_once`: what has been asked for then.
-/

namespace Logo

open Filter

/-! ## What parsing a text says -/

/-- An event of coming to a token. -/
def Event.isToken : Event → Bool
  | .token .. => true
  | _ => false

/-- The event of a call for the next token. -/
def Lexed.event : Lexed → Event
  | .piece ⟨some l, p⟩ => .token l.text p
  | .piece ⟨none, p⟩ => .token "invalid token" p
  | .endOfText p => .token "end of text" p

namespace Parse

theorem scan_of (scan : Scan) (reading : Grammar.Reading) :
    (of scan reading).scan = scan := by
  obtain ⟨tokens, stop⟩ := scan
  obtain ⟨headers, known, result⟩ := reading
  cases result with
  | error f => rfl
  | ok program => cases stop <;> rfl

/-- A text that is parsed has been read up to its end. -/
theorem of_ok {scan : Scan} {reading : Grammar.Reading} {program : Program}
    (parsed : (of scan reading).result = .ok program) :
    reading.result = .ok program ∧ (∃ p, scan.stop = .endOfText p) ∧
      (of scan reading).unread = 0 ∧ (of scan reading).known = reading.known := by
  obtain ⟨tokens, stop⟩ := scan
  obtain ⟨headers, known, result⟩ := reading
  cases result with
  | error f => cases parsed
  | ok read =>
    cases stop with
    | endOfText p =>
      cases parsed
      exact ⟨rfl, ⟨p, rfl⟩, rfl, rfl⟩
    | unreadable p => cases parsed

theorem filter_headersAt (p : Parse) (ahead : Nat) :
    (p.headersAt ahead).filter Event.isToken = [] := by
  refine List.filter_eq_nil_iff.2 fun event among => ?_
  obtain ⟨h, -, rfl⟩ := List.mem_map.1 among
  exact Bool.false_ne_true

/-- The journal is told of the tokens up to the one at which the parser gave up. -/
theorem filter_readingEvents (p : Parse) (ts : List Token) (unread : p.unread ≤ ts.length) :
    (p.readingEvents ts).filter Event.isToken =
      ((ts.map Token.lexed ++ [p.scan.stop.lexed]).take (ts.length - p.unread + 1)).map
        Lexed.event := by
  induction ts with
  | nil =>
    rw [readingEvents, List.length_nil, Nat.zero_sub]
    cases p.scan.stop with
    | endOfText position =>
      dsimp only
      rw [List.filter_cons_of_pos rfl, filter_headersAt]
      rfl
    | unreadable position => rfl
  | cons t rest ih =>
    rw [readingEvents, List.cons_append, List.filter_cons_of_pos rfl, List.filter_append,
      filter_headersAt, List.nil_append]
    by_cases here : p.unread = rest.length + 1
    · rw [if_pos here, List.length_cons, here, Nat.sub_self]
      rfl
    · have fewer : p.unread ≤ rest.length := by
        rw [List.length_cons] at unread
        omega
      rw [if_neg here, ih fewer, List.length_cons, Nat.succ_sub fewer]
      rfl

theorem filter_events (p : Parse) (unread : p.unread ≤ p.scan.tokens.length) :
    p.events.filter Event.isToken =
      ((p.scan.tokens.map Token.lexed ++ [p.scan.stop.lexed]).take
        (p.scan.tokens.length - p.unread + 1)).map Lexed.event := by
  rw [events, List.filter_append, filter_readingEvents p _ unread]
  cases p.result <;> exact List.append_nil _

end Parse

/-! ## Calls for the tokens of a text -/

/-- The first calls give the first tokens. -/
theorem Lexer.Gives.calls {l : Lexer} {scan : Scan} (gives : l.Gives scan) {count : Nat}
    (inside : count ≤ scan.tokens.length) :
    (List.range (count + 1)).map l.token =
      (scan.tokens.map Token.lexed ++ [scan.stop.lexed]).take (count + 1) := by
  refine List.ext_getElem? fun n => ?_
  rcases Nat.lt_or_ge n (count + 1) with early | late
  · rw [List.getElem?_map, List.getElem?_range early, List.getElem?_take_of_lt early]
    have below : n ≤ scan.tokens.length := Nat.le_trans (Nat.le_of_lt_succ early) inside
    rw [Option.map_some, gives n below]
    rcases Nat.lt_or_eq_of_le below with token | rfl
    · rw [List.getElem?_append_left (by rwa [List.length_map]), List.getElem?_map,
        List.getElem?_eq_getElem token]
      rfl
    · rw [List.getElem?_eq_none (Nat.le_refl _), List.getElem?_append_right (by rw [List.length_map]),
        List.length_map, Nat.sub_self]
      rfl
  · rw [List.getElem?_eq_none (by rwa [List.length_map, List.length_range]),
      List.getElem?_eq_none (by rw [List.length_take]; omega)]

/-- The end of a text is behind its last byte. -/
theorem Lexer.load_ends {held : Lexer} {text : String} {n : Nat} {p : Position}
    (ended : (held.load text).token n = .endOfText p) : p = .behind text.toUTF8.toList := by
  obtain ⟨-, tokens, -, -⟩ := load_tiles held text
  rw [tokens] at ended
  cases found : (Cursor.ofText text).pieces[n]? with
  | none =>
    rw [found] at ended
    exact (Lexed.endOfText.inj ended).symm
  | some piece =>
    rw [found] at ended
    cases ended

namespace Pull

variable {α β : Type} {l : Lexer} {scan : Scan} {known : Procedures}

/-! ## Programs -/

/-- Where reading ends, asking for tokens one by one does. -/
theorem eventually_of_match {x : Nat → Search α} {r : Reader α} {p : Nat → Pull α} {ts : List Token}
    (ends : ∀ᶠ depth in atTop, x depth ts = some (r ts))
    (same : ∀ᶠ depth in atTop, MatchesAt l scan known (x depth) (p depth) ts) :
    left (r ts) <:+ ts ∧
      (scan.stop.refusal ts = none → ∀ᶠ depth in atTop,
        p depth (.facing l scan known ts) = some (answer l scan known (r ts))) := by
  have both := ends.and same
  obtain ⟨depth, read, goes⟩ := both.exists
  refine ⟨(goes read).1, fun live => ?_⟩
  filter_upwards [both] with depth ⟨read, goes⟩
  exact (goes read).2 live

section

variable (gives : l.Gives scan)

include gives

theorem parameters_match (name : String) {ts : List Token} (within : ts <:+ scan.tokens) {depth : Nat}
    (enough : ts.length < depth) :
    MatchesAt l scan known (Search.of fun ts => .ok (Grammar.parameters known.signature name ts))
      ((rules depth).parameters name) ts := by
  induction ts generalizing depth with
  | nil =>
    obtain ⟨depth, rfl⟩ := Nat.exists_eq_add_one_of_ne_zero (Nat.ne_zero_of_lt enough)
    exact .peek gives within (matches_pure ([] : List String) within)
  | cons t rest ih =>
    obtain ⟨depth, rfl⟩ := Nat.exists_eq_add_one_of_ne_zero (Nat.ne_zero_of_lt enough)
    have ended : MatchesAt l scan known (pure []) (pure ([] : List String)) _ := matches_pure _ within
    obtain ⟨lexeme, p⟩ := t
    refine .peek gives within ?_
    cases lexeme with
    | word w =>
      by_cases stops : w = name ∨ (known.signature w).isSome
      · refine .congr ?_ (bind_ok (p := signature) rfl |>.trans (congrFun (if_pos stops) _)) ended
        show some (Except.ok (ite _ _ _)) = _
        rw [if_pos stops]
        rfl
      · refine .congr (y := Search.advance >>= fun _ =>
          Search.of (fun ts => .ok (Grammar.parameters known.signature name ts)) >>= fun ps =>
            pure (w :: ps)) ?_ (bind_ok (p := signature) rfl |>.trans (congrFun (if_neg stops) _)) ?_
        · show some (Except.ok (ite _ _ _)) = _
          rw [if_neg stops]
          rfl
        · have more := ih ((List.suffix_cons _ _).trans within) (Nat.lt_of_succ_lt_succ enough)
          exact .advance_at gives within
            (more.bind ((List.suffix_cons _ _).trans within) fun _ => matches_pure _)
    | _ => exact ended

theorem header_match (known : Procedures) {ts : List Token} (within : ts <:+ scan.tokens) {depth : Nat}
    (enough : ts.length ≤ depth) :
    MatchesAt l scan known
      (Search.of fun ts => (Grammar.header known.signature ts).map fun (h, rest) =>
        ((h.name, h.parameters), rest)) (header depth) ts := by
  refine .peek gives within ?_
  have refused : MatchesAt l scan known
      (Search.of (Grammar.missing .procedureName) : Search (String × List String))
      (expected .procedureName) ts := matches_expected gives _ within
  rcases ts with _ | ⟨⟨lexeme, p⟩, rest⟩
  · exact refused
  · cases lexeme with
    | word name =>
      refine .congr (y := Search.advance >>= fun _ =>
        Search.of (fun ts => .ok (Grammar.parameters known.signature name ts)) >>= fun ps =>
          pure (name, ps)) rfl rfl ?_
      exact .advance_at gives within ((parameters_match gives name
        ((List.suffix_cons _ _).trans within) enough).bind ((List.suffix_cons _ _).trans within)
          fun _ => matches_pure _)
    | _ => exact refused

theorem statement_eventually (known : Procedures) {ts : List Token} (within : ts <:+ scan.tokens) :
    left (Grammar.statement known.signature ts) <:+ ts ∧
      (scan.stop.refusal ts = none → ∀ᶠ depth in atTop,
        (rules depth).statement (.facing l scan known ts) =
          some (answer l scan known (Grammar.statement known.signature ts))) :=
  eventually_of_match
    (Search.statement_ends (Search.block_ends known.signature _) (Nat.lt_succ_self ts.length))
    (.of_forall fun depth => (rules_match gives (Nat.le_refl depth)).statement within)

theorem body_eventually (known : Procedures) (name : String) {ts : List Token}
    (within : ts <:+ scan.tokens) :
    left (Grammar.body known.signature name ts) <:+ ts ∧
      (scan.stop.refusal ts = none → ∀ᶠ depth in atTop,
        (rules depth).body name (.facing l scan known ts) =
          some (answer l scan known (Grammar.body known.signature name ts))) :=
  eventually_of_match (Search.body_ends known.signature name _ (Nat.lt_succ_self ts.length))
    (.of_forall fun depth => (rules_match gives (Nat.le_refl depth)).body name within)

/-- What is read of a header, after `to`, with that word. -/
theorem header_eventually (known : Procedures) {t : Token} {ts : List Token}
    (within : t :: ts <:+ scan.tokens) :
    let header := (Grammar.header known.signature ts).map fun (h, rest) =>
      ((h.name, h.parameters), rest)
    left header <:+ ts ∧ ∀ᶠ depth in atTop,
      (advance >>= fun _ => Pull.header depth) (.facing l scan known (t :: ts)) =
        some (answer l scan known header) := by
  intro header
  have within' := (List.suffix_cons t ts).trans within
  have read {depth : Nat} (enough : ts.length ≤ depth) := header_match gives known within' enough
  refine ⟨(read (Nat.le_refl _) rfl).1, ?_⟩
  filter_upwards [eventually_ge_atTop ts.length] with depth enough
  exact (MatchesAt.advance_at gives within (read enough) rfl).2 rfl

end

/-- One more part comes before the others. -/
theorem bind_items {p : Pull Program} {s : Feed} {r : Except Failure Program} (item : Item)
    (done : p s = some (answer l scan known (r.map fun program => (program, [])))) :
    (p >>= fun program => pure (item :: program)) s =
      some (answer l scan known ((r.map (item :: ·)).map fun program => (program, []))) := by
  cases r with
  | error f => exact bind_error done
  | ok program =>
    change p s = some (answer l scan known (.ok (program, []))) at done
    rw [answer] at done
    show _ = some (answer l scan known (.ok (item :: program, [])))
    rw [answer]
    cases refused : scan.stop.refusal [] with
    | none =>
      rw [refused] at done
      exact bind_ok done
    | some e =>
      rw [refused] at done
      exact bind_error done

theorem left_after (headers : List Header) (item : Item) (reading : Grammar.Reading) :
    left ((reading.after headers item).result.map fun program => (program, [])) =
      left (reading.result.map fun program => (program, ([] : List Token))) := by
  show left ((reading.result.map _).map _) = _
  cases reading.result <;> rfl

/-- From some tokens, `p` ends as the reading says, and with the procedures that it says if it succeeds. -/
def EndsAs (l : Lexer) (scan : Scan) (ts : List Token) (reading : Grammar.Reading)
    (p : Nat → Option (Except SyntaxError Program × Feed)) : Prop :=
  let outcome := reading.result.map fun program => (program, [])
  left outcome <:+ ts ∧ ∃ known, (∀ᶠ depth in atTop, p depth = some (answer l scan known outcome)) ∧
    (reading.result.isOk → scan.stop.refusal [] = none → known = reading.known)

theorem EndsAs.of_succ {ts : List Token} {reading : Grammar.Reading}
    {p q : Nat → Option (Except SyntaxError Program × Feed)} (same : ∀ depth, p (depth + 1) = q depth)
    (ends : EndsAs l scan ts reading q) : EndsAs l scan ts reading p := by
  obtain ⟨suffix, known, goes, knows⟩ := ends
  refine ⟨suffix, known, eventually_of_succ ?_, knows⟩
  filter_upwards [goes] with depth goes
  rw [same, goes]

/-- What follows a part of a program ends as the program. -/
theorem EndsAs.after {ts rest : List Token} {reading : Grammar.Reading} {p : Nat → Pull Program}
    {s : Feed} (ends : EndsAs l scan rest reading fun depth => p depth s) (suffix : rest <:+ ts)
    (headers : List Header) (item : Item) :
    EndsAs l scan ts (reading.after headers item) fun depth =>
      (p depth >>= fun program => pure (item :: program)) s := by
  obtain ⟨suffix', known, goes, knows⟩ := ends
  refine ⟨?_, known, goes.mono fun depth done => bind_items item done, fun ok => knows ?_⟩
  · rw [left_after]
    exact suffix'.trans suffix
  · change (reading.result.map _).isOk = true at ok
    cases result : reading.result with
    | error f =>
      rw [result] at ok
      cases ok
    | ok program => rfl

/-- Where a part is read first, a program ends as what comes of that part, unless a parser can go on. -/
theorem EndsAs.bind {ts : List Token} {reading : Grammar.Reading} {s : Feed} {q : Nat → Pull β}
    {g : Nat → β → Pull Program} {part : Except Failure (β × List Token)}
    (first : ∀ᶠ depth in atTop, q depth s = some (answer l scan known part))
    (suffix : left part <:+ ts)
    (failed : ∀ f, part = .error f → reading.result = .error f)
    (all : ∀ b, part = .ok (b, []) →
      left (reading.result.map fun program => (program, ([] : List Token))) = [])
    (live : ∀ b rest, part = .ok (b, rest) → scan.stop.refusal rest = none →
      EndsAs l scan ts reading fun depth => g depth b (.facing l scan known rest)) :
    EndsAs l scan ts reading fun depth => (q depth >>= g depth) s := by
  cases part with
  | error f =>
    rw [EndsAs, failed f rfl]
    refine ⟨suffix, known, ?_, nofun⟩
    filter_upwards [first] with depth first
    exact bind_error first
  | ok taken =>
    obtain ⟨b, rest⟩ := taken
    cases refused : scan.stop.refusal rest with
    | none =>
      obtain ⟨suffix', known', goes, knows⟩ := live b rest rfl refused
      refine ⟨suffix', known', ?_, knows⟩
      filter_upwards [first, goes] with depth first goes
      rw [answer_live refused] at first
      exact (bind_ok first).trans goes
    | some e =>
      obtain rfl := Stop.eq_nil_of_refusal refused
      have none := all b rfl
      refine ⟨?_, known, ?_, fun _ ended => ?_⟩
      · rw [none]
        exact List.nil_suffix
      · filter_upwards [first] with depth first
        rw [answer_dead refused] at first
        rw [bind_error first, answer_refused (by rw [none, refused])]
      · cases refused.symm.trans ended

theorem items_statement {depth : Nat} {s : Feed} {t : Token} (ahead : peek s = some (.ok (some t), s))
    (other : t.lexeme ≠ .keyword .define) :
    items (depth + 1) s =
      ((rules depth).statement >>= fun part =>
        items depth >>= fun program => pure (.statement part :: program)) s :=
  (bind_ok ahead).trans (congrFun (if_neg other) s)

theorem items_definition {depth : Nat} {s : Feed} {t : Token} (ahead : peek s = some (.ok (some t), s))
    (begins : t.lexeme = .keyword .define) :
    items (depth + 1) s =
      ((advance >>= fun _ => header depth) >>= fun named =>
        modify (·.announce named.1 named.2) >>= fun _ => (rules depth).body named.1 >>= fun body =>
          modify (·.complete named.1 body) >>= fun _ => items depth >>= fun program =>
            pure (.definition ⟨named.1, named.2, body⟩ :: program)) s := by
  refine (bind_ok ahead).trans ((congrFun (if_pos begins) s).trans (congrFun ?_ s))
  simp only [definition, bind_assoc]
  rfl

section

variable (gives : l.Gives scan)

include gives

/-- What begins with a definition ends as a program, if all that is shorter does. -/
theorem definition_eventually {p : Position} {rest : List Token}
    (within : ⟨.keyword .define, p⟩ :: rest <:+ scan.tokens)
    (ih : ∀ known ts, ts.length < rest.length → ts <:+ scan.tokens → scan.stop.refusal ts = none →
      EndsAs l scan ts (Grammar.program known ts) fun depth =>
        items depth (.facing l scan known ts)) :
    EndsAs l scan (⟨.keyword .define, p⟩ :: rest)
      (Grammar.program known (⟨.keyword .define, p⟩ :: rest)) fun depth =>
        items depth (.facing l scan known (⟨.keyword .define, p⟩ :: rest)) := by
  have ahead := peek_facing gives known within
  have opens := header_eventually gives known within
  have whole : rest <:+ ⟨.keyword .define, p⟩ :: rest := List.suffix_cons _ _
  rw [Grammar.program_definition, Grammar.definitionWith]
  cases begun : Grammar.header known.signature rest with
  | error f =>
    rw [begun] at opens
    refine .of_succ (fun depth => items_definition ahead rfl)
      (.bind opens.2 (opens.1.trans whole) (fun f' failed => ?_) (fun _ read => ?_) fun _ _ read => ?_)
    · cases failed
      rfl
    all_goals cases read
  | ok taken =>
    obtain ⟨h, rest'⟩ := taken
    rw [begun] at opens
    have suffix : rest' <:+ ⟨.keyword .define, p⟩ :: rest := opens.1.trans whole
    refine .of_succ (fun depth => items_definition ahead rfl)
      (.bind opens.2 suffix (fun f failed => ?_) (fun named read => ?_)
        fun named rest'' read live => ?_)
    · cases failed
    · cases read
      rfl
    · cases read
      have goes := body_eventually gives (known.announce h) h.name (suffix.trans within)
      show EndsAs l scan _ _ fun depth => ((rules depth).body h.name >>= fun body =>
        modify (·.complete h.name body) >>= fun _ => items depth >>= fun program =>
          pure (.definition ⟨h.name, h.parameters, body⟩ :: program))
        (.facing l scan (known.announce h) rest')
      refine .bind (goes.2 live) (goes.1.trans suffix) (fun f failed => ?_) (fun body read => ?_)
        fun body rest'' read live => ?_
      · dsimp only
        rw [failed]
      · dsimp only
        rw [read]
        rfl
      · dsimp only
        rw [read] at goes ⊢
        have shorter : rest''.length < rest.length := by
          have := Grammar.header_takes _ begun
          have := Grammar.body_takes _ _ read
          omega
        exact (ih ((known.announce h).complete h.name body) rest'' shorter
          (goes.1.trans (suffix.trans within)) live).after (goes.1.trans suffix) [h]
            (.definition ⟨h.name, h.parameters, body⟩)

/-- From any of its tokens, a program ends as reading the tokens from there on does. -/
theorem items_eventually (known : Procedures) {ts : List Token} (within : ts <:+ scan.tokens)
    (live : scan.stop.refusal ts = none) :
    EndsAs l scan ts (Grammar.program known ts) fun depth =>
      items depth (.facing l scan known ts) := by
  -- What is left is taken up part by part, while the known procedures change.
  induction count : ts.length using Nat.strongRecOn generalizing known ts with
  | ind n ih =>
    subst count
    cases ts with
    | nil =>
      refine ⟨List.suffix_rfl, known, eventually_of_succ (.of_forall fun depth => ?_), fun _ _ => rfl⟩
      exact (bind_ok (peek_facing gives known within)).trans (congrArg some (answer_live live).symm)
    | cons t rest =>
      have ahead := peek_facing gives known within
      by_cases begins : t.lexeme = .keyword .define
      · obtain ⟨lexeme, p⟩ := t
        obtain rfl : lexeme = .keyword .define := begins
        exact definition_eventually gives within fun known ts shorter within live =>
          ih ts.length (Nat.lt_succ_of_lt shorter) known within live rfl
      · obtain ⟨suffix, goes⟩ := statement_eventually gives known within
        rw [Grammar.program_statement begins]
        refine .of_succ (fun depth => items_statement ahead begins)
          (.bind (goes live) suffix (fun f failed => ?_) (fun part read => ?_)
            fun part rest' read live => ?_)
        · rw [failed]
        · rw [read]
          rfl
        · rw [read] at suffix ⊢
          change rest' <:+ _ at suffix
          exact (ih rest'.length (Grammar.statement_takes _ read) known (suffix.trans within) live
            rfl).after suffix [] (.statement part)

end

/-! ## Whole texts -/

theorem call_start (l : Lexer) (scan : Scan) (known : Procedures) :
    (Feed.start l known).call = .facing l scan known scan.tokens := by
  simp only [Feed.call, Feed.facing, Nat.sub_self]
  rfl

/-- Parsing ends, with what reading the tokens as a program gives. -/
theorem parse_eventually (gives : l.Gives scan) (known : Procedures) :
    EndsAs l scan scan.tokens (Grammar.program known scan.tokens) fun depth =>
      parse depth l known := by
  have begun := advance_of_call gives List.suffix_rfl (call_start l scan known)
  refine .bind (.of_forall fun _ => begun) List.suffix_rfl nofun (fun _ read => ?_)
    fun _ rest read live => ?_
  · rw [(Prod.mk.inj (Except.ok.inj read)).2]
    rfl
  · cases read
    exact items_eventually gives known List.suffix_rfl live

/-- What parsing a text says is what comes of its tokens. -/
theorem answer_parse (l : Lexer) (scan : Scan) (known : Procedures) (reading : Grammar.Reading) :
    let outcome := reading.result.map fun program => (program, [])
    answer l scan known outcome =
        ((Parse.of scan reading).result, .facing l scan known (left outcome)) ∧
      (left outcome).length = (Parse.of scan reading).unread := by
  intro outcome
  obtain ⟨headers, known', result⟩ := reading
  cases result with
  | error f => exact ⟨rfl, rfl⟩
  | ok program =>
    obtain ⟨tokens, stop⟩ := scan
    cases stop <;> exact ⟨rfl, rfl⟩

/-- A parser that gives up does so at the token ahead. -/
theorem position_of_error (gives : l.Gives scan) {outcome : Except Failure (α × List Token)}
    (within : left outcome <:+ scan.tokens) {e : SyntaxError}
    (failed : (answer l scan known outcome).1 = .error e) :
    (Feed.facing l scan known (left outcome)).ahead.position = e.position := by
  rw [token_facing gives known within]
  cases outcome with
  | error f =>
    obtain ⟨cause, rest⟩ := f
    cases failed
    cases rest with
    | cons t rest => cases cause <;> rfl
    | nil =>
      rw [left, List.head?_nil, Option.elim_none]
      cases scan.stop <;> cases cause <;> rfl
  | ok taken =>
    obtain ⟨a, rest⟩ := taken
    cases rest with
    | cons t rest => cases failed
    | nil =>
      change ((scan.stop.refusal []).elim (.ok a) .error : Except SyntaxError α) = _ at failed
      rw [left, List.head?_nil, Option.elim_none]
      cases stops : scan.stop with
      | endOfText p =>
        rw [stops] at failed
        cases failed
      | unreadable p =>
        rw [stops] at failed
        cases failed
        rfl

/-- What a parser has asked for in the end, when the tokens that it did not come to are left. -/
theorem parse_feeds (gives : l.Gives scan) (known : Procedures) :
    let p := Parse.of scan (Grammar.program known scan.tokens)
    let count := scan.tokens.length - p.unread
    p.unread ≤ scan.tokens.length ∧ ∃ known',
      (∀ᶠ depth in atTop, parse depth l known =
        some (p.result, ⟨l.after (count + 1), l.token count, (List.range (count + 1)).map l.token,
          known'⟩)) ∧
      (∀ program, p.result = .ok program → known' = p.known) ∧
      ∀ e, p.result = .error e → (l.token count).position = e.position := by
  intro p count
  obtain ⟨within, known', goes, knows⟩ := parse_eventually gives known
  obtain ⟨answered, unread⟩ := answer_parse l scan known' (Grammar.program known scan.tokens)
  have stands : Feed.facing l scan known' (left ((Grammar.program known scan.tokens).result.map
      fun program => (program, []))) =
        ⟨l.after (count + 1), l.token count, (List.range (count + 1)).map l.token, known'⟩ := by
    rw [Feed.facing, unread]
  refine ⟨unread ▸ within.length_le, known', ?_, fun program parsed => ?_, fun e refused => ?_⟩
  · filter_upwards [goes] with depth goes
    rw [goes, answered, stands]
  · obtain ⟨read, ⟨finish, stops⟩, -, knew⟩ := Parse.of_ok parsed
    rw [show p.known = _ from knew]
    refine knows (by rw [read]; rfl) ?_
    rw [stops]
    rfl
  · rw [← position_of_error gives within ((congrArg Prod.fst answered).trans refused), stands]

end Pull

/-- A parser that asks for tokens one by one asks for each of them once. Whatever procedures are known and
whatever a lexer held before, it ends, and with the result of `parse`. It has then made some calls for the
next token, each of which but the last one gave a token that can be read, so that none came after the end of
the text; these are the tokens that the journal is told of. A text that is parsed has been taken up to its
end; one that is refused has been taken up to the place of the error. And a rule that succeeds has asked for
at least one token, however deep it was let go and wherever it began. -/
theorem parse_asks_once (known : Procedures) (held : Lexer) (text : String) :
    let l := held.load text
    let p := parse known text
    (∃ enough count s,
      (∀ depth, enough ≤ depth → Pull.parse depth l known = some (p.result, s)) ∧
      s.lexer = l.after (count + 1) ∧ s.calls = (List.range (count + 1)).map l.token ∧
      (∀ n < count, ∃ t : Token, l.token n = t.lexed) ∧
      p.events.filter Event.isToken = s.calls.map Lexed.event ∧
      (∀ program, p.result = .ok program →
        l.token count = .endOfText (.behind text.toUTF8.toList) ∧ s.known = p.known) ∧
      ∀ e, p.result = .error e → (l.token count).position = e.position) ∧
    ∀ depth, (Pull.rules depth).Consume ∧ Pull.Takes (Pull.definition depth) := by
  intro l p
  refine ⟨?_, fun depth => ⟨Pull.rules_consume depth, Pull.takes_definition depth⟩⟩
  have gives : l.Gives (Scan.ofText text) := Lexer.load_gives held text
  obtain ⟨few, known', goes, knows, stops⟩ := Pull.parse_feeds gives known
  rw [← parse_eq] at few goes knows stops
  obtain ⟨enough, goes⟩ := eventually_atTop.1 goes
  have inside := Nat.sub_le (Scan.ofText text).tokens.length p.unread
  refine ⟨enough, _, _, goes, rfl, rfl, fun n early => ?_, ?_, fun program parsed => ⟨?_, knows _ parsed⟩,
    stops⟩
  · have token : n < (Scan.ofText text).tokens.length := Nat.lt_of_lt_of_le early inside
    refine ⟨(Scan.ofText text).tokens[n], ?_⟩
    rw [gives n (Nat.le_of_lt token), List.getElem?_eq_getElem token]
    rfl
  · have scanned : p.scan = Scan.ofText text := by
      rw [show p = _ from parse_eq known text]
      exact Parse.scan_of _ _
    rw [gives.calls inside, Parse.filter_events p (scanned ▸ few), scanned]
  · have parsed' : (Parse.of _ (Grammar.program known _)).result = .ok program := parsed
    obtain ⟨-, ⟨finish, ends⟩, all, -⟩ := Parse.of_ok parsed'
    rw [show (parse known text).unread = 0 from all, Nat.sub_zero]
    have ended : l.token (Scan.ofText text).tokens.length = .endOfText finish := by
      rw [gives _ (Nat.le_refl _), List.getElem?_eq_none (Nat.le_refl _), ends]
      rfl
    rw [ended, ← Lexer.load_ends ended]

end Logo
