import CorpusQuery.Proofs.Query.Reading

/-!
Reading a query comes to its end. Nothing but the text limits a reading as it is recorded; each call
and each turn of a loop uses some of the text up, so that there are no more of them than twice the
number of characters, but for a few. What is read is what the parser gives.
-/

namespace CorpusQuery

/-- A turn of the loop over an expression, and what is left of the loop. -/
theorem Parser.chain_of_accept? {next : Cursor → Except ParseError (Expr × Cursor)} {turns : Nat}
    {left : Expr} {c behind : Cursor} {symbol : Text}
    (h : c.accept? .skip [['&'], ['|']] = some (symbol, behind)) :
    chain next (turns + 1) left c =
      (next behind >>= fun x =>
        .ok (.binary (if symbol = ['&'] then .and else .or) left x.1, x.2)) >>= fun x =>
      chain next turns x.1 x.2 := by
  rw [chain, h]
  dsimp only
  cases next behind <;> rfl

/-- The bounds of a repetition, with the mark behind them. -/
def Parser.marked (c : Cursor) : Except ParseError ((Option Repeats × Bool) × Cursor) :=
  repeats c >>= fun x => .ok ((x.1, (mark ['?'] x.2).1), (mark ['?'] x.2).2)

theorem Parser.token_eq (default : Text) (c : Cursor) :
    token default c =
      (tagAt ['<'] c.skipLayout >>= fun leading =>
        body default leading.2 >>= fun e =>
        marked e.2 >>= fun x =>
        tagAt ['<', '/'] x.2.skipLayout >>= fun trailing =>
        .ok (⟨leading.1, trailing.1, e.1, x.1.2, x.1.1⟩, trailing.2)) := by
  unfold token
  cases tagAt ['<'] c.skipLayout with
  | error e => rfl
  | ok leading =>
    change (body default leading.2 >>= _) = (body default leading.2 >>= _)
    cases body default leading.2 with
    | error e => rfl
    | ok e =>
      change (repeats e.2 >>= _) = ((repeats e.2 >>= _) >>= _)
      cases repeats e.2 <;> rfl

theorem Parser.map_items_succ {α : Type} {default : Text} {turns : Nat} {c : Cursor}
    {f : List Item → α} (hmore : ¬ c.skipLayout.atEnd) :
    (items default (turns + 1) c).map f = item default c.skipLayout >>= fun x =>
      (items default turns x.2).map fun rest => f (x.1 :: rest) := by
  rw [items, if_neg hmore]
  cases item default c.skipLayout with
  | error e => rfl
  | ok x =>
    change (items default turns x.2 >>= _).map f = (items default turns x.2).map _
    cases items default turns x.2 <;> rfl

theorem Query.foldl_add (q : Query) (items : List Parser.Item) :
    items.foldl add q =
      ⟨q.tokens ++ items.filterMap Parser.Item.token?,
        (items.filterMap Parser.Item.within?).getLast?.or q.within⟩ := by
  induction items generalizing q with
  | nil => simp
  | cons item items ih =>
    rw [List.foldl_cons, ih]
    cases item with
    | token t => simp [add, Parser.Item.token?, Parser.Item.within?]
    | within name =>
      simp [add, List.filterMap_cons, Parser.Item.token?, Parser.Item.within?, List.getLast?_cons]

theorem Query.map_parse {default text : Text} (last : Cursor)
    (hmore : ¬ (Cursor.start text).skipLayout.atEnd) :
    ((parse default text).map fun q? => (q?, last)) =
      Parser.token default (Cursor.start text).skipLayout >>= fun x =>
        ((Parser.items default x.2.rest.length x.2).map fun items =>
          (items.foldl add ⟨[x.1], none⟩, last)) >>= fun y => .ok (some y.1, y.2) := by
  have hfold : ∀ (first : Token) (items : List Parser.Item),
      ofItems first items = items.foldl add ⟨[first], none⟩ := by
    simp [ofItems, foldl_add]
  simp only [← hfold]
  rw [parse, if_neg hmore]
  cases Parser.token default (Cursor.start text).skipLayout with
  | error e => rfl
  | ok x =>
    change (Parser.items default x.2.rest.length x.2 >>= _).map _ =
      (Parser.items default x.2.rest.length x.2).map _ >>= _
    cases Parser.items default x.2.rest.length x.2 <;> rfl

namespace Grammar

theorem Constraint.two_le_length {t : Text} {e : Expr} (h : Constraint t e) : 2 ≤ t.length := by
  cases h
  simp only [List.length_append, List.length_cons, List.length_nil]
  omega

theorem Within.two_le_length {t name : Text} (h : Within t name) : 2 ≤ t.length := by
  obtain ⟨rest, rfl⟩ := h.exists_eq
  rw [List.length_append, Parser.withinSymbol]
  simp only [List.length_cons]
  omega

end Grammar

/-- The place behind a text. -/
def Cursor.endOf (text : Text) : Cursor := ⟨text.length, []⟩

theorem Cursor.In.eq_endOf {text : Text} {c : Cursor} (h : c.In text) (hend : c.atEnd) :
    c = endOf text := by
  obtain ⟨offset, rest⟩ := c
  obtain rfl : rest = [] := List.isEmpty_iff.mp hend
  have hlength := h.offset_add_length
  simpa [endOf] using hlength

namespace Reading

variable {α β : Type} {text : Text} {levels : Nat} {r : Reading}

/-! ### Expressions -/

theorem follows_constraint :
    Follows text 3 1 levels Parser.constraint (during .constraint (reads Parser.constraint)) :=
  follows_during_reads .constraint (fun _ hin => Parser.located_constraint hin)
    Grammar.ensures_constraint fun _ _ ht => ht.two_le_length

section Chains

variable {next : Cursor → Except ParseError (Expr × Cursor)}

theorem runs_link (hnext : Follows text 1 2 levels next Part.operand.read) (left : Expr)
    {symbol : Text} {behind : Cursor} (hin : r.cursor.In text)
    (hlevels : r.depth + levels = Parser.maxNesting)
    (haccept : r.cursor.accept? .skip [['&'], ['|']] = some (symbol, behind)) :
    Runs text 2 1 r
      (next behind >>= fun x =>
        .ok (.binary (if symbol = ['&'] then .and else .or) left x.1, x.2))
      ((Part.link left symbol behind).read r) := by
  have hbehind := (hin.accept? haccept).1
  have hlt := Cursor.length_lt_of_accept? (by simp) haccept
  rw [Part.read]
  refine .during hin (by omega) (fun _ => by omega) fun r₁ hcursor hdepth => ?_
  rw [modify_bind]
  refine .moved 1 (hcursor ▸ hlt) ?_
  refine .bind (hnext (r₁.goTo behind) hbehind (hdepth ▸ hlevels)) (by omega) ?_
  intro right r₂ hr₂ _ _
  exact .pure _ hr₂ (by omega)

theorem runs_links (hnext : Follows text 1 2 levels next Part.operand.read) (turns : Nat)
    (left : Expr) (hin : r.cursor.In text) (hlevels : r.depth + levels = Parser.maxNesting)
    (hturns : r.cursor.rest.length ≤ turns) :
    Runs text 0 1 r (Parser.chain next turns left r.cursor) ((Part.links left).read r) := by
  -- On the turns that the parser counts out. When none is left, nor is any text, and the reading,
  -- which counts nothing, finds no connective either.
  induction turns generalizing left r with
  | zero =>
    have haccept : r.cursor.accept? .skip [['&'], ['|']] = none := by
      cases haccept : r.cursor.accept? .skip [['&'], ['|']] with
      | none => rfl
      | some taken =>
        have hlt := Cursor.length_lt_of_accept? (by simp) haccept
        omega
    rw [Part.read, get_bind, haccept]
    exact .pure left hin le_rfl
  | succ turns ih =>
    rw [Part.read, get_bind]
    cases haccept : r.cursor.accept? .skip [['&'], ['|']] with
    | none =>
      rw [Parser.chain, haccept]
      exact .pure left hin (by omega)
    | some taken =>
      obtain ⟨symbol, behind⟩ := taken
      rw [Parser.chain_of_accept? haccept]
      refine .bind (runs_link hnext left hin hlevels haccept) le_rfl ?_
      intro joined r₁ hr₁ hdepth hpaid
      exact (ih joined hr₁ (by omega) (by omega)).mono (by omega) (by omega)

theorem follows_expression (hnext : Follows text 1 2 levels next Part.operand.read) :
    Follows text 0 3 levels (Parser.chainOf next) Part.expression.read := by
  rw [Part.read]
  refine .during .expression (fun _ => by omega) fun r hin hlevels => ?_
  refine .bind (hnext r hin hlevels) (by omega) fun first r₁ hr₁ hdepth _ => ?_
  exact (runs_links hnext _ first hr₁ (hdepth ▸ hlevels) le_rfl).mono (by omega) (by omega)

end Chains

section Parentheses

variable {inParentheses : Nat → Cursor → Except ParseError (Expr × Cursor)}

theorem follows_operand_of
    (hnested : ∀ position,
      Follows text 0 3 levels (inParentheses position) (Part.enclosed position).read) :
    Follows text 1 2 levels (Parser.operand inParentheses) Part.operand.read := by
  rw [Part.read]
  refine .during .operand (fun _ => by omega) fun r hin hlevels => ?_
  rw [Parser.operand]
  refine .skipLayout ?_
  rw [get_bind]
  refine .accept (by simp) hin.skipLayout (fun inside haccept hinside => ?_) fun haccept => ?_
  · simp only [goTo] at haccept
    simp only [haccept]
    exact (hnested _ ((r.goTo _).goTo inside) hinside hlevels).mono (by omega) (by omega)
  · simp only [goTo] at haccept
    simp only [haccept]
    exact (follows_constraint (r.goTo _) hin.skipLayout hlevels).mono (by omega) (by omega)

theorem follows_enclosed_of_full (position : Nat) :
    Follows text 0 3 0 (fun _ => .error (.tooDeeplyNested Parser.maxNesting position))
      (Part.enclosed position).read := by
  intro r hin hlevels
  have hfull : nest position r =
      some (.error (.tooDeeplyNested Parser.maxNesting position), r) := by
    rw [nest, if_pos (by omega)]
  rw [Part.read, bind_of_error hfull]
  exact .fail _ (by omega) (by omega)

theorem follows_enclosed {next : Cursor → Except ParseError (Expr × Cursor)}
    (hnext : Follows text 1 2 levels next Part.operand.read) (position : Nat) :
    Follows text 0 3 (levels + 1)
      (fun c => Parser.chainOf next c >>= fun x =>
        x.2.expect .skip [[')']] >>= fun y => .ok (x.1, y.2))
      (Part.enclosed position).read := by
  intro r hin hlevels
  have hnest : nest position r = some (.ok (), { r with depth := r.depth + 1 }) := by
    rw [nest, if_neg (by omega)]
  -- The parenthesis is closed in front of the result; `nested` wants that to come last.
  have hsteps : (do
      let e ← Part.expression.read
      let _ ← expect [')']
      unnest
      return e : ReadM Expr) = (do
      let e ← Part.expression.read
      let _ ← expect [')']
      return e) >>= fun e => unnest >>= fun _ => Pure.pure e := by
    simp only [bind_assoc, pure_bind]
  rw [Part.read, bind_of_ok hnest, hsteps]
  refine .nested ?_
  have hlevels' : r.depth + 1 + levels = Parser.maxNesting := by omega
  refine .bind (follows_expression hnext { r with depth := r.depth + 1 } hin hlevels') le_rfl ?_
  intro e r₁ hr₁ hdepth _
  dsimp only at hdepth
  refine .bind (.expect [')'] (by simp) hr₁ (by omega)) (by omega) fun _ r₂ hr₂ _ _ => ?_
  exact .pure e hr₂ (by omega)

end Parentheses

theorem follows_operand (levels : Nat) :
    Follows text 1 2 levels (Parser.operandWithin levels) Part.operand.read := by
  -- On how much deeper parentheses may nest; that is what the parser goes down by, too.
  induction levels with
  | zero => exact follows_operand_of follows_enclosed_of_full
  | succ levels ih => exact follows_operand_of fun position => follows_enclosed ih position

/-! ### Tokens -/

theorem follows_tag : Follows text 3 1 levels Parser.tag (during .tag (reads Parser.tag)) :=
  follows_during_reads .tag (fun _ hin => Parser.located_tag hin) Grammar.ensures_tag
    fun _ _ ht => ht.two_le_length

theorem follows_tagAt (symbol : Text) :
    Follows text 0 1 levels (Parser.tagAt symbol) (tagAt symbol) := by
  intro r hin hlevels
  rw [tagAt, get_bind, Parser.tagAt]
  split
  next =>
    refine .bind (follows_tag r hin hlevels) le_rfl fun t r₁ hr₁ _ _ => ?_
    exact .pure _ hr₁ (by omega)
  next => exact .pure none hin le_rfl

theorem quotedRest_length (c : Cursor) :
    Ensures (Parser.quotedRest .skip c) fun x => x.2.rest.length + 1 ≤ c.rest.length := by
  unfold Parser.quotedRest
  refine c.ensures_upToUnescaped_append.bind ?_
  rintro ⟨value, c₁⟩ ⟨hvalue, -⟩
  refine (c₁.ensures_expect ['"']).bind ?_
  rintro ⟨_, c₂⟩ hclose
  refine .ok ?_
  have hlength := hclose.length_le
  dsimp only at hvalue hlength ⊢
  rw [hvalue, List.length_append]
  exact hlength.trans (Nat.le_add_left _ _)

theorem follows_body (default : Text) :
    Follows text 4 1 Parser.maxNesting (Parser.body default) (body default) := by
  intro r hin hlevels
  rw [body, Parser.body]
  refine .accept (by simp) hin (fun c haccept hc => ?_) fun haccept => ?_
  · simp only [haccept]
    refine .accept (by simp) hc (fun c' haccept' hc' => ?_) fun haccept' => ?_
    · simp only [goTo] at haccept'
      simp only [haccept']
      exact .pure none hc' (by omega)
    · simp only [goTo] at haccept'
      simp only [haccept']
      refine .bind (follows_expression (follows_operand _) (r.goTo c) hc hlevels) (by omega) ?_
      intro e r₁ hr₁ hdepth _
      refine .bind (.expect [']'] (by simp) hr₁ ?_) (by omega) fun _ r₂ hr₂ _ _ => ?_
      · simp only [goTo] at hdepth
        omega
      · exact .pure (some e) hr₂ (by omega)
  · simp only [haccept]
    refine .bind (.reads (·.expect .keep [['"']]) 1 (by omega) (hin.expect .keep _) ?_)
      (by omega) ?_
    · intro x hx
      rw [Cursor.ensures_expect_keep _ _ x hx]
      exact le_rfl
    · intro _ r₁ hr₁ hdepth _
      refine .bind (.reads (Parser.quotedRest .skip) 1 (by omega)
        (Parser.located_quotedRest hr₁ _) (quotedRest_length _)) (by omega) ?_
      intro word r₂ hr₂ _ _
      exact .pure _ hr₂ (by omega)

theorem follows_repetition :
    Follows text (-1) 1 levels Parser.marked repetition := by
  rw [repetition]
  refine .during .repetition (fun hne => absurd rfl hne) fun r hin hlevels => ?_
  refine .bind (.reads Parser.repeats 0 (by omega) (Parser.located_repeats hin) ?_) (by omega) ?_
  · intro x hx
    obtain ⟨t, -, hpassed⟩ := Grammar.ensures_repeats _ x hx
    have hlength := hpassed.took.length_le
    omega
  intro repeats r₁ hr₁ hdepth _
  have hmark : Runs text 0 0 r₁ (.ok (Parser.mark ['?'] r₁.cursor))
      (reads (fun c => .ok (Parser.mark ['?'] c)) r₁) := by
    refine .reads (fun c => .ok (Parser.mark ['?'] c)) 0 (by omega) (.ok (Parser.mark_in hr₁ _)) ?_
    obtain ⟨t, -, -, -, hpassed⟩ := Grammar.mark_sound r₁.cursor
    have hlength := hpassed.took.length_le
    exact .ok (by omega)
  change Runs text _ _ r₁
    (.ok (Parser.mark ['?'] r₁.cursor) >>= fun x => .ok ((repeats, x.1), x.2)) _
  refine .bind hmark (by omega) fun optional r₂ hr₂ _ _ => ?_
  exact .pure (repeats, optional) hr₂ (by omega)

theorem follows_token (default : Text) :
    Follows text 2 2 Parser.maxNesting (Parser.token default) (token default) := by
  rw [token]
  refine .during .token (fun _ => by omega) fun r hin hlevels => ?_
  rw [Parser.token_eq]
  refine .skipLayout ?_
  refine .bind (follows_tagAt ['<'] (r.goTo _) hin.skipLayout hlevels) (by omega) ?_
  intro leading r₁ hr₁ (hdepth₁ : r₁.depth = r.depth) _
  rw [← hdepth₁] at hlevels
  refine .bind (follows_body default r₁ hr₁ hlevels) (by omega) ?_
  intro e r₂ hr₂ hdepth₂ _
  rw [← hdepth₂] at hlevels
  refine .bind (follows_repetition r₂ hr₂ hlevels) (by omega) ?_
  intro x r₃ hr₃ hdepth₃ _
  rw [← hdepth₃] at hlevels
  refine .skipLayout ?_
  refine .bind (follows_tagAt ['<', '/'] (r₃.goTo _) hr₃.skipLayout hlevels) (by omega) ?_
  intro trailing r₄ hr₄ _ _
  exact .pure _ hr₄ (by omega)

/-! ### Queries -/

theorem follows_within :
    Follows text 3 1 levels Parser.within (during .within (reads Parser.within)) :=
  follows_during_reads .within (fun _ hin => Parser.located_within hin) Grammar.ensures_within
    fun _ _ ht => ht.two_le_length

theorem follows_item (default : Text) :
    Follows text 1 3 Parser.maxNesting (Parser.item default) (item default) := by
  rw [item]
  refine .during .item (fun _ => by omega) fun r hin hlevels => ?_
  rw [get_bind, Parser.item]
  split
  next =>
    refine .bind (follows_within r hin hlevels) (by omega) fun name r₁ hr₁ _ _ => ?_
    exact .pure _ hr₁ (by omega)
  next =>
    refine .bind (follows_token default r hin hlevels) (by omega) fun t r₁ hr₁ _ _ => ?_
    exact .pure _ hr₁ (by omega)

/-- Each item uses text up, so that the turns last to the end. -/
theorem runs_readOn (default : Text) (turns : Nat) (q : Query) (hin : r.cursor.In text)
    (hlevels : r.depth + Parser.maxNesting = Parser.maxNesting)
    (hturns : r.cursor.rest.length ≤ turns) :
    Runs text 0 3 r
      ((Parser.items default turns r.cursor).map fun items =>
        (items.foldl Query.add q, .endOf text))
      (q.readOn default r) := by
  have hskip := hin.skipLayout
  have hshort : r.cursor.skipLayout.rest.length ≤ r.cursor.rest.length :=
    (List.dropWhile_suffix isLayout).length_le
  induction turns generalizing r q with
  | zero =>
    have hend : r.cursor.skipLayout.atEnd := by
      rw [Cursor.atEnd, List.isEmpty_iff, ← List.length_eq_zero_iff]
      omega
    rw [Query.readOn, Parser.items]
    refine .skipLayout ?_
    rw [get_bind, if_pos (by exact hend), ← hskip.eq_endOf hend]
    exact .pure q hskip (by omega)
  | succ turns ih =>
    rw [Query.readOn]
    refine .skipLayout ?_
    rw [get_bind]
    by_cases hend : r.cursor.skipLayout.atEnd
    · rw [Parser.items, if_pos hend, if_pos (by exact hend), ← hskip.eq_endOf hend]
      exact .pure q hskip (by omega)
    · rw [Parser.map_items_succ hend, if_neg (by exact hend)]
      refine .bind (follows_item default (r.goTo _) hskip hlevels) le_rfl ?_
      intro next r₁ hr₁ (hdepth : r₁.depth = r.depth) hpaid
      simp only [goTo] at hpaid
      have hrest := ih (q.add next) hr₁ (by omega) (by omega) hr₁.skipLayout
        (List.dropWhile_suffix isLayout).length_le
      exact hrest.mono (by omega) (by omega)

theorem runs_query (default : Text) (hcursor : r.cursor = .start text)
    (hlevels : r.depth + Parser.maxNesting = Parser.maxNesting) :
    Runs text 0 3 r ((Query.parse default text).map fun q? => (q?, .endOf text))
      (query default r) := by
  have hskip : r.cursor.skipLayout.In text := hcursor ▸ (Cursor.start_in text).skipLayout
  rw [query]
  refine .skipLayout ?_
  rw [get_bind]
  by_cases hend : r.cursor.skipLayout.atEnd
  · rw [Query.parse, ← hcursor, if_pos hend, if_pos (by exact hend), ← hskip.eq_endOf hend]
    exact .pure none hskip (by omega)
  · rw [if_neg (by exact hend), Query.map_parse _ (hcursor ▸ hend), ← hcursor]
    refine .bind (follows_token default (r.goTo _) hskip hlevels) (by omega) ?_
    intro first r₁ hr₁ hdepth _
    refine .bind (runs_readOn default r₁.cursor.rest.length _ hr₁ (hdepth ▸ hlevels) le_rfl)
      (by omega) fun q r₂ hr₂ _ _ => ?_
    exact .pure (some q) hr₂ (by omega)

/-- What is on record when a reading has come to its end with `result`. -/
structure Finished (text : Text) (result : Except ParseError α) (last : Reading) : Prop where
  depth_le : last.depth ≤ Parser.maxNesting
  /-- All that was opened is closed, and all of the text has been read. -/
  reads_all : ∀ x, result = .ok x → last.depth = 0 ∧ last.cursor = .endOf text
  /-- The first failure is the end: whatever called what failed fails with the same error, and so
  does the reading. -/
  exists_events : ∃ events failures, last.events = events ++ failures ∧
    (∀ event ∈ events, event.Sound) ∧ ∀ event ∈ failures, ∃ e, result = .error e ∧ event.FailsWith e
  tasks_le : tasks last.events ≤ 2 * text.length + 3

theorem Runs.exists_finished {result : Except ParseError α} {m : ReadM α}
    (h : Runs text 0 3 (start text) (result.map fun x => (x, .endOf text)) (m (start text))) :
    ∃ last, m (start text) = some (result, last) ∧ last.Finished text result := by
  generalize hout : m (start text) = out at h
  have hlength : (start text).cursor.rest.length = text.length := rfl
  cases result with
  | ok x =>
    cases h with
    | ok _ c events hin hsound hpaid =>
      refine ⟨_, rfl, Nat.zero_le _, fun _ _ => ⟨rfl, rfl⟩, ⟨events, [], ?_, hsound, by simp⟩, ?_⟩
      · simp [start]
      · simp only [start, List.nil_append]
        omega
  | error e =>
    cases h with
    | error _ last events failures hdepth hlast hsound hfails hpaid =>
      have hnone := tasks_eq_zero_of_failsWith hfails
      rw [start, List.nil_append] at hlast
      refine ⟨_, rfl, hdepth, by simp, ⟨events, failures, hlast, hsound, ?_⟩, ?_⟩
      · exact fun event hmem => ⟨e, rfl, hfails event hmem⟩
      · rw [hlast, tasks_append]
        omega

end Reading

/-- Reading a query comes to an end, and gives what the parser gives. Each call and each turn that
is over on the way has used text up and closed the parentheses it opened, of which there are never
too many; the first failure ends the reading; and there are no more calls and turns than twice the
characters of the text, and three. -/
theorem Query.reading_ends (default text : Text) :
    ∃ last, Reading.query default (.start text) = some (parse default text, last) ∧
      last.Finished text (parse default text) :=
  (Reading.runs_query default rfl (Nat.zero_add _)).exists_finished

end CorpusQuery
