import CorpusQuery.Check
import CorpusQuery.Proofs.Outline
import CorpusQuery.Proofs.Reading

/-!
What the modes of a check say about one text. They look at it in two ways: the text is read, or it
is put into a builder. The ways differ in what they take for white space.
-/

namespace CorpusQuery

/-- All modes say the same of a text: that it is none, that it is one, or what is wrong with it. -/
inductive CheckMode.Agree (verdict : CheckMode → Except CheckError CheckResult) : Prop where
  | empty (h : ∀ mode, verdict mode = .ok .empty)
  | accepted (hvalidity : verdict .validity = .ok .valid)
      (hast : ∃ json, verdict .ast = .ok (.ast json))
      (hnormalize : ∃ cql, verdict .normalize = .ok (.cql cql))
      (htree : ∃ outline, verdict .tree = .ok (.tree outline))
  | refused (error : CheckError) (h : ∀ mode, verdict mode = .error error)

/-- Modes of the two ways that answer differently do not agree. -/
theorem CheckMode.not_agree {verdict : CheckMode → Except CheckError CheckResult}
    {error : CheckError} {result : CheckResult} (hvalidity : verdict .validity = .error error)
    (hnormalize : verdict .normalize = .ok result) : ¬ Agree verdict := by
  intro hagree
  cases hagree with
  | empty h => cases (h .validity).symm.trans hvalidity
  | accepted h => cases h.symm.trans hvalidity
  | refused error h => cases (h .normalize).symm.trans hnormalize

/-- White space throughout, though not all of it is white space between symbols. -/
def Text.OddlyBlank (text : Text) : Prop :=
  Text.allBlank text ∧ ∃ c ∈ text, isLayout c = false

/-- The nodes of a builder can always be shown. -/
theorem Builder.Shows.exists_outline {b : Builder} {s : Settings} {n : NodeId} {d : Draft}
    (hb : b.Shows s n d) : ∃ outline, b.outline = .ok outline := by
  obtain ⟨lines, houtline, -⟩ := hb.readable.outline
  exact ⟨_, houtline⟩

/-- A text that is not blank and cannot be read is refused with what is wrong with it. -/
theorem Builder.apply_parse_eq_error {b : Builder} {text : Text} {e : ParseError}
    (hblank : ¬ Text.allBlank text)
    (he : Query.parse b.settings.defaultAttribute text = .error e) :
    b.apply (.parse (some text)) = (.error (.parse e), b) := by
  have hread : b.settings.readQuery (some text) = .error (.parse e) := by
    rw [Settings.readQuery, if_neg hblank, he]
    rfl
  have hlook : EditM.look (fun b => b.settings.readQuery (some text)) b = .error (.parse e) b :=
    EditM.look_eq_error hread
  have hfail : BuilderM.apply (.parse (some text)) b = .error (.parse e) b :=
    EditM.bind_eq_error (EditM.bind_eq_error hlook)
  rw [apply, hfail]

/-! ### The modes on one text -/

namespace CheckMode

variable {s : Settings} {query : Text} (pretty : Bool)

theorem build_of_allBlank (view : Builder → Except BuilderError CheckResult)
    (hblank : Text.allBlank query) : build view s query = .ok .empty :=
  if_pos hblank

theorem agree_of_gap (hgap : Grammar.Gap query) : Agree fun mode => mode.run pretty s query := by
  have hparse := hgap.parse_eq_ok s.defaultAttribute
  refine .empty fun mode => ?_
  cases mode with
  | validity | ast => simp only [run, inspect, hparse]
  | normalize | tree => exact build_of_allBlank _ hgap.allBlank

theorem agree_of_query {q : Query} (hq : Query.parse s.defaultAttribute query = .ok (some q)) :
    Agree fun mode => mode.run pretty s query := by
  have hblank : ¬ Text.allBlank query := fun h => Query.not_parse_of_allBlank h q hq
  obtain ⟨n, b, happly, hb⟩ := (Builder.new_shows s).apply_parse hq
  -- Nothing that is read lacks tokens, so that there is a text for it.
  have hcql := hb.cql?_ofQuery (Query.ensures_parse _ _ _ hq q rfl).tokens_ne
  obtain ⟨outline, houtline⟩ := hb.exists_outline
  apply Agree.accepted
  · simp only [run, inspect, hq]
  · simp only [run, inspect, hq]
    exact ⟨_, rfl⟩
  · simp only [run, build, if_neg hblank, happly, normalized, hcql]
    exact ⟨_, rfl⟩
  · simp only [run, build, if_neg hblank, happly, outlined, houtline]
    exact ⟨_, rfl⟩

theorem agree_of_error {e : ParseError} (hblank : ¬ Text.allBlank query)
    (he : Query.parse s.defaultAttribute query = .error e) :
    Agree fun mode => mode.run pretty s query := by
  have hsettings : (Builder.new s).settings = s := (Builder.new_shows s).settings_eq
  have happly := Builder.apply_parse_eq_error (b := Builder.new s) hblank (by rw [hsettings, he])
  refine .refused (.parse e) fun mode => ?_
  cases mode with
  | validity | ast => simp only [run, inspect, he]
  | normalize | tree =>
    simp only [run, build, if_neg hblank, happly]
    rfl

/-- Read, the text is no query and not blank either; a builder is not even tried. -/
theorem run_of_oddlyBlank (h : query.OddlyBlank) : ∃ e,
    (∀ mode ∈ [validity, ast], mode.run pretty s query = .error (.parse e)) ∧
      ∀ mode ∈ [normalize, tree], mode.run pretty s query = .ok .empty := by
  obtain ⟨hblank, c, hc, hsolid⟩ := h
  cases hparse : Query.parse s.defaultAttribute query with
  | ok q? =>
    cases q? with
    | some q => exact absurd hparse (Query.not_parse_of_allBlank hblank q)
    | none =>
      -- A text is read as nothing only if all of it is white space between symbols.
      have hgap := (Grammar.ensures_parse _ _ _ hparse).1 rfl
      rw [hgap c hc] at hsolid
      cases hsolid
  | error e =>
    refine ⟨e, ?_, ?_⟩
    · simp [run, inspect, hparse]
    · simp [run, build, hblank]

theorem run_agree_iff : (Agree fun mode => mode.run pretty s query) ↔ ¬ query.OddlyBlank := by
  constructor
  · intro hagree hodd
    obtain ⟨e, hread, hbuilt⟩ := run_of_oddlyBlank pretty (s := s) hodd
    exact not_agree (hread .validity (by simp)) (hbuilt .normalize (by simp)) hagree
  · intro hodd
    cases hparse : Query.parse s.defaultAttribute query with
    | ok q? =>
      cases q? with
      | some q => exact agree_of_query pretty hparse
      | none => exact agree_of_gap pretty ((Grammar.ensures_parse _ _ _ hparse).1 rfl)
    | error e =>
      by_cases hblank : Text.allBlank query
      · -- A blank text that is not odd is white space between symbols, and that is read as nothing.
        have hgap : Grammar.Gap query := by
          intro c hc
          by_contra hsolid
          exact hodd ⟨hblank, c, hc, Bool.eq_false_iff.mpr hsolid⟩
        exact agree_of_gap pretty hgap
      · exact agree_of_error pretty hblank hparse

end CheckMode

/-- The modes say the same of every text, with whatever settings, but of one that is white space
throughout and not only between symbols: to read it fails, and to build it finds nothing. -/
theorem check_agree_iff (pretty : Bool) (source : SettingsSource) (query : Text) :
    ((CheckMode.Agree fun mode => check mode pretty source query) ↔
        ¬ ((∃ s, source.load = .ok s) ∧ query.OddlyBlank)) ∧
      ((∃ s, source.load = .ok s) → query.OddlyBlank → ∃ e,
        (∀ mode ∈ [.validity, .ast], check mode pretty source query = .error (.parse e)) ∧
          ∀ mode ∈ [.normalize, .tree], check mode pretty source query = .ok .empty) := by
  unfold check
  cases source.load with
  | error e => simpa using CheckMode.Agree.refused (.settings e) fun _ => rfl
  | ok s =>
    have hiff : (CheckMode.Agree fun mode => mode.run pretty s query) ↔ ¬ query.OddlyBlank :=
      CheckMode.run_agree_iff pretty
    refine ⟨by simpa using hiff, fun _ hodd => ?_⟩
    exact CheckMode.run_of_oddlyBlank pretty hodd

theorem check_agree_iff_blanks :
    (CheckMode.Agree fun mode => check mode true .standard [' ', '\n']) ∧
      (∃ s, SettingsSource.standard.load = .ok s) ∧ Text.OddlyBlank [' ', '\u3000'] ∧
      check .tree true .standard [' ', '\u3000'] = .ok .empty := by
  have hload : ∃ s, SettingsSource.standard.load = .ok s := ⟨_, rfl⟩
  have hodd : Text.OddlyBlank [' ', '\u3000'] := ⟨by decide, '\u3000', by decide, by decide⟩
  refine ⟨(check_agree_iff true .standard _).1.mpr ?_, hload, hodd, ?_⟩
  · rintro ⟨-, -, c, hc, hsolid⟩
    simp only [List.mem_cons, List.not_mem_nil, or_false] at hc
    rcases hc with rfl | rfl <;> cases hsolid
  · obtain ⟨e, -, hbuilt⟩ := (check_agree_iff true .standard _).2 hload hodd
    exact hbuilt .tree (by simp)

/-- A space that does not break is white space, but not between symbols. -/
theorem check_noBreakSpace :
    check .validity false .standard ['\u00a0'] =
        .error (.parse (.expected [['"']] '\u00a0' 0)) ∧
      check .normalize false .standard ['\u00a0'] = .ok .empty ∧
      ¬ CheckMode.Agree fun mode => check mode false .standard ['\u00a0'] := by
  have hvalidity : check .validity false .standard ['\u00a0'] =
      .error (.parse (.expected [['"']] '\u00a0' 0)) := by decide +kernel
  have hnormalize : check .normalize false .standard ['\u00a0'] = .ok .empty := by decide +kernel
  exact ⟨hvalidity, hnormalize, CheckMode.not_agree hvalidity hnormalize⟩

end CorpusQuery
