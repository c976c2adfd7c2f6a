import CorpusQuery.Builder.Refusal
import CorpusQuery.Proofs.Query.Spelled

/-!
An edit that fails leaves the builder as it was, and it fails just where the builder refuses it. So
nothing fails half-way: whatever an edit does after its first look at the builder succeeds.
-/

namespace CorpusQuery

theorem Repeats.exceeded?_ne_none {r : Repeats} :
    r.exceeded? ≠ none ↔ ∃ max ∈ r.max, max < r.min := by
  simp [Ne, exceeded?_eq_none]

theorem Token.fault?_ne_none {t : Token} :
    t.fault? ≠ none ↔ ∃ max ∈ t.bounds.max, max < t.bounds.min := by
  rw [← Repeats.exceeded?_ne_none, fault?, Ne, Option.map_eq_none_iff]

namespace Slot

variable {ρ : Type} {slots : List (Slot ρ)} {index : Nat}

theorem get_eq_error_iff : (∃ e, get slots index = .error e) ↔ slots.length ≤ index := by
  unfold get
  cases h : slots[index]? with
  | none => simpa using List.getElem?_eq_none_iff.mp h
  | some t => simpa using (List.getElem?_eq_some_iff.mp h).1

theorem set_eq_error_iff {f : Slot ρ → Slot ρ} :
    (∃ e, set slots index f = .error e) ↔ slots.length ≤ index := by
  rw [← get_eq_error_iff]
  unfold set
  cases get slots index <;> simp [Bind.bind, Except.bind, Pure.pure, Except.pure]

theorem move_eq_error_iff {target : Nat} :
    (∃ e, move slots index target = .error e) ↔ slots.length ≤ index ∨ slots.length ≤ target := by
  rw [← get_eq_error_iff, ← get_eq_error_iff]
  unfold move
  cases get slots index <;> cases get slots target <;>
    simp [Bind.bind, Except.bind, Pure.pure, Except.pure]

theorem setRepeats_eq_error_iff {r : Repeats} : (∃ e, setRepeats slots index r = .error e) ↔
    slots.length ≤ index ∨ ∃ max ∈ r.max, max < r.min := by
  rw [← Repeats.exceeded?_ne_none]
  unfold setRepeats
  split
  next top h => simp [h]
  next h =>
    rw [set_eq_error_iff]
    simp [h]

end Slot

namespace Settings

variable {s : Settings} {pattern : Option Text}

theorem readQuery_eq_error_iff : (∃ e, s.readQuery pattern = .error e) ↔
    ∃ text ∈ pattern, Text.allBlank text = false ∧
      ∃ e, Query.parse s.defaultAttribute text = .error e := by
  cases pattern with
  | none => simp [readQuery]
  | some text =>
    cases hblank : Text.allBlank text <;> cases hparse : Query.parse s.defaultAttribute text <;>
      simp [readQuery, hblank, hparse, Except.mapError]

/-- A text with bounds that cross is not read in the first place. -/
theorem fault?_of_readQuery {query : Option Query} (h : s.readQuery pattern = .ok query) :
    ∀ q, query = some q → ∀ t ∈ q.tokens, t.fault? = none := by
  rintro q rfl t ht
  cases pattern with
  | none => cases h
  | some text =>
    cases hparse : Query.parse s.defaultAttribute text with
    | error e => cases hblank : Text.allBlank text <;> simp [readQuery, hblank, hparse, Except.mapError] at h
    | ok read =>
      cases hblank : Text.allBlank text with
      | true => simp [readQuery, hblank] at h
      | false =>
        obtain rfl : read = some q := by simpa [readQuery, hblank, hparse, Except.mapError] using h
        exact ((Query.ensures_parse _ _ _ hparse q rfl).tokens t ht).bounds

end Settings

namespace BuilderM

open EditM (bind_apply bind_eq_error look_eq_error look_eq_ok)

/-- The edit fails on the builder and leaves it alone if `P`, and succeeds if not. -/
def FailsIff {α : Type} (m : BuilderM α) (b : Builder) (P : Prop) : Prop :=
  P ∧ (∃ e, m b = .error e b) ∨ ¬ P ∧ ∃ x b', m b = .ok x b'

namespace FailsIff

variable {α β : Type} {m : BuilderM α} {s : Settings} {n : NodeId} {d : Draft} {b : Builder}
  {P : Prop}

theorem never {x : α} {b' : Builder} (h : m b = .ok x b') : FailsIff m b False :=
  .inr ⟨id, x, b', h⟩

/-- Edits are told by what they bring into being; that does not fail. -/
theorem returning (f : α → β) (h : FailsIff m b P) :
    FailsIff (do return f (← m)) b P :=
  h.imp (And.imp_right fun ⟨e, he⟩ => ⟨e, bind_eq_error he⟩)
    (And.imp_right fun ⟨x, b', hx⟩ => ⟨f x, b', bind_apply hx⟩)

theorem onSlots {F : List (Slot NodeId) → Except BuilderError (List (Slot NodeId))}
    (hF : (∃ e, F b.slots = .error e) ↔ P) : FailsIff (onSlots F) b P := by
  cases h : F b.slots with
  | error e => exact .inl ⟨hF.mp ⟨e, h⟩, e, bind_eq_error (look_eq_error h)⟩
  | ok slots =>
    refine .inr ⟨fun hP => ?_, (), { b with slots }, ?_⟩
    · obtain ⟨e, he⟩ := hF.mpr hP
      rw [he] at h
      cases h
    · have hlook : EditM.look (fun b => F b.slots) b = .ok slots b := look_eq_ok h
      exact bind_apply hlook

theorem onArena_eq_error {m : ArenaM α} {e : BuilderError} (h : m b.arena = .error e b.arena) :
    BuilderM.onArena m b = .error e b := by
  simp only [BuilderM.onArena, h]

theorem onArena_eq_ok {m : ArenaM α} {label : Connective → Text} {R : α → Group → Group → Prop}
    (h : m.Reshaped label b.arena d R) : ∃ x b', BuilderM.onArena m b = .ok x b' := by
  obtain ⟨_, _, _, _, _, x, a', -, -, hx, -⟩ := h
  exact ⟨x, { b with arena := a' }, by simp only [BuilderM.onArena, hx]⟩

/-- The edit hangs on the one thing that it looks for first. -/
theorem onArena {m : ArenaM α} {r : Except BuilderError β} (hP : P ↔ ∃ e, r = .error e)
    (herror : ∀ e, r = .error e → m b.arena = .error e b.arena)
    (hok : ∀ x, r = .ok x → ∃ y b', BuilderM.onArena m b = .ok y b') :
    FailsIff (BuilderM.onArena m) b P := by
  cases hr : r with
  | error e => exact .inl ⟨hP.mpr ⟨e, hr⟩, e, onArena_eq_error (herror e hr)⟩
  | ok x => exact .inr ⟨by simp [hP, hr], hok x hr⟩

theorem removeToken (index : Nat) : FailsIff (removeToken index) b (b.slots.length ≤ index) := by
  cases h : Slot.get b.slots index with
  | error e =>
    exact .inl ⟨Slot.get_eq_error_iff.mp ⟨e, h⟩, e, bind_eq_error (look_eq_error h)⟩
  | ok t =>
    have hlook : EditM.look (·.token index) b = .ok t b := look_eq_ok h
    refine .inr ⟨fun hle => ?_, _, _, bind_apply hlook⟩
    obtain ⟨e, he⟩ := Slot.get_eq_error_iff.mpr hle
    rw [he] at h
    cases h

theorem populate (hb : b.Shows s n d) (query : Option Query) : FailsIff (populate query) b
    (∃ q ∈ query, ∃ t ∈ q.tokens, ∃ max ∈ t.bounds.max, max < t.bounds.min) := by
  simp only [← Token.fault?_ne_none]
  by_cases hfault : ∃ q ∈ query, ∃ t ∈ q.tokens, t.fault? ≠ none
  · obtain ⟨q, rfl, t, ht, hne⟩ := hfault
    exact .inl ⟨⟨q, rfl, t, ht, hne⟩, populate_eq_error ht hne b⟩
  · refine .inr ⟨hfault, ?_⟩
    push Not at hfault
    obtain ⟨n', hpopulate⟩ := Does.populate (s := s) (n := n) (d := d) hfault
    obtain ⟨b', hx, -⟩ := hpopulate b hb
    exact ⟨(), b', hx⟩

theorem parse (hb : b.Shows s n d) (pattern : Option Text) : FailsIff (parse pattern) b
    (∃ text ∈ pattern, Text.allBlank text = false ∧
      ∃ e, Query.parse b.settings.defaultAttribute text = .error e) := by
  rw [← Settings.readQuery_eq_error_iff]
  cases hread : b.settings.readQuery pattern with
  | error e =>
    have hlook : EditM.look (fun b => b.settings.readQuery pattern) b = .error e b :=
      look_eq_error hread
    exact .inl ⟨⟨e, rfl⟩, e, bind_eq_error hlook⟩
  | ok query =>
    have hlook : EditM.look (fun b => b.settings.readQuery pattern) b = .ok query b :=
      look_eq_ok hread
    obtain ⟨n', hpopulate⟩ := Does.populate (s := s) (n := n) (d := d)
      (Settings.fault?_of_readQuery hread)
    obtain ⟨b', hx, -⟩ := hpopulate b hb
    exact .inr ⟨by simp, (), b', (bind_apply hlook).trans hx⟩

theorem createConstraint (hb : b.Shows s n d) (group : NodeId) (operator : Connective)
    (origin : Option NodeId) : FailsIff (createConstraint group operator origin) b
      (b.arena.LacksGroup group ∨
        ∃ child ∈ origin, ∃ children, b.children group = .ok children ∧ child ∉ children) := by
  have heq : BuilderM.createConstraint group operator origin b =
    BuilderM.onArena (ArenaM.createLeaf b.settings.operatorLabel (.blank b.settings.defaultAttribute)
      group operator origin) b := rfl
  rw [FailsIff, heq]
  cases hgroup : b.arena.group group with
  | error e =>
    exact .inl ⟨.inl (Arena.lacksGroup_iff.mpr ⟨e, hgroup⟩), e,
      onArena_eq_error (ArenaM.createLeaf_eq_error _ hgroup)⟩
  | ok g =>
    have hchildren : b.children group = .ok g.children := by
      simp only [Builder.children, Builder.group, hgroup]
      rfl
    by_cases horigin : ∃ child ∈ origin, child ∉ g.children
    · obtain ⟨child, rfl, hchild⟩ := horigin
      exact .inl ⟨.inr ⟨child, rfl, _, hchildren, hchild⟩, _,
        onArena_eq_error (ArenaM.createLeaf_eq_error_of_notMem _ hgroup hchild)⟩
    · refine .inr ⟨?_, onArena_eq_ok (.createLeaf _ b.settings (hb.settings_eq ▸ hb.holds) hgroup
        operator fun child hchild => ?_)⟩
      · rintro (hlacks | ⟨child, hchild, children, hg, hnot⟩)
        · obtain ⟨e, he⟩ := Arena.lacksGroup_iff.mp hlacks
          rw [he] at hgroup
          cases hgroup
        · rw [hchildren] at hg
          cases hg
          exact horigin ⟨child, hchild, hnot⟩
      · by_contra hnot
        exact horigin ⟨child, hchild, hnot⟩

theorem removeNode (hb : b.Shows s n d) (id : NodeId) :
    FailsIff (do BuilderM.onArena (ArenaM.removeNode (← get).settings.operatorLabel id)) b
      (¬ b.contains id ∨ ∃ t ∈ b.slots, t.root = id) := by
  have heq : (do BuilderM.onArena (ArenaM.removeNode (← get).settings.operatorLabel id)) b =
    BuilderM.onArena (ArenaM.removeNode b.settings.operatorLabel id) b := rfl
  rw [FailsIff, heq]
  cases hentry : b.arena.entry id with
  | error e =>
    exact .inl ⟨.inl (Arena.not_contains_iff.mpr ⟨e, hentry⟩), e,
      onArena_eq_error (ArenaM.removeNode_eq_error _ hentry)⟩
  | ok e =>
    by_cases hroot : ∃ t ∈ b.slots, t.root = id
    · obtain ⟨t, ht, rfl⟩ := hroot
      obtain ⟨g, hg, hisRoot, -⟩ := hb.rootsAgree.live t ht
      have hgroup : b.arena.entry t.root = .ok (.group g) :=
        Arena.entry_eq_ok.mpr (Arena.group_eq_ok.mp hg)
      exact .inl ⟨.inr ⟨t, ht, rfl⟩, _,
        onArena_eq_error (ArenaM.removeNode_eq_error_of_isRoot _ hgroup hisRoot)⟩
    · refine .inr ⟨?_, onArena_eq_ok (.removeNode _ b.settings (hb.settings_eq ▸ hb.holds) hentry
        fun g hg => ?_)⟩
      · rintro (hnot | hmem)
        · obtain ⟨e', he'⟩ := Arena.not_contains_iff.mp hnot
          rw [he'] at hentry
          cases hentry
        · exact hroot hmem
      · -- A group that is marked as a root is that of a token.
        by_contra hisRoot
        obtain ⟨t, ht, rfl⟩ := hb.rootsAgree.only id g
          (Arena.group_eq_ok.mpr (Arena.entry_eq_ok.mp (hg ▸ hentry)))
          (Bool.eq_true_of_not_eq_false hisRoot)
        exact hroot ⟨t, ht, rfl⟩

end FailsIff

variable {s : Settings} {n : NodeId} {d : Draft} {b : Builder}

theorem apply_failsIff (hb : b.Shows s n d) (e : Edit) : FailsIff (apply e) b (b.Refuses e) := by
  obtain rfl := hb.settings_eq
  cases e with
  | parse pattern => exact (FailsIff.parse hb pattern).returning _
  | populate query => exact (FailsIff.populate hb query).returning _
  | reset =>
    obtain ⟨b', h, -⟩ := Does.createToken [] none _ (Builder.shows_empty b.settings)
    have hreset : reset b = .ok () b' := bind_apply (f := fun _ => pure ()) h
    exact (FailsIff.never hreset).returning _
  | createToken =>
    obtain ⟨b', h, -⟩ := Does.createToken d.slots d.within b hb
    exact (FailsIff.never h).returning _
  | removeToken index => exact (FailsIff.removeToken index).returning _
  | moveToken source target => exact (FailsIff.onSlots Slot.move_eq_error_iff).returning _
  | setMark index mark value => exact (FailsIff.onSlots Slot.set_eq_error_iff).returning _
  | setRepeats index r => exact (FailsIff.onSlots Slot.setRepeats_eq_error_iff).returning _
  | setWithin name =>
    obtain ⟨b', h, -⟩ := Does.setWithin name b hb
    exact (FailsIff.never h).returning _
  | createConstraint group operator origin =>
    exact (FailsIff.createConstraint hb group operator origin).returning _
  | removeNode id => exact (FailsIff.removeNode hb id).returning _
  | setGroupOperator id operator =>
    refine (FailsIff.onArena Arena.lacksGroup_iff ?_ ?_).returning _
    · exact fun e h => ArenaM.setGroupOperator_eq_error _ h
    · exact fun g h => FailsIff.onArena_eq_ok (.setGroupOperator _ b.settings hb.holds h operator)
  | setField id field =>
    refine (FailsIff.onArena Arena.lacksConstraint_iff ?_ ?_).returning _
    · exact fun e h => ArenaM.modifyConstraint_eq_error h
    · exact fun c h => FailsIff.onArena_eq_ok (.modifyConstraint _ b.settings hb.holds h field)

end BuilderM

/-- What is not refused is done, and then it is a step of the draft. -/
theorem Builder.Shows.exists_step {b : Builder} {s : Settings} {n : NodeId} {d : Draft}
    (hb : b.Shows s n d) {e : Edit} (hrefuses : ¬ b.Refuses e) :
    ∃ o n' d' b', Draft.Step s n e o d d' ∧ b.apply e = (.ok o, b') ∧ b'.Shows s n' d' := by
  rcases BuilderM.apply_follows hb e with ⟨error, hfail⟩ | ⟨o, n', d', b', hstep, h, hb'⟩
  · -- The edit fails only if it is refused.
    rcases BuilderM.apply_failsIff hb e with ⟨hrefuses', -⟩ | ⟨-, o, b', h⟩
    · exact absurd hrefuses' hrefuses
    · rw [hfail] at h
      cases h
  · exact ⟨o, n', d', b', hstep, by rw [apply, h], hb'⟩

/-- Whatever a builder has been through, it fails on just those edits that it refuses, and a failed
edit changes nothing at all. -/
theorem Builder.run_failsIff (s : Settings) (edits : List Edit) (e : Edit) :
    ((∃ error, (((Builder.new s).run edits).apply e).1 = .error error) ↔
        ((Builder.new s).run edits).Refuses e) ∧
      ∀ error b', ((Builder.new s).run edits).apply e = (.error error, b') →
        b' = (Builder.new s).run edits := by
  obtain ⟨n, d, hb, -⟩ := Builder.run_shows (s := s) (P := fun _ => True) (Q := fun _ => True)
    trivial (fun _ _ _ _ _ _ _ _ => trivial) edits (by simp)
  rcases BuilderM.apply_failsIff hb e with ⟨hrefuses, error, h⟩ | ⟨hrefuses, o, b', h⟩
  · simp [apply, h, hrefuses, eq_comm]
  · simp [apply, h, hrefuses]

/-- A group is not a child of its own. -/
theorem Builder.run_failsIff_ownChild :
    let b := (Builder.new .standard).run [.createConstraint 1 .and none]
    let e := Edit.createConstraint 1 .or (some 1)
    (b.apply e).1 = .error (.notAChild 1 1) ∧ b.Refuses e ∧ (b.apply e).2 = b := by
  have hfail : (((Builder.new .standard).run [.createConstraint 1 .and none]).apply
      (.createConstraint 1 .or (some 1))).1 = .error (.notAChild 1 1) := by decide +kernel
  have h := Builder.run_failsIff .standard [.createConstraint 1 .and none]
    (.createConstraint 1 .or (some 1))
  exact ⟨hfail, h.1.mp ⟨_, hfail⟩, h.2 _ _ (Prod.ext hfail rfl)⟩

end CorpusQuery
