import CorpusQuery.Proofs.Reload

/-!
What is written behind a token of how often it may stand in a row. It is read on its own, whatever
the token constrains, and loaded as bounds that admit the same numbers and are written as they were.
-/

namespace CorpusQuery

namespace Slot

/-- A token that any word fits, as often as `t`. -/
def anyWord {ρ : Type} (t : Slot ρ) : Slot (Option Term) :=
  ⟨none, t.repeats, t.optional, false, false⟩

theorem text_anyWord {ρ : Type} (t : Slot ρ) : t.anyWord.text = ['[', ']'] ++ t.suffix := by
  simp [anyWord, text, cqlAround, suffix]

/-- A token without an expression is read wherever its bounds are valid. -/
theorem parse_anyWord {ρ : Type} {t : Slot ρ} (ht : ∀ max ∈ t.repeats.max, t.repeats.min ≤ max)
    (default : Text) :
    Query.parse default (['[', ']'] ++ t.suffix) = .ok (some ⟨[t.anyWord.token], none⟩) := by
  have hbounds : t.repeats.exceeded? = none := by
    simpa [Repeats.isValid] using t.repeats.isValid_iff.mpr ht
  have hreadable : t.anyWord.Readable := by
    constructor
    · intro u hu
      cases hu
    · exact hbounds
  have hshallow : t.anyWord.Shallow := by
    intro u hu
    cases hu
  have hjoin : joinTokens ([t.anyWord].map text) none = ['[', ']'] ++ t.suffix := by
    rw [← t.text_anyWord]
    simp [joinTokens, withinText]
  have hparse : GivesIf (∀ u ∈ [t.anyWord], u.Shallow)
      (Query.parse default (joinTokens ([t.anyWord].map text) none))
      (some ⟨[t.anyWord].map token, none⟩) :=
    Query.givesIf_parse (List.cons_ne_nil _ _) (by simpa using hreadable) (by simp) default
  rw [hjoin] at hparse
  exact hparse.gives (by simpa using hshallow)

end Slot

namespace Builder

/-- Behind empty brackets, what is written of a repetition is read as one token that nothing else
is said of. A builder that loads it admits the same numbers, and writes the same text. -/
theorem suffix_roundTrip {ρ : Type} (t : Slot ρ)
    (ht : ∀ max ∈ t.repeats.max, t.repeats.min ≤ max) :
    let text := ['[', ']'] ++ t.suffix
    (∃ optional repeats, ∀ default,
      Query.parse default text = .ok (some ⟨[⟨none, none, none, optional, repeats⟩], none⟩)) ∧
    ∀ b : Builder, ∃ b' t', b.apply (.parse (some text)) = (.ok .nothing, b') ∧
      b'.slots = [t'] ∧ (∀ n, t'.Admits n ↔ t.Admits n) ∧ b'.tokenCql 0 = .ok text := by
  intro text
  have hparse := Slot.parse_anyWord ht
  refine ⟨⟨_, _, hparse⟩, fun b => ?_⟩
  obtain ⟨b', happly, hb'⟩ := b.exists_apply_parse (hparse b.settings.defaultAttribute)
  let loaded := Slot.ofToken b.settings t.anyWord.token 0
  have hslots : b'.slots = [loaded.mapRoot Group.id] := hb'.slots_eq
  have hwritten : (loaded.mapRoot Group.term?).text = text :=
    (Slot.text_ofToken rfl).trans t.text_anyWord
  have hadmits : ∀ n, (loaded.mapRoot Group.id).Admits n ↔ t.Admits n := fun n =>
    Slot.admits_ofToken (s := b.settings) t.anyWord 0 n
  refine ⟨b', _, happly, hslots, hadmits, ?_⟩
  have htoken : b'.token 0 = .ok (loaded.mapRoot Group.id) := by
    rw [token, hslots]
    rfl
  rw [tokenCql, htoken, ← hwritten]
  exact hb'.slotCql_eq List.mem_cons_self

/-- Between two and 4294967295 times, or not at all. -/
theorem suffix_roundTrip_longest :
    let t : Slot NodeId := ⟨0, ⟨2, some 4294967295⟩, true, false, false⟩
    let text := ['[', ']'] ++ t.suffix
    (∀ max ∈ t.repeats.max, t.repeats.min ≤ max) ∧
      text = ['[', ']', '{', '2', ',', '4', '2', '9', '4', '9', '6', '7', '2', '9', '5', '}', '?'] ∧
      ∃ b t', (Builder.new .standard).apply (.parse (some text)) = (.ok .nothing, b) ∧
        b.slots = [t'] ∧ t'.Admits 0 ∧ ¬ t'.Admits 1 ∧ t'.Admits 4294967295 := by
  intro t text
  have ht : ∀ max ∈ t.repeats.max, t.repeats.min ≤ max := by simp [t]
  obtain ⟨b, t', happly, hslots, hadmits, -⟩ := (suffix_roundTrip t ht).2 (Builder.new .standard)
  refine ⟨ht, by decide, b, t', happly, hslots, ?_⟩
  simp only [hadmits]
  simp [t, Slot.Admits, Repeats.Admits]

end Builder

end CorpusQuery
