import CorpusQuery.Proofs.Cql
import CorpusQuery.Proofs.Query.Spelled

/-! A text that holds a query is loaded, and the builder shows the query. -/

namespace CorpusQuery

theorem Settings.readQuery_eq_ok {s : Settings} {text : Text} {q : Query}
    (hq : Query.parse s.defaultAttribute text = .ok (some q)) :
    s.readQuery (some text) = .ok (some q) := by
  have hblank : ¬ Text.allBlank text := fun h => Query.not_parse_of_allBlank h q hq
  rw [readQuery, if_neg hblank, hq]
  rfl

theorem Draft.ofTokens_ne_nil {s : Settings} {ts : List Token} (h : ts ≠ []) (next : NodeId) :
    ofTokens s ts next ≠ [] := by
  cases ts with
  | nil => exact absurd rfl h
  | cons t rest => simp [ofTokens]

/-- What was there before does not matter. -/
theorem Builder.exists_apply_parse (b : Builder) {text : Text} {q : Query}
    (hq : Query.parse b.settings.defaultAttribute text = .ok (some q)) :
    ∃ b', b.apply (.parse (some text)) = (.ok .nothing, b') ∧
      b'.Shows b.settings (Slot.nextAfterAll b.settings q.tokens 0)
        (.ofQuery b.settings (some q)) := by
  have hspelled := Query.ensures_parse _ _ _ hq q rfl
  obtain ⟨b', hx, hb'⟩ := BuilderM.Does.populate_some b fun t ht => (hspelled.tokens t ht).bounds
  have hlook : EditM.look (fun b => b.settings.readQuery (some text)) b = .ok (some q) b :=
    EditM.look_eq_ok (Settings.readQuery_eq_ok hq)
  have hparse : BuilderM.apply (.parse (some text)) b = .ok .nothing b' :=
    (EditM.bind_congr (EditM.bind_apply hlook)).trans (EditM.bind_apply hx)
  exact ⟨b', by rw [apply, hparse], hb'⟩

namespace Builder.Shows

variable {b : Builder} {s : Settings} {n : NodeId} {d : Draft}

theorem apply_parse (hb : b.Shows s n d) {text : Text} {q : Query}
    (hq : Query.parse s.defaultAttribute text = .ok (some q)) :
    ∃ n' b', b.apply (.parse (some text)) = (.ok .nothing, b') ∧
      b'.Shows s n' (.ofQuery s (some q)) := by
  obtain rfl := hb.settings_eq
  exact ⟨_, b.exists_apply_parse hq⟩

/-- What is written of a builder that has loaded a query. -/
theorem cql?_ofQuery {q : Query} (hb : b.Shows s n (.ofQuery s (some q))) (hq : q.tokens ≠ []) :
    b.cql? = .ok (some (joinTokens
      (((Draft.ofTokens s q.tokens 0).map (Slot.mapRoot Group.term?)).map Slot.text)
      (q.within.filter (!·.isEmpty)))) :=
  hb.cql?_eq (Draft.ofTokens_ne_nil hq 0)

end Builder.Shows

end CorpusQuery
