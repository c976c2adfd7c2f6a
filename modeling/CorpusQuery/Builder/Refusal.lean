import CorpusQuery.Builder.Edit

/-! What an edit needs to find in a builder; without it the builder refuses the edit. -/

namespace CorpusQuery

namespace Arena

/-- The number is that of no node, or that of a constraint. -/
def LacksGroup (a : Arena) (id : NodeId) : Prop :=
  ¬ a.contains id ∨ ∃ c, a.constraint id = .ok c

def LacksConstraint (a : Arena) (id : NodeId) : Prop :=
  ¬ a.contains id ∨ ∃ g, a.group id = .ok g

theorem lacksGroup_iff {a : Arena} {id : NodeId} :
    a.LacksGroup id ↔ ∃ e, a.group id = .error e := by
  unfold LacksGroup contains constraint group
  rcases a.cell? id with _ | ⟨parent, c | g⟩ <;> simp

theorem lacksConstraint_iff {a : Arena} {id : NodeId} :
    a.LacksConstraint id ↔ ∃ e, a.constraint id = .error e := by
  unfold LacksConstraint contains constraint group
  rcases a.cell? id with _ | ⟨parent, c | g⟩ <;> simp

theorem not_contains_iff {a : Arena} {id : NodeId} :
    ¬ a.contains id ↔ ∃ e, a.entry id = .error e := by
  unfold contains entry
  rcases a.cell? id with _ | ⟨parent, e⟩ <;> simp

end Arena

namespace Builder

/-- The edit names something that is not there, or asks for a lower bound above the upper one. -/
def Refuses (b : Builder) : Edit → Prop
  | .parse pattern => ∃ text ∈ pattern, Text.allBlank text = false ∧
      ∃ e, Query.parse b.settings.defaultAttribute text = .error e
  | .populate query => ∃ q ∈ query, ∃ t ∈ q.tokens, ∃ max ∈ t.bounds.max, max < t.bounds.min
  | .reset | .createToken | .setWithin _ => False
  | .removeToken index | .setMark index _ _ => b.slots.length ≤ index
  | .moveToken source target => b.slots.length ≤ source ∨ b.slots.length ≤ target
  | .setRepeats index r => b.slots.length ≤ index ∨ ∃ max ∈ r.max, max < r.min
  | .createConstraint group _ origin => b.arena.LacksGroup group ∨
      ∃ child ∈ origin, ∃ children, b.children group = .ok children ∧ child ∉ children
  | .removeNode id => ¬ b.contains id ∨ ∃ t ∈ b.slots, t.root = id
  | .setGroupOperator id _ => b.arena.LacksGroup id
  | .setField id _ => b.arena.LacksConstraint id

end Builder

end CorpusQuery
