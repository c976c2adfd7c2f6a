import CorpusQuery.Proofs.Arena.Heap

/-!
What an edit of an arena does, step by step: the cells before, the value that it gives, and the
cells after. Every step is shown to succeed, so that no edit fails half-way.
-/

namespace CorpusQuery

open EditM (look peek)

/-- On every arena that holds `h`, the edit succeeds with `x` and leaves `h'`. -/
def ArenaM.Does {α : Type} (m : ArenaM α) (n : NodeId) (h : Heap) (x : α) (n' : NodeId)
    (h' : Heap) : Prop :=
  ∀ a : Arena, a.Holds n h → ∃ a', m a = .ok x a' ∧ a'.Holds n' h'

namespace ArenaM.Does

variable {α β : Type} {n n' n'' : NodeId} {h h' h'' : Heap} {x : α} {y : β}

theorem pure : Does (Pure.pure x : ArenaM α) n h x n h :=
  fun a ha => ⟨a, rfl, ha⟩

theorem bind {m : ArenaM α} {f : α → ArenaM β} (hm : Does m n h x n' h')
    (hf : Does (f x) n' h' y n'' h'') : Does (m >>= f) n h y n'' h'' := by
  intro a ha
  obtain ⟨a', hx, ha'⟩ := hm a ha
  obtain ⟨a'', hy, ha''⟩ := hf a' ha'
  exact ⟨a'', EditM.bind_eq_ok.mpr ⟨x, a', hx, hy⟩, ha''⟩

/-- Reads change nothing. -/
theorem look {view : Arena → Except BuilderError α} (hview : ∀ a, a.Holds n h → view a = .ok x) :
    Does (EditM.look view) n h x n h := by
  intro a ha
  exact ⟨a, by simp only [EditM.look, hview a ha], ha⟩

theorem peek {view : Arena → α} (hview : ∀ a, a.Holds n h → view a = x) :
    Does (EditM.peek view) n h x n h :=
  look fun a ha => by rw [hview a ha]

theorem step {f : Arena → Arena} (hf : ∀ a, a.Holds n h → (f a).Holds n' h') :
    Does (modify f : ArenaM Unit) n h () n' h' :=
  fun a ha => ⟨f a, rfl, hf a ha⟩

/-- The cells may be listed in another order. -/
theorem reorder {m : ArenaM α} {k k' : Heap} (hm : Does m n h x n' h') (hk : k = h)
    (hk' : h' = k') : Does m n k x n' k' := by
  subst hk hk'
  exact hm

/-- No two cells of a heap have the same number. -/
theorem of_nodup {m : ArenaM α} (hm : h.ids.Nodup → Does m n h x n' h') : Does m n h x n' h' :=
  fun a ha => hm ha.nodup a ha

section Steps

variable {i o : NodeId} {p q : Option NodeId} {g : GroupCell} {c : Constraint} {e : Entry}

theorem group (hi : (i, ⟨p, .group g⟩) ∈ h) : Does (EditM.look (·.group i)) n h g n h :=
  look fun a ha => by simp only [Arena.group, (ha.cell?_eq_some_iff i _).mpr hi]

theorem entry (hi : (i, ⟨p, e⟩) ∈ h) : Does (EditM.look (·.entry i)) n h e n h :=
  look fun a ha => by simp only [Arena.entry, (ha.cell?_eq_some_iff i _).mpr hi]

theorem parent? (hi : (i, ⟨p, e⟩) ∈ h) : Does (EditM.peek (·.parent? i)) n h p n h :=
  peek fun a ha => by
    simp only [Arena.parent?, (ha.cell?_eq_some_iff i _).mpr hi, Option.bind_some]

theorem modifyGroup (f : GroupCell → GroupCell) :
    Does (ArenaM.modifyGroup i f) n ({(i, ⟨p, .group g⟩)} + h) () n
      ({(i, ⟨p, .group (f g)⟩)} + h) :=
  bind (group (p := p) (g := g) (by simp)) <| step fun a ha => by
    simp only [Arena.setEntry, ha.cell?]
    exact ha.setCell _

theorem modifyConstraint (f : Constraint → Constraint) :
    Does (ArenaM.modifyConstraint i f) n ({(i, ⟨p, .leaf c⟩)} + h) () n
      ({(i, ⟨p, .leaf (f c)⟩)} + h) := by
  refine bind (x := c) (look fun a ha => by simp only [Arena.constraint, ha.cell?]) ?_
  exact step fun a ha => by
    simp only [Arena.setEntry, ha.cell?]
    exact ha.setCell _

theorem setParent : Does (modify (·.setParent i q)) n ({(i, ⟨p, e⟩)} + h) () n
    ({(i, ⟨q, e⟩)} + h) :=
  step fun a ha => by
    simp only [Arena.setParent, ha.cell?]
    exact ha.setCell _

theorem new (e : Entry) : Does (ArenaM.new e) n h n (n + 1) ({(n, ⟨none, e⟩)} + h) := by
  intro a ha
  refine ⟨a.insert e, ?_, ha.insert e⟩
  simp only [ArenaM.new, ha.next_eq]

theorem remove {d : Cell} : Does (modify (·.remove i)) n ({(i, d)} + h) () n h :=
  step fun _ ha => ha.remove

theorem drop {d : Cell} :
    Does (ArenaM.drop o i) n ({(o, ⟨p, .group g⟩)} + {(i, d)} + h) () n
      ({(o, ⟨p, .group (g.without i)⟩)} + h) := by
  refine bind ((modifyGroup (g := g) (p := p) (h := {(i, d)} + h) (·.without i)).reorder
    (by abel) rfl) ?_
  exact (remove (d := d)).reorder (by abel) rfl

end Steps

end ArenaM.Does

end CorpusQuery
