import Mathlib.Algebra.Order.Group.Multiset
import Mathlib.Tactic.Abel
import CorpusQuery.Builder.Regroup
import CorpusQuery.Draft.Context

/-!
What an arena holds, as a multiset of numbered cells. Trees spell their cells out, and an edit of
an arena is described by the cells that it finds and the cells that it leaves; whatever else the
arena holds is carried along.
-/

namespace CorpusQuery

abbrev Heap := Multiset (NodeId × Cell)

namespace Heap

def ids (h : Heap) : Multiset NodeId := h.map Prod.fst

@[simp] theorem ids_add (h k : Heap) : ids (h + k) = ids h + ids k := Multiset.map_add ..

@[simp] theorem ids_singleton (id : NodeId) (c : Cell) : ids {(id, c)} = {id} := rfl

@[simp] theorem ids_zero : ids 0 = 0 := rfl

theorem nodup_left {h k : Heap} (hnodup : (h + k).ids.Nodup) : h.ids.Nodup := by
  rw [ids_add] at hnodup
  exact Multiset.nodup_of_le (Multiset.le_add_right _ _) hnodup

theorem nodup_right {h k : Heap} (hnodup : (h + k).ids.Nodup) : k.ids.Nodup := by
  rw [ids_add] at hnodup
  exact Multiset.nodup_of_le (Multiset.le_add_left _ _) hnodup

end Heap

/-- The next free number, and the cells that are taken. -/
structure Arena.Holds (a : Arena) (next : NodeId) (h : Heap) : Prop where
  next_eq : a.next = next
  nodup : h.ids.Nodup
  cell?_eq_some_iff : ∀ id c, a.cell? id = some c ↔ (id, c) ∈ h

namespace Arena.Holds

variable {a : Arena} {n id : NodeId} {c : Cell} {h : Heap}

theorem cell? (ha : a.Holds n ({(id, c)} + h)) : a.cell? id = some c :=
  (ha.cell?_eq_some_iff id c).mpr (by simp)

theorem reorder {k : Heap} (ha : a.Holds n h) (hk : h = k) : a.Holds n k :=
  hk ▸ ha

theorem empty : Arena.empty.Holds 0 0 := by
  refine ⟨rfl, by simp, fun id c => ?_⟩
  simp [Arena.cell?, Arena.empty]

theorem not_mem_rest (ha : a.Holds n ({(id, c)} + h)) : id ∉ Heap.ids h := by
  have hnodup := ha.nodup
  rw [Heap.ids_add, Heap.ids_singleton, Multiset.singleton_add, Multiset.nodup_cons] at hnodup
  exact hnodup.1

theorem not_mem_of_fst (ha : a.Holds n ({(id, c)} + h)) (d : Cell) : (id, d) ∉ h :=
  fun hmem => ha.not_mem_rest (Multiset.mem_map_of_mem Prod.fst hmem)

theorem cell?_eq_none (ha : a.Holds n h) (hid : id ∉ Heap.ids h) : a.cell? id = none := by
  rw [Option.eq_none_iff_forall_ne_some]
  intro c hc
  exact hid (Multiset.mem_map_of_mem Prod.fst ((ha.cell?_eq_some_iff id c).mp hc))

theorem lt_of_mem_ids (ha : a.Holds n h) (hid : id ∈ Heap.ids h) : id < n := by
  obtain ⟨⟨_, c⟩, hmem, rfl⟩ := Multiset.mem_map.mp hid
  rw [← ha.next_eq]
  exact lt_next_of_contains (by simp [contains, (ha.cell?_eq_some_iff _ c).mpr hmem])

theorem not_mem_ids (ha : a.Holds n h) : n ∉ Heap.ids h :=
  fun hmem => Nat.lt_irrefl n (ha.lt_of_mem_ids hmem)

theorem insert (ha : a.Holds n h) (e : Entry) :
    (a.insert e).Holds (n + 1) ({(n, ⟨none, e⟩)} + h) := by
  refine ⟨by simp [ha.next_eq], ?_, fun id c => ?_⟩
  · rw [Heap.ids_add, Heap.ids_singleton, Multiset.singleton_add, Multiset.nodup_cons]
    exact ⟨ha.not_mem_ids, ha.nodup⟩
  · rw [cell?_insert, ha.next_eq, Multiset.mem_add, Multiset.mem_singleton,
      ← ha.cell?_eq_some_iff]
    split
    next heq =>
      subst heq
      simp [ha.cell?_eq_none ha.not_mem_ids, eq_comm]
    next hne => simp [hne]

theorem setCell (ha : a.Holds n ({(id, c)} + h)) (c' : Cell) :
    (a.setCell id c').Holds n ({(id, c')} + h) := by
  refine ⟨by rw [next_setCell, ha.next_eq],
    by simpa only [Heap.ids_add, Heap.ids_singleton] using ha.nodup, fun j d => ?_⟩
  rw [cell?_setCell (by simp [contains, ha.cell?]), Multiset.mem_add, Multiset.mem_singleton]
  split
  next heq =>
    subst heq
    simp [ha.not_mem_of_fst d, eq_comm]
  next hne => simp [ha.cell?_eq_some_iff, hne]

theorem remove (ha : a.Holds n ({(id, c)} + h)) : (a.remove id).Holds n h := by
  refine ⟨by rw [next_remove, ha.next_eq], Heap.nodup_right ha.nodup, fun j d => ?_⟩
  rw [cell?_remove]
  split
  next heq =>
    subst heq
    simp [ha.not_mem_of_fst d]
  next hne => simp [ha.cell?_eq_some_iff, hne]

end Arena.Holds

end CorpusQuery
