import CorpusQuery.Draft.Sketch
import CorpusQuery.Proofs.Rewriting

/-!
Loading a query flattens its expressions: a chain of one connective becomes one group. The nodes are
numbered in the order in which they are made, so that what is written last comes first.
-/

namespace CorpusQuery

namespace Node

@[simp] theorem sketches_append (ms ns : List Node) :
    sketches (ms ++ ns) = sketches ms ++ sketches ns := by
  induction ms with
  | nil => rfl
  | cons m rest ih => simp [sketches, ih]

@[simp] theorem idsBackwardAll_append (ms ns : List Node) :
    idsBackwardAll (ms ++ ns) = idsBackwardAll ns ++ idsBackwardAll ms := by
  induction ms with
  | nil => simp [idsBackwardAll]
  | cons m rest ih => simp [idsBackwardAll, ih]

end Node

namespace Expr

theorem sketches_nodes (s : Settings) (e : Expr) (around : Connective) (next : NodeId) :
    Node.sketches (e.nodes s around next).1 = e.flat s around := by
  induction e generalizing around next with
  | constraint name equality written =>
    rw [nodes, flat]
    cases s.constraint? name equality written <;> rfl
  | binary operator left right ihl ihr =>
    rw [nodes, flat]
    split <;> simp [Node.sketches, Node.sketch, ihl, ihr]

/-- The numbers of the new nodes go on where the last ones ended, the right operand first. -/
theorem range_nodes (s : Settings) (e : Expr) (around : Connective) (next : NodeId) :
    List.range next ++ Node.idsBackwardAll (e.nodes s around next).1 =
      List.range (e.nodes s around next).2 := by
  induction e generalizing around next with
  | constraint name equality written =>
    rw [nodes]
    cases s.constraint? name equality written with
    | none => simp [Node.idsBackwardAll]
    | some c => simp [Node.idsBackwardAll, Node.idsBackward, List.range_succ]
  | binary operator left right ihl ihr =>
    -- The operands come one after the other, behind the group if there is a new one.
    have hoperands : ∀ first, List.range first ++
        Node.idsBackwardAll ((left.nodes s operator (right.nodes s operator first).2).1 ++
          (right.nodes s operator first).1) =
        List.range (left.nodes s operator (right.nodes s operator first).2).2 := fun first => by
      rw [Node.idsBackwardAll_append, ← List.append_assoc, ihr, ihl]
    rw [nodes]
    split
    next => exact hoperands next
    next =>
      rw [← hoperands (next + 1), List.range_succ]
      simp [Node.idsBackwardAll, Node.idsBackward]

end Expr

namespace Slot

theorem sketch_rootOf (s : Settings) (t : Token) (next : NodeId) :
    (rootOf s t next).node.sketch = t.sketch s := by
  rw [rootOf, Token.sketch]
  cases t.expression with
  | none => rfl
  | some e =>
    have hflat := e.sketches_nodes s (e.connective?.getD s.rootOperator) (next + 1)
    cases e with
    | constraint name equality written =>
      exact congrArg (Sketch.group s.rootOperator) hflat
    | binary operator left right =>
      have htop : (Expr.binary operator left right).flat s operator =
          left.flat s operator ++ right.flat s operator := by
        rw [Expr.flat, if_pos rfl]
      exact congrArg (Sketch.group operator) (hflat.trans htop)

theorem range_rootOf (s : Settings) (t : Token) (next : NodeId) :
    List.range next ++ (rootOf s t next).node.idsBackward = List.range (nextAfter s t next) := by
  rw [rootOf, nextAfter]
  cases t.expression with
  | none => exact List.range_succ.symm
  | some e =>
    rw [← e.range_nodes, List.range_succ, List.append_assoc]
    rfl

end Slot

namespace Draft

theorem map_sketch_ofTokens (s : Settings) (ts : List Token) (next : NodeId) :
    (ofTokens s ts next).map (·.root.node.sketch) = ts.map (Token.sketch s) := by
  induction ts generalizing next with
  | nil => rfl
  | cons t rest ih =>
    rw [ofTokens, List.map_cons, List.map_cons, ih]
    exact congrArg (· :: _) (Slot.sketch_rootOf s t next)

theorem range_ofTokens (s : Settings) (ts : List Token) (next : NodeId) :
    List.range next ++ (ofTokens s ts next).flatMap (·.root.node.idsBackward) =
      List.range (Slot.nextAfterAll s ts next) := by
  induction ts generalizing next with
  | nil => simp [ofTokens, Slot.nextAfterAll]
  | cons t rest ih =>
    rw [ofTokens, Slot.nextAfterAll, List.flatMap_cons, ← ih, ← Slot.range_rootOf s t next,
      List.append_assoc]
    rfl

end Draft

namespace Builder

/-- What is there once a query is loaded, whatever was there before. All numbers that are given out
are in use: token by token, a group before what it holds, and its last child first. -/
theorem populate_flattens (b : Builder) (q : Query) (hq : ∀ t ∈ q.tokens, t.bounds.isValid) :
    ∃ b' trees, b.apply (.populate (some q)) = (.ok .nothing, b') ∧
      b'.slots.length = q.tokens.length ∧
      b'.slots.mapM (fun t => b'.tree t.root) = .ok trees ∧
      trees.map Node.sketch = q.tokens.map (Token.sketch b.settings) ∧
      trees.flatMap Node.idsBackward = List.range b'.arena.next := by
  have hfault : ∀ t ∈ q.tokens, t.fault? = none := fun t ht => by
    simpa [Token.fault?, Repeats.isValid] using hq t ht
  obtain ⟨b', hpopulate, hb'⟩ := BuilderM.Does.populate_some b hfault
  have happly : BuilderM.apply (.populate (some q)) b = .ok .nothing b' :=
    EditM.bind_apply hpopulate
  have htrees : b'.slots.mapM (fun t => b'.tree t.root) = .ok _ :=
    hb'.mapM_slots fun t ht => hb'.tree_eq ht
  have hsketches := Draft.map_sketch_ofTokens b.settings q.tokens 0
  have hrange := Draft.range_ofTokens b.settings q.tokens 0
  refine ⟨b', _, by rw [apply, happly], ?_, htrees, ?_, ?_⟩
  · simpa [hb'.slots_eq, Draft.ofQuery] using congrArg List.length hsketches
  · rw [List.map_map]
    exact hsketches
  · rw [List.flatMap_map, hb'.holds.next_eq]
    exact hrange

/-- The query `[(word = "a" | word = "b") | (tag = "t" & word = "c")] []` without an attribute
`tag`. -/
theorem populate_flattens_chain :
    let word (value : Text) : Expr := .constraint ['w', 'o', 'r', 'd'] .equal value
    let tag : Expr := .constraint ['t', 'a', 'g'] .equal ['t']
    let leaf (value : Text) : Sketch :=
      .leaf ⟨['w', 'o', 'r', 'd'], .equal, false, .text value, none⟩
    let q : Query := ⟨[⟨none, none, some (.binary .or (.binary .or (word ['a']) (word ['b']))
      (.binary .and tag (word ['c']))), false, none⟩, ⟨none, none, none, true, none⟩], none⟩
    (∀ t ∈ q.tokens, t.bounds.isValid) ∧ ∃ b' trees,
      (Builder.new .standard).apply (.populate (some q)) = (.ok .nothing, b') ∧
      b'.slots.mapM (fun t => b'.tree t.root) = .ok trees ∧
      trees.map Node.sketch =
        [.group .or [leaf ['a'], leaf ['b'], .group .and [leaf ['c']]], .group .and []] ∧
      trees.flatMap Node.idsBackward = List.range b'.arena.next := by
  intro word tag leaf q
  have hq : ∀ t ∈ q.tokens, t.bounds.isValid := by decide
  obtain ⟨b', trees, happly, -, htrees, hsketches, hids⟩ :=
    populate_flattens (Builder.new .standard) q hq
  exact ⟨hq, b', trees, happly, htrees, hsketches, hids⟩

end Builder

end CorpusQuery
