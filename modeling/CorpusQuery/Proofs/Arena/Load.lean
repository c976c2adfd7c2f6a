import CorpusQuery.Draft.Load
import CorpusQuery.Proofs.Arena.Join

/-! The walk over an expression with a stack builds the tree that recursion builds. -/

namespace CorpusQuery

namespace ArenaM.Does

variable {s : Settings} {n n' : NodeId} {h h' : Heap}

/-- With the connective at hand, a group takes the operands itself. -/
theorem groupFor_same (k : Context) (g : Group) (level : Nat) :
    Does (ArenaM.groupFor s.operatorLabel g.id g.operator (level + 1)) n
      ((k.fill g).cells s.operatorLabel + h) g.id n ((k.fill g).cells s.operatorLabel + h) := by
  refine bind (group_fill s.operatorLabel k g) ?_
  rw [if_pos (show (g.cell s.operatorLabel k.isRoot).operator = g.operator from rfl)]
  exact pure

theorem groupFor_other (k : Context) (id : NodeId) (around operator : Connective)
    (children : List Node) (level : Nat) (hne : operator ≠ around) :
    Does (ArenaM.groupFor s.operatorLabel id operator (level + 1)) n
      ((k.fill ⟨id, around, children⟩).cells s.operatorLabel + h) n (n + 1)
      ((k.fill ⟨id, around, .group n operator [] :: children⟩).cells s.operatorLabel + h) := by
  refine bind (group_fill s.operatorLabel k _) ?_
  rw [if_neg (show (Group.cell s.operatorLabel k.isRoot ⟨id, around, children⟩).operator ≠ operator
    from Ne.symm hne)]
  refine bind (new _) (bind (x := ()) ?_ pure)
  refine (attach_fill s.operatorLabel k id around [] (.group n operator []) children).reorder ?_ rfl
  rw [Node.cells_group, Node.cellsAll_nil, List.map_nil, List.nil_append]
  abel

/-- What an expression adds to a group is there when the rest of the stack has its turn. -/
theorem load (e : Expr) (k : Context) (id : NodeId) (around : Connective) (children : List Node)
    (level : Nat) (rest : List (Expr × NodeId × Nat))
    (hrest : Does (ArenaM.load s rest) (e.nodes s around n).2
      ((k.fill ⟨id, around, (e.nodes s around n).1 ++ children⟩).cells s.operatorLabel + h) ()
      n' h') :
    Does (ArenaM.load s ((e, id, level + 1) :: rest)) n
      ((k.fill ⟨id, around, children⟩).cells s.operatorLabel + h) () n' h' := by
  induction e generalizing k id around children level rest n with
  | constraint name equality written =>
    rw [ArenaM.load]
    rw [Expr.nodes] at hrest
    cases hc : s.constraint? name equality written with
    | none =>
      rw [hc] at hrest
      exact bind pure hrest
    | some c =>
      rw [hc] at hrest
      refine bind (new (.leaf c)) (bind (x := ()) ?_ hrest)
      refine (attach_fill s.operatorLabel k id around [] (.leaf n c) children).reorder ?_ rfl
      rw [Node.cells, List.nil_append]
      abel
  | binary operator left right ihl ihr =>
    rw [ArenaM.load]
    rw [Expr.nodes] at hrest
    split at hrest
    next heq =>
      subst heq
      refine bind (groupFor_same k ⟨id, operator, children⟩ level) ?_
      refine ihr k id operator children (level + 1) _ ?_
      refine ihl k id operator _ (level + 1) rest ?_
      simpa only [List.append_assoc] using hrest
    next hne =>
      refine bind (groupFor_other k id around operator children level hne) ?_
      refine ihr (.under k id around [] children) n operator [] (level + 1) _ ?_
      refine ihl (.under k id around [] children) n operator _ (level + 1) rest ?_
      rw [List.append_nil]
      exact hrest

/-- A bare root takes an expression in. -/
theorem loadRoot (id : NodeId) (e : Expr) :
    Does (ArenaM.load s [(e, id, 0)]) n ((Group.bare s id).cells s.operatorLabel + h) ()
      (e.nodes s (e.connective?.getD s.rootOperator) n).2
      ((Group.ofExpr s id e n).cells s.operatorLabel + h) := by
  have hnil : ∀ n h, Does (ArenaM.load s []) n h () n h := fun n h => by
    rw [ArenaM.load]
    exact pure
  cases e with
  | constraint name equality written =>
    -- A leaf is put into the group at hand, whatever the level.
    have hlevel : ArenaM.load s [(.constraint name equality written, id, 0)] =
        ArenaM.load s [(.constraint name equality written, id, 1)] := by
      simp only [ArenaM.load]
    rw [hlevel]
    refine load _ .top id s.rootOperator [] 0 [] ?_
    rw [List.append_nil]
    exact hnil _ _
  | binary operator left right =>
    rw [ArenaM.load]
    refine bind (bind (retype s.operatorLabel .top (Group.bare s id) operator) pure) ?_
    refine load right .top id operator [] 0 _ ?_
    refine load left .top id operator _ 0 [] ?_
    rw [List.append_nil, Group.ofExpr, Expr.connective?, Option.getD_some, Expr.nodes, if_pos rfl]
    exact hnil _ _

end ArenaM.Does

end CorpusQuery
