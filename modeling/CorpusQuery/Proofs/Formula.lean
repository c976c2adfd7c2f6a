import CorpusQuery.Draft.Formula
import CorpusQuery.Draft.Regroup

/-!
Formulas stay the same when groups are merged that are joined alike, and when groups go that have
no more than one child. So each rule of regrouping comes to putting one node in place of another.
-/

namespace CorpusQuery

namespace Formula

variable {operator : Connective}

/-- No operand is joined as what it is an operand of. -/
inductive Alternating : Formula → Prop where
  | constraint (id : NodeId) (c : Constraint) : Alternating (.constraint id c)
  | joined (operator : Connective) (first second : Formula) (rest : List Formula)
      (hne : ∀ x ∈ first :: second :: rest, x.isJoinedBy operator = false)
      (h : ∀ x ∈ first :: second :: rest, Alternating x) :
    Alternating (.joined operator first second rest)

/-- Operands that can stand side by side in a formula joined by `operator`. -/
def Apart (operator : Connective) (xs : List Formula) : Prop :=
  ∀ x ∈ xs, x.Alternating ∧ x.isJoinedBy operator = false

theorem join?_operandsIn (x : Formula) : join? operator (x.operandsIn operator) = some x := by
  cases x with
  | constraint id c => rfl
  | joined inner first second rest =>
    rw [operandsIn]
    split
    next heq => rw [heq, join?]
    next => rfl

theorem operandsIn_of_isJoinedBy {x : Formula} (h : x.isJoinedBy operator = false) :
    x.operandsIn operator = [x] := by
  cases x with
  | constraint id c => rfl
  | joined inner first second rest =>
    have hne : inner ≠ operator := by simpa [isJoinedBy] using h
    rw [operandsIn, if_neg hne]

/-- What is joined comes apart again. -/
theorem operandsIn_join? {xs : List Formula} (h : Apart operator xs) :
    (join? operator xs).toList.flatMap (operandsIn operator) = xs := by
  match xs with
  | [] => rfl
  | [x] => simpa [join?] using operandsIn_of_isJoinedBy (h x List.mem_cons_self).2
  | first :: second :: rest => simp [join?, operandsIn]

theorem apart_operandsIn {x : Formula} (hx : x.Alternating) :
    Apart operator (x.operandsIn operator) := by
  cases hx with
  | constraint id c =>
    rintro y hy
    obtain rfl := List.mem_singleton.mp hy
    exact ⟨.constraint id c, rfl⟩
  | joined inner first second rest hne h =>
    rw [operandsIn]
    split
    next heq => exact fun y hy => ⟨h y hy, heq ▸ hne y hy⟩
    next hinner =>
      rintro y hy
      obtain rfl := List.mem_singleton.mp hy
      exact ⟨.joined inner first second rest hne h, by simpa [isJoinedBy] using hinner⟩

theorem alternating_join? {xs : List Formula} (h : Apart operator xs) :
    ∀ x ∈ join? operator xs, x.Alternating := by
  match xs with
  | [] => simp [join?]
  | [x] => simpa [join?] using (h x List.mem_cons_self).1
  | first :: second :: rest =>
    rintro _ ⟨⟩
    exact .joined operator first second rest (fun x hx => (h x hx).2) fun x hx => (h x hx).1

end Formula

namespace Node

open Formula

/-- What nodes contribute to a group that is joined by `operator`. -/
def operands (operator : Connective) (ns : List Node) : List Formula :=
  (formulas ns).flatMap (operandsIn operator)

variable {operator : Connective} {l m n r : List Node}

theorem formula?_group (id : NodeId) (children : List Node) :
    (group id operator children).formula? = join? operator (operands operator children) := by
  rw [formula?, operands]

theorem formulas_append : formulas (m ++ n) = formulas m ++ formulas n := by
  induction m with
  | nil => rfl
  | cons x rest ih => rw [List.cons_append, formulas, formulas, ih, List.append_assoc]

theorem operands_append :
    operands operator (m ++ n) = operands operator m ++ operands operator n := by
  rw [operands, formulas_append, List.flatMap_append]
  rfl

theorem operands_cons (x : Node) :
    operands operator (x :: n) = operands operator [x] ++ operands operator n :=
  operands_append (m := [x])

theorem formulas_singleton (x : Node) : formulas [x] = x.formula?.toList := by
  rw [formulas, formulas, List.append_nil]

theorem apart_flatMap {xs : List Formula} (h : ∀ x ∈ xs, x.Alternating) :
    Apart operator (xs.flatMap (operandsIn operator)) := by
  intro y hy
  obtain ⟨x, hx, hy⟩ := List.mem_flatMap.mp hy
  exact apart_operandsIn (h x hx) y hy

mutual

theorem alternating_formula? : (x : Node) → ∀ y ∈ x.formula?, y.Alternating
  | .leaf id c => by
    rintro _ ⟨⟩
    exact .constraint id c
  | .group id operator children => by
    rw [formula?_group]
    exact alternating_join? (apart_flatMap (alternating_formulas children))

theorem alternating_formulas : (ns : List Node) → ∀ y ∈ formulas ns, y.Alternating
  | [] => by simp [formulas]
  | x :: rest => by
    intro y hy
    rcases List.mem_append.mp hy with hfirst | hrest
    · exact alternating_formula? x y (by simpa using hfirst)
    · exact alternating_formulas rest y hrest

end

/-- A group that is joined as the one around it gives way to its children. -/
theorem operands_group (id : NodeId) (children : List Node) :
    operands operator [group id operator children] = operands operator children := by
  rw [operands, formulas_singleton, formula?_group]
  exact operandsIn_join? (apart_flatMap (alternating_formulas children))

theorem operands_unnest (x : Node) : operands operator (x.unnest operator) = operands operator [x] := by
  cases x with
  | leaf id c => rfl
  | group id inner children =>
    rw [unnest]
    split
    next heq =>
      subst heq
      exact (operands_group id children).symm
    next => rfl

theorem operands_unnestAll (ns : List Node) :
    operands operator (unnestAll operator ns) = operands operator ns := by
  induction ns with
  | nil => rfl
  | cons x rest ih =>
    rw [unnestAll, List.flatMap_cons, operands_append, operands_unnest, operands_cons (n := rest)]
    exact congrArg (operands operator [x] ++ ·) ih

theorem join?_operands (x : Node) : join? operator (operands operator [x]) = x.formula? := by
  rw [operands, formulas_singleton]
  cases x.formula? with
  | none => rfl
  | some y => simpa using join?_operandsIn y

/-- A group with no more than one child comes to what it holds. -/
theorem formulas_sparse (id : NodeId) {children : List Node} (h : children.length ≤ 1) :
    formulas [group id operator children] = formulas children := by
  match children with
  | [] => rfl
  | [x] => rw [formulas_singleton, formulas_singleton, formula?_group, join?_operands]

namespace Equivalent

@[refl] theorem refl (n : List Node) : Equivalent n n := rfl

theorem symm (h : Equivalent m n) : Equivalent n m := Eq.symm h

theorem trans (h : Equivalent l m) (h' : Equivalent m n) : Equivalent l n := Eq.trans h h'

theorem operands_eq (h : Equivalent m n) : operands operator m = operands operator n := by
  rw [operands, operands, h]

theorem append (h : Equivalent m n) : Equivalent (l ++ m ++ r) (l ++ n ++ r) := by
  rw [Equivalent, formulas_append, formulas_append, formulas_append, formulas_append, h]

theorem of_operands {id id' : NodeId} (h : operands operator m = operands operator n) :
    Equivalent [group id operator m] [group id' operator n] := by
  rw [Equivalent, formulas_singleton, formulas_singleton, formula?_group, formula?_group, h]

theorem group {id id' : NodeId} (h : Equivalent m n) :
    Equivalent [group id operator m] [group id' operator n] :=
  of_operands h.operands_eq

end Equivalent

end Node

open Node (Equivalent operands)

namespace Context

/-- What comes to the same may be put in anywhere. -/
theorem equivalent_fill (k : Context) {g g' : Group} (h : Equivalent [g.node] [g'.node]) :
    Equivalent [(k.fill g).node] [(k.fill g').node] := by
  induction k generalizing g g' with
  | top => exact h
  | under outer id operator left right ih =>
    refine ih (.group ?_)
    simpa using h.append (l := left) (r := right)

end Context

namespace Group

theorem equivalent_absorb (g : Group) : Equivalent [g.absorb.node] [g.node] := by
  unfold absorb
  split
  next id operator children heq =>
    obtain ⟨i, inner, ms⟩ := g
    obtain rfl : ms = [.group id operator children] := heq
    have hsparse : Equivalent [.group i inner [.group id operator children]]
      [.group id operator children] := Node.formulas_sparse i (Nat.le_refl 1)
    exact .trans (.group (.refl children)) hsparse.symm
  next => exact .refl _

theorem equivalent_retype (g : Group) (operator : Connective) :
    Equivalent [(g.retype operator).node] [.group g.id operator g.children] :=
  .of_operands (Node.operands_unnestAll g.children)

end Group

namespace Context

/-- Merging a group into the one around it makes no difference. -/
theorem equivalent_merge (k : Context) (g : Group) :
    Equivalent [(k.merge g).node] [(k.fill g).node] := by
  cases k with
  | top => exact .refl _
  | under outer id around left right =>
    refine outer.equivalent_fill (.of_operands ?_)
    rw [Node.operands_append, Node.operands_append, Node.operands_unnest, ← Node.operands_append,
      ← Node.operands_append]
    simp

/-- Nor does it make a difference that groups go which have no more than one child. -/
theorem equivalent_settle (k : Context) (g : Group) :
    Equivalent [(k.settle g).node] [(k.fill g).node] := by
  induction k generalizing g with
  | top => exact g.equivalent_absorb
  | under outer id operator left right ih =>
    rw [settle]
    split
    next hlength =>
      refine (ih _).trans (outer.equivalent_fill (.of_operands ?_))
      -- The children first come to what they are in a group of their own.
      have hsparse : Equivalent g.children [g.node] := Eq.symm (Node.formulas_sparse g.id hlength)
      rw [Node.operands_append, Node.operands_append, Node.operands_unnestAll,
        hsparse.operands_eq, ← Node.operands_append, ← Node.operands_append]
      simp
    next => exact .refl _

end Context

end CorpusQuery
