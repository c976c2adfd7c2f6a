import CorpusQuery.Proofs.Canonical
import CorpusQuery.Proofs.Terms

/-!
Which parentheses go when a group is settled that writes as much as before. Settling moves the
operands of one subgroup outwards, so one pair of parentheses goes at most.
-/

namespace CorpusQuery

/-! ### Texts -/

namespace Text

/-- One pair of parentheses goes. -/
def Unwraps (text text' : Text) : Prop :=
  ∃ before inside behind, text = before ++ ['('] ++ inside ++ [')'] ++ behind ∧
    text' = before ++ inside ++ behind

theorem Unwraps.ne {text text' : Text} (h : Unwraps text text') : text' ≠ text := by
  obtain ⟨before, inside, behind, rfl, rfl⟩ := h
  intro heq
  have hlength := congrArg List.length heq
  simp only [List.length_append, List.length_singleton] at hlength
  omega

/-- The text stays the same, unless `p`, when one pair of parentheses goes. -/
structure UnwrapsIf (p : Prop) (text text' : Text) : Prop where
  same : ¬ p → text' = text
  unwraps : p → Unwraps text text'

namespace UnwrapsIf

variable {p q : Prop} {text text' : Text}

theorem of_eq (hp : ¬ p) (h : text' = text) : UnwrapsIf p text text' :=
  ⟨fun _ => h, fun hp' => absurd hp' hp⟩

theorem congr (h : UnwrapsIf p text text') (hiff : p ↔ q) : UnwrapsIf q text text' := by
  rwa [← hiff]

theorem around (h : UnwrapsIf p text text') (left right : Text) :
    UnwrapsIf p (left ++ text ++ right) (left ++ text' ++ right) where
  same hp := by rw [h.same hp]
  unwraps hp := by
    obtain ⟨before, inside, behind, rfl, rfl⟩ := h.unwraps hp
    exact ⟨left ++ before, inside, behind ++ right, by simp, by simp⟩

theorem same_iff (h : UnwrapsIf p text text') : text' = text ↔ ¬ p :=
  ⟨fun heq hp => (h.unwraps hp).ne heq, h.same⟩

end UnwrapsIf

end Text

/-! ### Operands -/

namespace Term

/-- Operands as they stand in a root. -/
def joined (operator : Connective) (ts : List Term) : Text :=
  ((join? operator ts).map inner).getD []

/-- Operands as they stand in another group. -/
def enclosed (operator : Connective) (ts : List Term) : Text :=
  ((operand? operator ts).map text).getD []

variable {operator : Connective} {ts us : List Term} {p : Prop}

theorem joined_eq (operator : Connective) (ts : List Term) :
    joined operator ts = ([' '] ++ operator.symbol ++ [' ']).intercalate (ts.map text) := by
  cases ts with
  | nil => rfl
  | cons first rest => exact (intercalate_text operator first rest).symm

theorem enclosed_eq (operator : Connective) (ts : List Term) :
    enclosed operator ts =
      if ts.length < 2 then joined operator ts else ['('] ++ joined operator ts ++ [')'] := by
  match ts with
  | [] => rfl
  | [t] => simp [enclosed, joined_eq, operand?]
  | t :: u :: rest => simp [enclosed, joined, operand?, join?, text, inner]

/-- An operand in a root stands there as in any group. -/
theorem joined_operand? (around operator : Connective) (ts : List Term) :
    joined around (operand? operator ts).toList = enclosed operator ts := by
  rw [enclosed]
  cases operand? operator ts with
  | none => rfl
  | some t => simp [joined_eq]

theorem toList_operand?_of_lt (h : ts.length < 2) : (operand? operator ts).toList = ts := by
  match ts with
  | [] => rfl
  | [t] => rfl
  | t :: u :: rest =>
    simp only [List.length_cons] at h
    omega

theorem exists_operand? (operator : Connective) (h : ts ≠ []) :
    ∃ t, operand? operator ts = some t ∧ t.text = enclosed operator ts := by
  obtain ⟨t, ht⟩ : ∃ t, operand? operator ts = some t := by
    match ts with
    | [] => exact absurd rfl h
    | [t] => exact ⟨t, rfl⟩
    | t :: u :: rest => exact ⟨_, rfl⟩
  exact ⟨t, ht, by rw [enclosed, ht]; rfl⟩

/-- An operand does not depend on the connective of a group that it is alone in. -/
theorem operand?_toList (operator : Connective) (t : Option Term) :
    operand? operator t.toList = t := by
  cases t <;> rfl

theorem unwrapsIf_enclosed : Text.UnwrapsIf (2 ≤ ts.length) (enclosed operator ts)
    (joined operator ts) := by
  rw [enclosed_eq]
  split
  next h => exact .of_eq (Nat.not_le.mpr h) rfl
  next h =>
    refine ⟨fun hlt => absurd (Nat.not_lt.mp h) hlt, fun _ => ?_⟩
    exact ⟨[], joined operator ts, [], by simp, by simp⟩

/-- Other operands beside them make no difference. -/
theorem unwrapsIf_joined (h : Text.UnwrapsIf p (joined operator ts) (joined operator us))
    (hts : ts ≠ []) (hus : us ≠ []) (left right : List Term) :
    Text.UnwrapsIf p (joined operator (left ++ ts ++ right))
      (joined operator (left ++ us ++ right)) := by
  rw [joined_eq, joined_eq] at h
  rw [joined_eq, joined_eq]
  simp only [List.map_append]
  rw [Text.intercalate_append _ _ (by simpa using hts),
    Text.intercalate_append _ _ (by simpa using hus)]
  exact h.around _ _

theorem unwrapsIf_operand {t u : Term} (h : Text.UnwrapsIf p t.text u.text)
    (left right : List Term) :
    Text.UnwrapsIf p (joined operator (left ++ [t] ++ right))
      (joined operator (left ++ [u] ++ right)) :=
  unwrapsIf_joined (by simpa [joined_eq] using h) (List.cons_ne_nil t []) (List.cons_ne_nil u [])
    left right

/-- Parentheses around all of them make no difference either. -/
theorem unwrapsIf_enclosed_of_joined
    (h : Text.UnwrapsIf p (joined operator ts) (joined operator us))
    (hlength : ts.length < 2 ↔ us.length < 2) :
    Text.UnwrapsIf p (enclosed operator ts) (enclosed operator us) := by
  rw [enclosed_eq, enclosed_eq]
  by_cases hts : ts.length < 2
  · rwa [if_pos hts, if_pos (hlength.mp hts)]
  · rw [if_neg hts, if_neg (mt hlength.mpr hts)]
    exact h.around ['('] [')']

/-- Operands go without their parentheses in a root. -/
theorem unwrapsIf_joined_splice (operator : Connective) (left ts right : List Term) :
    Text.UnwrapsIf (2 ≤ ts.length)
      (joined operator (left ++ (operand? operator ts).toList ++ right))
      (joined operator (left ++ ts ++ right)) := by
  by_cases hlength : ts.length < 2
  · rw [toList_operand?_of_lt hlength]
    exact .of_eq (Nat.not_le.mpr hlength) rfl
  · have hne : ts ≠ [] := fun hnil => hlength (by simp [hnil])
    obtain ⟨t, ht, -⟩ := exists_operand? operator hne
    refine unwrapsIf_joined ?_ (by simp [ht]) hne left right
    -- By itself in a root, the operand is all that is written there.
    rw [joined_operand?]
    exact unwrapsIf_enclosed

/-- In another group they need none of their own, unless there is nothing beside them. -/
theorem unwrapsIf_enclosed_splice (operator : Connective) (left ts right : List Term) :
    Text.UnwrapsIf (left ++ right ≠ [] ∧ 2 ≤ ts.length)
      (enclosed operator (left ++ (operand? operator ts).toList ++ right))
      (enclosed operator (left ++ ts ++ right)) := by
  by_cases hlength : ts.length < 2
  · rw [toList_operand?_of_lt hlength]
    exact .of_eq (fun h => Nat.not_lt.mpr h.2 hlength) rfl
  have hne : ts ≠ [] := fun hnil => hlength (by simp [hnil])
  obtain ⟨t, ht, htext⟩ := exists_operand? operator hne
  by_cases hrow : left ++ right = []
  · -- With nothing beside them, the parentheses become those of the group.
    obtain ⟨rfl, rfl⟩ := List.append_eq_nil_iff.mp hrow
    have hsingle : enclosed operator [t] = t.text := rfl
    refine .of_eq (fun h => h.1 rfl) ?_
    rw [ht, Option.toList_some, List.nil_append, List.append_nil, List.nil_append, List.append_nil,
      hsingle, htext]
  · have hpos := List.length_pos_iff.mpr hrow
    have hlengths : (left ++ (operand? operator ts).toList ++ right).length < 2 ↔
        (left ++ ts ++ right).length < 2 := by
      rw [ht]
      simp only [List.length_append, Option.toList_some, List.length_singleton] at hpos ⊢
      omega
    refine (unwrapsIf_enclosed_of_joined (unwrapsIf_joined_splice operator left ts right)
      hlengths).congr ?_
    exact (and_iff_right hrow).symm

end Term

/-! ### Groups -/

/-- What stands between the brackets of a token with this root. -/
def Group.cql (g : Group) : Text := Term.joined g.operator (Node.terms g.children)

namespace Node

theorem terms_singleton (m : Node) : terms [m] = m.term?.toList := by
  rw [terms, terms, List.append_nil]

theorem terms_child (left : List Node) (m : Node) (right : List Node) :
    terms (left ++ m :: right) = terms left ++ m.term?.toList ++ terms right := by
  rw [terms_append, terms, List.append_assoc]

theorem term?_node (g : Group) : g.node.term? = Term.operand? g.operator (terms g.children) := rfl

end Node

namespace Context

/-- A tree is written the same with another group in it that has the same operands. -/
theorem cql_fill_congr (k : Context) {g g' : Group} (hoperator : g'.operator = g.operator)
    (hterms : Node.terms g'.children = Node.terms g.children) :
    (k.fill g').cql = (k.fill g).cql := by
  induction k generalizing g g' with
  | top => rw [fill, fill, Group.cql, Group.cql, hoperator, hterms]
  | under outer id operator left right ih =>
    refine ih rfl ?_
    rw [Node.terms_child, Node.terms_child, Node.term?_node, Node.term?_node, hoperator, hterms]

/-- A pair of parentheses that goes inside a group goes in the tree. -/
theorem unwrapsIf_fill {p : Prop} (k : Context) {id : NodeId} {operator : Connective}
    {left right : List Node} {g g' : Group} {t u : Term} (hg : g.node.term? = some t)
    (hg' : g'.node.term? = some u) (h : Text.UnwrapsIf p t.text u.text) :
    Text.UnwrapsIf p ((under k id operator left right).fill g).cql
      ((under k id operator left right).fill g').cql := by
  induction k generalizing id operator left right g g' t u with
  | top =>
    rw [fill, fill, fill, fill, Group.cql, Group.cql, Node.terms_child, Node.terms_child, hg, hg']
    exact Term.unwrapsIf_operand h _ _
  | under outer id' operator' left' right' ih =>
    -- The group around is an operand in turn.
    have hrow : ∀ v : Term, Node.terms left ++ [v] ++ Node.terms right ≠ [] := by simp
    obtain ⟨t', ht', htext⟩ := Term.exists_operand? operator (hrow t)
    obtain ⟨u', hu', hutext⟩ := Term.exists_operand? operator (hrow u)
    have henclosed : Text.UnwrapsIf p t'.text u'.text := by
      rw [htext, hutext]
      exact Term.unwrapsIf_enclosed_of_joined (Term.unwrapsIf_operand h _ _) (by simp)
    have hnode : ∀ {g : Group} {t t' : Term}, g.node.term? = some t →
        Term.operand? operator (Node.terms left ++ [t] ++ Node.terms right) = some t' →
        (Group.mk id operator (left ++ g.node :: right)).node.term? = some t' := by
      intro g t t' hg ht'
      rw [Node.term?_node, Node.terms_child, hg]
      exact ht'
    exact ih (hnode hg ht') (hnode hg' hu') henclosed

/-- What comes in the place of the missing group is written without parentheses around it. -/
def Bare : Context → Prop
  | top => True
  | under top .. => True
  | under (under ..) _ _ left right => Node.terms left ++ Node.terms right ≠ []

/-- All there is, is a subgroup that has to be written in parentheses. In the place of the missing
group it is written without. -/
def Unwraps (k : Context) (ms : List Node) : Prop :=
  k.Bare ∧ ∃ id operator children, ms = [.group id operator children] ∧
    2 ≤ (Node.terms children).length

theorem settle_of_two_le (k : Context) {g : Group} (h : 2 ≤ g.children.length) :
    k.settle g = k.fill g := by
  cases k with
  | top =>
    refine Group.absorb_eq_self fun id operator children heq => ?_
    simp [heq] at h
  | under outer id operator left right => rw [settle, if_neg (by omega), fill]

/-- An only child comes in the place of its group. -/
theorem settle_singleton (outer : Context) (id : NodeId) (operator : Connective)
    {left right : List Node} {g : Group} {m : Node} (hg : g.children = [m])
    (hsiblings : left ++ right ≠ []) (hm : 1 ≤ (m.unnest operator).length) :
    (under outer id operator left right).settle g =
      outer.fill ⟨id, operator, left ++ m.unnest operator ++ right⟩ := by
  have hunnest : Node.unnestAll operator g.children = m.unnest operator := by
    rw [hg, Node.unnestAll, List.flatMap_singleton]
  rw [settle, if_pos (by simp [hg]), hunnest, settle_of_two_le]
  have hpos := List.length_pos_iff.mpr hsiblings
  simp only [List.length_append] at hpos ⊢
  omega

/-- Operands come in the place of a group that they have to themselves. -/
theorem unwrapsIf_splice (outer : Context) (id : NodeId) {operator : Connective}
    {left right ms : List Node} {m : Node}
    (hm : m.term? = Term.operand? operator (Node.terms ms)) :
    Text.UnwrapsIf ((under outer id operator left right).Bare ∧ 2 ≤ (Node.terms ms).length)
      (outer.fill ⟨id, operator, left ++ m :: right⟩).cql
      (outer.fill ⟨id, operator, left ++ ms ++ right⟩).cql := by
  by_cases hlength : (Node.terms ms).length < 2
  · refine .of_eq (fun h => Nat.not_lt.mpr h.2 hlength) (outer.cql_fill_congr rfl ?_)
    rw [Node.terms_child, hm, Term.toList_operand?_of_lt hlength, Node.terms_append,
      Node.terms_append]
  have hbefore : Node.terms (left ++ m :: right) = Node.terms left ++
      (Term.operand? operator (Node.terms ms)).toList ++ Node.terms right := by
    rw [Node.terms_child, hm]
  have hafter : Node.terms (left ++ ms ++ right) =
      Node.terms left ++ Node.terms ms ++ Node.terms right := by
    rw [Node.terms_append, Node.terms_append]
  cases outer with
  | top =>
    rw [fill, fill, Group.cql, Group.cql, hbefore, hafter]
    exact (Term.unwrapsIf_joined_splice ..).congr (by simp [Bare])
  | under outer id' operator' left' right' =>
    -- The group around is itself an operand, before and after.
    have hne : Node.terms ms ≠ [] := fun hnil => hlength (by simp [hnil])
    obtain ⟨v, hv, -⟩ := Term.exists_operand? operator hne
    have hne' : Node.terms (left ++ m :: right) ≠ [] := by
      rw [hbefore, hv]
      simp
    have hne'' : Node.terms (left ++ ms ++ right) ≠ [] := by
      rw [hafter]
      simp [hne]
    obtain ⟨t, ht, htext⟩ := Term.exists_operand? operator hne'
    obtain ⟨u, hu, hutext⟩ := Term.exists_operand? operator hne''
    have henclosed := Term.unwrapsIf_enclosed_splice operator (Node.terms left) (Node.terms ms)
      (Node.terms right)
    rw [← hbefore, ← hafter, ← htext, ← hutext] at henclosed
    exact unwrapsIf_fill outer ht hu henclosed

/-- A canonical tree without a constraint that writes nothing is written with one pair of
parentheses less, or as it was. -/
theorem Suits.unwrapsIf_settle {k : Context} {id : NodeId} {operator : Connective}
    {left right : List Node} {m : Node} (h : k.Suits ⟨id, operator, left ++ m :: right⟩)
    (hm : m.term? = none) :
    Text.UnwrapsIf (k.Unwraps (left ++ right)) (k.fill ⟨id, operator, left ++ m :: right⟩).cql
      (k.settle ⟨id, operator, left ++ right⟩).cql := by
  have hsame : (k.fill ⟨id, operator, left ++ right⟩).cql =
      (k.fill ⟨id, operator, left ++ m :: right⟩).cql := by
    refine k.cql_fill_congr rfl ?_
    rw [Node.terms_child, hm, Node.terms_append, Option.toList_none, List.append_nil]
  rw [← hsame]
  obtain ⟨hk, hchildren, hdiffers, hfits⟩ := h
  replace hchildren : Node.AllCanonical operator (left ++ right) := by
    simpa using hchildren.replace [] (by simp [Node.AllCanonical])
  have hlength : (left ++ m :: right).length = (left ++ right).length + 1 := by
    simp only [List.length_append, List.length_cons]
    omega
  generalize left ++ right = ms at *
  by_cases htwo : 2 ≤ ms.length
  · -- A group that has two children left stays where it is.
    rw [settle_of_two_le k htwo]
    refine .of_eq ?_ rfl
    rintro ⟨-, sub, inner, children, rfl, -⟩
    simp at htwo
  cases k with
  | top =>
    by_cases hshell : (Group.mk id operator ms).IsShell
    · -- The subgroup becomes the root, and a root is written without parentheses.
      obtain ⟨sub, inner, children, rfl⟩ := hshell
      have hfill : ((top.fill ⟨id, operator, [.group sub inner children]⟩)).cql =
          Term.enclosed inner (Node.terms children) := by
        rw [fill, Group.cql, Node.terms_singleton, Node.term?, Term.joined_operand?]
      rw [hfill]
      exact Term.unwrapsIf_enclosed.congr (by simp [Unwraps, Bare])
    · have habsorb := Group.absorb_eq_self (g := ⟨id, operator, ms⟩) fun sub inner children heq =>
        hshell ⟨sub, inner, children, heq⟩
      refine .of_eq ?_ (congrArg Group.cql habsorb)
      rintro ⟨-, sub, inner, children, heq, -⟩
      exact hshell ⟨sub, inner, children, heq⟩
  | under outer around operator' left' right' =>
    -- The group had two children at least, so there is one that comes in its place.
    obtain ⟨hsiblings, hne, -, -⟩ := hk
    have hone : ms.length = 1 := by
      have hfull : 2 ≤ (left ++ m :: right).length := hfits
      omega
    obtain ⟨m', rfl⟩ := List.length_eq_one_iff.mp hone
    have hm' := hchildren m' (by simp)
    rw [settle_singleton outer around operator' rfl hne hm'.one_le_unnest, fill]
    cases hm' with
    | leaf _ leaf c =>
      have hnone : ¬ (under outer around operator' left' right').Unwraps [.leaf leaf c] := by
        rintro ⟨-, sub, inner, children, heq, -⟩
        cases heq
      refine .of_eq hnone (outer.cql_fill_congr rfl ?_)
      rw [Node.unnest, Node.terms_append, Node.terms_append, Node.terms_child, Node.term?_node,
        Node.terms_singleton, Term.operand?_toList]
    | group _ sub inner children hinner =>
      -- There are two connectives, so the group around has that of the subgroup.
      have heq : inner = operator' := by
        have hne' : operator' ≠ operator := fun heq => hdiffers (congrArg some heq)
        cases inner <;> cases operator' <;> cases operator <;> simp_all
      subst heq
      rw [Node.unnest, if_pos rfl]
      have hnode : (Group.mk id operator [.group sub inner children]).node.term? =
          Term.operand? inner (Node.terms children) := by
        rw [Node.term?_node, Node.terms_singleton, Term.operand?_toList, Node.term?]
      exact (unwrapsIf_splice outer around hnode).congr (by simp [Unwraps])

end Context

end CorpusQuery
