import CorpusQuery.Proofs.Shows

/-!
Builders follow drafts: each edit fails and leaves the builder as it was, or takes it to one that
shows the draft which the rules give. Whatever holds of all drafts holds of all builders.
-/

namespace CorpusQuery

namespace Slot

variable {ρ σ : Type} (f : ρ → σ) (slots : List (Slot ρ))

theorem get_map (index : Nat) :
    get (slots.map (mapRoot f)) index = (get slots index).map (mapRoot f) := by
  unfold get
  rw [List.getElem?_map]
  cases slots[index]? <;> rfl

theorem set_map (index : Nat) {g : Slot ρ → Slot ρ} {g' : Slot σ → Slot σ}
    (hg : ∀ t, g' (t.mapRoot f) = (g t).mapRoot f) :
    set (slots.map (mapRoot f)) index g' = (set slots index g).map (List.map (mapRoot f)) := by
  unfold set
  rw [get_map]
  cases get slots index with
  | error e => rfl
  | ok t =>
    simp [Except.map, Bind.bind, Except.bind, Pure.pure, Except.pure, hg, List.map_set]

theorem move_map (source target : Nat) :
    move (slots.map (mapRoot f)) source target =
      (move slots source target).map (List.map (mapRoot f)) := by
  unfold move
  rw [get_map, get_map]
  cases get slots source with
  | error e => rfl
  | ok t =>
    cases get slots target with
    | error e => rfl
    | ok u =>
      simp [Except.map, Bind.bind, Except.bind, Pure.pure, Except.pure, List.eraseIdx_map,
        List.map_insertIdx]

variable {slots} in
/-- A token that moves leaves the tokens the same, up to their order. -/
theorem move_perm {slots' : List (Slot ρ)} {source target : Nat}
    (h : move slots source target = .ok slots') : slots'.Perm slots := by
  obtain ⟨left, t, right, rfl, -, hle, rfl⟩ := move_eq_ok.mp h
  exact (List.perm_insertIdx t _ hle).trans List.perm_middle.symm

theorem setRepeats_map (index : Nat) (r : Repeats) :
    setRepeats (slots.map (mapRoot f)) index r =
      (setRepeats slots index r).map (List.map (mapRoot f)) := by
  unfold setRepeats
  split
  · rfl
  · exact set_map f slots index fun t => rfl

end Slot

namespace Draft

/-- The trees stay the same, though their order may change. -/
theorem Rearranges.perm {ρ : Type} {e : Edit} {slots slots' : List (Slot ρ)}
    (h : Rearranges e slots slots') : (slots'.map (·.root)).Perm (slots.map (·.root)) := by
  have hset : ∀ {index : Nat} {f : Slot ρ → Slot ρ}, (∀ t, (f t).root = t.root) →
      Slot.set slots index f = .ok slots' → (slots'.map (·.root)).Perm (slots.map (·.root)) := by
    intro index f hf h
    -- A token that is set keeps its root, whatever else changes.
    obtain ⟨left, t, right, rfl, -, rfl⟩ := Slot.set_eq_ok.mp h
    simp [hf]
  cases h with
  | moveToken source target _ _ h => exact (Slot.move_perm h).map _
  | setMark index mark value _ _ h => exact hset (fun t => by cases mark <;> rfl) h
  | setRepeats index r _ _ h => exact hset (fun _ => by rfl) (Slot.setRepeats_eq_ok.mp h).2

/-- What holds of all trees holds of them in any order. -/
theorem Rearranges.forall_roots {ρ : Type} {P : ρ → Prop} {e : Edit} {slots slots' : List (Slot ρ)}
    (h : Rearranges e slots slots') (hslots : ∀ t ∈ slots, P t.root) : ∀ t ∈ slots', P t.root := by
  intro t ht
  obtain ⟨u, hu, heq⟩ := List.mem_map.mp (h.perm.mem_iff.mp (List.mem_map_of_mem ht))
  exact heq ▸ hslots u hu

/-- What holds of each token that is loaded, from whichever number on, holds of all. -/
theorem forall_ofTokens {s : Settings} {ts : List Token} {P : Slot Group → Prop}
    (h : ∀ t ∈ ts, ∀ next, P (Slot.ofToken s t next)) (next : NodeId) :
    ∀ t ∈ ofTokens s ts next, P t := by
  induction ts generalizing next with
  | nil => simp [ofTokens]
  | cons t rest ih =>
    rw [List.forall_mem_cons] at h
    rw [ofTokens, List.forall_mem_cons]
    exact ⟨h.1 next, ih h.2 _⟩

theorem cells_eq_of_perm (label : Connective → Text) {slots slots' : List (Slot Group)}
    {within within' : Option Text} (h : (slots'.map (·.root)).Perm (slots.map (·.root))) :
    (Draft.mk slots' within').cells label = (Draft.mk slots within).cells label := by
  have hperm := h.map (Group.cells label)
  rw [List.map_map, List.map_map] at hperm
  exact hperm.foldr_op_eq

end Draft

namespace BuilderM

variable {s : Settings} {n : NodeId} {d : Draft} {b : Builder}

theorem onSlots_cases {slots : List (Slot Group)} {within : Option Text}
    {F : List (Slot NodeId) → Except BuilderError (List (Slot NodeId))}
    {G : List (Slot Group) → Except BuilderError (List (Slot Group))}
    (hb : b.Shows s n ⟨slots, within⟩)
    (hF : F (slots.map (Slot.mapRoot Group.id)) = (G slots).map (List.map (Slot.mapRoot Group.id)))
    (hG : ∀ slots', G slots = .ok slots' → (slots'.map (·.root)).Perm (slots.map (·.root))) :
    (∃ e, onSlots F b = .error e b) ∨
      ∃ slots' b', G slots = .ok slots' ∧ onSlots F b = .ok () b' ∧ b'.Shows s n ⟨slots', within⟩ := by
  -- The slots of the builder are those of the draft with numbers for roots, and `F` looks at no
  -- root.
  rw [← hb.slots_eq] at hF
  cases hslots : G slots with
  | error e =>
    rw [hslots] at hF
    exact .inl ⟨e, EditM.bind_eq_error (EditM.look_eq_error hF)⟩
  | ok slots' =>
    rw [hslots] at hF
    have hlook : EditM.look (fun b => F b.slots) b = .ok _ b := EditM.look_eq_ok hF
    refine .inr ⟨slots', _, rfl, EditM.bind_apply hlook, hb.settings_eq, rfl, hb.within_eq, ?_⟩
    exact hb.holds.reorder (Draft.cells_eq_of_perm _ (hG slots' hslots)).symm

theorem removeToken_cases (hb : b.Shows s n d) (index : Nat) :
    (∃ e, removeToken index b = .error e b) ∨
      ∃ left t right b', d.slots = left ++ t :: right ∧ index = left.length ∧
        removeToken index b = .ok () b' ∧ b'.Shows s n ⟨left ++ right, d.within⟩ := by
  obtain ⟨slots, within⟩ := d
  have hget := Slot.get_map Group.id slots index
  rw [← hb.slots_eq] at hget
  cases ht : Slot.get slots index with
  | error e =>
    rw [ht] at hget
    exact .inl ⟨e, EditM.bind_eq_error (EditM.look_eq_error hget)⟩
  | ok t =>
    rw [ht] at hget
    obtain ⟨left, right, rfl, rfl⟩ := Slot.get_eq_ok.mp ht
    have hlook : EditM.look (·.token left.length) b = .ok _ b := EditM.look_eq_ok hget
    refine .inr ⟨left, t, right, _, rfl, rfl, EditM.bind_apply hlook, hb.settings_eq, ?_,
      hb.within_eq, ?_⟩
    · simp [hb.slots_eq, List.eraseIdx_append_of_length_le]
    · have ha := hb.holds
      rw [Draft.cells_append] at ha
      obtain ⟨a', hx, ha'⟩ := ArenaM.Does.removeAll_group s.operatorLabel t.root none true _ ha
      cases hx
      exact ha'

theorem populate_cases (hb : b.Shows s n d) (q : Option Query) :
    (∃ e, populate q b = .error e b) ∨
      ∃ n' b', (∀ query, q = some query → ∀ t ∈ query.tokens, t.fault? = none) ∧
        populate q b = .ok () b' ∧ b'.Shows s n' (.ofQuery s q) := by
  by_cases hq : ∀ query, q = some query → ∀ t ∈ query.tokens, t.fault? = none
  · obtain ⟨n', hpopulate⟩ := Does.populate (s := s) (n := n) (d := d) hq
    obtain ⟨b', hx, hb'⟩ := hpopulate b hb
    exact .inr ⟨n', b', hq, hx, hb'⟩
  · push Not at hq
    obtain ⟨query, rfl, t, ht, hfault⟩ := hq
    exact .inl (populate_eq_error ht hfault b)

/-- The edit fails and leaves the builder as it was, or makes of the draft what the rules say. -/
def Follows (m : BuilderM Outcome) (b : Builder) (s : Settings) (n : NodeId) (e : Edit)
    (d : Draft) : Prop :=
  (∃ error, m b = .error error b) ∨
    ∃ o n' d' b', Draft.Step s n e o d d' ∧ m b = .ok o b' ∧ b'.Shows s n' d'

namespace Follows

variable {e : Edit}

theorem load (hb : b.Shows s n d) {q : Option Query} (hloads : e.Loads s q) :
    Follows (do populate q; return .nothing) b s n e d := by
  rcases populate_cases hb q with ⟨error, h⟩ | ⟨n', b', hq, h, hb'⟩
  · exact .inl ⟨error, EditM.bind_eq_error h⟩
  · exact .inr ⟨.nothing, n', _, b', .load e q d hloads hq, EditM.bind_apply h, hb'⟩

theorem rearrange (hb : b.Shows s n d)
    {F : List (Slot NodeId) → Except BuilderError (List (Slot NodeId))}
    {G : List (Slot Group) → Except BuilderError (List (Slot Group))}
    (hF : F (d.slots.map (Slot.mapRoot Group.id)) =
      (G d.slots).map (List.map (Slot.mapRoot Group.id)))
    (hG : ∀ slots', G d.slots = .ok slots' → Draft.Rearranges e d.slots slots') :
    Follows (do onSlots F; return .nothing) b s n e d := by
  obtain ⟨slots, within⟩ := d
  rcases onSlots_cases hb hF fun slots' h => (hG slots' h).perm with
    ⟨error, h⟩ | ⟨slots', b', hslots', h, hb'⟩
  · exact .inl ⟨error, EditM.bind_eq_error h⟩
  · exact .inr ⟨.nothing, n, _, b', .rearrange e slots slots' within (hG slots' hslots'),
      EditM.bind_apply h, hb'⟩

theorem reshape (hb : b.Shows s n d) {α : Type} {m : ArenaM α} {o : α → Outcome}
    (hm : m.Reshapes s.operatorLabel n d fun x => Draft.Reshapes s n e (o x)) :
    Follows (do return o (← onArena m)) b s n e d := by
  rcases hm b.arena hb.holds with ⟨error, hfail⟩ | hreshaped
  · have hfail' : onArena m b = .error error b := by simp only [onArena, hfail]
    exact .inl ⟨error, EditM.bind_eq_error hfail'⟩
  · obtain ⟨left, t, right, root, n', x, a', hd, hreshapes, hx, ha'⟩ := hreshaped
    obtain ⟨slots, within⟩ := d
    subst hd
    have hx' : onArena m b = .ok x { b with arena := a' } := by simp only [onArena, hx]
    refine .inr ⟨o x, n', _, _, .reshape e (o x) left t right root within hreshapes,
      EditM.bind_apply hx', hb.settings_eq, ?_, hb.within_eq, ha'⟩
    rw [hb.slots_eq]
    simp [Slot.mapRoot, hreshapes.id_eq]

end Follows

/-- Each edit fails and changes nothing, or makes of the draft what its rule says. -/
theorem apply_follows (hb : b.Shows s n d) (e : Edit) : Follows (apply e) b s n e d := by
  -- Edits that look at the settings first are brought into the form of the others.
  obtain rfl := hb.settings_eq
  cases e with
  | parse pattern =>
    cases hq : b.settings.readQuery pattern with
    | error error =>
      have hlook : EditM.look (fun b => b.settings.readQuery pattern) b = .error error b :=
        EditM.look_eq_error hq
      exact .inl ⟨error, EditM.bind_eq_error (EditM.bind_eq_error hlook)⟩
    | ok q =>
      have hlook : EditM.look (fun b => b.settings.readQuery pattern) b = .ok q b :=
        EditM.look_eq_ok hq
      have heq : apply (.parse pattern) b = (do populate q; return .nothing : BuilderM _) b :=
        EditM.bind_congr (EditM.bind_apply hlook)
      rw [Follows, heq]
      exact Follows.load hb (.parse pattern q hq)
  | populate q => exact .load hb (.populate q)
  | reset => exact .load hb .reset
  | createToken =>
    obtain ⟨slots, within⟩ := d
    obtain ⟨b', h, hb'⟩ := Does.createToken slots within b hb
    exact .inr ⟨.token slots.length, n + 2, _, b', .createToken slots within, EditM.bind_apply h,
      hb'⟩
  | removeToken index =>
    rcases removeToken_cases hb index with ⟨error, h⟩ | ⟨left, t, right, b', hd, rfl, h, hb'⟩
    · exact .inl ⟨error, EditM.bind_eq_error h⟩
    · obtain ⟨slots, within⟩ := d
      subst hd
      exact .inr ⟨.nothing, n, _, b', .removeToken left t right within, EditM.bind_apply h, hb'⟩
  | moveToken source target =>
    exact .rearrange hb (G := (Slot.move · source target)) (Slot.move_map Group.id _ source target)
      (.moveToken source target d.slots)
  | setMark index mark value =>
    exact .rearrange hb (G := (Slot.set · index (Slot.mark mark value)))
      (Slot.set_map Group.id _ index fun t => by cases mark <;> rfl)
      (.setMark index mark value d.slots)
  | setRepeats index r =>
    exact .rearrange hb (G := (Slot.setRepeats · index r)) (Slot.setRepeats_map Group.id _ index r)
      (.setRepeats index r d.slots)
  | setWithin name =>
    obtain ⟨slots, within⟩ := d
    obtain ⟨b', h, hb'⟩ := Does.setWithin name b hb
    exact .inr ⟨.nothing, n, _, b', .setWithin name slots within, EditM.bind_apply h, hb'⟩
  | createConstraint group operator origin =>
    have hfollows := Follows.reshape (o := .node) hb
      (ArenaM.Reshapes.createLeaf _ b.settings group operator origin)
    have hlook : createConstraint group operator origin b =
        onArena (ArenaM.createLeaf b.settings.operatorLabel (.blank b.settings.defaultAttribute)
          group operator origin) b := rfl
    have heq : apply (.createConstraint group operator origin) b = _ := EditM.bind_congr hlook
    rw [Follows, heq]
    exact hfollows
  | removeNode id =>
    have hfollows := Follows.reshape (o := fun _ => .nothing) hb
      (ArenaM.Reshapes.removeNode b.settings.operatorLabel b.settings id)
    rw [Follows, apply, EditM.get_bind]
    exact hfollows
  | setGroupOperator id operator =>
    exact Follows.reshape hb (ArenaM.Reshapes.setGroupOperator _ b.settings id operator)
  | setField id field =>
    exact Follows.reshape hb (ArenaM.Reshapes.modifyConstraint _ b.settings id field)

end BuilderM

namespace Builder

variable {s : Settings}

theorem new_shows (s : Settings) : (Builder.new s).Shows s 2 (.ofQuery s none) := by
  obtain ⟨b, h, hb⟩ := BuilderM.Does.createToken [] none _ (shows_empty s)
  rw [Builder.new, h]
  exact hb

/-- What holds of a fresh draft and is kept by every step holds of what a builder shows after any
run of edits that `Q` admits. -/
theorem run_shows {P : Draft → Prop} {Q : Edit → Prop} (hnew : P (.ofQuery s none))
    (hstep : ∀ n e o d d', Q e → Draft.Step s n e o d d' → P d → P d') (edits : List Edit)
    (hedits : ∀ e ∈ edits, Q e) :
    ∃ n d, ((Builder.new s).run edits).Shows s n d ∧ P d := by
  -- The induction is on the edits, from any builder that shows a draft with the property.
  have hrun : ∀ (b : Builder) (n : NodeId) (d : Draft), b.Shows s n d → P d →
      ∃ n d, (b.run edits).Shows s n d ∧ P d := by
    induction edits with
    | nil => exact fun b n d hb hd => ⟨n, d, hb, hd⟩
    | cons e rest ih =>
      intro b n d hb hd
      have hrest := ih fun e' he' => hedits e' (List.mem_cons_of_mem e he')
      rcases BuilderM.apply_follows hb e with ⟨error, h⟩ | ⟨o, n', d', b', hd', h, hb'⟩
      · have hsame : b.step e = b := by simp only [step, apply, h]
        rw [run, List.foldl_cons, hsame]
        exact hrest b n d hb hd
      · have hnext : b.step e = b' := by simp only [step, apply, h]
        rw [run, List.foldl_cons, hnext]
        exact hrest b' n' d' hb' (hstep n e o d d' (hedits e List.mem_cons_self) hd' hd)
  exact hrun _ 2 _ (new_shows s) hnew

/-- Whatever a builder has been through, it shows a draft. -/
theorem exists_shows_run (s : Settings) (edits : List Edit) :
    ∃ n d, ((Builder.new s).run edits).Shows s n d := by
  obtain ⟨n, d, hb, -⟩ := run_shows (s := s) (P := fun _ => True) (Q := fun _ => True) trivial
    (fun _ _ _ _ _ _ _ _ => trivial) edits (by simp)
  exact ⟨n, d, hb⟩

/-! ### Edits that a rule describes and that make no nodes -/

namespace Shows

variable {n : NodeId} {b : Builder} {left right : List (Slot Group)} {t : Slot Group}
  {within : Option Text} {root : Group} {id : NodeId}

theorem onArena_eq_ok (hb : b.Shows s n ⟨left ++ t :: right, within⟩) {m : ArenaM Unit}
    (hroot : root.id = t.root.id)
    (hm : ∀ h, ArenaM.Does m n (t.root.cells s.operatorLabel + h) () n
      (root.cells s.operatorLabel + h)) :
    ∃ b', BuilderM.onArena m b = .ok () b' ∧
      b'.Shows s n ⟨left ++ { t with root } :: right, within⟩ := by
  have hdoes : BuilderM.Does (BuilderM.onArena m) s n ⟨left ++ t :: right, within⟩ () n
      ⟨left ++ { t with root } :: right, within⟩ := by
    refine .onArena ?_ (by simp [Slot.mapRoot, hroot]) rfl
    rw [Draft.cells_append, Draft.cells_append]
    exact hm _
  exact hdoes b hb

theorem apply_removeNode (hb : b.Shows s n ⟨left ++ t :: right, within⟩)
    (h : Removes id t.root root) : ∃ b', b.apply (.removeNode id) = (.ok .nothing, b') ∧
      b'.Shows s n ⟨left ++ { t with root } :: right, within⟩ := by
  obtain ⟨b', hx, hb'⟩ := hb.onArena_eq_ok h.id_eq fun _ => ArenaM.Does.removeNode _ h
  have happly : BuilderM.apply (.removeNode id) b = .ok .nothing b' := by
    rw [BuilderM.apply, EditM.get_bind, hb.settings_eq]
    exact EditM.bind_apply hx
  exact ⟨b', by rw [apply, happly], hb'⟩

theorem apply_setGroupOperator (hb : b.Shows s n ⟨left ++ t :: right, within⟩)
    {operator : Connective} (h : Retypes operator id t.root root) :
    ∃ b', b.apply (.setGroupOperator id operator) = (.ok .nothing, b') ∧
      b'.Shows s n ⟨left ++ { t with root } :: right, within⟩ := by
  obtain ⟨b', hx, hb'⟩ := hb.onArena_eq_ok h.id_eq fun _ => ArenaM.Does.setGroupOperator _ h
  have happly : BuilderM.apply (.setGroupOperator id operator) b = .ok .nothing b' := by
    rw [BuilderM.apply, EditM.get_bind, hb.settings_eq]
    exact EditM.bind_apply hx
  exact ⟨b', by rw [apply, happly], hb'⟩

theorem apply_setField (hb : b.Shows s n ⟨left ++ t :: right, within⟩) {field : Constraint.Field}
    (h : Updates (·.set field) id t.root root) :
    ∃ b', b.apply (.setField id field) = (.ok .nothing, b') ∧
      b'.Shows s n ⟨left ++ { t with root } :: right, within⟩ := by
  obtain ⟨b', hx, hb'⟩ := hb.onArena_eq_ok h.id_eq fun _ => ArenaM.Does.modifyLeaf _ h
  have happly : BuilderM.apply (.setField id field) b = .ok .nothing b' := EditM.bind_apply hx
  exact ⟨b', by rw [apply, happly], hb'⟩

end Shows

end Builder

end CorpusQuery
