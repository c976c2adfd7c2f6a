import CorpusQuery.Proofs.Arena.Load
import CorpusQuery.Proofs.Arena.Reshape

/-! When a builder shows a draft, and the edits that always succeed. -/

namespace CorpusQuery

/-- The builder holds the tokens of the draft, and no other nodes. -/
structure Builder.Shows (b : Builder) (s : Settings) (n : NodeId) (d : Draft) : Prop where
  settings_eq : b.settings = s
  slots_eq : b.slots = d.slots.map (Slot.mapRoot Group.id)
  within_eq : b.within = d.within
  holds : b.arena.Holds n (d.cells s.operatorLabel)

theorem Builder.shows_empty (s : Settings) : (Builder.empty s).Shows s 0 ⟨[], none⟩ :=
  ⟨rfl, rfl, rfl, Arena.Holds.empty⟩

/-- Nodes that are in no group come into the group `parent`. -/
theorem Arena.Holds.adopt {a : Arena} {n : NodeId} {label : Connective → Text} {h : Heap}
    (parent : NodeId) (ms : List Node) (ha : a.Holds n (Node.cellsAll label none ms + h)) :
    ((ms.map Node.id).foldl (fun a child => a.setParent child (some parent)) a).Holds n
      (Node.cellsAll label (some parent) ms + h) := by
  induction ms generalizing a h with
  | nil => exact ha
  | cons m rest ih =>
    rw [Node.cellsAll_cons, Node.cells_eq, add_assoc, add_assoc] at ha
    -- Only the link of the first node changes; the others are still loose.
    have hset : a.setParent m.id (some parent) = a.setCell m.id ⟨some parent, m.entry label⟩ := by
      rw [Arena.setParent, ha.cell?]
    have hfirst := ha.setCell ⟨some parent, m.entry label⟩
    rw [← hset] at hfirst
    have hrest := ih (h := m.cells label (some parent) + h)
      (hfirst.reorder (by rw [Node.cells_eq]; abel))
    exact hrest.reorder (by rw [Node.cellsAll_cons]; abel)

namespace BuilderM

/-- On every builder that shows `d`, the edit succeeds with `x`, and the builder shows `d'`. -/
def Does {α : Type} (m : BuilderM α) (s : Settings) (n : NodeId) (d : Draft) (x : α) (n' : NodeId)
    (d' : Draft) : Prop :=
  ∀ b : Builder, b.Shows s n d → ∃ b', m b = .ok x b' ∧ b'.Shows s n' d'

namespace Does

variable {α β : Type} {s : Settings} {n n' n'' : NodeId} {d d' d'' : Draft} {x : α} {y : β}

theorem pure : Does (Pure.pure x) s n d x n d :=
  fun b hb => ⟨b, rfl, hb⟩

theorem bind {m : BuilderM α} {f : α → BuilderM β} (hm : Does m s n d x n' d')
    (hf : Does (f x) s n' d' y n'' d'') : Does (m >>= f) s n d y n'' d'' := by
  intro b hb
  obtain ⟨b', hx, hb'⟩ := hm b hb
  obtain ⟨b'', hy, hb''⟩ := hf b' hb'
  exact ⟨b'', EditM.bind_eq_ok.mpr ⟨x, b', hx, hy⟩, hb''⟩

/-- What follows a look at the whole builder may use what the builder shows. -/
theorem get_bind {f : Builder → BuilderM β}
    (hf : ∀ b, b.Shows s n d → Does (f b) s n d y n' d') : Does (get >>= f) s n d y n' d' :=
  fun b hb => hf b hb b hb

/-- An edit of the arena that leaves the roots where they are. -/
theorem onArena {m : ArenaM α}
    (hm : ArenaM.Does m n (d.cells s.operatorLabel) x n' (d'.cells s.operatorLabel))
    (hslots : d'.slots.map (Slot.mapRoot Group.id) = d.slots.map (Slot.mapRoot Group.id))
    (hwithin : d'.within = d.within) : Does (onArena m) s n d x n' d' := by
  intro b hb
  obtain ⟨a', hx, ha'⟩ := hm b.arena hb.holds
  refine ⟨{ b with arena := a' }, ?_, hb.settings_eq, ?_, ?_, ha'⟩
  · simp only [BuilderM.onArena, hx]
  · rw [hslots]
    exact hb.slots_eq
  · rw [hwithin]
    exact hb.within_eq

theorem pushRoot_eq (children : List NodeId) (b : Builder) :
    BuilderM.pushRoot children b = .ok b.arena.next
      { b with
        arena := children.foldl (fun a child => a.setParent child (some b.arena.next))
          (b.arena.insert (.group ⟨b.settings.rootOperator,
            b.settings.operatorLabel b.settings.rootOperator, true, children⟩))
        slots := b.slots ++ [.ofRoot b.arena.next] } := rfl

/-- A token is added whose root has the given nodes, which were loose. -/
theorem pushRoot (ms : List Node) {slots : List (Slot Group)} {within : Option Text} {b : Builder}
    (hsettings : b.settings = s) (hslots : b.slots = slots.map (Slot.mapRoot Group.id))
    (hwithin : b.within = within)
    (ha : b.arena.Holds n (Node.cellsAll s.operatorLabel none ms +
      (Draft.mk slots within).cells s.operatorLabel)) :
    ∃ b', BuilderM.pushRoot (ms.map Node.id) b = .ok n b' ∧
      b'.Shows s (n + 1) ⟨slots ++ [.ofRoot ⟨n, s.rootOperator, ms⟩], within⟩ := by
  rw [pushRoot_eq, hsettings, ha.next_eq]
  refine ⟨_, rfl, rfl, ?_, hwithin, ?_⟩
  · simp [hslots, Slot.mapRoot, Slot.ofRoot]
  · have hroot := ha.insert (.group ⟨s.rootOperator, s.operatorLabel s.rootOperator, true,
      ms.map Node.id⟩)
    have hall := Arena.Holds.adopt n ms (hroot.reorder (add_left_comm ..))
    refine hall.reorder ?_
    rw [Draft.cells_append, List.append_nil, Slot.ofRoot, Group.cells, Group.placed, Group.cell]
    abel

/-- A blank token. -/
theorem createToken (slots : List (Slot Group)) (within : Option Text) :
    Does BuilderM.createToken s n ⟨slots, within⟩ slots.length (n + 2)
      ⟨slots ++ [.blank s n], within⟩ := by
  intro b hb
  obtain ⟨rfl, hslots, hwithin, ha⟩ := hb
  have hleaf := ha.insert (.leaf (.blank b.settings.defaultAttribute))
  obtain ⟨b', hroot, hb'⟩ := pushRoot [.leaf n (.blank b.settings.defaultAttribute)]
    (b := { b with arena := b.arena.insert (.leaf (.blank b.settings.defaultAttribute)) })
    rfl hslots hwithin
    (hleaf.reorder (by simp [Node.cells]))
  refine ⟨b', ?_, hb'⟩
  have heq : BuilderM.createToken b =
      (BuilderM.pushRoot [b.arena.next] >>= fun _ => Pure.pure b.slots.length)
        { b with arena := b.arena.insert (.leaf (.blank b.settings.defaultAttribute)) } := rfl
  have hlength : b.slots.length = slots.length := by rw [hslots, List.length_map]
  rw [heq, ha.next_eq, hlength]
  exact EditM.bind_apply hroot

theorem pushBareRoot {slots : List (Slot Group)} {within : Option Text} :
    Does (BuilderM.pushRoot []) s n ⟨slots, within⟩ n (n + 1)
      ⟨slots ++ [.ofRoot (.bare s n)], within⟩ :=
  fun _ hb => pushRoot [] hb.settings_eq hb.slots_eq hb.within_eq
    (hb.holds.reorder (zero_add _).symm)

/-- The last token changes around its root. -/
theorem set_last {f : Slot NodeId → Slot NodeId} {slots : List (Slot Group)} {t u : Slot Group}
    {within : Option Text} (hroot : u.root = t.root)
    (hf : f (t.mapRoot Group.id) = u.mapRoot Group.id) :
    Does (BuilderM.onSlots (Slot.set · slots.length f)) s n ⟨slots ++ [t], within⟩ () n
      ⟨slots ++ [u], within⟩ := by
  intro b hb
  have hset : Slot.set b.slots slots.length f =
      .ok ((slots ++ [u]).map (Slot.mapRoot Group.id)) := by
    simp [Slot.set, Slot.get, hb.slots_eq, hf, Bind.bind, Except.bind, Pure.pure, Except.pure]
  have hlook : EditM.look (fun b => Slot.set b.slots slots.length f) b = .ok _ b :=
    EditM.look_eq_ok hset
  refine ⟨_, EditM.bind_apply hlook, hb.settings_eq, rfl, hb.within_eq, ?_⟩
  have ha := hb.holds
  rw [Draft.cells_append] at ha ⊢
  rw [hroot]
  exact ha

theorem load {slots : List (Slot Group)} {t : Slot Group} {within : Option Text} {id : NodeId}
    (ht : t.root = Group.bare s id) (e : Expr) :
    Does (BuilderM.onArena (ArenaM.load s [(e, id, 0)])) s n ⟨slots ++ [t], within⟩ ()
      (e.nodes s (e.connective?.getD s.rootOperator) n).2
      ⟨slots ++ [{ t with root := .ofExpr s id e n }], within⟩ := by
  refine onArena ?_ ?_ rfl
  · rw [Draft.cells_append, Draft.cells_append, ht]
    exact ArenaM.Does.loadRoot id e
  · simp [Slot.mapRoot, ht, Group.ofExpr, Group.bare]

theorem pushToken {t : Token} (hfault : t.fault? = none) {slots : List (Slot Group)}
    {within : Option Text} :
    Does (BuilderM.pushToken t) s n ⟨slots, within⟩ () (Slot.nextAfter s t n)
      ⟨slots ++ [Slot.ofToken s t n], within⟩ := by
  rw [BuilderM.pushToken, hfault]
  refine get_bind fun b hb => ?_
  have hlength : b.slots.length = slots.length := by rw [hb.slots_eq, List.length_map]
  rw [hlength]
  -- The token is there before its expression, with a bare root and its marks set.
  refine bind pushBareRoot ?_
  refine bind (set_last (u := { Slot.ofToken s t n with root := .bare s n }) rfl rfl) ?_
  rw [Slot.ofToken, Slot.rootOf, Slot.nextAfter]
  cases t.expression with
  | none => exact pure
  | some e =>
    refine get_bind fun b hb => ?_
    rw [hb.settings_eq]
    exact load rfl e

theorem pushTokens {ts : List Token} (hfault : ∀ t ∈ ts, t.fault? = none)
    (slots : List (Slot Group)) (within : Option Text) (n : NodeId) :
    Does (BuilderM.pushTokens ts) s n ⟨slots, within⟩ () (Slot.nextAfterAll s ts n)
      ⟨slots ++ Draft.ofTokens s ts n, within⟩ := by
  induction ts generalizing n slots with
  | nil =>
    rw [Draft.ofTokens, List.append_nil]
    exact pure
  | cons t rest ih =>
    have hrest := ih (fun u hu => hfault u (List.mem_cons_of_mem t hu))
      (slots ++ [Slot.ofToken s t n]) (Slot.nextAfter s t n)
    refine bind (pushToken (hfault t List.mem_cons_self)) ?_
    simpa [Draft.ofTokens, Slot.nextAfterAll] using hrest

theorem setWithin (name : Option Text) {slots : List (Slot Group)} {within : Option Text} :
    Does (BuilderM.setWithin name) s n ⟨slots, within⟩ () n ⟨slots, name.filter (!·.isEmpty)⟩ :=
  fun _ hb => ⟨_, rfl, hb.settings_eq, hb.slots_eq, rfl, hb.holds⟩

/-- A query without faults takes the place of whatever there is. -/
theorem populate_some (b : Builder) {query : Query} (hq : ∀ t ∈ query.tokens, t.fault? = none) :
    ∃ b', BuilderM.populate (some query) b = .ok () b' ∧
      b'.Shows b.settings (Slot.nextAfterAll b.settings query.tokens 0)
        (.ofQuery b.settings (some query)) := by
  -- The new builder starts empty, so what it comes to does not depend on what was there.
  have hbuild : Does (BuilderM.build query) b.settings 0 ⟨[], none⟩ ()
      (Slot.nextAfterAll b.settings query.tokens 0) (.ofQuery b.settings (some query)) :=
    bind (pushTokens hq [] none 0) (setWithin query.within)
  obtain ⟨b', hx, hb'⟩ := hbuild _ (Builder.shows_empty b.settings)
  refine ⟨b', ?_, hb'⟩
  rw [BuilderM.populate, EditM.get_bind, hx]
  rfl

theorem populate {q : Option Query}
    (hq : ∀ query, q = some query → ∀ t ∈ query.tokens, t.fault? = none) :
    ∃ n', Does (BuilderM.populate q) s n d () n' (.ofQuery s q) := by
  cases q with
  | none =>
    refine ⟨2, fun b hb => ?_⟩
    obtain ⟨b', hcreate, hb'⟩ :=
      createToken [] none _ (Builder.shows_empty s)
    refine ⟨b', ?_, hb'⟩
    have heq : BuilderM.populate none b =
        (BuilderM.createToken >>= fun _ => Pure.pure ()) (Builder.empty b.settings) := rfl
    rw [heq, hb.settings_eq]
    exact EditM.bind_apply hcreate
  | some query =>
    exact ⟨_, fun b hb => hb.settings_eq ▸ populate_some b (hq query rfl)⟩

end Does

/-- A faulty token ends the build. -/
theorem pushTokens_eq_error {s : Settings} {ts : List Token} {n : NodeId}
    {slots : List (Slot Group)} {within : Option Text} {b : Builder}
    (hb : b.Shows s n ⟨slots, within⟩) {t : Token} (ht : t ∈ ts) (hfault : t.fault? ≠ none) :
    ∃ e b', pushTokens ts b = .error e b' := by
  induction ts generalizing n slots b with
  | nil => cases ht
  | cons u rest ih =>
    cases hu : u.fault? with
    | some e =>
      have hpush : pushToken u b = .error e b := by rw [pushToken, hu]; rfl
      exact ⟨e, b, EditM.bind_eq_error hpush⟩
    | none =>
      -- The token without a fault goes in, and the faulty one is still to come.
      have hrest : t ∈ rest := by
        rcases List.mem_cons.mp ht with rfl | hmem
        · exact absurd hu hfault
        · exact hmem
      obtain ⟨b', hpush, hb'⟩ := Does.pushToken hu b hb
      obtain ⟨e, b'', hfail⟩ := ih hb' hrest
      exact ⟨e, b'', (EditM.bind_apply hpush).trans hfail⟩

/-- A query with a faulty token leaves the builder as it was. -/
theorem populate_eq_error {query : Query} {t : Token} (ht : t ∈ query.tokens)
    (hfault : t.fault? ≠ none) (b : Builder) :
    ∃ e, populate (some query) b = .error e b := by
  obtain ⟨e, b', hpush⟩ := pushTokens_eq_error (Builder.shows_empty b.settings) ht hfault
  refine ⟨e, ?_⟩
  have hbuild : build query (.empty b.settings) = .error e b' := EditM.bind_eq_error hpush
  rw [populate, EditM.get_bind, hbuild]
  rfl

end BuilderM

end CorpusQuery
