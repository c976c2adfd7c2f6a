import CorpusQuery.Proofs.Items

/-!
Edits are local. A number that has been given to a node is never given to another one, and an edit
leaves alone whatever it does not name.
-/

namespace CorpusQuery

namespace Builder

/-- The number has been given to a node, which may be gone by now. -/
def Issued (b : Builder) (id : NodeId) : Prop := id < b.arena.next

/-- The node is in the tree of the token with the given root. A root stays with its token. -/
def InToken (b : Builder) (root id : NodeId) : Prop :=
  ∃ t ∈ b.slots, t.root = root ∧ ∃ ids, b.arena.below root = .ok ids ∧ id ∈ ids

/-- From one builder to a later one no number comes to mean another node. -/
structure KeepsIds (b b' : Builder) : Prop where
  live : ∀ id, b'.contains id → b'.Issued id
  issued : ∀ id, b.Issued id → b'.Issued id
  removed : ∀ id, b.Issued id → ¬ b.contains id → ¬ b'.contains id
  isGroup_iff : ∀ id, b.contains id → b'.contains id →
    ((∃ g, b.group id = .ok g) ↔ ∃ g, b'.group id = .ok g)
  inToken_iff : ∀ id, b.contains id → b'.contains id →
    ∀ root, b.InToken root id ↔ b'.InToken root id

/-- The token is still there, with all that stands around its tree and in it. -/
structure KeepsToken (b b' : Builder) (t : Slot NodeId) : Prop where
  mem : t ∈ b'.slots
  cell?_eq : ∀ id, b.InToken t.root id → b'.arena.cell? id = b.arena.cell? id
  tree_eq : b'.tree t.root = b.tree t.root
  slotCql_eq : b'.slotCql t = b.slotCql t

/-- What the edit does not name stays as it is. -/
structure EditsLocally (b : Builder) (e : Edit) : Prop where
  fresh : ∀ id, (b.step e).contains id → ¬ b.contains id → ¬ b.Issued id
  new_node : ∀ id, (b.apply e).1 = .ok (.node id) → (b.step e).contains id ∧ ¬ b.Issued id
  constraint : ∀ id c, b.constraint id = .ok c → (b.step e).contains id →
    (∀ field, e ≠ .setField id field) → (b.step e).constraint id = .ok c
  /-- No other token changes, whether the edit is about a node or a token. -/
  others : ∀ index t, b.slots[index]? = some t → e.token? ≠ some index →
    (∀ id ∈ e.node?, ¬ b.InToken t.root id) → b.KeepsToken (b.step e) t
  slots : ∀ id ∈ e.node?, (b.step e).slots = b.slots
  tokenCql : ∀ id ∈ e.node?, ∀ index t, b.slots[index]? = some t → ¬ b.InToken t.root id →
    (b.step e).tokenCql index = b.tokenCql index
  moveToken : ∀ source target, e = .moveToken source target →
    ∃ slots, slots.Perm b.slots ∧ b.step e = { b with slots }

end Builder

/-! ### What a builder holds -/

namespace Builder

namespace Shows

variable {b b' : Builder} {s : Settings} {n n' : NodeId} {d d' : Draft} {id : NodeId}

theorem cell?_of_item (hb : b.Shows s n d) {x : Item} (hx : x ∈ d.items) :
    ∃ c, b.arena.cell? x.id = some c ∧ c.entry.constraint? = x.constraint? := by
  obtain ⟨t, ht, hx⟩ := Draft.mem_items.mp hx
  obtain ⟨⟨id, c⟩, hcell, rfl⟩ := (t.root.mem_items_iff s.operatorLabel).mp hx
  exact ⟨c, (hb.holds.cell?_eq_some_iff id c).mpr (Draft.mem_cells.mpr ⟨t, ht, hcell⟩), rfl⟩

theorem item_of_cell? (hb : b.Shows s n d) {c : Cell} (hc : b.arena.cell? id = some c) :
    ∃ token, ⟨token, id, c.entry.constraint?⟩ ∈ d.items := by
  obtain ⟨t, ht, hcell⟩ := Draft.mem_cells.mp ((hb.holds.cell?_eq_some_iff id c).mp hc)
  exact ⟨t.root.id, Draft.mem_items.mpr ⟨t, ht, (t.root.mem_items_iff _).mpr ⟨_, hcell, rfl⟩⟩⟩

theorem contains_iff_item (hb : b.Shows s n d) : b.contains id ↔ ∃ x ∈ d.items, x.id = id := by
  constructor
  · intro hid
    obtain ⟨c, hc⟩ := Option.isSome_iff_exists.mp hid
    obtain ⟨token, hx⟩ := hb.item_of_cell? hc
    exact ⟨_, hx, rfl⟩
  · rintro ⟨x, hx, rfl⟩
    obtain ⟨c, hc, -⟩ := hb.cell?_of_item hx
    exact Option.isSome_iff_exists.mpr ⟨c, hc⟩

theorem constraint_iff (hb : b.Shows s n d) {x : Item} (hx : x ∈ d.items) {c : Constraint} :
    b.constraint x.id = .ok c ↔ x.constraint? = some c := by
  obtain ⟨⟨parent, e⟩, hcell, hvalue⟩ := hb.cell?_of_item hx
  rw [← hvalue, constraint, Arena.constraint, hcell]
  cases e <;> simp [Entry.constraint?]

theorem isGroup_iff (hb : b.Shows s n d) {x : Item} (hx : x ∈ d.items) :
    (∃ g, b.group x.id = .ok g) ↔ x.constraint? = none := by
  obtain ⟨⟨parent, e⟩, hcell, hvalue⟩ := hb.cell?_of_item hx
  rw [← hvalue, group, Arena.group, hcell]
  cases e <;> simp [Entry.constraint?]

theorem below_root (hb : b.Shows s n d) {t : Slot Group} (ht : t ∈ d.slots) :
    b.arena.below t.root.id = .ok t.root.node.ids := by
  obtain ⟨h, ha⟩ := hb.holds_token ht
  exact t.root.arena_below s.operatorLabel ha

theorem inToken_root_iff (hb : b.Shows s n d) {t : Slot Group} (ht : t ∈ d.slots) :
    b.InToken t.root.id id ↔ id ∈ t.root.node.ids := by
  constructor
  · rintro ⟨-, -, -, ids, hids, hid⟩
    rw [hb.below_root ht] at hids
    cases hids
    exact hid
  · exact fun hid => ⟨_, hb.mapRoot_mem ht, rfl, _, hb.below_root ht, hid⟩

/-- No number is there twice. -/
theorem item_unique (hb : b.Shows s n d) {x y : Item} (hx : x ∈ d.items) (hy : y ∈ d.items)
    (h : x.id = y.id) : x = y := by
  have hnodup : (d.items.map (·.id)).Nodup := d.ids_items ▸ hb.nodup_ids
  exact List.inj_on_of_nodup_map hnodup hx hy h

theorem inToken_iff (hb : b.Shows s n d) {x : Item} (hx : x ∈ d.items) {root : NodeId} :
    b.InToken root x.id ↔ x.root = root := by
  constructor
  · rintro ⟨t, ht, rfl, h⟩
    obtain ⟨u, hu, rfl⟩ := hb.mem_slots ht
    have hid : x.id ∈ u.root.node.ids := (hb.inToken_root_iff hu).mp ⟨_, ht, rfl, h⟩
    obtain ⟨c, hc⟩ := (u.root.mem_ids_iff s.operatorLabel).mp hid
    have hy : Item.ofCell u.root.id (x.id, c) ∈ d.items :=
      Draft.mem_items.mpr ⟨u, hu, (u.root.mem_items_iff _).mpr ⟨_, hc, rfl⟩⟩
    exact congrArg Item.root (hb.item_unique hx hy rfl)
  · rintro rfl
    obtain ⟨u, hu, hx⟩ := Draft.mem_items.mp hx
    obtain ⟨⟨id, c⟩, hc, rfl⟩ := (u.root.mem_items_iff s.operatorLabel).mp hx
    exact (hb.inToken_root_iff hu).mpr ((u.root.mem_ids_iff _).mpr ⟨c, hc⟩)

theorem lt_of_item (hb : b.Shows s n d) {x : Item} (hx : x ∈ d.items) : x.id < n := by
  have hlive : b.contains x.id := hb.contains_iff_item.mpr ⟨x, hx, rfl⟩
  exact hb.holds.next_eq ▸ Arena.lt_next_of_contains hlive

theorem keepsToken (hb : b.Shows s n d) (hb' : b'.Shows s n' d') {t : Slot Group}
    (ht : t ∈ d.slots) (ht' : t ∈ d'.slots) : b.KeepsToken b' (t.mapRoot Group.id) where
  mem := hb'.mapRoot_mem ht'
  cell?_eq id hid := by
    obtain ⟨c, hcell⟩ := (t.root.mem_ids_iff s.operatorLabel).mp ((hb.inToken_root_iff ht).mp hid)
    rw [(hb.holds.cell?_eq_some_iff _ c).mpr (Draft.mem_cells.mpr ⟨t, ht, hcell⟩),
      (hb'.holds.cell?_eq_some_iff _ c).mpr (Draft.mem_cells.mpr ⟨t, ht', hcell⟩)]
  tree_eq := (hb'.tree_eq ht').trans (hb.tree_eq ht).symm
  slotCql_eq := (hb'.slotCql_eq ht').trans (hb.slotCql_eq ht).symm

/-- Each edit fails and leaves the builder as it was, or is a step of the draft. -/
theorem step_cases (hb : b.Shows s n d) (e : Edit) :
    (b.step e = b ∧ ∃ error, (b.apply e).1 = .error error) ∨
      ∃ o n' d', Draft.Step s n e o d d' ∧ (b.apply e).1 = .ok o ∧ (b.step e).Shows s n' d' := by
  rcases BuilderM.apply_follows hb e with ⟨error, h⟩ | ⟨o, n', d', b', hstep, h, hb'⟩
  · exact .inl ⟨by simp only [step, apply, h], error, by simp only [apply, h]⟩
  · have hnext : b.step e = b' := by simp only [step, apply, h]
    exact .inr ⟨o, n', d', hstep, by simp only [apply, h], hnext ▸ hb'⟩

end Shows

/-- An edit of the tokens alone fails or sets them. -/
theorem step_onSlots {e : Edit} {F : List (Slot NodeId) → Except BuilderError (List (Slot NodeId))}
    (he : BuilderM.apply e = do
      BuilderM.onSlots F
      return .nothing) (b : Builder) :
    b.step e = b ∨ ∃ slots, F b.slots = .ok slots ∧ b.step e = { b with slots } := by
  cases hF : F b.slots with
  | error error =>
    have hlook : EditM.look (fun b => F b.slots) b = .error error b := EditM.look_eq_error hF
    have hfail : BuilderM.apply e b = .error error b :=
      he ▸ EditM.bind_eq_error (EditM.bind_eq_error hlook)
    exact .inl (by simp only [step, apply, hfail])
  | ok slots =>
    have hlook : EditM.look (fun b => F b.slots) b = .ok slots b := EditM.look_eq_ok hF
    have hset : BuilderM.onSlots F b = .ok () { b with slots } := EditM.bind_apply hlook
    have hdone : BuilderM.apply e b = .ok .nothing { b with slots } := he ▸ EditM.bind_apply hset
    exact .inr ⟨slots, rfl, by simp only [step, apply, hdone]⟩

theorem step_moveToken (b : Builder) (source target : Nat) :
    ∃ slots, slots.Perm b.slots ∧ b.step (.moveToken source target) = { b with slots } := by
  have hslots : BuilderM.apply (.moveToken source target) = do
      BuilderM.onSlots (Slot.move · source target)
      return .nothing := rfl
  rcases step_onSlots hslots b with h | ⟨slots, hmove, h⟩
  · exact ⟨b.slots, .refl _, h⟩
  · exact ⟨slots, Slot.move_perm hmove, h⟩

theorem arena_step_of_rearranges {e : Edit} {slots slots' : List (Slot Group)}
    (h : Draft.Rearranges e slots slots') (b : Builder) : (b.step e).arena = b.arena := by
  have harena : ∀ {F : List (Slot NodeId) → Except BuilderError (List (Slot NodeId))},
      (BuilderM.apply e = do
        BuilderM.onSlots F
        return .nothing) → (b.step e).arena = b.arena := by
    intro F he
    rcases step_onSlots he b with hsame | ⟨slots, -, hset⟩
    · rw [hsame]
    · rw [hset]
  cases h with
  | moveToken source target => exact harena rfl
  | setMark index mark value => exact harena rfl
  | setRepeats index r => exact harena rfl

namespace Shows

variable {b b' : Builder} {s : Settings} {n n' : NodeId} {d d' : Draft} {e : Edit} {o : Outcome}

/-- Numbers that have been given out are not taken back. -/
theorem next_le (hb : b.Shows s n d) (he : e.startsOver = false) (hstep : Draft.Step s n e o d d')
    (hb' : (b.step e).Shows s n' d') : n ≤ n' := by
  -- A rule does not say where the counter goes. Either it makes a node, whose number lies below the
  -- counter afterwards, or its edit is known to leave the counter alone.
  have hsame : ∀ {d''}, (b.step e).Shows s n d'' → n ≤ n' :=
    fun h => Nat.le_of_eq (h.holds.next_eq.symm.trans hb'.holds.next_eq)
  have hnew : ∀ x ∈ d'.items, x.id = n → n ≤ n' :=
    fun x hx hid => hid ▸ Nat.le_of_lt (hb'.lt_of_item hx)
  cases hstep with
  | load e q d hloads => cases hloads <;> cases he
  | createToken slots within =>
    refine hnew ⟨n + 1, n, some (.blank s.defaultAttribute)⟩ (Draft.mem_items.mpr ?_) rfl
    refine ⟨.blank s n, by simp, ?_⟩
    simp [Slot.blank, Slot.ofRoot, Group.node, Node.items, Node.itemsAll]
  | removeToken left t right within =>
    rcases BuilderM.removeToken_cases hb left.length with ⟨error, h⟩ | ⟨_, _, _, b'', -, -, h, hb''⟩
    · have hfail : BuilderM.apply (.removeToken left.length) b = .error error b :=
        EditM.bind_eq_error h
      exact hsame (by simpa only [step, apply, hfail] using hb)
    · have hdone : BuilderM.apply (.removeToken left.length) b = .ok .nothing b'' :=
        EditM.bind_apply h
      exact hsame (by simpa only [step, apply, hdone] using hb'')
  | rearrange e slots slots' within hrearranges =>
    rw [← hb'.holds.next_eq, arena_step_of_rearranges hrearranges, hb.holds.next_eq]
  | setWithin name slots within =>
    exact Nat.le_of_eq (hb.holds.next_eq.symm.trans hb'.holds.next_eq)
  | reshape e o left t right root within hreshapes =>
    cases hreshapes with
    | createConstraint group operator origin g g' hjoins =>
      obtain ⟨x, hx, hid⟩ := List.mem_map.mp (root.node.ids_items ▸ hjoins.new_mem_ids)
      exact hnew x (Draft.mem_items.mpr ⟨{ t with root }, by simp, hx⟩) hid
    | removeNode id g g' hremoves =>
      obtain ⟨b'', happly, hb''⟩ := hb.apply_removeNode hremoves
      exact hsame (by simpa only [step, happly] using hb'')
    | setGroupOperator id operator g g' hretypes =>
      obtain ⟨b'', happly, hb''⟩ := hb.apply_setGroupOperator hretypes
      exact hsame (by simpa only [step, happly] using hb'')
    | setField id field g g' hupdates =>
      obtain ⟨b'', happly, hb''⟩ := hb.apply_setField hupdates
      exact hsame (by simpa only [step, happly] using hb'')

theorem exists_editsLocally (hb : b.Shows s n d) (he : e.startsOver = false) :
    ∃ n' d', (b.step e).Shows s n' d' ∧ Draft.EditsLocally e n n' d d' := by
  rcases hb.step_cases e with ⟨hsame, -⟩ | ⟨o, n', d', hstep, -, hb'⟩
  · exact ⟨n, d, hsame.symm ▸ hb, .refl e n d⟩
  · exact ⟨n', d', hb', hb.next_le he hstep hb', hstep.carries he, fun _ _ => hstep.mem_slots he,
      fun _ => hstep.mapRoot_slots⟩

/-- A node that is there before and after an edit has been carried along. -/
theorem exists_carries (hb : b.Shows s n d) (hb' : b'.Shows s n' d')
    (h : Draft.EditsLocally e n n' d d') {id : NodeId} (hid : b.Issued id)
    (hlive : b'.contains id) :
    ∃ x ∈ d.items, ∃ y ∈ d'.items, e.Carries x y ∧ x.id = id ∧ y.id = id := by
  obtain ⟨y, hy, rfl⟩ := hb'.contains_iff_item.mp hlive
  rcases h.carries y hy with hle | ⟨x, hx, hcarries⟩
  · rw [Issued, hb.holds.next_eq] at hid
    exact absurd hid (Nat.not_lt.mpr hle)
  · exact ⟨x, hx, y, hy, hcarries, by cases hcarries <;> rfl, rfl⟩

theorem keepsIds (hb : b.Shows s n d) (hb' : b'.Shows s n' d')
    (h : Draft.EditsLocally e n n' d d') : b.KeepsIds b' where
  live _ hid := Arena.lt_next_of_contains hid
  issued id hid := by
    rw [Issued, hb.holds.next_eq] at hid
    rw [Issued, hb'.holds.next_eq]
    exact Nat.lt_of_lt_of_le hid h.next_le
  removed id hid hgone hlive := by
    obtain ⟨x, hx, -, -, -, rfl, -⟩ := hb.exists_carries hb' h hid hlive
    exact hgone (hb.contains_iff_item.mpr ⟨x, hx, rfl⟩)
  isGroup_iff id hid hlive := by
    obtain ⟨x, hx, y, hy, hcarries, rfl, hxy⟩ :=
      hb.exists_carries hb' h (Arena.lt_next_of_contains hid) hlive
    rw [hb.isGroup_iff hx, ← hxy, hb'.isGroup_iff hy]
    cases hcarries <;> simp
  inToken_iff id hid hlive root := by
    obtain ⟨x, hx, y, hy, hcarries, rfl, hxy⟩ :=
      hb.exists_carries hb' h (Arena.lt_next_of_contains hid) hlive
    rw [hb.inToken_iff hx, ← hxy, hb'.inToken_iff hy]
    cases hcarries <;> rfl

theorem keepsToken_of_getElem? (hb : b.Shows s n d) (hb' : b'.Shows s n' d')
    (h : Draft.EditsLocally e n n' d d') {index : Nat} {t : Slot NodeId}
    (ht : b.slots[index]? = some t) (htoken : e.token? ≠ some index)
    (hnode : ∀ id ∈ e.node?, ¬ b.InToken t.root id) : b.KeepsToken b' t := by
  rw [hb.slots_eq, List.getElem?_map, Option.map_eq_some_iff] at ht
  obtain ⟨u, hu, rfl⟩ := ht
  have hmem : u ∈ d.slots := List.mem_of_getElem? hu
  refine hb.keepsToken hb' hmem (h.mem_slots index u hu htoken fun id hid => ?_)
  exact fun hids => hnode id hid ((hb.inToken_root_iff hmem).mpr hids)

/-- A node that an edit says it has made is there, and its number is new. -/
theorem new_node (hb : b.Shows s n d) {id : NodeId} (h : (b.apply e).1 = .ok (.node id)) :
    (b.step e).contains id ∧ ¬ b.Issued id := by
  rcases hb.step_cases e with ⟨-, error, herror⟩ | ⟨o, n', d', hstep, ho, hb'⟩
  · rw [herror] at h
    cases h
  · obtain rfl := Except.ok.inj (ho.symm.trans h)
    cases hstep with
    | reshape _ _ left t right root within hreshapes =>
      cases hreshapes with
      | createConstraint group operator origin g g' hjoins =>
        obtain ⟨c, hc⟩ := (root.mem_ids_iff s.operatorLabel).mp hjoins.new_mem_ids
        refine ⟨hb'.contains_iff.mpr ⟨c, Draft.mem_cells.mpr ⟨{ t with root }, by simp, hc⟩⟩, ?_⟩
        rw [Issued, hb.holds.next_eq]
        exact Nat.lt_irrefl n

theorem editsLocally (hb : b.Shows s n d) (he : e.startsOver = false) : b.EditsLocally e := by
  obtain ⟨n', d', hb', h⟩ := hb.exists_editsLocally he
  have hids := hb.keepsIds hb' h
  have hslots : ∀ id ∈ e.node?, (b.step e).slots = b.slots := fun id hid => by
    rw [hb.slots_eq, hb'.slots_eq, h.mapRoot_slots id hid]
  have hothers : ∀ index t, b.slots[index]? = some t → e.token? ≠ some index →
      (∀ id ∈ e.node?, ¬ b.InToken t.root id) → b.KeepsToken (b.step e) t :=
    fun index t ht htoken hnode => hb.keepsToken_of_getElem? hb' h ht htoken hnode
  refine ⟨fun id hlive hgone hid => hids.removed id hid hgone hlive, fun id => hb.new_node, ?_,
    hothers, hslots, ?_, ?_⟩
  · intro id c hc hlive hne
    have hid : b.contains id := by
      obtain ⟨parent, hcell⟩ := Arena.constraint_eq_ok.mp hc
      exact Option.isSome_iff_exists.mpr ⟨_, hcell⟩
    obtain ⟨x, hx, y, hy, hcarries, rfl, hxy⟩ :=
      hb.exists_carries hb' h (Arena.lt_next_of_contains hid) hlive
    cases hcarries with
    | same => exact (hb'.constraint_iff hy).mpr ((hb.constraint_iff hx).mp hc)
    | setField root id c field he => exact absurd he (hne field)
  · intro id hid index t ht hnot
    have htoken : e.token? ≠ some index := by simp [Edit.token?_of_node? hid]
    have hkept := hothers index t ht htoken fun j hj => Option.some.inj (hid.symm.trans hj) ▸ hnot
    have hget : b.token index = .ok t := by rw [token, Slot.get, ht]
    have hget' : (b.step e).token index = .ok t := by rw [token, hslots id hid, ← hget]; rfl
    rw [tokenCql, tokenCql, hget, hget']
    exact hkept.slotCql_eq
  · rintro source target rfl
    exact b.step_moveToken source target

end Shows

/-! ### Runs -/

namespace KeepsIds

theorem refl (b : Builder) : b.KeepsIds b where
  live _ hid := Arena.lt_next_of_contains hid
  issued _ hid := hid
  removed _ _ hgone := hgone
  isGroup_iff _ _ _ := Iff.rfl
  inToken_iff _ _ _ _ := Iff.rfl

theorem trans {b b' b'' : Builder} (h : b.KeepsIds b') (h' : b'.KeepsIds b'') : b.KeepsIds b'' := by
  -- What is there at both ends has been there all the time.
  have hbetween : ∀ id, b.contains id → b''.contains id → b'.contains id := by
    intro id hid hid''
    by_contra hgone
    exact h'.removed id (h.issued id (Arena.lt_next_of_contains hid)) hgone hid''
  refine ⟨h'.live, fun id hid => h'.issued id (h.issued id hid), ?_, ?_, ?_⟩
  · intro id hid hgone
    exact h'.removed id (h.issued id hid) (h.removed id hid hgone)
  · intro id hid hid''
    have hid' := hbetween id hid hid''
    exact (h.isGroup_iff id hid hid').trans (h'.isGroup_iff id hid' hid'')
  · intro id hid hid'' root
    have hid' := hbetween id hid hid''
    exact (h.inToken_iff id hid hid' root).trans (h'.inToken_iff id hid' hid'' root)

end KeepsIds

theorem Shows.run_keepsIds {b : Builder} {s : Settings} {n : NodeId} {d : Draft}
    (hb : b.Shows s n d) {edits : List Edit} (hedits : ∀ e ∈ edits, e.startsOver = false) :
    b.KeepsIds (b.run edits) := by
  induction edits generalizing b n d with
  | nil => exact .refl b
  | cons e rest ih =>
    rw [List.forall_mem_cons] at hedits
    obtain ⟨n', d', hb', h⟩ := hb.exists_editsLocally hedits.1
    exact (hb.keepsIds hb' h).trans (ih hb' hedits.2)

/-- Unless an edit starts over, numbers mean the same nodes from whatever a builder has been through
to whatever it comes to, and each edit on the way leaves alone what it does not name. -/
theorem run_editsLocally (s : Settings) (before : List Edit) {edits : List Edit}
    (hedits : ∀ e ∈ edits, e.startsOver = false) :
    let b := (Builder.new s).run before
    b.KeepsIds (b.run edits) ∧ ∀ e, e.startsOver = false → (b.run edits).EditsLocally e := by
  intro b
  obtain ⟨n, d, hb⟩ := exists_shows_run s before
  obtain ⟨n', d', hb'⟩ := exists_shows_run s (before ++ edits)
  rw [run, List.foldl_append] at hb'
  exact ⟨hb.run_keepsIds hedits, fun e he => hb'.editsLocally he⟩

/-- One of two tokens gets an alternative, then the other one. -/
theorem run_editsLocally_twoTokens :
    let b := (Builder.new .standard).run [.createToken]
    let edits : List Edit := [.createConstraint 1 .or none]
    (∀ e ∈ edits, e.startsOver = false) ∧ b.KeepsIds (b.run edits) ∧ ¬ b.Issued 4 ∧
      (b.run edits).contains 4 ∧ (b.run edits).EditsLocally (.createConstraint 3 .or none) := by
  intro b edits
  have hedits : ∀ e ∈ edits, e.startsOver = false := by decide
  have hnext : b.arena.next = 4 := by decide +kernel
  have hlive : (b.run edits).contains 4 := by decide +kernel
  obtain ⟨hids, hlocal⟩ := run_editsLocally .standard [.createToken] hedits
  exact ⟨hedits, hids, fun h => Nat.lt_irrefl 4 (hnext ▸ h), hlive, hlocal _ rfl⟩

end Builder

end CorpusQuery
