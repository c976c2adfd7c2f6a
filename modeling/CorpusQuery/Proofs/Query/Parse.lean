import CorpusQuery.Proofs.Query.Token

/-! A query is read as the tokens that are written in it. -/

namespace CorpusQuery

/-- The name of an element that can be told from what stands around it. -/
def Text.ReadableElement (name : Text) : Prop := ∀ c ∈ name, isLayout c = false ∧ c ≠ '/'

/-- What stands behind the first token of a query. -/
def afterFirst (slots : List (Slot (Option Term))) (within : Option Text) : Text :=
  (slots.map fun t => ' ' :: t.text).flatten ++ withinText within

theorem joinTokens_cons (t : Slot (Option Term)) (slots : List (Slot (Option Term)))
    (within : Option Text) :
    joinTokens ((t :: slots).map Slot.text) within = t.text ++ afterFirst slots within := by
  have htokens : [' '].intercalate ((t :: slots).map Slot.text) =
      t.text ++ (slots.map fun t => ' ' :: t.text).flatten := by
    rw [List.map_cons, Text.intercalate_cons, List.flatMap_map, List.flatMap]
    rfl
  rw [joinTokens, htokens, afterFirst, List.append_assoc]

namespace Slot

/-- A token begins with a bracket or with the tag of a sentence. -/
theorem exists_text_eq (t : Slot (Option Term)) : ∃ ch rest, t.text = ch :: rest ∧
    (ch = '[' ∨ ch = '<' ∧ rest.head? = some 's') := by
  unfold text cqlAround
  cases t.opensSentence with
  | true => exact ⟨'<', _, rfl, .inr ⟨rfl, rfl⟩⟩
  | false => exact ⟨'[', _, rfl, .inl rfl⟩

theorem dropWhile_text (t : Slot (Option Term)) (tail : Text) :
    (t.text ++ tail).dropWhile isLayout = t.text ++ tail := by
  obtain ⟨ch, rest, heq, hch⟩ := t.exists_text_eq
  rw [heq, List.cons_append]
  rcases hch with rfl | ⟨rfl, -⟩ <;> exact List.dropWhile_cons_of_neg (by decide)

end Slot

theorem afterFirst_cons (t : Slot (Option Term)) (slots : List (Slot (Option Term)))
    (within : Option Text) :
    afterFirst (t :: slots) within = ' ' :: (t.text ++ afterFirst slots within) := by
  simp [afterFirst]

theorem follows_afterFirst (slots : List (Slot (Option Term))) (within : Option Text) :
    Parser.Follows (afterFirst slots within) := by
  cases slots with
  | nil =>
    cases within <;> constructor <;>
      simp [afterFirst, withinText, Parser.withinSymbol, Text.next?, isLayout]
  | cons t slots =>
    obtain ⟨ch, rest, heq, hch⟩ := t.exists_text_eq
    rw [afterFirst_cons]
    constructor
    · rw [Text.next?_space, Text.next?, t.dropWhile_text, heq]
      rcases hch with rfl | ⟨rfl, -⟩ <;> simp
    · rw [List.dropWhile_cons_of_pos (by decide), t.dropWhile_text, heq, List.cons_append]
      rcases hch with rfl | ⟨rfl, hs⟩
      · simp
      · cases rest with
        | nil => cases hs
        | cons d rest =>
          cases hs
          simp

/-- What is written of an element stands for it. -/
theorem Grammar.Within.of_name {name : Text} (hname : name.ReadableElement) :
    Grammar.Within (Parser.withinSymbol ++ (' ' :: '<' :: (name ++ ['/', '>']))) name :=
  .mk [' '] [] name [] [] (by simp [Grammar.Gap, isLayout]) .nil hname .nil .nil

namespace Parser

theorem givesIf_items (default : Text) {within : Option Text}
    (hwithin : ∀ name ∈ within, name.ReadableElement) (slots : List (Slot (Option Term)))
    (hslots : ∀ t ∈ slots, t.Readable) {turns : Nat}
    (hturns : ((afterFirst slots within).dropWhile isLayout).length ≤ turns) {c : Cursor}
    (hc : c.Before (afterFirst slots within)) :
    GivesIf (∀ t ∈ slots, t.Shallow) (items default turns c)
      (slots.map (fun t => Item.token t.token) ++ within.toList.map Item.within) := by
  induction slots generalizing turns c with
  | nil =>
    cases within with
    | none => exact .of_ok (items_eq_nil default turns hc) (by simp)
    | some name =>
      have hname := Grammar.Within.of_name (hwithin name rfl)
      have htext : afterFirst [] (some name) =
          ' ' :: (withinSymbol ++ (' ' :: '<' :: (name ++ ['/', '>'])) ++ []) := by
        simp [afterFirst, withinText]
      rw [htext] at hc hturns
      have hitem : ReadsIf True (item default c.skipLayout) (.within name) (·.Before []) :=
        (hname.reads_item hc).readsIf trivial
      refine (Grammar.givesIf_items_cons (d := 'w') (q := True) rfl (by decide) hturns hc hitem
        fun _ c hc => ?_).congr (by simp)
      exact .of_ok (items_eq_nil default _ hc) trivial
  | cons t slots ih =>
    obtain ⟨ch, u, heq, hch⟩ := t.exists_text_eq
    have hsolid : isLayout ch = false ∧ ch ≠ 'w' := by rcases hch with rfl | ⟨rfl, -⟩ <;> decide
    rw [afterFirst_cons] at hc hturns
    have hitem := Grammar.readsIf_tokenItem heq hsolid.1 hsolid.2 (fun hc =>
      readsIf_token (hslots t List.mem_cons_self) default (follows_afterFirst slots within) hc) hc
    exact (Grammar.givesIf_items_cons heq hsolid.1 hturns hc hitem fun hturns _ hc =>
      ih (fun u hu => hslots u (List.mem_cons_of_mem t hu)) hturns hc).congr
        List.forall_mem_cons.symm

end Parser

/-- Reading a query gives back the tokens that are written in it, if parentheses do not nest too
deep; if they do, it fails. -/
theorem Query.givesIf_parse {slots : List (Slot (Option Term))} (hne : slots ≠ [])
    (hslots : ∀ t ∈ slots, t.Readable) {within : Option Text}
    (hwithin : ∀ name ∈ within, name.ReadableElement) (default : Text) :
    GivesIf (∀ t ∈ slots, t.Shallow)
      (Query.parse default (joinTokens (slots.map Slot.text) within))
      (some ⟨slots.map Slot.token, within⟩) := by
  obtain ⟨t, slots, rfl⟩ := List.exists_cons_of_ne_nil hne
  rw [joinTokens_cons]
  -- Of the items all but the last are tokens, so they come apart as they were put together.
  have hitems : Query.ofItems t.token
      (slots.map (fun t => Parser.Item.token t.token) ++ within.toList.map Parser.Item.within) =
        ⟨(t :: slots).map Slot.token, within⟩ := by
    have htokens : (slots.map (fun t => Parser.Item.token t.token)).filterMap Parser.Item.token? =
        slots.map Slot.token := by
      rw [List.filterMap_map]
      exact congrFun (List.filterMap_eq_map (f := Slot.token)) slots
    have hnames : (slots.map (fun t => Parser.Item.token t.token)).filterMap
        Parser.Item.within? = [] := by
      rw [List.filterMap_map]
      exact List.filterMap_eq_nil_iff.mpr fun _ _ => rfl
    rw [ofItems, List.filterMap_append, List.filterMap_append, htokens, hnames]
    cases within <;> simp [Parser.Item.token?, Parser.Item.within?]
  rw [← hitems]
  obtain ⟨ch, u, heq, hch⟩ := t.exists_text_eq
  have hsolid : isLayout ch = false := by rcases hch with rfl | ⟨rfl, -⟩ <;> decide
  exact (Grammar.givesIf_parse_cons .nil heq hsolid
    (fun hc => Parser.readsIf_token (hslots t List.mem_cons_self) default
      (follows_afterFirst slots within) hc)
    (fun hturns _ hc => Parser.givesIf_items default hwithin slots
      (fun u hu => hslots u (List.mem_cons_of_mem t hu)) hturns hc)).congr List.forall_mem_cons.symm

end CorpusQuery
