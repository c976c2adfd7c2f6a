import CorpusQuery.Json.Printer
import CorpusQuery.Json.Reader
import CorpusQuery.Proofs.Value.Quotes

/-!
The two layouts of a document. Without the white space around its symbols the wide one is the
compact one, and from the compact one the document can be told.
-/

namespace CorpusQuery.Json

/-- A text without the white space outside of its string literals. Inside of a literal it is known
whether the next character is escaped. -/
def tightenFrom : Option Bool → Text → Text
  | _, [] => []
  | none, c :: rest =>
    if isSpace c then tightenFrom none rest
    else c :: tightenFrom (if c = '"' then some false else none) rest
  | some escaped, c :: rest =>
    c :: tightenFrom (if c = '"' ∧ escaped = false then none else some (escapesNext escaped c)) rest

def tighten (t : Text) : Text := tightenFrom none t

/-- Strings end where they should, and numbers are digits. -/
inductive Plain : Json → Prop where
  | null : Plain .null
  | bool (value : Bool) : Plain (.bool value)
  | number (written : Text) (hne : written ≠ []) (hdigits : ∀ c ∈ written, c.isDigit) :
    Plain (.number written)
  | string (written : Text) (hclosed : Quotes.Closed written) : Plain (.string written)
  | array (items : List Json) (hitems : ∀ v ∈ items, Plain v) : Plain (.array items)
  | object (fields : List (Text × Json)) (hkeys : ∀ f ∈ fields, Quotes.Closed f.1)
      (hvalues : ∀ f ∈ fields, Plain f.2) : Plain (.object fields)

theorem ne_of_isDigit {c d : Char} (hc : c.isDigit) (hd : d.isDigit = false) : c ≠ d := by
  rintro rfl
  rw [hc] at hd
  cases hd

theorem isSpace_of_isDigit {c : Char} (hc : c.isDigit) : isSpace c = false := by
  have hne : ∀ d, d.isDigit = false → (c == d) = false :=
    fun d hd => beq_eq_false_iff_ne.mpr (ne_of_isDigit hc hd)
  rw [isSpace, hne ' ' rfl, hne '\t' rfl, hne '\n' rfl, hne '\r' rfl]
  rfl

/-! ### White space -/

section Tighten

variable {c : Char} {t written rest : Text} {level : Nat}

theorem tighten_cons (hspace : isSpace c = false) (hquote : c ≠ '"') :
    tighten (c :: rest) = c :: tighten rest := by
  simp [tighten, tightenFrom, hspace, hquote]

theorem tighten_append (h : ∀ c ∈ t, isSpace c = false ∧ c ≠ '"') :
    tighten (t ++ rest) = t ++ tighten rest := by
  induction t with
  | nil => rfl
  | cons c t ih =>
    rw [List.forall_mem_cons] at h
    rw [List.cons_append, tighten_cons h.1.1 h.1.2, ih h.2, List.cons_append]

theorem tightenFrom_append {escaped : Bool} (h : Quotes.closedFrom escaped written) :
    tightenFrom (some escaped) (written ++ '"' :: rest) = written ++ '"' :: tighten rest := by
  induction written generalizing escaped with
  | nil =>
    have hescaped : escaped = false := h
    simp [tightenFrom, tighten, hescaped]
  | cons c written ih =>
    have hgoes : ¬ (c = '"' ∧ escaped = false) := by
      rintro ⟨heq, hescaped⟩
      rw [h.1 heq] at hescaped
      cases hescaped
    rw [List.cons_append, tightenFrom, if_neg hgoes, ih h.2, List.cons_append]

theorem tighten_inQuotes (h : Quotes.Closed written) :
    tighten (inQuotes written rest) = inQuotes written (tighten rest) := by
  have hquote : tighten ('"' :: (written ++ '"' :: rest)) =
    '"' :: tightenFrom (some false) (written ++ '"' :: rest) := rfl
  rw [inQuotes, List.cons_append, hquote, tightenFrom_append h, inQuotes, List.cons_append]

theorem tighten_newLine : tighten (newLine level rest) = tighten rest := by
  have hspaces : ∀ n, tighten (List.replicate n ' ' ++ rest) = tighten rest := by
    intro n
    induction n with
    | zero => rfl
    | succ n ih => rw [List.replicate_succ, List.cons_append, ← ih]; rfl
  exact hspaces (2 * level)

theorem tighten_prettyItemsTo {items : List Json}
    (h : ∀ v ∈ items, ∀ level rest, tighten (prettyTo level v rest) = compactTo v (tighten rest)) :
    tighten (prettyItemsTo level items rest) = compactItemsTo items (tighten rest) := by
  induction items with
  | nil => rw [prettyItemsTo, compactItemsTo]
  | cons item more ih =>
    rw [List.forall_mem_cons] at h
    rw [prettyItemsTo, tighten_cons rfl (by decide), tighten_newLine, h.1, ih h.2, compactItemsTo]

theorem tighten_prettyFieldTo {f : Text × Json} (hkey : Quotes.Closed f.1)
    (h : ∀ level rest, tighten (prettyTo level f.2 rest) = compactTo f.2 (tighten rest)) :
    tighten (prettyFieldTo level f rest) = compactFieldTo f (tighten rest) := by
  obtain ⟨key, value⟩ := f
  have hspace : tighten (' ' :: prettyTo level value rest) =
    tighten (prettyTo level value rest) := rfl
  rw [prettyFieldTo, tighten_inQuotes hkey, tighten_cons rfl (by decide), hspace, h, compactFieldTo]

theorem tighten_prettyFieldsTo {fields : List (Text × Json)}
    (hkeys : ∀ f ∈ fields, Quotes.Closed f.1)
    (h : ∀ f ∈ fields, ∀ level rest,
      tighten (prettyTo level f.2 rest) = compactTo f.2 (tighten rest)) :
    tighten (prettyFieldsTo level fields rest) = compactFieldsTo fields (tighten rest) := by
  induction fields with
  | nil => rw [prettyFieldsTo, compactFieldsTo]
  | cons f more ih =>
    rw [List.forall_mem_cons] at hkeys h
    rw [prettyFieldsTo, tighten_cons rfl (by decide), tighten_newLine,
      tighten_prettyFieldTo hkeys.1 h.1, ih hkeys.2 h.2, compactFieldsTo]

theorem Plain.tighten_prettyTo {v : Json} (h : v.Plain) (level : Nat) (rest : Text) :
    tighten (prettyTo level v rest) = compactTo v (tighten rest) := by
  induction h generalizing level rest with
  | null => rw [prettyTo, tighten_append (by simp [nullWord, isSpace]), compactTo]
  | bool value =>
    rw [prettyTo, tighten_append (by cases value <;> simp [boolWord, isSpace]), compactTo]
  | number written hne hdigits =>
    rw [prettyTo, tighten_append fun c hc => ⟨isSpace_of_isDigit (hdigits c hc), ?_⟩, compactTo]
    exact ne_of_isDigit (hdigits c hc) rfl
  | string written hclosed => rw [prettyTo, tighten_inQuotes hclosed, compactTo]
  | array items hitems ih =>
    cases items with
    | nil => rw [prettyTo, compactTo, tighten_cons rfl (by decide), tighten_cons rfl (by decide)]
    | cons item more =>
      -- No comma stands in front of the first item, so it is not part of the row.
      rw [List.forall_mem_cons] at ih
      rw [prettyTo, tighten_cons rfl (by decide), tighten_newLine, ih.1, tighten_prettyItemsTo ih.2,
        tighten_newLine, tighten_cons rfl (by decide), compactTo]
  | object fields hkeys hvalues ih =>
    cases fields with
    | nil => rw [prettyTo, compactTo, tighten_cons rfl (by decide), tighten_cons rfl (by decide)]
    | cons f more =>
      rw [List.forall_mem_cons] at hkeys ih
      rw [prettyTo, tighten_cons rfl (by decide), tighten_newLine,
        tighten_prettyFieldTo hkeys.1 ih.1, tighten_prettyFieldsTo hkeys.2 ih.2,
        tighten_newLine, tighten_cons rfl (by decide), compactTo]

end Tighten

/-! ### Telling documents apart -/

/-- Not in the middle of a number. -/
def Ends (rest : Text) : Prop := ∀ c ∈ rest.head?, c.isDigit = false

def kind : Json → Nat
  | .null => 0
  | .bool _ => 1
  | .number _ => 2
  | .string _ => 3
  | .array _ => 4
  | .object _ => 5

/-- The kind of value that begins with a character. -/
def kindOf? (c : Char) : Option Nat :=
  if c = 'n' then some 0
  else if c = 't' ∨ c = 'f' then some 1
  else if c.isDigit then some 2
  else if c = '"' then some 3
  else if c = '[' then some 4
  else if c = '{' then some 5
  else none

theorem kindOf?_digit {c : Char} (hc : c.isDigit) : kindOf? c = some 2 := by
  have hword : ¬ (c = 't' ∨ c = 'f') := not_or.mpr ⟨ne_of_isDigit hc rfl, ne_of_isDigit hc rfl⟩
  rw [kindOf?, if_neg (ne_of_isDigit hc rfl), if_neg hword, if_pos hc]

theorem Plain.kindOf?_head {v : Json} (h : v.Plain) (rest : Text) :
    (compactTo v rest).head?.bind kindOf? = some v.kind := by
  cases h with
  | null => rfl
  | bool value => cases value <;> rfl
  | number written hne hdigits =>
    cases written with
    | nil => exact absurd rfl hne
    | cons c written => exact kindOf?_digit (hdigits c List.mem_cons_self)
  | string => rfl
  | array items => cases items <;> rfl
  | object fields => cases fields <;> rfl

theorem digits_inj {t u r r' : Text} (ht : ∀ c ∈ t, c.isDigit) (hu : ∀ c ∈ u, c.isDigit)
    (hr : Ends r) (hr' : Ends r') (h : t ++ r = u ++ r') : t = u ∧ r = r' := by
  have htake : ∀ {t r : Text}, (∀ c ∈ t, c.isDigit) → Ends r →
      (t ++ r).takeWhile Char.isDigit = t := by
    intro t r ht hr
    have hnil : r.takeWhile Char.isDigit = [] := by
      cases r with
      | nil => rfl
      | cons c r => exact List.takeWhile_cons_of_neg (by simp [hr c rfl])
    rw [List.takeWhile_append_of_pos ht, hnil, List.append_nil]
  have heq : t = u := by rw [← htake ht hr, h, htake hu hr']
  subst heq
  exact ⟨rfl, List.append_cancel_left h⟩

theorem inQuotes_inj {t u r r' : Text} (ht : Quotes.Closed t) (hu : Quotes.Closed u)
    (h : inQuotes t r = inQuotes u r') : t = u ∧ r = r' := by
  rw [inQuotes, inQuotes, List.cons_append, List.cons_append, List.cons.injEq] at h
  have hcut := Quotes.cutUnescaped?_of_closedFrom ht r
  rw [h.2, Quotes.cutUnescaped?_of_closedFrom hu r', Option.some.injEq, Prod.mk.injEq,
    List.cons.injEq] at hcut
  exact ⟨hcut.1.symm, hcut.2.2.symm⟩

/-- What two things are written as tells whether they are the same, whatever comes behind. -/
def Apart {α : Type} (write : α → Text → Text) (x y : α) : Prop :=
  ∀ r r', Ends r → Ends r' → write x r = write y r' → x = y ∧ r = r'

/-- Things that are told apart are told apart in a row, up to the sign that ends it. -/
theorem foldr_inj {α : Type} {write : α → Text → Text} {stop : Char} (hdigit : stop.isDigit = false)
    (hstop : stop ≠ ',') {xs ys : List α} (h : ∀ x ∈ xs, ∀ y ∈ ys, Apart write x y) {r r' : Text}
    (heq : xs.foldr (fun x rest => ',' :: write x rest) (stop :: r) =
      ys.foldr (fun y rest => ',' :: write y rest) (stop :: r')) : xs = ys ∧ r = r' := by
  -- Behind each thing comes a comma or the last sign, so a number ends there.
  have hends : ∀ (xs : List α) r,
      Ends (xs.foldr (fun x rest => ',' :: write x rest) (stop :: r)) := by
    rintro (_ | ⟨x, xs⟩) r c ⟨⟩
    · exact hdigit
    · rfl
  induction xs generalizing ys with
  | nil =>
    cases ys with
    | nil => exact ⟨rfl, (List.cons.inj heq).2⟩
    | cons y ys => exact absurd (List.cons.inj heq).1 hstop
  | cons x xs ih =>
    cases ys with
    | nil => exact absurd (List.cons.inj heq).1.symm hstop
    | cons y ys =>
      obtain ⟨rfl, hrest⟩ := h x List.mem_cons_self y List.mem_cons_self _ _ (hends xs r)
        (hends ys r') (List.cons.inj heq).2
      obtain ⟨rfl, hr⟩ := ih (fun x' hx y' hy => h x' (.tail _ hx) y' (.tail _ hy)) hrest
      exact ⟨rfl, hr⟩

theorem compactItemsTo_eq (items : List Json) (rest : Text) :
    compactItemsTo items rest = items.foldr (fun v rest => ',' :: compactTo v rest) rest := by
  induction items with
  | nil => rw [compactItemsTo, List.foldr_nil]
  | cons item more ih => rw [compactItemsTo, ih, List.foldr_cons]

theorem compactFieldsTo_eq (fields : List (Text × Json)) (rest : Text) :
    compactFieldsTo fields rest =
      fields.foldr (fun f rest => ',' :: compactFieldTo f rest) rest := by
  induction fields with
  | nil => rw [compactFieldsTo, List.foldr_nil]
  | cons f more ih => rw [compactFieldsTo, ih, List.foldr_cons]

theorem apart_compactFieldTo {f g : Text × Json} (hf : Quotes.Closed f.1) (hg : Quotes.Closed g.1)
    (h : Apart compactTo f.2 g.2) : Apart compactFieldTo f g := by
  obtain ⟨key, value⟩ := f
  obtain ⟨key', value'⟩ := g
  intro r r' hr hr' heq
  rw [compactFieldTo, compactFieldTo] at heq
  obtain ⟨rfl, hvalue⟩ := inQuotes_inj hf hg heq
  obtain ⟨rfl, hrest⟩ := h r r' hr hr' (List.cons.inj hvalue).2
  exact ⟨rfl, hrest⟩

theorem apart_array {items items' : List Json} (hitems' : ∀ w ∈ items', Plain w)
    (hitems : ∀ v ∈ items, Plain v) (h : ∀ v ∈ items, ∀ w ∈ items', Apart compactTo v w) :
    Apart compactTo (.array items) (.array items') := by
  intro r r' _ _ heq
  -- A bracket that ends the array is no beginning of a value.
  have hempty : ∀ {v : Json} {r rest : Text}, v.Plain → ']' :: r ≠ compactTo v rest := by
    intro v r rest hv heq
    have hkind := hv.kindOf?_head rest
    rw [← heq] at hkind
    cases hkind
  cases items with
  | nil =>
    cases items' with
    | nil => exact ⟨rfl, (List.cons.inj (List.cons.inj heq).2).2⟩
    | cons w more' => exact absurd (List.cons.inj heq).2 (hempty (hitems' w List.mem_cons_self))
  | cons v more =>
    cases items' with
    | nil => exact absurd (List.cons.inj heq).2.symm (hempty (hitems v List.mem_cons_self))
    | cons w more' =>
      rw [compactTo, compactTo, compactItemsTo_eq, compactItemsTo_eq] at heq
      have hrow := congrArg (',' :: ·) (List.cons.inj heq).2
      obtain ⟨hsame, hrest⟩ := foldr_inj rfl (by decide) h hrow
      exact ⟨congrArg array hsame, hrest⟩

theorem apart_object {fields fields' : List (Text × Json)}
    (h : ∀ f ∈ fields, ∀ g ∈ fields', Apart compactFieldTo f g) :
    Apart compactTo (.object fields) (.object fields') := by
  intro r r' _ _ heq
  -- A brace that ends the object is no beginning of a key.
  have hempty : ∀ {f : Text × Json} {r rest : Text}, '}' :: r ≠ compactFieldTo f rest := by
    rintro ⟨key, value⟩ r rest heq
    exact absurd (List.cons.inj heq).1 (by decide)
  cases fields with
  | nil =>
    cases fields' with
    | nil => exact ⟨rfl, (List.cons.inj (List.cons.inj heq).2).2⟩
    | cons g more' => exact absurd (List.cons.inj heq).2 hempty
  | cons f more =>
    cases fields' with
    | nil => exact absurd (List.cons.inj heq).2.symm hempty
    | cons g more' =>
      rw [compactTo, compactTo, compactFieldsTo_eq, compactFieldsTo_eq] at heq
      have hrow := congrArg (',' :: ·) (List.cons.inj heq).2
      obtain ⟨hsame, hrest⟩ := foldr_inj rfl (by decide) h hrow
      exact ⟨congrArg object hsame, hrest⟩

theorem apart_bool (value value' : Bool) : Apart compactTo (.bool value) (.bool value') := by
  intro r r' _ _ h
  rw [compactTo, compactTo] at h
  cases value <;> cases value'
  · exact ⟨rfl, List.append_cancel_left h⟩
  · exact absurd (List.cons.inj h).1 (by decide)
  · exact absurd (List.cons.inj h).1 (by decide)
  · exact ⟨rfl, List.append_cancel_left h⟩

theorem Plain.kind_eq {v w : Json} (hv : v.Plain) (hw : w.Plain) {r r' : Text}
    (h : compactTo v r = compactTo w r') : v.kind = w.kind := by
  have hv' := hv.kindOf?_head r
  rw [h, hw.kindOf?_head r'] at hv'
  exact (Option.some.inj hv').symm

/-- A value is told from any other. -/
theorem Plain.apart {v w : Json} (hv : v.Plain) (hw : w.Plain) : Apart compactTo v w := by
  intro r r' hr hr' h
  -- In each case the first character tells that the other value is of the same kind.
  induction hv generalizing w r r' with
  | null =>
    have hkind := Plain.null.kind_eq hw h
    cases hw with
    | null => exact ⟨rfl, List.append_cancel_left h⟩
    | _ => cases hkind
  | bool value =>
    have hkind := (Plain.bool value).kind_eq hw h
    cases hw with
    | bool value' => exact apart_bool value value' r r' hr hr' h
    | _ => cases hkind
  | number written hne hdigits =>
    have hkind := (Plain.number written hne hdigits).kind_eq hw h
    cases hw with
    | number written' _ hdigits' =>
      obtain ⟨rfl, hrest⟩ := digits_inj hdigits hdigits' hr hr' h
      exact ⟨rfl, hrest⟩
    | _ => cases hkind
  | string written hclosed =>
    have hkind := (Plain.string written hclosed).kind_eq hw h
    cases hw with
    | string written' hclosed' =>
      obtain ⟨rfl, hrest⟩ := inQuotes_inj hclosed hclosed' h
      exact ⟨rfl, hrest⟩
    | _ => cases hkind
  | array items hitems ih =>
    have hkind := (Plain.array items hitems).kind_eq hw h
    cases hw with
    | array items' hitems' =>
      have hapart : ∀ v ∈ items, ∀ w ∈ items', Apart compactTo v w :=
        fun v hv w hw => ih v hv (hitems' w hw)
      exact apart_array hitems' hitems hapart r r' hr hr' h
    | _ => cases hkind
  | object fields hkeys hvalues ih =>
    have hkind := (Plain.object fields hkeys hvalues).kind_eq hw h
    cases hw with
    | object fields' hkeys' hvalues' =>
      have hapart : ∀ f ∈ fields, ∀ g ∈ fields', Apart compactFieldTo f g := fun f hf g hg =>
        apart_compactFieldTo (hkeys f hf) (hkeys' g hg) (ih f hf (hvalues' g hg))
      exact apart_object hapart r r' hr hr' h
    | _ => cases hkind

theorem compact_inj {v w : Json} (hv : v.Plain) (hw : w.Plain) : v.compact = w.compact ↔ v = w := by
  have hends : Ends [] := by simp [Ends]
  exact ⟨fun h => (hv.apart hw [] [] hends hends h).1, fun h => h ▸ rfl⟩

theorem tighten_pretty {v : Json} (hv : v.Plain) : tighten v.pretty = v.compact :=
  hv.tighten_prettyTo 0 []

/-- Both layouts keep all of a document. -/
theorem pretty_inj {v w : Json} (hv : v.Plain) (hw : w.Plain) : v.pretty = w.pretty ↔ v = w := by
  refine ⟨fun h => (compact_inj hv hw).mp ?_, fun h => h ▸ rfl⟩
  rw [← tighten_pretty hv, h, tighten_pretty hw]

end CorpusQuery.Json
