import CorpusQuery.Proofs.Value.Quotes
import CorpusQuery.Query.Parser
import Mathlib.Data.List.DropRight

/-! Moves of a cursor in front of a known text, whatever white space is passed over on the way. -/

namespace CorpusQuery

/-- The first character that is not white space between symbols. -/
def Text.next? (t : Text) : Option Char := (t.dropWhile isLayout).head?

theorem Text.next?_cons {ch : Char} (hch : isLayout ch = false) (t : Text) :
    next? (ch :: t) = some ch := by
  simp [next?, hch]

theorem Text.next?_ne {ch d : Char} (hch : isLayout ch = false) (hne : ch ≠ d) (t : Text) :
    next? (ch :: t) ≠ some d := by
  rw [next?_cons hch]
  exact fun heq => hne (Option.some.inj heq)

@[simp] theorem Text.next?_space (t : Text) : next? (' ' :: t) = next? t := rfl

section Results

variable {α β : Type} {r : Except ParseError (α × Cursor)} {x : α} {y : β}
  {k : α × Cursor → Except ParseError (β × Cursor)} {P Q : Cursor → Prop} {p q : Prop}

/-- Reading gives `x` and ends where `P` says. -/
def Reads (r : Except ParseError (α × Cursor)) (x : α) (P : Cursor → Prop) : Prop :=
  ∃ c, r = .ok (x, c) ∧ P c

/-- Reading gives `x` and ends where `P` says, if a limit is kept; if not, it fails. -/
structure ReadsIf (p : Prop) (r : Except ParseError (α × Cursor)) (x : α) (P : Cursor → Prop) :
    Prop where
  reads : p → Reads r x P
  fails : ¬ p → ∃ e, r = .error e

theorem Reads.of_ok {c : Cursor} (hc : P c) : Reads (.ok (x, c)) x P := ⟨c, rfl, hc⟩

theorem Reads.mono (hr : Reads r x P) (hPQ : ∀ c, P c → Q c) : Reads r x Q := by
  obtain ⟨c, heq, hc⟩ := hr
  exact ⟨c, heq, hPQ c hc⟩

theorem Reads.bind (hr : Reads r x P) (hk : ∀ c, P c → Reads (k (x, c)) y Q) :
    Reads (r >>= k) y Q := by
  obtain ⟨c, rfl, hc⟩ := hr
  exact hk c hc

theorem Reads.bindIf (hr : Reads r x P) (hk : ∀ c, P c → ReadsIf p (k (x, c)) y Q) :
    ReadsIf p (r >>= k) y Q := by
  obtain ⟨c, rfl, hc⟩ := hr
  exact hk c hc

theorem Reads.readsIf (hr : Reads r x P) (hp : p) : ReadsIf p r x P :=
  ⟨fun _ => hr, fun hnot => absurd hp hnot⟩

theorem ReadsIf.bind (hr : ReadsIf p r x P)
    (hk : ∀ c, P c → ReadsIf q (k (x, c)) y Q) : ReadsIf (p ∧ q) (r >>= k) y Q where
  reads := fun ⟨hp, hq⟩ => (hr.reads hp).bind fun c hc => (hk c hc).reads hq
  fails hnot := by
    by_cases hp : p
    · obtain ⟨c, rfl, hc⟩ := hr.reads hp
      exact (hk c hc).fails fun hq => hnot ⟨hp, hq⟩
    · obtain ⟨e, rfl⟩ := hr.fails hp
      exact ⟨e, rfl⟩

theorem ReadsIf.congr (hr : ReadsIf p r x P) (h : p ↔ q) : ReadsIf q r x P :=
  propext h ▸ hr

end Results

/-- The result is `x` if a limit is kept; if not, there is none. -/
structure GivesIf {α : Type} (p : Prop) (r : Except ParseError α) (x : α) : Prop where
  gives : p → r = .ok x
  fails : ¬ p → ∃ e, r = .error e

theorem ReadsIf.bindGives {α β : Type} {p q : Prop} {r : Except ParseError (α × Cursor)}
    {x : α} {P : Cursor → Prop} {k : α × Cursor → Except ParseError β} {y : β}
    (hr : ReadsIf p r x P) (hk : ∀ c, P c → GivesIf q (k (x, c)) y) :
    GivesIf (p ∧ q) (r >>= k) y where
  gives := by
    rintro ⟨hp, hq⟩
    obtain ⟨c, rfl, hc⟩ := hr.reads hp
    exact (hk c hc).gives hq
  fails hnot := by
    by_cases hp : p
    · obtain ⟨c, rfl, hc⟩ := hr.reads hp
      exact (hk c hc).fails fun hq => hnot ⟨hp, hq⟩
    · obtain ⟨e, rfl⟩ := hr.fails hp
      exact ⟨e, rfl⟩

theorem GivesIf.of_ok {α : Type} {p : Prop} {r : Except ParseError α} {x : α} (hr : r = .ok x)
    (hp : p) : GivesIf p r x :=
  ⟨fun _ => hr, fun hnot => absurd hp hnot⟩

theorem GivesIf.map {α β : Type} {p : Prop} {r : Except ParseError α} {x : α}
    (hr : GivesIf p r x) (f : α → β) : GivesIf p (r >>= fun x => pure (f x)) (f x) where
  gives hp := by
    rw [hr.gives hp]
    rfl
  fails hnot := by
    obtain ⟨e, rfl⟩ := hr.fails hnot
    exact ⟨e, rfl⟩

theorem GivesIf.congr {α : Type} {p q : Prop} {r : Except ParseError α} {x : α}
    (hr : GivesIf p r x) (h : p ↔ q) : GivesIf q r x :=
  propext h ▸ hr

/-- What comes out is `x` in any case. -/
theorem GivesIf.eq_of_ok {α : Type} {p : Prop} {r : Except ParseError α} {x y : α}
    (hr : GivesIf p r x) (hy : r = .ok y) : y = x := by
  by_cases hp : p
  · exact Except.ok.inj (hy.symm.trans (hr.gives hp))
  · obtain ⟨e, he⟩ := hr.fails hp
    rw [he] at hy
    cases hy

/-- Whatever comes out has the property. -/
def Ensures {ε α : Type} (r : Except ε α) (P : α → Prop) : Prop := ∀ x, r = .ok x → P x

namespace Ensures

variable {ε α β : Type} {r : Except ε α} {k : α → Except ε β} {P : α → Prop} {Q : β → Prop}

theorem ok {x : α} (h : P x) : Ensures (.ok x : Except ε α) P := by
  rintro y ⟨⟩
  exact h

theorem error (e : ε) : Ensures (.error e) P := by
  rintro x ⟨⟩

theorem bind (hr : Ensures r P) (hk : ∀ x, P x → Ensures (k x) Q) : Ensures (r >>= k) Q := by
  intro y hy
  cases r with
  | error e => cases hy
  | ok x => exact hk x (hr x rfl) y hy

end Ensures

namespace Cursor

variable {c : Cursor} {t : Text}

/-- The text from here on is `t`, if white space in front is left out of account. -/
def Before (c : Cursor) (t : Text) : Prop := c.rest.dropWhile isLayout = t.dropWhile isLayout

/-- The text from here on is `t`, with white space in front passed over. -/
def At (c : Cursor) (t : Text) : Prop := c.rest = t.dropWhile isLayout

theorem At.before (h : c.At t) : c.Before t := by
  rw [Before, h]
  exact List.dropWhile_idempotent isLayout t

theorem Before.skipLayout (h : c.Before t) : c.skipLayout.At t := h

/-- The text of a cursor is as long as what it stands before, at least. -/
theorem Before.length_le (h : c.Before t) : (t.dropWhile isLayout).length ≤ c.rest.length :=
  congrArg List.length h ▸ (List.dropWhile_suffix isLayout).length_le

theorem start_before (t : Text) : (start t).Before t := rfl

theorem At.rest_eq {a : Char} (h : c.At (a :: t)) (ha : isLayout a = false) :
    c.rest = a :: t := by
  rw [h, List.dropWhile_cons_of_neg (by simp [ha])]

/-- A symbol that comes next is taken. -/
theorem Before.accept? {symbols : List Text} {s : Text} (h : c.Before (s ++ t))
    (hsolid : (s ++ t).dropWhile isLayout = s ++ t)
    (hfind : symbols.find? (·.isPrefixOf (s ++ t)) = some s) :
    ∃ c', c.accept? .skip symbols = some (s, c') ∧ c'.At t := by
  have hrest : (c.pass .skip).rest = s ++ t := h.trans hsolid
  have hsees : symbols.find? (c.pass .skip).sees = some s := by
    rw [← hfind]
    unfold sees
    rw [hrest]
  refine ⟨_, by rw [Cursor.accept?, hsees], ?_⟩
  rw [At, pass, Cursor.skipLayout, past, hrest, List.drop_left]

theorem Before.accept?_char {a : Char} (h : c.Before (a :: t)) (ha : isLayout a = false) :
    ∃ c', c.accept? .skip [[a]] = some ([a], c') ∧ c'.At t :=
  h.accept? (s := [a]) (by simp [ha]) (by simp [List.isPrefixOf])

/-- What does not come next is not taken. -/
theorem Before.accept?_none {symbols : List Text} (h : c.Before t)
    (hne : ∀ symbol ∈ symbols, ∃ ch, symbol.head? = some ch ∧ t.next? ≠ some ch) :
    c.accept? .skip symbols = none := by
  have hsees : symbols.find? (c.pass .skip).sees = none := by
    refine List.find?_eq_none.mpr fun symbol hmem hprefix => ?_
    obtain ⟨ch, hhead, hnext⟩ := hne symbol hmem
    have hrest : (c.pass .skip).rest = t.dropWhile isLayout := h
    rw [sees, hrest, List.isPrefixOf_iff_prefix] at hprefix
    obtain ⟨rest, heq⟩ := hprefix
    refine hnext ?_
    rw [Text.next?, ← heq, List.head?_append, hhead, Option.some_or]
  rw [Cursor.accept?, hsees]

theorem Before.expect {symbols : List Text} {s : Text} (h : c.Before (s ++ t))
    (hsolid : (s ++ t).dropWhile isLayout = s ++ t)
    (hfind : symbols.find? (·.isPrefixOf (s ++ t)) = some s) :
    Reads (c.expect .skip symbols) s (·.At t) := by
  obtain ⟨c', haccept, hc'⟩ := h.accept? hsolid hfind
  exact ⟨c', by rw [Cursor.expect, haccept], hc'⟩

theorem Before.expect_char {a : Char} (h : c.Before (a :: t)) (ha : isLayout a = false) :
    Reads (c.expect .skip [[a]]) [a] (·.At t) :=
  h.expect (s := [a]) (by simp [ha]) (by simp [List.isPrefixOf])

theorem expect_keep_char {ch : Char} (h : c.rest = ch :: t) :
    Reads (c.expect .keep [[ch]]) [ch] (·.rest = t) := by
  have haccept : c.accept? .keep [[ch]] = some ([ch], c.past [ch]) := by
    simp [Cursor.accept?, pass, sees, h, List.isPrefixOf]
  exact ⟨c.past [ch], by rw [Cursor.expect, haccept], by simp [past, h]⟩

/-- Text without any of the stops is passed over up to the stop behind it. -/
theorem cutBefore?_append {stops : List Text} {passed : Text} {ch : Char} (rest : Text)
    (hpassed : ∀ stop ∈ stops, ∃ d ∉ passed, stop = [d]) (hch : [ch] ∈ stops) :
    cutBefore? stops (passed ++ ch :: rest) = some (passed, ch :: rest) := by
  induction passed with
  | nil =>
    have hany : stops.any (·.isPrefixOf (ch :: rest)) :=
      List.any_eq_true.mpr ⟨[ch], hch, by simp [List.isPrefixOf]⟩
    rw [List.nil_append, cutBefore?, if_pos hany]
  | cons d passed ih =>
    -- The first character is not a stop, because stops are single characters that the passed text
    -- lacks.
    have hany : ¬ stops.any (·.isPrefixOf (d :: (passed ++ ch :: rest))) := by
      simp only [List.any_eq_true, not_exists, not_and]
      intro stop hstop
      obtain ⟨e, he, rfl⟩ := hpassed stop hstop
      have hne : e ≠ d := fun heq => he (heq ▸ List.mem_cons_self)
      simp [List.isPrefixOf, hne]
    have htail := ih fun stop hstop => by
      obtain ⟨e, he, rfl⟩ := hpassed stop hstop
      exact ⟨e, fun hmem => he (List.mem_cons_of_mem d hmem), rfl⟩
    rw [List.cons_append, cutBefore?, if_neg hany, htail]

theorem not_mem_of_cutBefore? {stops : List Text} {text passed rest : Text} {d : Char}
    (h : cutBefore? stops text = some (passed, rest)) (hd : [d] ∈ stops) : d ∉ passed := by
  induction text generalizing passed with
  | nil => cases h
  | cons ch text ih =>
    rw [cutBefore?] at h
    split at h
    next => cases h; simp
    next hany =>
      split at h
      next passed' rest' hcut =>
        cases h
        rw [List.mem_cons, not_or]
        refine ⟨fun heq => hany ?_, ih hcut⟩
        exact List.any_eq_true.mpr ⟨[d], hd, by simp [List.isPrefixOf, heq]⟩
      next => cases h

theorem upTo_append {stops : List Text} {u rest : Text} {ch : Char}
    (h : c.rest = u ++ ch :: rest) (hu : ∀ stop ∈ stops, ∃ d ∉ u, stop = [d])
    (hch : [ch] ∈ stops) : Reads (c.upTo stops) u (·.rest = ch :: rest) := by
  refine ⟨⟨c.offset + u.length, ch :: rest⟩, ?_, rfl⟩
  rw [upTo, h, cutBefore?_append rest hu hch]

theorem upToUnescaped_append {value rest : Text} (h : c.rest = value ++ '"' :: rest)
    (hvalue : Quotes.Closed value) :
    Reads (c.upToUnescaped '"') value (·.rest = '"' :: rest) := by
  refine ⟨⟨c.offset + value.length, '"' :: rest⟩, ?_, rfl⟩
  rw [upToUnescaped, h, Quotes.cutUnescaped?_of_closedFrom hvalue]

end Cursor

end CorpusQuery
