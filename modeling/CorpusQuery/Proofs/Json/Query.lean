import CorpusQuery.Proofs.Json.Layout
import CorpusQuery.Proofs.Query.Token
import CorpusQuery.Query.Document

/-!
Queries as documents. No two queries are written alike, in whichever layout, because what is written
for each part of a query tells what the part is.
-/

namespace CorpusQuery

namespace Json

/-! ### Strings -/

/-- The ways to write a character. -/
inductive Written (c : Char) : Text → Prop where
  | short (d : Char) (hd : shortEscape? d = some c) : Written c ['\\', d]
  | unit (hc : c.toNat < 0x20) :
    Written c ['\\', 'u', '0', '0', hexDigit (c.toNat / 16), hexDigit (c.toNat % 16)]
  | plain (hquote : c ≠ '"') (hbackslash : c ≠ '\\') : Written c [c]

theorem written_escapeChar (c : Char) : Written c (escapeChar c) := by
  unfold escapeChar
  split
  iterate 7 exact .short _ rfl
  next c hquote hbackslash _ _ _ _ _ =>
    split
    next hc => exact .unit hc
    next => exact .plain (fun h => hquote h) (fun h => hbackslash h)

theorem hexDigit_ne {n : Nat} (hn : n < 16) : hexDigit n ≠ '"' ∧ hexDigit n ≠ '\\' := by
  decide +revert

theorem Written.closedFrom_append {c : Char} {t rest : Text} (h : Written c t)
    (hrest : Quotes.closedFrom false rest) : Quotes.closedFrom false (t ++ rest) := by
  cases h with
  | short d => simpa [Quotes.closedFrom, escapesNext] using hrest
  | unit hc =>
    obtain ⟨hhigh, hhigh'⟩ := hexDigit_ne (n := c.toNat / 16) (by omega)
    obtain ⟨hlow, hlow'⟩ := hexDigit_ne (n := c.toNat % 16) (by omega)
    simpa [Quotes.closedFrom, escapesNext, hhigh, hlow, beq_false_of_ne hhigh',
      beq_false_of_ne hlow'] using hrest
  | plain hquote hbackslash =>
    simpa [Quotes.closedFrom, escapesNext, hquote, beq_false_of_ne hbackslash] using hrest

theorem closed_escape (t : Text) : Quotes.Closed (escape t) := by
  induction t with
  | nil => rfl
  | cons c t ih =>
    rw [escape, List.flatMap_cons]
    exact (written_escapeChar c).closedFrom_append ih

theorem unit?_hexDigit {n : Nat} (hn : n < 0x20) :
    unit? '0' '0' (hexDigit (n / 16)) (hexDigit (n % 16)) = some n := by
  decide +revert

theorem Written.unescapeFrom?_append {c : Char} {t : Text} (h : Written c t) (rest : Text) :
    unescapeFrom? none (t ++ rest) = (unescapeFrom? none rest).map (c :: ·) := by
  cases h with
  | short d hd =>
    have hne : d ≠ 'u' := by
      rintro rfl
      cases hd
    rw [List.cons_append, List.singleton_append, unescapeFrom?, hd]
    exact fun _ _ _ _ _ heq => absurd heq hne
  | unit hc =>
    have hunit := unit?_hexDigit hc
    have hhigh : isHighSurrogate c.toNat = false := by simp [isHighSurrogate]; omega
    have hlow : isLowSurrogate c.toNat = false := by simp [isLowSurrogate]; omega
    simp [unescapeFrom?, hunit, hhigh, hlow]
  | plain hquote hbackslash =>
    rw [List.singleton_append, unescapeFrom?]
    · exact fun _ _ _ _ _ heq => absurd heq hbackslash
    · exact fun _ _ heq => absurd heq hbackslash

/-- What is escaped is read again. -/
theorem unescape?_escape (t : Text) : unescape? (escape t) = some t := by
  have hread : ∀ t, unescapeFrom? none (t.flatMap escapeChar) = some t := by
    intro t
    induction t with
    | nil => rfl
    | cons c t ih =>
      rw [List.flatMap_cons, (written_escapeChar c).unescapeFrom?_append, ih, Option.map_some]
  exact hread t

/-! ### What is written tells what is written of -/

theorem text_injective : Function.Injective text := by
  intro t u h
  have hread := unescape?_escape t
  rw [string.inj h, unescape?_escape] at hread
  exact (Option.some.inj hread).symm

theorem nat_injective : Function.Injective nat := by
  intro n m h
  have hread : Nat.ofDigitChars 10 (Text.decimal n) 0 = n := Nat.ofDigitChars_ten_toDigits
  rw [number.inj h] at hread
  exact hread.symm.trans Nat.ofDigitChars_ten_toDigits

theorem orNull_injective {α : Type} {write : α → Json} (hwrite : Function.Injective write)
    (hne : ∀ a, write a ≠ .null) : Function.Injective (orNull write) := by
  rintro (_ | a) (_ | b) h
  · rfl
  · exact absurd h.symm (hne b)
  · exact absurd h (hne a)
  · exact congrArg some (hwrite h)

theorem plain_text (t : Text) : (text t).Plain := .string _ (closed_escape t)

theorem plain_nat (n : Nat) : (nat n).Plain :=
  .number _ (Text.decimal_ne_nil n) fun _ => Text.isDigit_of_mem_decimal

theorem plain_orNull {α : Type} {write : α → Json} (h : ∀ a, (write a).Plain) (a? : Option α) :
    (orNull write a?).Plain := by
  cases a? with
  | none => exact .null
  | some a => exact h a

/-- Keys that need no escapes. -/
theorem plain_object {fields : List (Text × Json)} (hkeys : ∀ f ∈ fields, escape f.1 = f.1)
    (hvalues : ∀ f ∈ fields, f.2.Plain) : (object fields).Plain :=
  .object fields (fun f hf => hkeys f hf ▸ closed_escape f.1) hvalues

end Json

open Json

/-! ### Queries -/

theorem Connective.symbol_injective : Function.Injective Connective.symbol := by
  intro c c' h
  have hread := Connective.ofSymbol?_symbol c
  rw [h, Connective.ofSymbol?_symbol] at hread
  exact (Option.some.inj hread).symm

theorem Equality.symbol_injective : Function.Injective Equality.symbol := by
  intro e e' h
  have hread := Equality.ofSymbol?_symbol e
  rw [h, Equality.ofSymbol?_symbol] at hread
  exact (Option.some.inj hread).symm

namespace Expr

theorem toJson_ne (name : Text) (equality : Equality) (value : Text) (operator : Connective)
    (left right : Expr) :
    (constraint name equality value).toJson ≠ (binary operator left right).toJson := by
  intro h
  have htype := text_injective (Prod.mk.inj (List.cons.inj (object.inj h)).1).2
  exact absurd htype (by decide)

theorem toJson_injective : Function.Injective toJson := by
  intro e f h
  induction e generalizing f with
  | constraint name equality value =>
    cases f with
    | constraint name' equality' value' =>
      simp only [toJson, object.injEq, List.cons.injEq, Prod.mk.injEq, true_and, and_true,
        text_injective.eq_iff, Equality.symbol_injective.eq_iff] at h
      obtain ⟨rfl, rfl, rfl⟩ := h
      rfl
    | binary operator left right =>
      exact absurd h (toJson_ne name equality value operator left right)
  | binary operator left right hleft hright =>
    cases f with
    | constraint name equality value =>
      exact absurd h.symm (toJson_ne name equality value operator left right)
    | binary operator' left' right' =>
      simp only [toJson, object.injEq, List.cons.injEq, Prod.mk.injEq, true_and, and_true,
        text_injective.eq_iff, Connective.symbol_injective.eq_iff] at h
      obtain ⟨rfl, hl, hr⟩ := h
      rw [hleft hl, hright hr]

theorem plain_toJson (e : Expr) : e.toJson.Plain := by
  induction e with
  | constraint name equality value =>
    refine plain_object ?_ ?_
    · simp only [List.forall_mem_cons]
      exact ⟨rfl, rfl, rfl, rfl, nofun⟩
    · simp only [List.forall_mem_cons]
      exact ⟨plain_text _, plain_text _, plain_text _, plain_text _, nofun⟩
  | binary operator left right hleft hright =>
    refine plain_object ?_ ?_
    · simp only [List.forall_mem_cons]
      exact ⟨rfl, rfl, rfl, rfl, nofun⟩
    · simp only [List.forall_mem_cons]
      exact ⟨plain_text _, plain_text _, hleft, hright, nofun⟩

end Expr

namespace XmlTag

theorem toJson_injective : Function.Injective toJson := by
  rintro ⟨name, closing⟩ ⟨name', closing'⟩ h
  simpa [toJson, text_injective.eq_iff] using h

theorem plain_toJson (t : XmlTag) : t.toJson.Plain := by
  refine plain_object ?_ ?_
  · simp only [List.forall_mem_cons]
    exact ⟨rfl, rfl, nofun⟩
  · simp only [List.forall_mem_cons]
    exact ⟨plain_text _, .bool _, nofun⟩

end XmlTag

namespace Repeats

theorem nat_toNat_injective : Function.Injective fun n : UInt32 => nat n.toNat :=
  fun _ _ h => UInt32.toNat_inj.mp (nat_injective h)

theorem toJson_injective : Function.Injective toJson := by
  rintro ⟨min, max⟩ ⟨min', max'⟩ h
  have hmax := orNull_injective nat_toNat_injective fun _ => nofun
  simpa [toJson, nat_injective.eq_iff, hmax.eq_iff, UInt32.toNat_inj] using h

theorem plain_toJson (r : Repeats) : r.toJson.Plain := by
  refine plain_object ?_ ?_
  · simp only [List.forall_mem_cons]
    exact ⟨rfl, rfl, nofun⟩
  · simp only [List.forall_mem_cons]
    exact ⟨plain_nat _, plain_orNull (fun _ => plain_nat _) _, nofun⟩

end Repeats

namespace Token

theorem toJson_injective : Function.Injective toJson := by
  rintro ⟨leading, trailing, expression, optional, repeats⟩
    ⟨leading', trailing', expression', optional', repeats'⟩ h
  have htag := orNull_injective XmlTag.toJson_injective fun _ => nofun
  have hexpr := orNull_injective Expr.toJson_injective fun e => by cases e <;> exact nofun
  have hrepeats := orNull_injective Repeats.toJson_injective fun _ => nofun
  simpa [toJson, htag.eq_iff, hexpr.eq_iff, hrepeats.eq_iff] using h

theorem plain_toJson (t : Token) : t.toJson.Plain := by
  refine plain_object ?_ ?_
  · simp only [List.forall_mem_cons]
    exact ⟨rfl, rfl, rfl, rfl, rfl, nofun⟩
  · simp only [List.forall_mem_cons]
    exact ⟨plain_orNull XmlTag.plain_toJson _, plain_orNull XmlTag.plain_toJson _,
      plain_orNull Expr.plain_toJson _, .bool _, plain_orNull Repeats.plain_toJson _, nofun⟩

end Token

namespace Query

theorem toJson_injective : Function.Injective toJson := by
  rintro ⟨tokens, within⟩ ⟨tokens', within'⟩ h
  have htokens := List.map_injective_iff.mpr Token.toJson_injective
  have hwithin := orNull_injective text_injective fun _ => nofun
  simpa [toJson, htokens.eq_iff, hwithin.eq_iff] using h

theorem plain_toJson (q : Query) : q.toJson.Plain := by
  have htokens : ∀ v ∈ q.tokens.map Token.toJson, v.Plain :=
    List.forall_mem_map.mpr fun t _ => t.plain_toJson
  refine plain_object ?_ ?_
  · simp only [List.forall_mem_cons]
    exact ⟨rfl, rfl, nofun⟩
  · simp only [List.forall_mem_cons]
    exact ⟨.array _ htokens, plain_orNull plain_text _, nofun⟩

/-- A query is all in its text, in either layout, and the layouts differ by white space alone. -/
theorem toJson_faithful (q q' : Query) :
    (q.toJson.compact = q'.toJson.compact ↔ q = q') ∧
      (q.toJson.pretty = q'.toJson.pretty ↔ q = q') ∧
      tighten q.toJson.pretty = q.toJson.compact := by
  have hq := q.plain_toJson
  have hq' := q'.plain_toJson
  rw [compact_inj hq hq', pretty_inj hq hq', toJson_injective.eq_iff]
  exact ⟨Iff.rfl, Iff.rfl, tighten_pretty hq⟩

end Query

end CorpusQuery
