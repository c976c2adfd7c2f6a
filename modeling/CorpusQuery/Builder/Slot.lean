import CorpusQuery.Builder.Error

/-! The tokens of a query as they are edited, whatever stands for the constraints of a token. -/

namespace CorpusQuery

structure Slot (ρ : Type) where
  /-- What the token constrains. -/
  root : ρ
  repeats : Repeats
  optional : Bool
  /-- A sentence begins with this token. -/
  opensSentence : Bool
  /-- A sentence ends with this token. -/
  closesSentence : Bool
deriving DecidableEq, Repr

/-- What a token may be marked as. -/
inductive Mark where
  | optional
  | opensSentence
  | closesSentence
deriving DecidableEq, Repr

namespace Slot

variable {ρ σ : Type}

def ofRoot (root : ρ) : Slot ρ := ⟨root, .once, false, false, false⟩

def mapRoot (f : ρ → σ) (s : Slot ρ) : Slot σ := { s with root := f s.root }

def mark (m : Mark) (value : Bool) (s : Slot ρ) : Slot ρ :=
  match m with
  | .optional => { s with optional := value }
  | .opensSentence => { s with opensSentence := value }
  | .closesSentence => { s with closesSentence := value }

/-- The token at a position. -/
def get (slots : List (Slot ρ)) (index : Nat) : Except BuilderError (Slot ρ) :=
  match slots[index]? with
  | some s => .ok s
  | none => .error (.unknownToken index)

def set (slots : List (Slot ρ)) (index : Nat) (f : Slot ρ → Slot ρ) :
    Except BuilderError (List (Slot ρ)) := do
  let s ← get slots index
  return slots.set index (f s)

/-- Moves the token at `source` such that it ends up at `target`. -/
def move (slots : List (Slot ρ)) (source target : Nat) : Except BuilderError (List (Slot ρ)) := do
  let s ← get slots source
  let _ ← get slots target
  return (slots.eraseIdx source).insertIdx target s

/-- The bounds are looked at before the token. -/
def setRepeats (slots : List (Slot ρ)) (index : Nat) (r : Repeats) :
    Except BuilderError (List (Slot ρ)) :=
  match r.exceeded? with
  | some top => .error (.invalidRepeats r.min top)
  | none => set slots index ({ · with repeats := r })

/-! ### What the positions pick out -/

theorem get_eq_ok {slots : List (Slot ρ)} {index : Nat} {t : Slot ρ} :
    get slots index = .ok t ↔ ∃ left right, slots = left ++ t :: right ∧ index = left.length := by
  constructor
  · intro h
    unfold get at h
    cases ht : slots[index]? with
    | none => simp [ht] at h
    | some u =>
      simp only [ht, Except.ok.injEq] at h
      subst h
      obtain ⟨hlt, rfl⟩ := List.getElem?_eq_some_iff.mp ht
      refine ⟨slots.take index, slots.drop (index + 1), ?_, ?_⟩
      · rw [List.getElem_cons_drop, List.take_append_drop]
      · rw [List.length_take, Nat.min_eq_left (Nat.le_of_lt hlt)]
  · rintro ⟨left, right, rfl, rfl⟩
    simp [get]

theorem set_eq_ok {slots slots' : List (Slot ρ)} {index : Nat} {f : Slot ρ → Slot ρ} :
    set slots index f = .ok slots' ↔ ∃ left t right, slots = left ++ t :: right ∧
      index = left.length ∧ slots' = left ++ f t :: right := by
  constructor
  · intro h
    cases ht : get slots index with
    | error e => simp [set, ht, Bind.bind, Except.bind] at h
    | ok t =>
      obtain ⟨left, right, rfl, rfl⟩ := get_eq_ok.mp ht
      simp only [set, ht, Bind.bind, Except.bind, Pure.pure, Except.pure, Except.ok.injEq] at h
      exact ⟨left, t, right, rfl, rfl, by simp [← h]⟩
  · rintro ⟨left, t, right, rfl, rfl, rfl⟩
    have ht : get (left ++ t :: right) left.length = .ok t := get_eq_ok.mpr ⟨left, right, rfl, rfl⟩
    simp [set, ht, Bind.bind, Except.bind, Pure.pure, Except.pure]

theorem move_eq_ok {slots slots' : List (Slot ρ)} {source target : Nat} :
    move slots source target = .ok slots' ↔ ∃ left t right, slots = left ++ t :: right ∧
      source = left.length ∧ target ≤ (left ++ right).length ∧
      slots' = (left ++ right).insertIdx target t := by
  constructor
  · intro h
    cases ht : get slots source with
    | error e => simp [move, ht, Bind.bind, Except.bind] at h
    | ok t =>
      cases hu : get slots target with
      | error e => simp [move, ht, hu, Bind.bind, Except.bind] at h
      | ok u =>
        obtain ⟨left, right, rfl, rfl⟩ := get_eq_ok.mp ht
        obtain ⟨left', right', heq, rfl⟩ := get_eq_ok.mp hu
        have hlength := congrArg List.length heq
        simp only [List.length_append, List.length_cons] at hlength
        simp only [move, ht, hu, Bind.bind, Except.bind, Pure.pure, Except.pure,
          Except.ok.injEq] at h
        refine ⟨left, t, right, rfl, rfl, ?_, ?_⟩
        · rw [List.length_append]
          omega
        · simp [← h, List.eraseIdx_append_of_length_le]
  · rintro ⟨left, t, right, rfl, rfl, hle, rfl⟩
    have ht : get (left ++ t :: right) left.length = .ok t := get_eq_ok.mpr ⟨left, right, rfl, rfl⟩
    have hlt : target < (left ++ t :: right).length := by
      simp only [List.length_append, List.length_cons] at hle ⊢
      omega
    have hu : get (left ++ t :: right) target = .ok (left ++ t :: right)[target] := by
      rw [get, List.getElem?_eq_getElem hlt]
    simp [move, ht, hu, Bind.bind, Except.bind, Pure.pure, Except.pure,
      List.eraseIdx_append_of_length_le]

theorem setRepeats_eq_ok {slots slots' : List (Slot ρ)} {index : Nat} {r : Repeats} :
    setRepeats slots index r = .ok slots' ↔
      r.exceeded? = none ∧ set slots index ({ · with repeats := r }) = .ok slots' := by
  unfold setRepeats
  cases r.exceeded? <;> simp

end Slot

end CorpusQuery
