import CorpusQuery.Query.ParseError
import CorpusQuery.Value.Comparator

/-! Edits, and what can be wrong with them. -/

namespace CorpusQuery

/-- Names a node of a builder for as long as the node lives, and no other node afterwards. -/
abbrev NodeId := Nat

inductive BuilderError where
  | parse (error : ParseError)
  | unknownNode (id : NodeId)
  | notAGroup (id : NodeId)
  | notAConstraint (id : NodeId)
  | notAChild (group node : NodeId)
  /-- A root lives as long as its token. -/
  | rootRemoval (id : NodeId)
  | unknownToken (index : Nat)
  | invalidRepeats (min max : UInt32)
  | unknownComparator (symbol : Text)
deriving DecidableEq, Repr

def NodeId.display (id : NodeId) : Text := '#' :: Text.decimal id

namespace BuilderError

def nodeName (id : NodeId) : String := String.ofList (NodeId.display id)

def message : BuilderError → String
  | parse error => "Parse error: " ++ error.message
  | unknownNode id => "No builder node " ++ nodeName id
  | notAGroup id => "Builder node " ++ nodeName id ++ " is not an attribute group"
  | notAConstraint id => "Builder node " ++ nodeName id ++ " is not an attribute"
  | notAChild group node =>
    "Builder node " ++ nodeName node ++ " is not a child of group " ++ nodeName group
  | rootRemoval id => "Cannot remove root group " ++ nodeName id
  | unknownToken index => "No token at position " ++ toString index
  | invalidRepeats min max =>
    "Minimum repetition " ++ toString min.toNat ++ " exceeds maximum " ++ toString max.toNat
  | unknownComparator symbol => "Unknown comparator '" ++ String.ofList symbol ++ "'"

/-- The error behind this one. -/
def cause? : BuilderError → Option ParseError
  | parse error => some error
  | _ => none

end BuilderError

def Comparator.read (symbol : Text) : Except BuilderError Comparator :=
  match Comparator.ofSymbol? symbol with
  | some c => .ok c
  | none => .error (.unknownComparator symbol)

/-- An edit of a state. One that fails leaves what was done before the failure. -/
abbrev EditM (σ α : Type) := EStateM BuilderError σ α

namespace EditM

variable {σ α β : Type}

def look (view : σ → Except BuilderError α) : EditM σ α := fun s =>
  match view s with
  | .ok x => .ok x s
  | .error e => .error e s

def peek (view : σ → α) : EditM σ α := look fun s => .ok (view s)

theorem bind_eq_ok {m : EditM σ α} {f : α → EditM σ β} {s s'' : σ} {y : β} :
    (m >>= f) s = .ok y s'' ↔ ∃ x s', m s = .ok x s' ∧ f x s' = .ok y s'' := by
  change EStateM.bind m f s = _ ↔ _
  unfold EStateM.bind
  cases m s with
  | ok x s' => exact ⟨fun h => ⟨x, s', rfl, h⟩, fun ⟨_, _, hx, h⟩ => by cases hx; exact h⟩
  | error e s' =>
    constructor
    · intro h
      cases h
    · rintro ⟨_, _, hx, -⟩
      cases hx

/-- A failed step is the last one. -/
theorem bind_eq_error {m : EditM σ α} {f : α → EditM σ β} {s s' : σ} {e : BuilderError}
    (h : m s = .error e s') : (m >>= f) s = .error e s' := by
  change EStateM.bind m f s = _
  simp only [EStateM.bind, h]

theorem bind_apply {m : EditM σ α} {f : α → EditM σ β} {s s' : σ} {x : α} (h : m s = .ok x s') :
    (m >>= f) s = f x s' := by
  change EStateM.bind m f s = _
  simp only [EStateM.bind, h]

theorem bind_congr {m m' : EditM σ α} {f : α → EditM σ β} {s : σ} (h : m s = m' s) :
    (m >>= f) s = (m' >>= f) s := by
  change EStateM.bind m f s = EStateM.bind m' f s
  simp only [EStateM.bind, h]

theorem get_bind {f : σ → EditM σ β} {s : σ} : (get >>= f) s = f s s := rfl

theorem look_eq_error {view : σ → Except BuilderError α} {s : σ} {e : BuilderError}
    (h : view s = .error e) : look view s = .error e s := by
  simp only [look, h]

theorem look_eq_ok {view : σ → Except BuilderError α} {s : σ} {x : α} (h : view s = .ok x) :
    look view s = .ok x s := by
  simp only [look, h]

end EditM

end CorpusQuery
