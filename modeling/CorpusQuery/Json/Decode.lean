import CorpusQuery.Json.Reader

/-! Taking values of known form out of a document. -/

namespace CorpusQuery.Json

def text? : Json → Option Text
  | .string written => unescape? written
  | _ => none

def bool? : Json → Option Bool
  | .bool value => some value
  | _ => none

def list? {α : Type} (read : Json → Option α) : Json → Option (List α)
  | .array items => items.mapM read
  | _ => none

def orNull? {α : Type} (read : Json → Option α) : Json → Option (Option α)
  | .null => some none
  | v => (read v).map some

/-- The one value under `key`, if any. -/
def sole? (fields : List (Text × Json)) (key : Text) : Option (Option Json) :=
  match fields.filter (·.1 == key) with
  | [] => some none
  | [(_, value)] => some (some value)
  | _ => none

/-- The values of a record under the given keys. A record is written by name, with unknown names
passed over and none of these repeated, or as an array in the order of the keys. -/
def record? (keys : List Text) : Json → Option (List (Option Json))
  | .object fields => do
    let named ← fields.mapM fun (key, value) => (unescape? key).map (·, value)
    keys.mapM (sole? named)
  | .array items =>
    if items.length ≤ keys.length then
      some (items.map some ++ List.replicate (keys.length - items.length) none)
    else none
  | _ => none

/-- A value that may be left out. -/
def orDefault? {α : Type} (read : Json → Option α) (default : α) : Option Json → Option α
  | none => some default
  | some v => read v

/-- A value that may not be left out. -/
def required? {α : Type} (read : Json → Option α) (v : Option Json) : Option α := v.bind read

end CorpusQuery.Json
