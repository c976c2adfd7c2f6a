import CorpusQuery.Builder.Edit
import CorpusQuery.Builder.Outline
import CorpusQuery.Query.Document
import CorpusQuery.Settings.Reader

/-! What can be said about the text of a query: that it is one, what it holds, how it reads. -/

namespace CorpusQuery

inductive CheckError where
  | parse (error : ParseError)
  | builder (error : BuilderError)
  | settings (error : SettingsError)
deriving DecidableEq, Repr

namespace CheckError

def message : CheckError → String
  | parse error => "Parse error: " ++ error.message
  | builder error => "Builder error: " ++ error.message
  | settings error => error.message

/-- A text that is no query is reported as that wherever it is found. -/
def ofBuilder : BuilderError → CheckError
  | .parse error => .parse error
  | error => .builder error

end CheckError

inductive CheckMode where
  /-- Whether the text is a query. -/
  | validity
  /-- What it holds, as a JSON document. -/
  | ast
  /-- Its canonical spelling. -/
  | normalize
  /-- The nodes of the builder that holds it. -/
  | tree
deriving DecidableEq, Repr

inductive CheckResult where
  | valid
  /-- Nothing but white space. -/
  | empty
  | ast (json : Text)
  | cql (query : Text)
  | tree (outline : Text)
deriving DecidableEq, Repr

/-- Where settings come from. -/
inductive SettingsSource where
  | standard
  | document (json : Text)
  /-- A document that cannot be had. -/
  | missing
deriving DecidableEq, Repr

def SettingsSource.load : SettingsSource → Except SettingsError Settings
  | standard => .ok .standard
  | document json => Settings.read json
  | missing => .error .unreadable

namespace CheckMode

/-- Reads the query, and says that it did or writes the query as JSON. -/
def inspect (write : Option (Json → Text)) (s : Settings) (query : Text) :
    Except CheckError CheckResult :=
  match Query.parse s.defaultAttribute query with
  | .error e => .error (.parse e)
  | .ok none => .ok .empty
  | .ok (some q) =>
    match write with
    | some write => .ok (.ast (write q.toJson))
    | none => .ok .valid

/-- Puts the query into a builder and shows what `view` sees of that. -/
def build (view : Builder → Except BuilderError CheckResult) (s : Settings) (query : Text) :
    Except CheckError CheckResult :=
  if Text.allBlank query then .ok .empty
  else
    match (Builder.new s).apply (.parse (some query)) with
    | (.ok _, b) =>
      match view b with
      | .ok shown => .ok shown
      | .error e => .error (.ofBuilder e)
    | (.error e, _) => .error (.ofBuilder e)

def normalized (b : Builder) : Except BuilderError CheckResult := do
  match ← b.cql? with
  | some cql => return .cql cql
  | none => return .empty

def outlined (b : Builder) : Except BuilderError CheckResult := do
  return .tree (← b.outline)

def run (mode : CheckMode) (pretty : Bool) : Settings → Text → Except CheckError CheckResult :=
  match mode with
  | .validity => inspect none
  | .ast => inspect (some (if pretty then Json.pretty else Json.compact))
  | .normalize => build normalized
  | .tree => build outlined

end CheckMode

/-- Settings that cannot be loaded are reported before the query is looked at. -/
def check (mode : CheckMode) (pretty : Bool) (source : SettingsSource) (query : Text) :
    Except CheckError CheckResult :=
  match source.load with
  | .ok s => mode.run pretty s query
  | .error e => .error (.settings e)

end CorpusQuery
