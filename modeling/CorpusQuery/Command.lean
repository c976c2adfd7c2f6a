import CorpusQuery.Check
import CorpusQuery.Manual
import CorpusQuery.Value.Wildcard

/-! The commands of the program: what its arguments ask for, and what it answers. -/

namespace CorpusQuery

inductive Command where
  | version
  /-- Without a query the query is read from the input. -/
  | check (mode : CheckMode) (pretty : Bool) (settings : Option Text) (query : Option Text)
  | wildcard (text : Text)
  | regex (text : Text)
  | manual (topic : Option Text)
deriving DecidableEq, Repr

/-- An argument by its form. -/
inductive Argument where
  /-- The mark `--`, behind which everything is a word. -/
  | escape
  | long (name : Text) (value : Option Text)
  | short (letters : Text)
  | word (text : Text)
deriving DecidableEq, Repr

/-- A single dash is a word. -/
def Argument.of : Text → Argument
  | ['-', '-'] => .escape
  | '-' :: '-' :: option =>
    match option.span (· != '=') with
    | (name, []) => .long name none
    | (name, _ :: value) => .long name (some value)
  | ['-'] => .word ['-']
  | '-' :: letters => .short letters
  | text => .word text

/-- The options a command takes. -/
structure Options where
  pretty : Bool
  settings : Bool
deriving DecidableEq, Repr

/-- What has been read of a command's arguments. -/
structure Given where
  pretty : Bool
  settings : Option Text
  /-- The next argument has to be the value of the settings option. -/
  awaiting : Bool
  words : List Text
deriving DecidableEq, Repr

namespace Given

def nothing : Given := ⟨false, none, false, []⟩

/-- A flag may be given once. -/
def withPretty (o : Options) (g : Given) : Option Given :=
  if o.pretty && !g.pretty then some { g with pretty := true } else none

/-- The name of a file is not empty, and given once. -/
def withSettings (o : Options) (g : Given) (file : Text) : Option Given :=
  if o.settings && g.settings.isNone && !file.isEmpty then
    some { g with settings := some file, awaiting := false }
  else none

def await (o : Options) (g : Given) : Option Given :=
  if o.settings then some { g with awaiting := true } else none

def withLong (o : Options) (g : Given) (name : Text) (value : Option Text) : Option Given :=
  if name = "pretty".toList then
    match value with
    | none => g.withPretty o
    | some _ => none
  else if name = "settings".toList then
    match value with
    | none => g.await o
    | some file => g.withSettings o file
  else none

/-- Letters stand for options of their own, but what follows the settings option is its value. -/
def withShort (o : Options) (g : Given) : Text → Option Given
  | [] => some g
  | 'p' :: more => (g.withPretty o).bind (withShort o · more)
  | 's' :: more =>
    match more with
    | [] => g.await o
    | '=' :: file => g.withSettings o file
    | file => g.withSettings o file
  | _ => none

def withWord (g : Given) (word : Text) : Given := { g with words := g.words ++ [word] }

def read (o : Options) (g : Given) : List Text → Option Given
  | [] => if g.awaiting then none else some g
  | arg :: rest =>
    match g.awaiting, Argument.of arg with
    | true, .word file => (g.withSettings o file).bind (read o · rest)
    | true, _ => none
    | false, .escape => some { g with words := g.words ++ rest }
    | false, .long name value => (g.withLong o name value).bind (read o · rest)
    | false, .short letters => (g.withShort o letters).bind (read o · rest)
    | false, .word word => read o (g.withWord word) rest

end Given

namespace Command

/-- At most one word. -/
def optionalWord? : List Text → Option (Option Text)
  | [] => some none
  | [word] => some (some word)
  | _ => none

def checkOf? (mode : CheckMode) (o : Options) (args : List Text) : Option Command := do
  let g ← Given.nothing.read o args
  let query ← optionalWord? g.words
  some (.check mode g.pretty g.settings query)

def wordOf? (args : List Text) : Option (Option Text) := do
  let g ← Given.nothing.read ⟨false, false⟩ args
  optionalWord? g.words

/-- The command that arguments ask for; none if they cannot be made out. -/
def ofArgs? : List Text → Option Command
  | [] => none
  | name :: args =>
    match String.ofList name with
    | "--version" => some .version
    | "check" => checkOf? .validity ⟨false, false⟩ args
    | "parse" => checkOf? .ast ⟨true, true⟩ args
    | "normalize" => checkOf? .normalize ⟨false, true⟩ args
    | "tree" => checkOf? .tree ⟨false, true⟩ args
    | "wildcard" => do some (.wildcard (← (← wordOf? args)))
    | "regex" => do some (.regex (← (← wordOf? args)))
    | "docs" => do some (.manual (← wordOf? args))
    | _ => if ['-', 'V'].isPrefixOf name then some .version else none

def readsInput : Command → Bool
  | .check _ _ _ none => true
  | _ => false

def settingsFile? : Command → Option Text
  | .check _ _ file _ => file
  | _ => none

/-- What the program leaves behind. -/
structure Output where
  code : UInt32
  stdout : String
  stderr : String
deriving DecidableEq, Repr

namespace Output

def success (text : String) : Output := ⟨0, text, ""⟩

def line (text : Text) : Output := success (String.ofList text ++ "\n")

def failure (message : String) : Output := ⟨1, "", message ++ "\n"⟩

def usage : Output := ⟨2, "", "Usage: cqlb <COMMAND>\n"⟩

def ofCheck : Except CheckError CheckResult → Output
  | .ok .valid => success "Syntax is valid\n"
  | .ok .empty => success "No query\n"
  | .ok (.ast json) => line json
  | .ok (.cql query) => line query
  | .ok (.tree outline) => success (String.ofList outline)
  | .error e => failure e.message

end Output

/-- Carries a command out, with the settings its file holds and the text of the input. -/
def run (source : SettingsSource) (input : Text) : Command → Output
  | .version => .success "cqlb 0.2.0\n"
  | .check mode pretty _ query => .ofCheck (CorpusQuery.check mode pretty source (query.getD input))
  | .wildcard text => .line (Wildcard.toRegex text)
  | .regex text => .line (Wildcard.ofRegex text)
  | .manual topic =>
    match Manual.lookUp topic with
    | .ok page => .success page
    | .error e => .failure e.message

/-- Where the settings of a command come from, given what can be had under the name of a file. -/
def source (file? : Text → Option Text) (c : Command) : SettingsSource :=
  match c.settingsFile? with
  | none => .standard
  | some name =>
    match file? name with
    | some text => .document text
    | none => .missing

end Command

end CorpusQuery
