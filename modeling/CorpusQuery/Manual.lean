import CorpusQuery.Text.LowerCase

/-! The manual: an overview, and a page for each topic. -/

namespace CorpusQuery

inductive Topic where
  | tokens
  | attributes
  | operators
  | repetition
  | markup
  | values
  | builder
deriving DecidableEq, Repr

namespace Topic

/-- The names of each topic. -/
def names : List (Topic × List String) := [
  (tokens, ["syntax", "tokens"]),
  (attributes, ["attributes", "attribute", "attrs"]),
  (operators, ["operators", "ops", "boolean"]),
  (repetition, ["repetition", "repeats", "quantifiers"]),
  (markup, ["structure", "within", "tags"]),
  (values, ["values", "regex", "wildcards"]),
  (builder, ["builder", "normalize"])]

/-- The topic of that name, whatever its case. -/
def ofName? (name : Text) : Option Topic :=
  let name := String.ofList (Text.lower name)
  (names.find? (·.2.contains name)).map (·.1)

end Topic

namespace Manual

def overview : String :=
"CQL DOCUMENTATION

CQL (Corpus Query Language) describes sequences of words in an annotated
corpus. Every token slot is written in square brackets and constrains the
annotations of one word.

DOCUMENTATION TOPICS

  syntax            Token slots, the any-word token and bare quoted words
  attributes        name = \"value\" constraints and their comparators
  operators         Combining constraints with & and |
  repetition        \x7bn\x7d, \x7bmin,max\x7d, ?, * and + suffixes
  structure         Sentence anchors and the within clause
  values            Regex values, wildcards, case sensitivity
  builder           How the query builder normalizes patterns

QUICK REFERENCE

  [word=\"cat\"]               One word equal to \"cat\"
  \"cat\"                      Same, using the default attribute
  []                         Any word
  [lemma=\"run\" & pos=\"V.*\"]  Both constraints
  [word=\"a|the\"]             Alternation inside a value
  []\x7b2,4\x7d                    Two to four arbitrary words
  <s> [] </s>                Sentence start / end
  [] within <p/>             Restrict matches to a paragraph

Run 'cqlb docs <topic>' for detailed documentation.
"

def tokensPage : String :=
"SYNTAX - Token Slots

TOKEN
  [ constraints ]
    One word of the corpus. The constraints inside the brackets must all
    hold for the word to match.

    Example:
      [word=\"house\"]

ANY WORD
  []
    A token without constraints matches any single word.

    Example:
      [word=\"the\"] [] [word=\"house\"]

BARE WORDS
  \"value\"
    Shorthand for [word=\"value\"]. The attribute used can be changed with the
    defaultAttribute setting.

    Example:
      \"the\" \"house\"

SEQUENCES
  Tokens are separated by whitespace and match consecutive words.
"

def attributesPage : String :=
"ATTRIBUTES - Constraints on Annotations

FORM
  name = \"value\"
  name != \"value\"
    The name is an annotation such as word, lemma or pos. The value is a
    regular expression matched against the whole annotation.

    Whitespace inside the quotes is part of the value. A double quote inside
    the value is written as \\\".

BUILDER COMPARATORS
  The query builder also offers:
    starts with \"ca\"    written as  word = \"ca.*\"
    ends with \"ing\"     written as  word = \".*ing\"

  A value is only shown as \"starts with\"/\"ends with\" when it has no top-level
  alternation and is not just \".*\".
"

def operatorsPage : String :=
"OPERATORS - Combining Constraints

AND
  a=\"1\" & b=\"2\"
    Both constraints must hold.

OR
  a=\"1\" | b=\"2\"
    Either constraint may hold.

GROUPING
  ( ... )
    Parentheses group constraints.

    Example:
      [lemma=\"run\" & (pos=\"V.*\" | pos=\"N.*\")]

PRECEDENCE
  & and | have the same precedence and are read left to right:

    [a=\"1\" & b=\"2\" | c=\"3\"]    means    [(a=\"1\" & b=\"2\") | c=\"3\"]

  Use parentheses whenever operators are mixed.
"

def repetitionPage : String :=
"REPETITION - Quantifiers

  [...]\x7bn\x7d          exactly n times
  [...]\x7bmin,max\x7d    between min and max times
  [...]\x7bmin,\x7d       at least min times
  [...]?            optional (zero or one)
  [...]*            zero or more
  [...]+            one or more

  A ? after a \x7b..\x7d, * or + suffix also marks the token optional.

  The minimum may not exceed the maximum: \x7b4,2\x7d is rejected.

  Example:
    [pos=\"ADJ\"]\x7b1,3\x7d [pos=\"NOU.*\"]
"

def markupPage : String :=
"STRUCTURE - Tags and Within

SENTENCE ANCHORS
  <s> [...]         token at the start of a sentence
  [...] </s>        token at the end of a sentence

WITHIN
  pattern within <name/>
    Only report matches that lie inside one element, for example a
    paragraph or sentence.

    Example:
      [lemma=\"run\"] [] [pos=\"N.*\"] within <s/>
"

def valuesPage : String :=
"VALUES - Regular Expressions

REGEX
  Values are regular expressions: \"walk.*\" matches walk, walks, walked.

CASE SENSITIVITY
  Matching ignores case and diacritics by default. Prefix the value with
  (?-i) or (?c) to match exactly:

    [word=\"(?-i)Paris\"]

WILDCARDS
  Wildcards are a friendlier form of a small regex subset:
    *    any run of characters      (.*)
    ?    one character              (.)

  cqlb wildcard 'walk*'    prints    walk.*
  cqlb regex 'walk.*'      prints    walk*

MULTIPLE VALUES
  Values picked from a list are escaped and joined with |:
    [pos=\"NOU\\-C|ADJ\"]
"

def builderPage : String :=
"BUILDER - Normalized Patterns

  cqlb normalize '<pattern>'
    Loads the pattern into the query builder and prints it back. The output
    is canonical: spaces around operators, redundant parentheses removed,
    shorthand comparators and case flags re-encoded.

  cqlb tree '<pattern>'
    Shows the builder tree: one root group per token, nested groups for
    mixed operators.

  Attributes that are not configured are dropped, and XML tags other than
  <s> and </s> are ignored. Pass --settings FILE to configure attributes.

SETTINGS FILE
  \x7b
    \"defaultAttribute\": \"word\",
    \"attributes\": [
      \x7b \"id\": \"word\", \"caseSensitive\": true \x7d,
      \x7b \"id\": \"pos\", \"values\": [\x7b \"value\": \"NOU-C\" \x7d] \x7d
    ]
  \x7d
"

def page : Topic → String
  | .tokens => tokensPage
  | .attributes => attributesPage
  | .operators => operatorsPage
  | .repetition => repetitionPage
  | .markup => markupPage
  | .values => valuesPage
  | .builder => builderPage

end Manual

/-- A name that no topic goes by. -/
structure UnknownTopic where
  name : Text
deriving DecidableEq, Repr

def UnknownTopic.message (e : UnknownTopic) : String :=
  "Unknown topic: '" ++ String.ofList e.name ++ "'\nRun 'cqlb docs' to see available topics."

/-- The page of the topic of that name, or the overview. -/
def Manual.lookUp : Option Text → Except UnknownTopic String
  | none => .ok overview
  | some name =>
    match Topic.ofName? name with
    | some topic => .ok (page topic)
    | none => .error ⟨name⟩

end CorpusQuery
