import CorpusQuery.Text.Blank
import CorpusQuery.Text.LowerCase
import CorpusQuery.Text.Quoted
import CorpusQuery.Query.Parser
import CorpusQuery.Value.CaseFlag
import CorpusQuery.Value.Comparator
import CorpusQuery.Value.Wildcard
import CorpusQuery.Value.Quotes
import CorpusQuery.Json.Reader
import CorpusQuery.Query.Document
import CorpusQuery.Settings.Reader
import CorpusQuery.Builder.Outline
import CorpusQuery.Builder.Edit
import CorpusQuery.Check
import CorpusQuery.Manual
import CorpusQuery.Main
import CorpusQuery.Draft.Shape
import CorpusQuery.Draft.Sketch
import CorpusQuery.Draft.Step
import CorpusQuery.Draft.Term
import CorpusQuery.Proofs.WellFormed
import CorpusQuery.Proofs.Canonical
import CorpusQuery.Proofs.Meaning
import CorpusQuery.Proofs.Reload
import CorpusQuery.Proofs.Rewriting
import CorpusQuery.Proofs.Refusal
import CorpusQuery.Proofs.Query.Position
import CorpusQuery.Proofs.Grammar.Compose
import CorpusQuery.Proofs.Nesting
import CorpusQuery.Proofs.Verdict
import CorpusQuery.Proofs.Alternating
import CorpusQuery.Proofs.Literals
import CorpusQuery.Proofs.Blank
import CorpusQuery.Proofs.Undo
import CorpusQuery.Proofs.Loading
import CorpusQuery.Proofs.Repetition
import CorpusQuery.Proofs.Value.Shorthand
import CorpusQuery.Proofs.Value.QuoteScan
import CorpusQuery.Proofs.Value.Escaped
import CorpusQuery.Proofs.Value.Wildcard
import CorpusQuery.Proofs.Query.Words
import CorpusQuery.Proofs.Outline
import CorpusQuery.Proofs.Locality
import CorpusQuery.Proofs.Json.Layout
import CorpusQuery.Proofs.Json.Query
import CorpusQuery.Proofs.Query.Moves
import CorpusQuery.Proofs.Query.Termination
