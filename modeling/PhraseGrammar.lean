import PhraseGrammar.Text.Basic
import PhraseGrammar.Text.Blank
import PhraseGrammar.Text.Letter
import PhraseGrammar.Text.Lines
import PhraseGrammar.Text.Number
import PhraseGrammar.Text.Quoted
import PhraseGrammar.Text.Utf8
import PhraseGrammar.Register
import PhraseGrammar.Rule
import PhraseGrammar.Grammar
import PhraseGrammar.Edit
import PhraseGrammar.Catalog
import PhraseGrammar.Located
import PhraseGrammar.Format
import PhraseGrammar.Format.Hazard
import PhraseGrammar.Hierarchy
import PhraseGrammar.Listing
import PhraseGrammar.Files
import PhraseGrammar.Log
import PhraseGrammar.Log.Pattern
import PhraseGrammar.Log.Pattern.Reader
import PhraseGrammar.Log.Pattern.Progress
import PhraseGrammar.Log.Filter
import PhraseGrammar.Command
import PhraseGrammar.CommandLine
import PhraseGrammar.Session
import PhraseGrammar.Main
import PhraseGrammar.Proofs.Trimming
import PhraseGrammar.Proofs.RuleLine
import PhraseGrammar.Proofs.Reading
import PhraseGrammar.Proofs.Legible
import PhraseGrammar.Proofs.RoundTrip
import PhraseGrammar.Proofs.Plans
import PhraseGrammar.Proofs.Frame
import PhraseGrammar.Proofs.Refinement
import PhraseGrammar.Proofs.Canonical
import PhraseGrammar.Proofs.Encoding
import PhraseGrammar.Proofs.FirstMatch
import PhraseGrammar.Proofs.Lookup
import PhraseGrammar.Proofs.Changes
import PhraseGrammar.Proofs.History
import PhraseGrammar.Proofs.Entries
import PhraseGrammar.Proofs.Accepted
import PhraseGrammar.Proofs.ListingLines
import PhraseGrammar.Proofs.CanonicalFiles
import PhraseGrammar.Proofs.Interleaving
import PhraseGrammar.Proofs.CatalogHistory
import PhraseGrammar.Proofs.HazardLines
import PhraseGrammar.Proofs.Refusals
import PhraseGrammar.Proofs.BrokenLine
import PhraseGrammar.Proofs.ManyFiles
import PhraseGrammar.Proofs.EditOrder
import PhraseGrammar.Proofs.VerdictEdits
import PhraseGrammar.Proofs.RuleOrder
import PhraseGrammar.Proofs.Culprits
import PhraseGrammar.Proofs.Layout
import PhraseGrammar.Proofs.PlainList
import PhraseGrammar.Proofs.LineEdits
import PhraseGrammar.Proofs.Sameness
import PhraseGrammar.Proofs.StrictHeads
import PhraseGrammar.Proofs.CatalogOrder
import PhraseGrammar.Proofs.Undo
import PhraseGrammar.Proofs.Clearing
import PhraseGrammar.Proofs.EventLog
