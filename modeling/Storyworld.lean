import Storyworld.Acts
import Storyworld.Apply
import Storyworld.Beats
import Storyworld.Catalog
import Storyworld.Codec.Basic
import Storyworld.Codec.Companion
import Storyworld.Codec.Condition
import Storyworld.Codec.Document
import Storyworld.Codec.Effect
import Storyworld.Codec.Save
import Storyworld.Codec.Settings
import Storyworld.Codec.State
import Storyworld.Command
import Storyworld.Condition
import Storyworld.Console.Arguments
import Storyworld.Console.MetaCommand
import Storyworld.Console.Program
import Storyworld.Console.Usage
import Storyworld.Count
import Storyworld.Datum
import Storyworld.Datum.Numeral
import Storyworld.Definition
import Storyworld.Direction
import Storyworld.Effect
import Storyworld.Entity
import Storyworld.Files.Path
import Storyworld.Files.Tree
import Storyworld.Flag
import Storyworld.Instant
import Storyworld.Integrity
import Storyworld.Intent
import Storyworld.Interpretation
import Storyworld.Json.Reader
import Storyworld.Json.Writer
import Storyworld.Loading
import Storyworld.Main
import Storyworld.Migration
import Storyworld.Narration
import Storyworld.Narration.Request
import Storyworld.Narration.Style
import Storyworld.Narration.Template
import Storyworld.Outlook
import Storyworld.Placement
import Storyworld.Plan
import Storyworld.Proofs.Accepted
import Storyworld.Proofs.Approval
import Storyworld.Proofs.Atomicity
import Storyworld.Proofs.Chance
import Storyworld.Proofs.Coverage
import Storyworld.Proofs.Critical
import Storyworld.Proofs.Foresight
import Storyworld.Proofs.JsonText
import Storyworld.Proofs.Learning
import Storyworld.Proofs.Overrides
import Storyworld.Proofs.Reckoning
import Storyworld.Proofs.References
import Storyworld.Proofs.Refinement
import Storyworld.Proofs.Resumption
import Storyworld.Proofs.Runs
import Storyworld.Proofs.Sparsity
import Storyworld.Proofs.Stamps
import Storyworld.Proofs.Whereabouts
import Storyworld.Proofs.Winnability
import Storyworld.Proofs.World
import Storyworld.Proofs.Written
import Storyworld.Save
import Storyworld.Session
import Storyworld.SessionId
import Storyworld.Settings
import Storyworld.SortedMap
import Storyworld.SortedSet
import Storyworld.State
import Storyworld.Table
import Storyworld.Text.CaseData
import Storyworld.Text.Grid
import Storyworld.Text.Lowercase
import Storyworld.Text.Phrase
import Storyworld.Text.Similarity
import Storyworld.Text.WidthData
import Storyworld.Text.Words
import Storyworld.Toml.Lexical
import Storyworld.Toml.Reader
import Storyworld.Toml.Tree
import Storyworld.Turn
import Storyworld.Verdict
import Storyworld.View
import Storyworld.Vocabulary
import Storyworld.Proofs.Firing
import Storyworld.Proofs.ActHistory
import Storyworld.Proofs.Possession
import Storyworld.Proofs.Obstacles
import Storyworld.Proofs.Closure
import Storyworld.Proofs.Opening
import Storyworld.Proofs.Permanence
import Storyworld.Proofs.Movement
import Storyworld.Proofs.Progress
import Storyworld.Proofs.OneOff
import Storyworld.Proofs.Nesting
import Storyworld.Proofs.Documents
import Storyworld.Proofs.Restoration
import Storyworld.Proofs.Carryover
import Storyworld.Proofs.Rounds
import Storyworld.Proofs.Protection
import Storyworld.Proofs.Riders
import Storyworld.Proofs.Simulation
import Storyworld.Proofs.Anticipation
import Storyworld.Proofs.Scope
import Storyworld.Proofs.Renaming
import Storyworld.Proofs.Discarding
import Storyworld.Proofs.Readback
import Storyworld.Proofs.Dependence
import Storyworld.Proofs.Evaluation
import Storyworld.Proofs.Phrases
import Storyworld.Proofs.Spelling
import Storyworld.Proofs.Counting
