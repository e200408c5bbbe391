import HttpSuite.Main
import HttpSuite.Proofs.Actions
import HttpSuite.Proofs.Assignment
import HttpSuite.Proofs.Check.Expected
import HttpSuite.Proofs.Check.Integers
import HttpSuite.Proofs.Check.Ordering
import HttpSuite.Proofs.Context
import HttpSuite.Proofs.Document.Fields
import HttpSuite.Proofs.Entries
import HttpSuite.Proofs.Extension.Aliases
import HttpSuite.Proofs.Extension.Registrations
import HttpSuite.Proofs.Extractor
import HttpSuite.Proofs.Failures
import HttpSuite.Proofs.Files.Tree
import HttpSuite.Proofs.Number.Nearest
import HttpSuite.Proofs.Pass
import HttpSuite.Proofs.Run.Acts
import HttpSuite.Proofs.Run.Answering
import HttpSuite.Proofs.Run.Concurrency
import HttpSuite.Proofs.Run.Deeds
import HttpSuite.Proofs.Run.Course
import HttpSuite.Proofs.Run.Frame
import HttpSuite.Proofs.Run.Independence
import HttpSuite.Proofs.Run.Interleaving
import HttpSuite.Proofs.Run.Interpreter
import HttpSuite.Proofs.Run.Pauses
import HttpSuite.Proofs.Run.Performances
import HttpSuite.Proofs.Run.Preparation
import HttpSuite.Proofs.Run.Program
import HttpSuite.Proofs.Run.Prompts
import HttpSuite.Proofs.Run.Pulls
import HttpSuite.Proofs.Run.Report
import HttpSuite.Proofs.Run.Signals
import HttpSuite.Proofs.Run.Steps
import HttpSuite.Proofs.Run.Turns
import HttpSuite.Proofs.Run.Verdict
import HttpSuite.Proofs.Settings
import HttpSuite.Proofs.Settings.Layers
import HttpSuite.Proofs.Stream
import HttpSuite.Proofs.Suite.Address
import HttpSuite.Proofs.Suite.Calm
import HttpSuite.Proofs.Suite.Change
import HttpSuite.Proofs.Suite.Compile
import HttpSuite.Proofs.Suite.Config
import HttpSuite.Proofs.Suite.ConfigOrder
import HttpSuite.Proofs.Suite.Durations
import HttpSuite.Proofs.Suite.History
import HttpSuite.Proofs.Suite.ImportForest
import HttpSuite.Proofs.Suite.Imports
import HttpSuite.Proofs.Suite.Merge
import HttpSuite.Proofs.Suite.OwnSet
import HttpSuite.Proofs.Suite.Seconds
import HttpSuite.Proofs.Suite.Snapshots
import HttpSuite.Proofs.Suite.Spelling
import HttpSuite.Proofs.Suite.Termination
import HttpSuite.Proofs.Suite.TestOrder
import HttpSuite.Proofs.Template
import HttpSuite.Proofs.Template.Grammar
import HttpSuite.Proofs.Template.Substitution
import HttpSuite.Proofs.Template.Unbound
import HttpSuite.Proofs.Text.Decimal
import HttpSuite.Proofs.Value.Equality
import HttpSuite.Proofs.Variables
