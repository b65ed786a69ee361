import ThreadedForth.Binary64
import ThreadedForth.Bootstrap
import ThreadedForth.Cell
import ThreadedForth.CommandLine
import ThreadedForth.Conversation
import ThreadedForth.Decimal.Reader
import ThreadedForth.Decimal.Shortest
import ThreadedForth.Decimal.Text
import ThreadedForth.Decompile
import ThreadedForth.Dictionary
import ThreadedForth.Error
import ThreadedForth.Highlight
import ThreadedForth.Input
import ThreadedForth.Input.Editor
import ThreadedForth.Input.Text
import ThreadedForth.Input.Typed
import ThreadedForth.Interpreter
import ThreadedForth.Machine
import ThreadedForth.Machine.Effect
import ThreadedForth.Machine.Primitive
import ThreadedForth.Machine.State
import ThreadedForth.Main
import ThreadedForth.Memory
import ThreadedForth.Number
import ThreadedForth.Numeral
import ThreadedForth.Output
import ThreadedForth.Proofs.Decompile.Bounds
import ThreadedForth.Proofs.Decompile.Lasting
import ThreadedForth.Proofs.Decompile.Listing
import ThreadedForth.Proofs.Decompile.Recompiling
import ThreadedForth.Proofs.Decompile.Scanning
import ThreadedForth.Proofs.Dictionary.Flags
import ThreadedForth.Proofs.Dictionary.History
import ThreadedForth.Proofs.Dictionary.Log
import ThreadedForth.Proofs.Dictionary.Lookups
import ThreadedForth.Proofs.Effect.Careful
import ThreadedForth.Proofs.Effect.Laws
import ThreadedForth.Proofs.Effect.Local
import ThreadedForth.Proofs.Effect.Making
import ThreadedForth.Proofs.Highlight
import ThreadedForth.Proofs.Input.Bookkeeping
import ThreadedForth.Proofs.Input.Joined
import ThreadedForth.Proofs.Input.Lines
import ThreadedForth.Proofs.Input.Reading
import ThreadedForth.Proofs.Input.Seam
import ThreadedForth.Proofs.Input.Source
import ThreadedForth.Proofs.Input.Supply
import ThreadedForth.Proofs.Input.Tokens
import ThreadedForth.Proofs.Machine.AppendOnly
import ThreadedForth.Proofs.Machine.Appending
import ThreadedForth.Proofs.Machine.Backtrace
import ThreadedForth.Proofs.Machine.Executing
import ThreadedForth.Proofs.Machine.FailingStep
import ThreadedForth.Proofs.Machine.Installing
import ThreadedForth.Proofs.Machine.Linkage
import ThreadedForth.Proofs.Machine.Mirroring
import ThreadedForth.Proofs.Machine.Naming
import ThreadedForth.Proofs.Machine.Nesting
import ThreadedForth.Proofs.Machine.Outfit
import ThreadedForth.Proofs.Machine.Pages
import ThreadedForth.Proofs.Machine.Pieces
import ThreadedForth.Proofs.Machine.Recovering
import ThreadedForth.Proofs.Machine.Runs
import ThreadedForth.Proofs.Machine.SettingUp
import ThreadedForth.Proofs.Machine.Standard
import ThreadedForth.Proofs.Machine.Steps
import ThreadedForth.Proofs.Machine.Surroundings
import ThreadedForth.Proofs.Machine.Watching
import ThreadedForth.Proofs.Memory.Growth
import ThreadedForth.Proofs.Memory.Layout
import ThreadedForth.Proofs.Memory.Writing
import ThreadedForth.Proofs.Numeral
import ThreadedForth.Proofs.OuterLoop.Agreement
import ThreadedForth.Proofs.OuterLoop.Compiling
import ThreadedForth.Proofs.OuterLoop.Defining
import ThreadedForth.Proofs.OuterLoop.Evaluating
import ThreadedForth.Proofs.OuterLoop.Executing
import ThreadedForth.Proofs.OuterLoop.Items
import ThreadedForth.Proofs.OuterLoop.Lines
import ThreadedForth.Proofs.OuterLoop.Prompt
import ThreadedForth.Proofs.OuterLoop.Publishing
import ThreadedForth.Proofs.Prelude.ControlWords
import ThreadedForth.Proofs.Prelude.Evaluated
import ThreadedForth.Proofs.Prelude.Furnished
import ThreadedForth.Proofs.Prelude.Programs
import ThreadedForth.Proofs.Session.Batch
import ThreadedForth.Proofs.Session.EndOfFile
import ThreadedForth.Proofs.Session.Reset
import ThreadedForth.Proofs.Storage.Defining
import ThreadedForth.Proofs.Storage.Inventory
import ThreadedForth.Proofs.Storage.Layout
import ThreadedForth.Proofs.Storage.Programs
import ThreadedForth.Proofs.Storage.Reading
import ThreadedForth.Proofs.Storage.Working
import ThreadedForth.Proofs.Structured.Calls
import ThreadedForth.Proofs.Structured.Code
import ThreadedForth.Proofs.Structured.Execution
import ThreadedForth.Proofs.Words.Careful
import ThreadedForth.Proofs.Words.Division
import ThreadedForth.Proofs.Words.Hiding
import ThreadedForth.Proofs.Words.Library
import ThreadedForth.Proofs.Words.Making
import ThreadedForth.Proofs.Words.Positions
import ThreadedForth.Proofs.Words.Resuming
import ThreadedForth.Session
import ThreadedForth.Stack
import ThreadedForth.Text.Blank
import ThreadedForth.Text.CharSet
import ThreadedForth.Text.Cluster
import ThreadedForth.Text.ClusterClass
import ThreadedForth.Text.Printable
import ThreadedForth.Text.Quoted
import ThreadedForth.Value
import ThreadedForth.Value.Literal
import ThreadedForth.Vocabulary
import ThreadedForth.Words.Arithmetic
import ThreadedForth.Words.Control
import ThreadedForth.Words.Defining
import ThreadedForth.Words.Inspect
import ThreadedForth.Words.Printing
import ThreadedForth.Words.Shuffle
import ThreadedForth.Words.StackAccess
import ThreadedForth.Words.Store
import ThreadedForth.Words.Text
