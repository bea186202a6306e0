import TapeMachine.Chat
import TapeMachine.FileTree
import TapeMachine.Main
import TapeMachine.Proofs.Course
import TapeMachine.Proofs.Nesting.LoopStack
import TapeMachine.Proofs.Nesting.Barrier
import TapeMachine.Proofs.Structured.Block
import TapeMachine.Proofs.Structured.Semantics
import TapeMachine.Proofs.Structured.Simulation
import TapeMachine.Proofs.Budget
import TapeMachine.Proofs.Structured.Agreement
import TapeMachine.Proofs.Termination
import TapeMachine.Proofs.Coherence
import TapeMachine.Proofs.Faults
import TapeMachine.Proofs.Cuts
import TapeMachine.Proofs.Report.Listing
import TapeMachine.Proofs.Report.Rendering
import TapeMachine.Proofs.OutputLimit
import TapeMachine.Proofs.Report.LineBreaks
import TapeMachine.Proofs.Comments
import TapeMachine.Proofs.Readings
import TapeMachine.Proofs.Continuation
import TapeMachine.Proofs.Nesting.Unclosed
import TapeMachine.Proofs.Chat.Reply
import TapeMachine.Proofs.Chat.History
import TapeMachine.Proofs.Chat.Agreement
import TapeMachine.Proofs.Nesting.Balance
import TapeMachine.Proofs.Nesting.DyckWord
import TapeMachine.Proofs.Input
import TapeMachine.Proofs.Recurrence
import TapeMachine.Proofs.Growth
import TapeMachine.Proofs.Product
import TapeMachine.Proofs.SetUp
import TapeMachine.Proofs.Session.Clocks
import TapeMachine.Proofs.Session.History
import TapeMachine.Proofs.Yaml.Scalars
import TapeMachine.Proofs.Config.Entries
import TapeMachine.Proofs.Yaml.Lines
import TapeMachine.Proofs.Yaml.Tokens
import TapeMachine.Proofs.Yaml.Mapping
import TapeMachine.Proofs.Config.Written
