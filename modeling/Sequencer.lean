import Sequencer.Command.Interchange
import Sequencer.Corpus
import Sequencer.Host.Embedding
import Sequencer.Main
import Sequencer.Proofs.Bytes.Fields
import Sequencer.Proofs.Command.CorrectPrefix
import Sequencer.Proofs.Command.Layout
import Sequencer.Proofs.Command.Printing
import Sequencer.Proofs.Command.Resuming
import Sequencer.Proofs.Command.Widening
import Sequencer.Proofs.CommandLine.CompileBeside
import Sequencer.Proofs.Compiler.Bounds
import Sequencer.Proofs.Compiler.Comments
import Sequencer.Proofs.Compiler.Corpus
import Sequencer.Proofs.Compiler.Joining
import Sequencer.Proofs.Compiler.LineEnds
import Sequencer.Proofs.Compiler.Rendering
import Sequencer.Proofs.Frame.Description
import Sequencer.Proofs.Frame.InPlace
import Sequencer.Proofs.Host.Contract
import Sequencer.Proofs.Instruction.Readers
import Sequencer.Proofs.Instruction.Truncation
import Sequencer.Proofs.Job.Classification
import Sequencer.Proofs.Job.Duration
import Sequencer.Proofs.Pool.Calls
import Sequencer.Proofs.Pool.Cancellation
import Sequencer.Proofs.Pool.Containment
import Sequencer.Proofs.Pool.Order
import Sequencer.Proofs.Pool.Refusal
import Sequencer.Proofs.Source.Partition
import Sequencer.Proofs.Source.Positions
import Sequencer.Proofs.Token.LineStarts
import Sequencer.Proofs.Token.Literals
