import TapeMachine.Program
import TapeMachine.Datum
import TapeMachine.Machine
import TapeMachine.Script
import TapeMachine.Log.Filter
import TapeMachine.CommandLine.Directory
import TapeMachine.CommandLine.Report
import TapeMachine.Main
import TapeMachine.Proofs.Frame
import TapeMachine.Proofs.Independence
import TapeMachine.Proofs.Transfer
import TapeMachine.Proofs.Rounds
import TapeMachine.Proofs.Trace
import TapeMachine.Proofs.Passage
import TapeMachine.Proofs.Rendering
import TapeMachine.Proofs.Repetition
import TapeMachine.Proofs.Cost
import TapeMachine.Proofs.Addition
import TapeMachine.Proofs.HeldCells
import TapeMachine.Proofs.TapeMap
import TapeMachine.Proofs.Moves
