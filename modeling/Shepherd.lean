import Shepherd.Host.Bridge
import Shepherd.Main
import Shepherd.Proofs.Board.Confinement
import Shepherd.Proofs.Board.Drawing
import Shepherd.Proofs.Board.Failures
import Shepherd.Proofs.Board.Integrity
import Shepherd.Proofs.Board.Pairing
import Shepherd.Proofs.Board.Removal
import Shepherd.Proofs.Board.Verdict
import Shepherd.Proofs.Bridge.Fifo
import Shepherd.Proofs.Grid.Level
import Shepherd.Proofs.Playthrough
import Shepherd.Proofs.Runner.Answers
import Shepherd.Proofs.Runner.LastWords
import Shepherd.Proofs.Runner.Marshaling
import Shepherd.Proofs.Script.CallCount
import Shepherd.Proofs.Script.Embedding
import Shepherd.Proofs.Script.Endings
import Shepherd.Proofs.Script.Grammar
import Shepherd.Proofs.Script.Isolation
import Shepherd.Proofs.Script.Joining
import Shepherd.Proofs.Script.Truncation
import Shepherd.Proofs.Sandbox.Packed
import Shepherd.Proofs.Runner.Console
import Shepherd.Proofs.Board.Lookup
