import Fluxion.CommandLine
import Fluxion.Demo
import Fluxion.Formula.Cursor
import Fluxion.Main
import Fluxion.Node.Derivative
import Fluxion.Node.Operand
import Fluxion.Proofs.AbsentVariable
import Fluxion.Proofs.ArithmeticReading
import Fluxion.Proofs.BoundNames
import Fluxion.Proofs.Cuts
import Fluxion.Proofs.DrawnGraph
import Fluxion.Proofs.EntryPoints
import Fluxion.Proofs.ErrorPosition
import Fluxion.Proofs.Indeterminate
import Fluxion.Proofs.KeptNodes
import Fluxion.Proofs.Lanes
import Fluxion.Proofs.NormalForm
import Fluxion.Proofs.NumberText
import Fluxion.Proofs.OptionBindings
import Fluxion.Proofs.Outline
import Fluxion.Proofs.Pieces
import Fluxion.Proofs.Relabelling
import Fluxion.Proofs.Rereading
import Fluxion.Proofs.Session
import Fluxion.Proofs.Slopes
import Fluxion.Proofs.Substitution
import Fluxion.Proofs.Termination
import Fluxion.Proofs.VariableNames
import Fluxion.Proofs.ZeroPowers
import Fluxion.Proofs.ZeroShapes
