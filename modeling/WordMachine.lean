import WordMachine.Main
import WordMachine.Store.Lemmas
import WordMachine.Proofs.Assembly.SymbolTables
import WordMachine.Proofs.Assembly.Reuse
import WordMachine.Proofs.Execution.Control
import WordMachine.Proofs.Execution.Globals
import WordMachine.Proofs.Execution.Comparison
import WordMachine.Proofs.Execution.Independence
import WordMachine.Proofs.InstructionFormat
import WordMachine.Proofs.Pool.Shelf
import WordMachine.Proofs.Execution.Confinement
import WordMachine.Proofs.Assembly.Contributions
import WordMachine.Proofs.Assembly.Following
import WordMachine.Proofs.Assembly.Revised
import WordMachine.Proofs.Execution.Frames
import WordMachine.Proofs.Assembly.Concatenation
import WordMachine.Proofs.Assembly.Meanings
import WordMachine.Proofs.Assembly.Numerals
import WordMachine.Proofs.Execution.Residues
import WordMachine.Proofs.Assembly.Collecting
import WordMachine.Proofs.Agreement
import WordMachine.Proofs.Assembly.Folding
import WordMachine.Proofs.Assembly.Appearance
import WordMachine.Proofs.Execution.Division
import WordMachine.Proofs.Execution.SelfModification
import WordMachine.Proofs.Execution.Stacks
import WordMachine.Proofs.Execution.ReadBack
import WordMachine.Proofs.Images
import WordMachine.Proofs.Store
