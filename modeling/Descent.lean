import Descent.Main
import Descent.Proofs.Evaluation.Reconstruction
import Descent.Proofs.Evaluation.Soundness
import Descent.Proofs.Evaluation.Strictness
import Descent.Proofs.Evaluation.Termination
import Descent.Proofs.Grammar.NormalForm
import Descent.Proofs.Grammar.Printing
import Descent.Proofs.Parser.StartRule
import Descent.Token.Flatten
import Descent.Token.Walk
import Descent.Proofs.Evaluation.Spacing
import Descent.Proofs.Grammar.Entries
import Descent.Proofs.Parser.Block
import Descent.Proofs.Registry.History
import Descent.Proofs.Grammar.Shift
import Descent.Proofs.Grammar.Separator
import Descent.Proofs.Parser.LineByLine
import Descent.Proofs.Parser.Width
import Descent.Proofs.Evaluation.Lookups
import Descent.Proofs.Evaluation.Additions
import Descent.Proofs.Parser.Reordering
import Descent.Proofs.Evaluation.Reachability
import Descent.Proofs.Evaluation.UndefinedNames
import Descent.Proofs.Evaluation.Extraction
import Descent.Proofs.Evaluation.Choice
import Descent.Proofs.Evaluation.Repetition
import Descent.Proofs.Parser.Listing
import Descent.Proofs.Grammar.Faults
import Descent.Proofs.Grammar.FirstFault
import Descent.Proofs.Grammar.LineEnds
import Descent.Proofs.Evaluation.Prefixes
import Descent.Proofs.Parser.Positions
import Descent.Proofs.Token.Flattening
import Descent.Proofs.Token.Levels
import Descent.Proofs.Token.Values
import Descent.Proofs.Token.Walking
import Descent.Proofs.Grammar.Names
import Descent.Proofs.Parser.StartHistory
import Descent.Proofs.Parser.CharacterRules
import Descent.Proofs.Token.Indentation
import Descent.Proofs.CharacterRule.Runs
import Descent.Proofs.Evaluation.Progress
import Descent.Proofs.Grammar.Segments
