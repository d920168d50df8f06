import Mana.Main
import Mana.Node.Agreement
import Mana.Stepper
import Mana.Proofs.Blocks
import Mana.Proofs.Chains
import Mana.Proofs.CommandLines
import Mana.Proofs.Composition
import Mana.Proofs.CursorCalls
import Mana.Proofs.CutOff
import Mana.Proofs.Descriptions
import Mana.Proofs.Diagnostics
import Mana.Proofs.Division
import Mana.Proofs.Enclosure
import Mana.Proofs.Failures
import Mana.Proofs.FirstFault
import Mana.Proofs.JsonOutput
import Mana.Proofs.Layout
import Mana.Proofs.LineEndings
import Mana.Proofs.Locations
import Mana.Proofs.Lookahead
import Mana.Proofs.Origins
import Mana.Proofs.Recovery
import Mana.Proofs.Sessions
import Mana.Proofs.Strengths
import Mana.Proofs.Termination
import Mana.Proofs.TokenListing
import Mana.Proofs.Windows
