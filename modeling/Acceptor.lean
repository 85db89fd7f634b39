import Acceptor.Main
import Acceptor.Program.Session
import Acceptor.Proofs.Automaton.Sound
import Acceptor.Proofs.Definition.Causes
import Acceptor.Proofs.Definition.Language
import Acceptor.Proofs.Definition.Meaning
import Acceptor.Proofs.Definition.Fault
import Acceptor.Proofs.Definition.Relaid
import Acceptor.Proofs.Definition.Order
import Acceptor.Proofs.Definition.Foresight
import Acceptor.Proofs.Definition.Journal
import Acceptor.Proofs.Automaton.Alike
import Acceptor.Proofs.Automaton.Search
import Acceptor.Proofs.Definition.Writing
import Acceptor.Proofs.Definition.Roundtrip
import Acceptor.Proofs.Definition.Extension
import Acceptor.Proofs.Drawing.Faithful
import Acceptor.Proofs.Drawing.Dot
import Acceptor.Proofs.Drawing.Graph
import Acceptor.Proofs.Builder.Account
import Acceptor.Proofs.Builder.InPlace
import Acceptor.Proofs.Builder.Reordering
import Acceptor.Proofs.Run.Continuation
import Acceptor.Proofs.Run.Locality
import Acceptor.Proofs.Run.Homomorphism
import Acceptor.Proofs.Report.Readback
import Acceptor.Proofs.Program.AllOrNothing
import Acceptor.Proofs.Program.Conversation
import Acceptor.Proofs.Report.Composition
import Acceptor.Proofs.Automaton.Transitions
import Acceptor.Proofs.Drawing.Partition
import Acceptor.Proofs.Drawing.Respacing
import Acceptor.Proofs.Builder.Renaming
import Acceptor.Proofs.Run.Trace
import Acceptor.Proofs.Definition.Cutting
import Acceptor.Proofs.Definition.Recognition
