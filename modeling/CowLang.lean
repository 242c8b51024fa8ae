import CowLang.Config.Text
import CowLang.FileTree
import CowLang.Main
import CowLang.Proofs.Boundaries
import CowLang.Proofs.Cancelling
import CowLang.Proofs.CardColor
import CowLang.Proofs.Clearing
import CowLang.Proofs.ConfigText
import CowLang.Proofs.Faults
import CowLang.Proofs.History
import CowLang.Proofs.Inert
import CowLang.Proofs.Outcome
import CowLang.Proofs.Reads
import CowLang.Proofs.Reverse
import CowLang.Proofs.Sequence
import CowLang.Proofs.Sources
import CowLang.Proofs.TapeLength
import CowLang.Proofs.Unmatched
