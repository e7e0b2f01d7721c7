import SourceCritic.Main
import SourceCritic.Proofs.Config.Lines
import SourceCritic.Proofs.FileSystem.Extensions
import SourceCritic.Proofs.Program.Presentation
import SourceCritic.Proofs.Report.Decoding
import SourceCritic.Proofs.Report.Grading
import SourceCritic.Proofs.Rule.Balance
import SourceCritic.Proofs.Rule.BlankLines
import SourceCritic.Proofs.Rule.Branches
import SourceCritic.Proofs.Rule.Enclosure
import SourceCritic.Proofs.Rule.Joining
import SourceCritic.Proofs.Rule.LineEndings
import SourceCritic.Proofs.Rule.LineNumbers
import SourceCritic.Proofs.Rule.Locality
import SourceCritic.Proofs.Rule.Packing
import SourceCritic.Proofs.Rule.Sites
import SourceCritic.Proofs.Rule.Statements
import SourceCritic.Proofs.Rule.Windows
import SourceCritic.Proofs.Run.Accounts
import SourceCritic.Proofs.Run.Refusal
import SourceCritic.Proofs.Run.Relocation
import SourceCritic.Proofs.Run.Settings
