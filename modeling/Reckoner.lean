import Reckoner.Angle.Conversion
import Reckoner.Decimal.Value
import Reckoner.Main
import Reckoner.Proofs.Meaning
import Reckoner.Proofs.Taxonomy
import Reckoner.Report.Csv.Reader
import Reckoner.Settings
import Reckoner.Syntax.Infix
import Reckoner.Token.Segmentation
import Reckoner.Proofs.LongestMatch
import Reckoner.Proofs.Degrees
import Reckoner.Proofs.Nearest
import Reckoner.Proofs.DecimalText
import Reckoner.Proofs.DecimalGrid
import Reckoner.Proofs.Reentry
import Reckoner.Proofs.Bookkeeping
import Reckoner.Syntax.Calls
import Reckoner.Syntax.Punctuation
import Reckoner.Proofs.Conservation
import Reckoner.Proofs.Recovery
import Reckoner.Proofs.ArgumentCounts
import Reckoner.Proofs.Undefined
import Reckoner.Proofs.OuterBlanks
import Reckoner.CommandLine.Answer
import Reckoner.Proofs.WaysOfUse
import Reckoner.Proofs.Offences
import Reckoner.Proofs.OperandOrder
import Reckoner.Proofs.Recall
import Reckoner.Decimal.Exactness
import Reckoner.Proofs.ShortestDigits
import Reckoner.Proofs.DisplayedExactly
import Reckoner.Proofs.Replacement
import Reckoner.Syntax.Supply
import Reckoner.Proofs.Refusals
import Reckoner.CommandLine.Latest
import Reckoner.Proofs.BareMemory
import Reckoner.Proofs.CommandWords
import Reckoner.Decimal.Positional
import Reckoner.Double.Nearest
import Reckoner.Proofs.Literals
import Reckoner.CommandLine.Hazard
import Reckoner.Proofs.Conversation
import Reckoner.Decimal.Scientific
import Reckoner.Proofs.CsvRecords
import Reckoner.Proofs.BatchRecords
import Reckoner.Double.Tolerance
import Reckoner.Proofs.ExactMagnitudes
import Reckoner.Proofs.NearestDouble
import Reckoner.Proofs.Remainder
import Reckoner.Proofs.NearIntegers
import Reckoner.Proofs.OddRoots
import Reckoner.Proofs.Factorials
import Reckoner.Proofs.Memory
import Reckoner.Text.LetterCase
import Reckoner.Proofs.LetterCase
import Reckoner.Proofs.DisplayOrder
