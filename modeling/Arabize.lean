import Arabize.Main
import Arabize.Proofs.Document.SharedMemory
import Arabize.Proofs.Script.ElementText
import Arabize.Proofs.Script.Literals
import Arabize.Proofs.Document.Faults
import Arabize.Proofs.Lexicon.Store
import Arabize.Proofs.Batch.Completion
import Arabize.Proofs.Script.Marks
import Arabize.Proofs.Notes
import Arabize.Proofs.Json.Leaves
import Arabize.Proofs.Markup.Texts
import Arabize.Proofs.Script.Texts
import Arabize.Proofs.Document.Visits
import Arabize.Proofs.Document.Closure
import Arabize.Proofs.Text.Decimal
import Arabize.Proofs.Json.Scalar
import Arabize.Proofs.Json.Strings
import Arabize.Proofs.Json.Parts
import Arabize.Proofs.Document.Data
import Arabize.Proofs.Service.Rotation
import Arabize.Proofs.Batch.Truth
import Arabize.Proofs.Batch.Silence
import Arabize.Proofs.Batch.Replay
import Arabize.Proofs.Batch.Containment
import Arabize.Proofs.Batch.Originals
import Arabize.Proofs.Project.Scan
import Arabize.Proofs.Batch.Gaps
import Arabize.Proofs.Batch.HandOff
import Arabize.Proofs.Markup.Skeleton
import Arabize.Proofs.Markup.LookAlikes
import Arabize.Proofs.Phrase.Settled
import Arabize.Proofs.Markup.RootFields
import Arabize.Proofs.Markup.AttributeFrame
import Arabize.Proofs.Script.Spellings
import Arabize.Proofs.Service.Forms
import Arabize.Proofs.Project.Walk
import Arabize.Proofs.Project.Components
import Arabize.Proofs.Batch.Rescan
import Arabize.Proofs.Service.Fallback
import Arabize.Proofs.Service.Contract
import Arabize.Proofs.Service.Embedded
import Arabize.Proofs.Lexicon.Appended
import Arabize.Proofs.Lexicon.Tiers
import Arabize.Proofs.Script.Preorder
import Arabize.Proofs.Settings.Malformed
