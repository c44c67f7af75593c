import Contractions.Workspace
import Contractions.Node.Cursor
import Contractions.Node.Rows
import Contractions.Text.Inspect
import Contractions.Proofs.PackedLookup
import Contractions.Proofs.Refusal
import Contractions.Proofs.Operations
import Contractions.Proofs.Course
import Contractions.Proofs.Edits
import Contractions.Proofs.StoredRows
import Contractions.Proofs.Repacking
import Contractions.Proofs.Backing
import Contractions.Proofs.Enclosure
import Contractions.Proofs.NewestWins
import Contractions.Proofs.Likeness
import Contractions.Proofs.SideBySide
import Contractions.Proofs.IdleSlots
import Contractions.Proofs.Copying
import Contractions.Proofs.Doubling
import Contractions.Proofs.Frame
import Contractions.PackedRows
import Contractions.Proofs.Discipline
import Contractions.Proofs.Partition
import Contractions.Proofs.Verdict
import Contractions.Proofs.Splicing
import Contractions.Proofs.Attachments
import Contractions.Proofs.Sharing
import Contractions.Proofs.Stranded
import Contractions.Proofs.Walk
import Contractions.Proofs.Shifting
import Contractions.Proofs.Appending
import Contractions.Proofs.Summaries
import Contractions.Proofs.Reading
import Contractions.Proofs.Finding
import Contractions.Proofs.Recall
import Contractions.Proofs.Canonical
