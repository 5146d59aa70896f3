import FullText.Clause
import FullText.Proofs.Search.EndToEnd
import FullText.Proofs.Search.Acceptance
import FullText.Proofs.Aggregation.UniqueReading
import FullText.Proofs.Aggregation.Modes
import FullText.Proofs.Cursor.Interleaving
import FullText.Proofs.Cursor.Isolation
import FullText.Proofs.Building.Sticky
import FullText.Proofs.Building.Projection
import FullText.Proofs.Building.Parameters
import FullText.Proofs.Session.Dialects
import FullText.Proofs.Session.Removal
import FullText.Proofs.Session.Recoded
import FullText.Proofs.Reply.Undecoded
import FullText.Proofs.Reply.Integers
import FullText.Proofs.Reply.Unreadable
import FullText.Proofs.Reply.Forms
import FullText.Proofs.Number.Bounds
import FullText.Proofs.Value.Places
import FullText.Proofs.Emission
import FullText.Proofs.Session.Environment
