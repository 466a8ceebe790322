import Emend.Main
import Emend.Proofs.Path.CanonicalText
import Emend.Proofs.Path.Grammar
import Emend.Proofs.Document.PatchLeaves
import Emend.Proofs.Store.AllOrNothing
import Emend.Proofs.Update.Notes
import Emend.Proofs.Update.Override
import Emend.Proofs.Wire.RoundTrip
import Emend.Proofs.Wire.Session
import Emend.Proofs.Operation.Commute
import Emend.Proofs.Json.Equality
import Emend.Proofs.Store.Identity
import Emend.Proofs.Statement.Built
import Emend.Proofs.Update.Rewritten
import Emend.Proofs.Operation.Equality
import Emend.Proofs.Store.SortOrder
import Emend.Proofs.Store.Splitting
import Emend.Proofs.Wire.Conversation
import Emend.Proofs.Document.Writing
import Emend.Proofs.Store.FirstDocuments
import Emend.Proofs.Store.Saved
import Emend.Proofs.Update.RoundTrip
import Emend.Proofs.Document.Removal
import Emend.Proofs.Document.Appending
import Emend.Proofs.Operation.Misses
import Emend.Proofs.Document.LeafByLeaf
import Emend.Proofs.Update.LeafList
import Emend.Proofs.Document.PatchAgain
import Emend.Proofs.Statement.Agreement
import Emend.Proofs.SortKey.Expression
import Emend.Proofs.Request.Form
import Emend.Proofs.Request.Replay
import Emend.Proofs.Number.Nearest
import Emend.Proofs.Store.IntegerOrder
import Emend.Proofs.Wire.Refused
