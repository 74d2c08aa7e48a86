import Sidebar.Document.Scan
import Sidebar.Main
import Sidebar.Proofs.AddressText
import Sidebar.Proofs.Ascending
import Sidebar.Proofs.Entries
import Sidebar.Proofs.LastPlace
import Sidebar.Proofs.Numbering
import Sidebar.Proofs.Selection
import Sidebar.Proofs.WellNumbered
import Sidebar.Proofs.Paging
import Sidebar.Proofs.Contract
import Sidebar.Proofs.Latest
import Sidebar.Proofs.Panels
import Sidebar.Proofs.IdForm
import Sidebar.Proofs.Indexes
import Sidebar.Proofs.Reordering
import Sidebar.Proofs.OutlineCheck
import Sidebar.Proofs.OnPage
import Sidebar.Proofs.EntityText
import Sidebar.Proofs.RenderedPage
import Sidebar.Proofs.CheckedPages
import Sidebar.Proofs.QuotedText
import Sidebar.Proofs.WrittenSource
import Sidebar.Proofs.WrittenTables
import Sidebar.Proofs.OutlineText
import Sidebar.Proofs.SavedFile
import Sidebar.Proofs.Rest
import Sidebar.Proofs.IssueCounts
import Sidebar.Proofs.LetterCase
import Sidebar.Proofs.HiddenParts
import Sidebar.Proofs.OwnAttributes
import Sidebar.Proofs.Restyling
import Sidebar.Proofs.MemberTable
import Sidebar.Proofs.LookUps
import Sidebar.Proofs.OutlineContent
import Sidebar.Proofs.JoinedTexts
import Sidebar.Proofs.SingleSteps
import Sidebar.Proofs.History
import Sidebar.Proofs.KeyNames
