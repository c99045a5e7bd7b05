import ArchSketch.Conversation.Codec
import ArchSketch.Conversation.Design
import ArchSketch.Conversation.Prompt
import ArchSketch.Conversation.Turn
import ArchSketch.Designer.Designer
import ArchSketch.Designer.Model
import ArchSketch.Diagram.Call
import ArchSketch.Diagram.Document
import ArchSketch.Diagram.Level
import ArchSketch.Diagram.Line
import ArchSketch.Diagram.Rules
import ArchSketch.Diagram.Slip
import ArchSketch.Diagram.Template
import ArchSketch.Files.Disk
import ArchSketch.Files.Path
import ArchSketch.Files.Store
import ArchSketch.Host.Process
import ArchSketch.Json.Decode
import ArchSketch.Json.Node
import ArchSketch.Json.Numeral
import ArchSketch.Json.Reader
import ArchSketch.Json.Record
import ArchSketch.Json.Scan
import ArchSketch.Json.Value
import ArchSketch.Number.Binary
import ArchSketch.Number.Digits
import ArchSketch.Number.Shortest
import ArchSketch.Number.Single
import ArchSketch.Render.Backend
import ArchSketch.Render.Format
import ArchSketch.Render.Moment
import ArchSketch.Render.Renderer
import ArchSketch.Reply.Block
import ArchSketch.Reply.Explanation
import ArchSketch.Reply.Extraction
import ArchSketch.Settings.Basic
import ArchSketch.Settings.Codec
import ArchSketch.Settings.Storage
import ArchSketch.Text.Base64
import ArchSketch.Text.Blank
import ArchSketch.Text.Case
import ArchSketch.Text.Case.Properties
import ArchSketch.Text.Case.Runs
import ArchSketch.Text.Ranges
import ArchSketch.Text.Search
import ArchSketch.Text.Utf8
import ArchSketch.Text.Word
import ArchSketch.Text.Word.Planes
import ArchSketch.Text.Word.Scripts
import ArchSketch.Tools.Catalogue
import ArchSketch.Tools.Request
import ArchSketch.Tools.Server
import ArchSketch.Proofs.Text.Trim
import ArchSketch.Proofs.Text.Lines
import ArchSketch.Proofs.Text.Search
import ArchSketch.Proofs.Text.Base64
import ArchSketch.Proofs.Diagram.Line
import ArchSketch.Proofs.Diagram.Slip
import ArchSketch.Proofs.Diagram.Token
import ArchSketch.Proofs.Diagram.Call
import ArchSketch.Proofs.Diagram.Document
import ArchSketch.Proofs.Diagram.NormalForm
import ArchSketch.Proofs.Diagram.Edits
import ArchSketch.Proofs.Diagram.Repair
import ArchSketch.Proofs.Json.Members
import ArchSketch.Proofs.Json.Numeral
import ArchSketch.Proofs.Json.Reader
import ArchSketch.Proofs.Json.Record
import ArchSketch.Proofs.Json.Single
import ArchSketch.Proofs.Settings.Storage
import ArchSketch.Proofs.Conversation.Codec
import ArchSketch.Proofs.Reply.Extraction
import ArchSketch.Proofs.Designer.Outcome
import ArchSketch.Proofs.Designer.Dialogue
import ArchSketch.Proofs.Designer.Record
import ArchSketch.Proofs.Tools.History
import ArchSketch.Proofs.Reply.Opening
import ArchSketch.Proofs.Reply.Block
import ArchSketch.Proofs.Reply.Merging
import ArchSketch.Proofs.Reply.Explanation
import ArchSketch.Proofs.Reply.Layout
import ArchSketch.Proofs.Reply.Labelled
import ArchSketch.Proofs.Reply.Quoting
import ArchSketch.Proofs.Designer.Recovery
import ArchSketch.Proofs.Reply.Marker
import ArchSketch.Proofs.Reply.Pairing
import ArchSketch.Proofs.Text.LineEnds
import ArchSketch.Proofs.Reply.LineEnds
import ArchSketch.Proofs.Reply.Delimiter
import ArchSketch.Proofs.Reply.Marked
import ArchSketch.Proofs.Reply.Resending
import ArchSketch.Proofs.Json.Edits
import ArchSketch.Proofs.Conversation.Edits
import ArchSketch.Proofs.Conversation.Acceptance
import ArchSketch.Proofs.Conversation.Prompt
import ArchSketch.Proofs.Settings.Overlay
import ArchSketch.Proofs.Files.Location
import ArchSketch.Proofs.Files.Path
import ArchSketch.Proofs.Files.Store
import ArchSketch.Proofs.Files.Disk
import ArchSketch.Proofs.Settings.Saving
import ArchSketch.Proofs.Diagram.Level
import ArchSketch.Proofs.Files.Way
import ArchSketch.Proofs.Render.Renderer
import ArchSketch.Proofs.Tools.Drawing
import ArchSketch.Proofs.Text.Words
import ArchSketch.Proofs.Text.Case
import ArchSketch.Proofs.Diagram.Template
import ArchSketch.Proofs.Number.Digits
import ArchSketch.Proofs.Render.Moment
