import Gazette.Body.Compact
import Gazette.Body.Headings
import Gazette.Body.Lines
import Gazette.Body.Render
import Gazette.Document.Basic
import Gazette.Document.History
import Gazette.Document.Id
import Gazette.Entities
import Gazette.Index.Basic
import Gazette.Index.Paging
import Gazette.Index.Post
import Gazette.Index.Search
import Gazette.Index.Syndication
import Gazette.Json.Basic
import Gazette.Json.Decimal
import Gazette.Json.Decoder
import Gazette.Json.Fault
import Gazette.Json.Reader
import Gazette.Json.Writer
import Gazette.Main
import Gazette.Markup.Basic
import Gazette.Markup.Cdata
import Gazette.Markup.Escape
import Gazette.Node.Basic
import Gazette.Node.Html
import Gazette.Node.Plain
import Gazette.Node.Wire
import Gazette.Site.Assets
import Gazette.Site.Config
import Gazette.Site.Context
import Gazette.Site.Export
import Gazette.Site.Fault
import Gazette.Site.Feeds
import Gazette.Site.Http
import Gazette.Site.Notice
import Gazette.Site.Pages
import Gazette.Site.Platform
import Gazette.Site.Route
import Gazette.Site.Serve
import Gazette.Site.State
import Gazette.Slot
import Gazette.Table
import Gazette.Text.Blank
import Gazette.Text.Casing
import Gazette.Text.Casing.Table
import Gazette.Text.Digits
import Gazette.Text.Number
import Gazette.Text.Part
import Gazette.Text.Percent
import Gazette.Text.Quoted
import Gazette.Text.Quoted.Table
import Gazette.Text.Ranges
import Gazette.Text.Utf8
import Gazette.Time.Calendar
import Gazette.Time.Instant
import Gazette.Time.Pattern
import Gazette.Time.Reader
import Gazette.Time.Zone
import Gazette.Proofs.Markup.Reading
import Gazette.Proofs.Body.Written
import Gazette.Proofs.Body.Nodes
import Gazette.Proofs.Body.Cutting
import Gazette.Proofs.Body.Promoting
import Gazette.Proofs.Body.Thinning
import Gazette.Proofs.Body.Compacting
import Gazette.Proofs.Slot.Program
import Gazette.Proofs.Slot.Coalescing
import Gazette.Proofs.Slot.Loss
import Gazette.Proofs.Slot.Versions
import Gazette.Proofs.Slot.Calls
import Gazette.Proofs.Index.Building
import Gazette.Proofs.Node.Agreement
import Gazette.Proofs.Body.Ink
import Gazette.Proofs.Body.Marked
import Gazette.Proofs.Text.Encoding
import Gazette.Proofs.Site.Pages
import Gazette.Proofs.Site.Growth
import Gazette.Proofs.Site.Transparency
import Gazette.Proofs.Body.Delimiting
import Gazette.Proofs.Document.Requests
import Gazette.Proofs.Document.Alike
import Gazette.Proofs.Document.Orderly
import Gazette.Proofs.Document.Survivors
import Gazette.Proofs.Site.Routing
import Gazette.Proofs.Site.Steps
import Gazette.Proofs.Site.Reaching
import Gazette.Proofs.Site.Walks
import Gazette.Proofs.Site.Posts
import Gazette.Proofs.Site.Isolation
import Gazette.Proofs.Text.Decoding
import Gazette.Proofs.Text.Reading
import Gazette.Proofs.Site.Links
import Gazette.Proofs.Site.Addresses
import Gazette.Proofs.Text.Places
import Gazette.Proofs.Index.Bylines
import Gazette.Proofs.Site.Calm
import Gazette.Proofs.Site.Notices
import Gazette.Proofs.Body.FirstHeading
import Gazette.Proofs.Node.PlainLines
import Gazette.Proofs.Index.Titles
import Gazette.Proofs.Text.Parts
import Gazette.Proofs.Text.Lowercasing
import Gazette.Proofs.Text.Sigmas
import Gazette.Proofs.Body.Kept
import Gazette.Proofs.Body.CodeBlocks
import Gazette.Proofs.Index.Finding
import Gazette.Proofs.Body.Visible
import Gazette.Proofs.Markup.Aligning
import Gazette.Proofs.Index.Matching
import Gazette.Proofs.Index.Spacing
import Gazette.Proofs.Markup.Xml
import Gazette.Proofs.Markup.Elements
import Gazette.Proofs.Site.FeedReading
import Gazette.Proofs.Markup.Skeleton
import Gazette.Proofs.Site.Skeletons
import Gazette.Proofs.Site.Framing
import Gazette.Proofs.Site.WellFormed
import Gazette.Proofs.Site.Refreshing
import Gazette.Proofs.Site.DefaultFeed
import Gazette.Proofs.Site.Pagers
import Gazette.Proofs.Site.Turning
import Gazette.Proofs.Body.Settled
import Gazette.Proofs.Body.Regions
import Gazette.Proofs.Body.Compacted
import Gazette.Proofs.Markup.Sections
import Gazette.Proofs.Index.Partition
import Gazette.Proofs.Site.Onward
import Gazette.Proofs.Node.Lookups
import Gazette.Proofs.Document.Numerals
import Gazette.Proofs.Time.Numbering
import Gazette.Proofs.Time.Reading
import Gazette.Proofs.Time.LongForm
import Gazette.Proofs.Node.Timestamps
import Gazette.Proofs.Site.Accepting
import Gazette.Proofs.Text.Slices
import Gazette.Proofs.Body.Cursors
import Gazette.Proofs.Node.Kinds
