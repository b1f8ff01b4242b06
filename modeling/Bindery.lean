import Bindery.Html.Editor
import Bindery.Main
import Bindery.Proofs.Text.Substitution
import Bindery.Proofs.Textile.BlockForm
import Bindery.Proofs.Textile.Passthrough
import Bindery.Proofs.Textile.Phrase
import Bindery.Proofs.Footnote.Recognition
import Bindery.Proofs.Footnote.Marker
import Bindery.Proofs.Distinct
import Bindery.Proofs.Footnote.Note
import Bindery.Proofs.Html.Attribute
import Bindery.Proofs.Footnote.Renumbered
import Bindery.Proofs.Footnote.Reconcile
import Bindery.Proofs.Footnote.Stray
import Bindery.Proofs.Markdown.FootnoteNumbers
import Bindery.Proofs.Markdown.FootnoteResolution
import Bindery.Proofs.Markdown.Reference
import Bindery.Proofs.Markdown.Nesting
import Bindery.Proofs.Markdown.FootnoteMarkup
import Bindery.Proofs.Textile.FootnoteMarkup
import Bindery.Proofs.Footnote.Generated
import Bindery.Proofs.Textile.Block
import Bindery.Proofs.Callout.OuterPass
import Bindery.Proofs.Footnote.Following
import Bindery.Proofs.Footnote.Isolation
import Bindery.Proofs.Book.Pool
import Bindery.Proofs.Book.Edition
import Bindery.Proofs.Footnote.Composition
import Bindery.Proofs.Footnote.Idempotence
import Bindery.Proofs.Snippet.Sealed
import Bindery.Proofs.Splicing
import Bindery.Session
import Bindery.Proofs.Session
import Bindery.Proofs.Book.Document
import Bindery.Proofs.Html.Growth
import Bindery.Proofs.Html.Tidy
import Bindery.Proofs.Html.FoldedDocument
import Bindery.Proofs.Footnote.Shown
import Bindery.Proofs.Footnote.Tidy
import Bindery.Proofs.Book.Notes
import Bindery.Proofs.Book.Progress
import Bindery.Proofs.Files.Path
import Bindery.Proofs.Files.Tree
import Bindery.Proofs.Discovery
import Bindery.Proofs.Book.Sources
import Bindery.Proofs.Files.Walk
import Bindery.Proofs.Files.Write
import Bindery.Proofs.Book.Publish
import Bindery.Proofs.Textile.Carried
import Bindery.Proofs.Textile.Frame
import Bindery.Proofs.Textile.OwnLine
import Bindery.Proofs.Textile.Spans
import Bindery.Proofs.Discovery.Reserved
import Bindery.Proofs.Textile.Rules
import Bindery.Proofs.Textile.Restored
import Bindery.Proofs.Text.ByteOrder
import Bindery.Proofs.Files.Entry
import Bindery.Proofs.Discovery.Listing
import Bindery.Proofs.Textile.Tag
import Bindery.Proofs.Textile.Nesting
import Bindery.Proofs.Textile.Linked
import Bindery.Proofs.Textile.Untangled
import Bindery.Proofs.Textile.Lexeme
import Bindery.Proofs.Textile.Escape
import Bindery.Proofs.Textile.References
import Bindery.Proofs.Textile.Reach
import Bindery.Proofs.Textile.CodePhrase
import Bindery.Proofs.Text.CaseFold
import Bindery.Proofs.Text.Pattern
import Bindery.Proofs.Snippet.Block
import Bindery.Proofs.Snippet.Range
import Bindery.Proofs.Snippet.MarkLine
import Bindery.Proofs.Snippet.Indent
import Bindery.Proofs.Snippet.FlushLeft
import Bindery.Proofs.Snippet.Dedent
import Bindery.Proofs.Snippet.CodeShown
import Bindery.Proofs.Markdown.BackLink
import Bindery.Proofs.Snippet.Caption
import Bindery.Proofs.Callout.Content
import Bindery.Proofs.Footnote.Spelling
import Bindery.Proofs.Footnote.Tags
import Bindery.Proofs.Textile.LineGroups
