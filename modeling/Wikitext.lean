import Wikitext.CommandLine.Arguments
import Wikitext.CommandLine.Run
import Wikitext.Conversion.Basic
import Wikitext.Conversion.Exchange
import Wikitext.Conversion.Markup
import Wikitext.Conversion.Prepared
import Wikitext.Dependency.Basic
import Wikitext.Dependency.Version
import Wikitext.Dialect.Basic
import Wikitext.Dialect.MediaWiki
import Wikitext.Document.Attribute
import Wikitext.Document.Node
import Wikitext.Document.Surroundings
import Wikitext.Element.Allowed
import Wikitext.Element.ListItem
import Wikitext.Element.Noise
import Wikitext.Element.Table
import Wikitext.Exchange.Destination
import Wikitext.Exchange.Directory
import Wikitext.Exchange.Path
import Wikitext.Exchange.Source
import Wikitext.Failure
import Wikitext.Html.CharacterName
import Wikitext.Html.Encoding
import Wikitext.Html.Reader
import Wikitext.Html.Reference
import Wikitext.Html.Token
import Wikitext.Html.Tokens
import Wikitext.Link.Markup
import Wikitext.Link.Pattern
import Wikitext.Link.Recognizer
import Wikitext.Main
import Wikitext.Nowiki
import Wikitext.Nowiki.BracketedLink
import Wikitext.Nowiki.Collision
import Wikitext.Options.Basic
import Wikitext.Options.Build
import Wikitext.Options.Value
import Wikitext.Report
import Wikitext.Rule.Basic
import Wikitext.Rule.Table
import Wikitext.Store.Basic
import Wikitext.Store.Conversion
import Wikitext.Store.Edit
import Wikitext.Text.Basic
import Wikitext.Text.Blank
import Wikitext.Text.Casing
import Wikitext.Text.Digit
import Wikitext.Text.Entity
import Wikitext.Text.Layout
import Wikitext.Text.Lines
import Wikitext.Text.Lowercase
import Wikitext.Text.Percent
import Wikitext.Text.Printable
import Wikitext.Text.Quoted
import Wikitext.Text.Utf8
import Wikitext.Text.Windows1252
import Wikitext.Url.Basic
import Wikitext.Url.Host
import Wikitext.Url.Resolve
import Wikitext.Proofs.Store.Labelled
import Wikitext.Proofs.Store.Row
import Wikitext.Proofs.Store.Edit
import Wikitext.Proofs.Conversion.Reach
import Wikitext.Proofs.Store.Document
import Wikitext.Proofs.Store.Preparation
import Wikitext.Proofs.Store.Conversion
import Wikitext.Proofs.Text.Pieces
import Wikitext.Proofs.Text.Lines
import Wikitext.Proofs.Text.Inked
import Wikitext.Proofs.Text.Tidy
import Wikitext.Proofs.Nowiki.Guard
import Wikitext.Proofs.Text.Following
import Wikitext.Proofs.Conversion.Assembly
import Wikitext.Proofs.Conversion.ListLines
import Wikitext.Proofs.Element.Opening
import Wikitext.Proofs.Conversion.TableLines
import Wikitext.Proofs.Conversion.GuardedTexts
import Wikitext.Proofs.Conversion.Essence
import Wikitext.Proofs.Text.Apart
import Wikitext.Proofs.Conversion.Blocks
import Wikitext.Proofs.Nowiki.Hollow
import Wikitext.Proofs.Conversion.Prose
import Wikitext.Proofs.Rule.Alias
import Wikitext.Proofs.Conversion.Treatment
import Wikitext.Proofs.Conversion.Refusal
import Wikitext.Proofs.Conversion.Visible
import Wikitext.Proofs.Text.Scan
import Wikitext.Proofs.Text.Tags
import Wikitext.Proofs.Element.Written
import Wikitext.Proofs.Conversion.Nesting
import Wikitext.Proofs.Text.Shown
import Wikitext.Proofs.Conversion.Listing
import Wikitext.Proofs.Url.Parts
import Wikitext.Proofs.Url.Settling
import Wikitext.Proofs.Store.Repetition
import Wikitext.Proofs.Conversion.Cleanliness
import Wikitext.Proofs.Conversion.TableTrace
import Wikitext.Proofs.Element.Quiet
import Wikitext.Proofs.Conversion.TableWalk
import Wikitext.Proofs.Conversion.FreeTables
import Wikitext.Proofs.Conversion.TableBalance
import Wikitext.Proofs.Text.Regex
import Wikitext.Proofs.Nowiki.LinkPattern
import Wikitext.Proofs.Conversion.Fidelity
import Wikitext.Proofs.Conversion.Outline
import Wikitext.Proofs.Link.Reading
import Wikitext.Proofs.Conversion.Hyperlinks
import Wikitext.Proofs.Text.Percent
import Wikitext.Proofs.Link.PageUrl
import Wikitext.Proofs.Element.WrittenPairs
import Wikitext.Proofs.Text.Runs
import Wikitext.Proofs.Nowiki.Signs
import Wikitext.Proofs.Conversion.Emphasis
import Wikitext.Proofs.Element.CellLine
import Wikitext.Proofs.Conversion.OneCell
import Wikitext.Proofs.Store.Sound
import Wikitext.Proofs.Store.GivingWay
import Wikitext.Proofs.Store.Keeping
import Wikitext.Proofs.Store.Growth
import Wikitext.Proofs.Store.Nesting
import Wikitext.Proofs.Store.Attachment
import Wikitext.Proofs.Store.Confinement
import Wikitext.Proofs.Rule.Casing
import Wikitext.Proofs.Conversion.Headings
import Wikitext.Proofs.Text.Formats
import Wikitext.Proofs.Text.Tidied
