import Letterpress.Email.ConfigText
import Letterpress.Email.Generation
import Letterpress.Email.Sample
import Letterpress.Foreign
import Letterpress.Main
import Letterpress.Markup.Parsing
import Letterpress.Markup.Path
import Letterpress.Markup.Written
import Letterpress.Print.Script
import Letterpress.Proofs.Email.AuthorStyles
import Letterpress.Proofs.Email.Content
import Letterpress.Proofs.Email.LegacyHints
import Letterpress.Proofs.Markup.RoundTrip
import Letterpress.Proofs.Email.Promotion
import Letterpress.Proofs.Email.Images
import Letterpress.Proofs.Email.Markers
import Letterpress.Proofs.Email.Regions
import Letterpress.Proofs.Markup.TableSpine
import Letterpress.Proofs.Email.ReadRows
import Letterpress.Proofs.Markup.Likeness
import Letterpress.Proofs.Markup.Outlines
import Letterpress.Proofs.Markup.Passing
import Letterpress.Proofs.Markup.Templates
import Letterpress.Proofs.Email.Configured
import Letterpress.Proofs.Email.ConfigReading
import Letterpress.Proofs.Text.Encoding
import Letterpress.Proofs.Foreign.Agreement
import Letterpress.Proofs.Email.ConfigFaults
import Letterpress.Proofs.Foreign.Failures
import Letterpress.Proofs.Markup.NullFree
import Letterpress.Proofs.Email.NullFree
import Letterpress.Proofs.Foreign.Output
import Letterpress.Proofs.Markup.Fitting
import Letterpress.Proofs.Markup.Entering
import Letterpress.Proofs.Markup.Filling
import Letterpress.Proofs.Markup.Nearing
import Letterpress.Proofs.Markup.Restoring
import Letterpress.Proofs.Image.DataUris
import Letterpress.Proofs.Markup.WrappedBody
import Letterpress.Proofs.Files.Writing
import Letterpress.Proofs.Command.Preparing
import Letterpress.Proofs.Command.Grouping
import Letterpress.Proofs.Command.Overriding
import Letterpress.Proofs.Command.Failing
import Letterpress.Proofs.Command.Printing
import Letterpress.Proofs.Command.DefaultOutput
import Letterpress.Proofs.Importing
import Letterpress.Proofs.Email.Widths
import Letterpress.Proofs.Email.Margins
import Letterpress.Proofs.Email.RowStyles
import Letterpress.Proofs.Style.NormalForm
import Letterpress.Proofs.Style.Separators
import Letterpress.Proofs.Number.Nearest
import Letterpress.Proofs.Style.Lengths
import Letterpress.Proofs.Emptiness
import Letterpress.Proofs.Image.Spellings
import Letterpress.Proofs.Markup.Escaping
import Letterpress.Proofs.Markup.Origins
import Letterpress.Proofs.Markup.AttributeHistory
import Letterpress.Proofs.Print.Sessions
import Letterpress.Proofs.Files.Children
import Letterpress.Proofs.Style.Concatenation
