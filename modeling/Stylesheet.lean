import Stylesheet.LogName
import Stylesheet.RenderItem
import Stylesheet.Session
import Stylesheet.Text.Buffer
import Stylesheet.Token.Encoding
import Stylesheet.Proofs.Rendering.Idempotence
import Stylesheet.Proofs.Rendering.RoundTrip
import Stylesheet.Proofs.Scan.Arguments
import Stylesheet.Proofs.Scan.Comments
import Stylesheet.Proofs.Scan.Extension
import Stylesheet.Proofs.Scan.Leniency
import Stylesheet.Proofs.Scan.Order
import Stylesheet.Proofs.Scan.Resuming
import Stylesheet.Proofs.Scan.Strings
import Stylesheet.Proofs.Token.Serial
import Stylesheet.Proofs.Scan.Ascent
import Stylesheet.Proofs.Scan.Braces
import Stylesheet.Proofs.Token.Levels
import Stylesheet.Proofs.Scan.WellFormed
import Stylesheet.Proofs.Scan.Tiling
import Stylesheet.Proofs.Lexing.Selectors
import Stylesheet.Proofs.Rendering.Flat
import Stylesheet.Proofs.Scan.Escapes
import Stylesheet.Proofs.Literal.Verdict
import Stylesheet.Proofs.Modifier.Pieces
import Stylesheet.Proofs.Scan.Pending
import Stylesheet.Proofs.Marker.Listing
import Stylesheet.Proofs.Token.Unplaced
import Stylesheet.Proofs.Session.Contexts
import Stylesheet.Proofs.Token.Flaws
import Stylesheet.Proofs.Text.Lines
import Stylesheet.Proofs.Scan.Coherence
