import CodePanel.Asset.Cache
import CodePanel.Decimal.Format
import CodePanel.Decimal.Numeral
import CodePanel.Decimal.Power
import CodePanel.Decimal.Reader
import CodePanel.Decimal.Shortest
import CodePanel.Error
import CodePanel.Fit.Adjustment
import CodePanel.Fit.Browser
import CodePanel.Fit.Length
import CodePanel.Json.Parser
import CodePanel.Json.Record
import CodePanel.Json.Value
import CodePanel.Json.Writer
import CodePanel.Map.Drawing
import CodePanel.Map.Geometry
import CodePanel.Map.Grid
import CodePanel.Map.Scene
import CodePanel.Map.Settings
import CodePanel.Map.Tile
import CodePanel.Map.Viewport
import CodePanel.Markup
import CodePanel.Overlay.Board
import CodePanel.Overlay.Host
import CodePanel.Overlay.Mounted
import CodePanel.Overlay.Settings
import CodePanel.Overlay.Stage
import CodePanel.Page.Backdrop
import CodePanel.Page.Basic
import CodePanel.Page.Canvas
import CodePanel.Page.Connection
import CodePanel.Page.Event
import CodePanel.Page.Listener
import CodePanel.Page.Loader
import CodePanel.Page.Log
import CodePanel.Page.Mount
import CodePanel.Page.Thrown
import CodePanel.Page.View
import CodePanel.Session.Dispatch
import CodePanel.Session.State
import CodePanel.Session.Step
import CodePanel.Source.Kind
import CodePanel.Source.Scanner
import CodePanel.Source.Token
import CodePanel.Source.Word
import CodePanel.Text.Combining
import CodePanel.Text.Ignorable
import CodePanel.Text.Order
import CodePanel.Text.Printable
import CodePanel.Text.Quoted
import CodePanel.Text.Space
import CodePanel.Upload.Envelope
import CodePanel.Upload.Lines
import CodePanel.Proofs.Lexical.Bytes
import CodePanel.Proofs.Lexical.Pieces
import CodePanel.Proofs.Lexical.Description
import CodePanel.Proofs.Lexical.Extent
import CodePanel.Proofs.Lexical.Piece
import CodePanel.Proofs.Lexical.Scan
import CodePanel.Proofs.Lexical.Tokens
import CodePanel.Proofs.Lexical.Exact
import CodePanel.Proofs.Lexical.Reach
import CodePanel.Proofs.Lexical.Refinement
import CodePanel.Proofs.Lexical.Lines
import CodePanel.Proofs.Lexical.Partition
import CodePanel.Proofs.Markup.Reader
import CodePanel.Proofs.Markup.ReadBack
import CodePanel.Proofs.Markup.Flat
import CodePanel.Proofs.Markup.Hints
import CodePanel.Proofs.Overlay.Mirror
import CodePanel.Proofs.Overlay.Nesting
import CodePanel.Proofs.Overlay.Unmounting
import CodePanel.Proofs.Json.Numbers
import CodePanel.Proofs.Json.Strings
import CodePanel.Proofs.Json.ReadBack
import CodePanel.Proofs.Json.Records
import CodePanel.Proofs.Json.Spelling
import CodePanel.Proofs.Settings.Validity
import CodePanel.Proofs.Settings.Faults
import CodePanel.Proofs.Settings.RoundTrip
import CodePanel.Proofs.Upload.Lines
import CodePanel.Proofs.Upload.Gaps
import CodePanel.Proofs.Upload.Wire
import CodePanel.Proofs.Upload.Program
import CodePanel.Proofs.Asset.Delivery
import CodePanel.Proofs.Asset.Names
import CodePanel.Proofs.Asset.History
import CodePanel.Proofs.Asset.Completion
import CodePanel.Proofs.Map.Stream
import CodePanel.Proofs.Map.Cells
import CodePanel.Proofs.Map.Layout
import CodePanel.Proofs.Map.Cutting
import CodePanel.Proofs.Map.Covering
import CodePanel.Proofs.Page.Change
import CodePanel.Proofs.Page.Loading
import CodePanel.Proofs.Page.Painting
import CodePanel.Proofs.Page.Listeners
import CodePanel.Proofs.Page.Watching
import CodePanel.Proofs.Page.Resolving
import CodePanel.Proofs.Page.Backdrops
import CodePanel.Proofs.Page.Traffic
import CodePanel.Proofs.Session.Aside
import CodePanel.Proofs.Session.Canvases
import CodePanel.Proofs.Session.Events
import CodePanel.Proofs.Session.Loads
import CodePanel.Proofs.Session.ViewCommands
import CodePanel.Proofs.Session.Overlays
import CodePanel.Proofs.Session.Displays
import CodePanel.Proofs.Session.Hovering
import CodePanel.Proofs.Session.Desk
import CodePanel.Proofs.Session.Uploads
