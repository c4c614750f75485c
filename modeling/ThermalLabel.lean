import ThermalLabel.DataSource
import ThermalLabel.Editor.Action
import ThermalLabel.Editor.Edit
import ThermalLabel.Editor.Reference
import ThermalLabel.Editor.Session
import ThermalLabel.Editor.State
import ThermalLabel.Image.Encode
import ThermalLabel.Image.FileFormat
import ThermalLabel.Image.Monochrome
import ThermalLabel.Image.Picture
import ThermalLabel.Image.Raster
import ThermalLabel.Image.Resample
import ThermalLabel.Json.Basic
import ThermalLabel.Json.Literal
import ThermalLabel.Json.Parser
import ThermalLabel.Json.Written
import ThermalLabel.Label.Basic
import ThermalLabel.Label.Document
import ThermalLabel.Label.DragEvent
import ThermalLabel.Label.ImageEncoding
import ThermalLabel.Label.Lookup
import ThermalLabel.LinePrint.Label
import ThermalLabel.LinePrint.Line
import ThermalLabel.LinePrint.StableOrder
import ThermalLabel.Measure
import ThermalLabel.Number.Decimal
import ThermalLabel.Number.Exact
import ThermalLabel.Number.Rounding
import ThermalLabel.Number.Shortest
import ThermalLabel.Number.Written
import ThermalLabel.Preview
import ThermalLabel.SampleData
import ThermalLabel.Schema.Checked
import ThermalLabel.Schema.Issue
import ThermalLabel.Schema.Record
import ThermalLabel.Schema.Scalar
import ThermalLabel.Service.Exchange
import ThermalLabel.Service.RequestBody
import ThermalLabel.Service.Routes
import ThermalLabel.Settings
import ThermalLabel.Text.Basic
import ThermalLabel.Text.Blank
import ThermalLabel.Text.Bytes
import ThermalLabel.Text.Cut
import ThermalLabel.Text.Encoding
import ThermalLabel.Text.Numeral
import ThermalLabel.Text.Quoted
import ThermalLabel.Zpl.Command
import ThermalLabel.Zpl.Document
import ThermalLabel.Zpl.Element
import ThermalLabel.Proofs.Editor.Accepted
import ThermalLabel.Proofs.Editor.Apply
import ThermalLabel.Proofs.Editor.AttachedImage
import ThermalLabel.Proofs.Editor.DistinctIds
import ThermalLabel.Proofs.Editor.Dragging
import ThermalLabel.Proofs.Editor.Grid
import ThermalLabel.Proofs.Editor.KeptFields
import ThermalLabel.Proofs.Editor.Locality
import ThermalLabel.Proofs.Editor.Mirrored
import ThermalLabel.Proofs.Editor.Perform
import ThermalLabel.Proofs.Editor.Refusals
import ThermalLabel.Proofs.Editor.Selection
import ThermalLabel.Proofs.Editor.SelectionHolds
import ThermalLabel.Proofs.Editor.SendableEdits
import ThermalLabel.Proofs.Editor.Snapshots
import ThermalLabel.Proofs.Editor.Timeline
import ThermalLabel.Proofs.Editor.WellFormed
import ThermalLabel.Proofs.Fallible
import ThermalLabel.Proofs.Image.Encoding
import ThermalLabel.Proofs.Image.Fitting
import ThermalLabel.Proofs.Image.Packing
import ThermalLabel.Proofs.Image.Shrinking
import ThermalLabel.Proofs.Label.DistinctIds
import ThermalLabel.Proofs.Label.Elements
import ThermalLabel.Proofs.Label.Reading
import ThermalLabel.Proofs.Label.RoundTrip
import ThermalLabel.Proofs.Label.Sendable
import ThermalLabel.Proofs.Label.Spelling
import ThermalLabel.Proofs.LinePrint.Grouping
import ThermalLabel.Proofs.LinePrint.Layout
import ThermalLabel.Proofs.LinePrint.OrderIndependent
import ThermalLabel.Proofs.LinePrint.Projection
import ThermalLabel.Proofs.LinePrint.Reach
import ThermalLabel.Proofs.LinePrint.StableOrder
import ThermalLabel.Proofs.LinePrint.Sweep
import ThermalLabel.Proofs.LinePrint.Ties
import ThermalLabel.Proofs.Measure.Dots
import ThermalLabel.Proofs.Measure.Order
import ThermalLabel.Proofs.Number.Binary64
import ThermalLabel.Proofs.Number.Difference
import ThermalLabel.Proofs.Number.FewestDigits
import ThermalLabel.Proofs.Number.Finite
import ThermalLabel.Proofs.Number.HalfAway
import ThermalLabel.Proofs.Number.HalfUp
import ThermalLabel.Proofs.Number.Magnitude
import ThermalLabel.Proofs.Number.Nearest
import ThermalLabel.Proofs.Number.NearestAway
import ThermalLabel.Proofs.Number.Order
import ThermalLabel.Proofs.Number.Products
import ThermalLabel.Proofs.Number.ReadsBack
import ThermalLabel.Proofs.Number.Scaled
import ThermalLabel.Proofs.Number.Shortest
import ThermalLabel.Proofs.Number.Tenths
import ThermalLabel.Proofs.Number.Value
import ThermalLabel.Proofs.Number.WholeNumbers
import ThermalLabel.Proofs.Number.Written
import ThermalLabel.Proofs.Preview
import ThermalLabel.Proofs.Printed
import ThermalLabel.Proofs.RepeatedRows
import ThermalLabel.Proofs.SampleData.Scope
import ThermalLabel.Proofs.Schema.Checked
import ThermalLabel.Proofs.Schema.Spelling
import ThermalLabel.Proofs.Service.Editing
import ThermalLabel.Proofs.Text.DataUrl
import ThermalLabel.Proofs.Text.Encoding
import ThermalLabel.Proofs.Text.Hexadecimal
import ThermalLabel.Proofs.Text.Occurrence
import ThermalLabel.Proofs.UploadedImage
import ThermalLabel.Proofs.Zpl.Carets
import ThermalLabel.Proofs.Zpl.Compiled
import ThermalLabel.Proofs.Zpl.Layout
import ThermalLabel.Proofs.Zpl.Modes
