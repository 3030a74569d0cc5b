import VoxelLogic.Text.Blank
import VoxelLogic.Text.Column
import VoxelLogic.Text.Lines
import VoxelLogic.Formula.Render
import VoxelLogic.Pin
import VoxelLogic.PinFile.Expression
import VoxelLogic.PinFile.Statement
import VoxelLogic.Circuit.Summary
import VoxelLogic.TruthTable.Layout
import VoxelLogic.PinFile.Read
import VoxelLogic.PinFile.Write
import VoxelLogic.Record.Compiled
import VoxelLogic.Circuit.Random
import VoxelLogic.Circuit.Adder
import VoxelLogic.Json.Skip
import VoxelLogic.Json.Array
import VoxelLogic.Record.Read
import VoxelLogic.Record.Write
import VoxelLogic.Command.Directory
import VoxelLogic.Main
import VoxelLogic.Proofs.Assignment
import VoxelLogic.Proofs.PackedRow
import VoxelLogic.Proofs.Catalog
import VoxelLogic.Proofs.Success
import VoxelLogic.Proofs.TableCheck
import VoxelLogic.Proofs.Circuit.ByPosition
import VoxelLogic.Proofs.Circuit.Compiled
import VoxelLogic.Proofs.Record.Pins
import VoxelLogic.Proofs.Record.OfTable
import VoxelLogic.Proofs.Record.RoundTrip
import VoxelLogic.Proofs.Record.CanonicalForm
import VoxelLogic.Proofs.Record.Normal
import VoxelLogic.Proofs.Text.Lines
import VoxelLogic.Proofs.Text.Numeral
import VoxelLogic.Proofs.Formula.Readable
import VoxelLogic.Proofs.Formula.Mask
import VoxelLogic.Proofs.Formula.Total
import VoxelLogic.Proofs.Formula.Renamed
import VoxelLogic.Proofs.Formula.Meaning
import VoxelLogic.Proofs.Formula.Relevance
import VoxelLogic.Proofs.PinFile.Token
import VoxelLogic.Proofs.PinFile.Rendered
import VoxelLogic.Proofs.PinFile.Expression
import VoxelLogic.Proofs.PinFile.Grammar
import VoxelLogic.Proofs.PinFile.Parsed
import VoxelLogic.Proofs.PinFile.Statement
import VoxelLogic.Proofs.PinFile.Accepted
import VoxelLogic.Proofs.PinFile.LineOrder
import VoxelLogic.Proofs.PinFile.RoundTrip
import VoxelLogic.Proofs.Json.Numeral
import VoxelLogic.Proofs.Json.Array
import VoxelLogic.Proofs.Record.Written
import VoxelLogic.Proofs.Formula.SumOfProducts
import VoxelLogic.Proofs.PinFile.Described
import VoxelLogic.Proofs.PinFile.Tables
import VoxelLogic.Proofs.Command.Arguments
import VoxelLogic.Proofs.Command.Cycle
import VoxelLogic.Proofs.TruthTable.Inverse
import VoxelLogic.Proofs.PinFile.Format
import VoxelLogic.Proofs.PinFile.Refusal
import VoxelLogic.Proofs.PinFile.Reported
import VoxelLogic.Proofs.Formula.Parts
import VoxelLogic.Proofs.PinFile.Stable
import VoxelLogic.Proofs.Circuit.History
import VoxelLogic.Proofs.Record.Shape
import VoxelLogic.Proofs.Command.Decoded
import VoxelLogic.Proofs.Circuit.Checked
import VoxelLogic.Proofs.Circuit.Drawn
import VoxelLogic.Proofs.Command.Options
import VoxelLogic.Proofs.Command.Safety
import VoxelLogic.Proofs.Record.Agreement
import VoxelLogic.Proofs.TruthTable.Printed
import VoxelLogic.Proofs.Record.Counted
import VoxelLogic.Proofs.PinFile.LetterCase
import VoxelLogic.Proofs.PinFile.Layout
import VoxelLogic.Proofs.TruthTable.Refusal
import VoxelLogic.Proofs.PackedRow.Numeral
import VoxelLogic.Proofs.Command.PrintedRows
import VoxelLogic.Proofs.Circuit.Generated
import VoxelLogic.Proofs.Assignment.Order
import VoxelLogic.Proofs.Record.Reordered
import VoxelLogic.Proofs.PinFile.Extent
import VoxelLogic.Proofs.PinFile.Scanned
