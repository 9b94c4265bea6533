import DiagramScene.Geometry.Codec
import DiagramScene.Main
import DiagramScene.Proofs.Dsl.Problems
import DiagramScene.Proofs.Json.Read
import DiagramScene.Proofs.Label.ClassBody
import DiagramScene.Proofs.Scene.Export
import DiagramScene.Proofs.Svg.Deleted
import DiagramScene.Proofs.Svg.WellFormed
import DiagramScene.Text.Codec
import DiagramScene.Proofs.Dsl.Numbering
import DiagramScene.Proofs.Service.Validation
import DiagramScene.Proofs.Label.Renaming
import DiagramScene.Proofs.Json.NumberText
import DiagramScene.Proofs.Json.StringText
import DiagramScene.Proofs.Json.Depth
import DiagramScene.Proofs.Json.RoundTrip
import DiagramScene.Proofs.Cli.Options
import DiagramScene.Proofs.Cli.Refusals
import DiagramScene.Proofs.Diagram.Preamble
import DiagramScene.Proofs.Svg.Bounds
import DiagramScene.Proofs.Svg.Viewport
import DiagramScene.Proofs.Dsl.Order
import DiagramScene.Proofs.Diagram.Merge
import DiagramScene.Proofs.Label.Extracted
import DiagramScene.Proofs.Label.Layout
import DiagramScene.Proofs.Element.Members
import DiagramScene.Proofs.Label.Composed
import DiagramScene.Proofs.Dsl.Grid
import DiagramScene.Proofs.Dsl.Styles
import DiagramScene.Proofs.Dsl.Stamps
import DiagramScene.Proofs.Element.Spelling
import DiagramScene.Proofs.Scene.Overrides
import DiagramScene.Proofs.Raster.PixelSize
import DiagramScene.Proofs.Raster.SizeLimit
import DiagramScene.Proofs.Cli.Arrangement
import DiagramScene.Proofs.Svg.Drawn
import DiagramScene.Proofs.Svg.References
import DiagramScene.Proofs.Raster.Color
import DiagramScene.Proofs.Dsl.TextSize
import DiagramScene.Proofs.Geometry.TextCorner
import DiagramScene.Proofs.Label.BlankTexts
import DiagramScene.Proofs.Diagram.Registration
import DiagramScene.Proofs.Text.Stacked
import DiagramScene.Proofs.Geometry.Sound
import DiagramScene.Proofs.Svg.Spans
import DiagramScene.Proofs.Svg.Curves
import DiagramScene.Proofs.Svg.Numbers
import DiagramScene.Proofs.Svg.Characters
