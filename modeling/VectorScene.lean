import VectorScene.Scalar
import VectorScene.Trigonometry
import VectorScene.Error
import VectorScene.Point
import VectorScene.Affine
import VectorScene.Segment
import VectorScene.Curve
import VectorScene.Arc
import VectorScene.Path.Basic
import VectorScene.Path.Event
import VectorScene.Path.Vertices
import VectorScene.Color
import VectorScene.Primitive
import VectorScene.Text.Quoted
import VectorScene.Text.Provider
import VectorScene.Pen
import VectorScene.Log
import VectorScene.Instruction.Basic
import VectorScene.Instruction.Equality
import VectorScene.Instruction.Copy
import VectorScene.Instruction.Compile
import VectorScene.Scene.Basic
import VectorScene.Scene.Equality
import VectorScene.Scene.Flatten
import VectorScene.Surface
import VectorScene.Tessellation.Triangle
import VectorScene.Tessellation.Interior
import VectorScene.Tessellation.Outline
import VectorScene.Tessellation.Tessellator
import VectorScene.Canvas.Coverage
import VectorScene.Canvas.Basic
import VectorScene.Proofs.Fallible
import VectorScene.Proofs.Scalar
import VectorScene.Proofs.Instruction.Compile
import VectorScene.Proofs.Pen.Step
import VectorScene.Proofs.Pen.Run
import VectorScene.Proofs.Pen.Tidy
import VectorScene.Proofs.Pen.Transform
import VectorScene.Proofs.Path.Event
import VectorScene.Proofs.Path.Figures
import VectorScene.Proofs.Scene.Flatten
import VectorScene.Proofs.Scene.Normal
import VectorScene.Proofs.Scene.Union
import VectorScene.Proofs.Scene.Workbench
import VectorScene.Proofs.Scene.Accumulation
import VectorScene.Proofs.Scene.Conservation
import VectorScene.Proofs.Surface.Beside
import VectorScene.Proofs.Surface.Drawing
import VectorScene.Proofs.Instruction.Advance
import VectorScene.Proofs.Instruction.Frame
import VectorScene.Proofs.Instruction.Rewriting
import VectorScene.Proofs.Canvas.Coverage
import VectorScene.Proofs.Canvas.Painting
import VectorScene.Proofs.Scene.Place
import VectorScene.Proofs.Surface.Succession
import VectorScene.Proofs.Overflow
import VectorScene.Proofs.Surface.Finite
import VectorScene.Proofs.Primitive
import VectorScene.Proofs.Scene.Along
import VectorScene.Proofs.Instruction.Marks
import VectorScene.Proofs.Path.Closing
import VectorScene.Proofs.Instruction.Concatenation
import VectorScene.Proofs.Pen.Placing
import VectorScene.Proofs.Instruction.Growth
import VectorScene.Proofs.Instruction.Outline
import VectorScene.Proofs.Identity
import VectorScene.Proofs.Instruction.Replay
import VectorScene.Proofs.Path.Equality
import VectorScene.Proofs.Instruction.Closing
import VectorScene.Proofs.Path.Reading
import VectorScene.Proofs.Path.Vertices
import VectorScene.Proofs.Order
import VectorScene.Proofs.Path.Bounds
import VectorScene.Proofs.Instruction.Copying
import VectorScene.Proofs.Path.Extension
import VectorScene.Proofs.Instruction.Equality
import VectorScene.Proofs.Scene.Equality
import VectorScene.Proofs.Instruction.Arc
import VectorScene.Proofs.Instruction.Polygon
import VectorScene.Proofs.Pen.Continuity
import VectorScene.Proofs.Rounding
import VectorScene.Proofs.Whole
import VectorScene.Proofs.Canvas.Blending
import VectorScene.Proofs.Canvas.Clipping
import VectorScene.Proofs.Canvas.Bounds
