import SceneScript.Command.Environment
import SceneScript.Command.Failure
import SceneScript.Command.Options
import SceneScript.Command.Runner
import SceneScript.Command.SceneFile
import SceneScript.Command.Time
import SceneScript.Command.Validator
import SceneScript.Config.Basic
import SceneScript.Element.Basic
import SceneScript.Element.Edit
import SceneScript.Element.Props
import SceneScript.Element.Type
import SceneScript.Files.Location
import SceneScript.Files.Tree
import SceneScript.Identity.Allocator
import SceneScript.Json.Reader
import SceneScript.Json.Value
import SceneScript.Json.Writer
import SceneScript.Lua.Name
import SceneScript.Lua.Numeric
import SceneScript.Lua.Scan
import SceneScript.Lua.StringLiteral
import SceneScript.Main
import SceneScript.Merge.Reconcile
import SceneScript.Number.Basic
import SceneScript.Number.Binary64
import SceneScript.Number.Decimal
import SceneScript.Number.Numeral
import SceneScript.Number.Text
import SceneScript.Scene.Basic
import SceneScript.Scene.Document
import SceneScript.Script.Block
import SceneScript.Script.Candidate
import SceneScript.Script.Marker
import SceneScript.Script.Patch
import SceneScript.Script.Reader
import SceneScript.Script.Segment
import SceneScript.Script.Shape
import SceneScript.Script.Statement
import SceneScript.Session.Basic
import SceneScript.Session.Call
import SceneScript.Session.Mutation
import SceneScript.Sorting
import SceneScript.Table
import SceneScript.Text.Blank
import SceneScript.Text.Character
import SceneScript.Text.Lines
import SceneScript.Text.Match
import SceneScript.Text.Percent
import SceneScript.Text.Quoted
import SceneScript.Text.Utf8
import SceneScript.Text.Word
import SceneScript.Validation.Check
import SceneScript.Validation.Scene
import SceneScript.Yaml.Cell
import SceneScript.Yaml.Fault
import SceneScript.Yaml.Node
import SceneScript.Yaml.Reader
import SceneScript.Yaml.Scalar
import SceneScript.Yaml.ScalarText
import SceneScript.Yaml.Token
import SceneScript.Yaml.Value
import SceneScript.Proofs.Sorting
import SceneScript.Proofs.Number.Decimal
import SceneScript.Proofs.Number.Order
import SceneScript.Proofs.Number.Sum
import SceneScript.Proofs.Text.Lines
import SceneScript.Proofs.Text.Percent
import SceneScript.Proofs.Lua.Name
import SceneScript.Proofs.Lua.Ends
import SceneScript.Proofs.Lua.Prefix
import SceneScript.Proofs.Lua.Stable
import SceneScript.Proofs.Lua.Closed
import SceneScript.Proofs.Validation.Check
import SceneScript.Proofs.Validation.Document
import SceneScript.Proofs.Validation.Marker
import SceneScript.Proofs.Validation.Total
import SceneScript.Proofs.Json.Same
import SceneScript.Proofs.Identity.Allocator
import SceneScript.Proofs.Scene.Readable
import SceneScript.Proofs.Scene.Sound
import SceneScript.Proofs.Scene.Valid
import SceneScript.Proofs.Scene.Document
import SceneScript.Proofs.Scene.Agreement
import SceneScript.Proofs.Scene.Traceable
import SceneScript.Proofs.Element.Stored
import SceneScript.Proofs.Script.Marker
import SceneScript.Proofs.Script.Argument
import SceneScript.Proofs.Script.Shape
import SceneScript.Proofs.Script.Statement
import SceneScript.Proofs.Script.Block
import SceneScript.Proofs.Script.Reader
import SceneScript.Proofs.Script.Drawing
import SceneScript.Proofs.Script.RoundTrip
import SceneScript.Proofs.Script.Region
import SceneScript.Proofs.Script.Segment
import SceneScript.Proofs.Script.Patch
import SceneScript.Proofs.Script.Layout
import SceneScript.Proofs.Script.LineBreak
import SceneScript.Proofs.Script.Insertion
import SceneScript.Proofs.Script.Owners
import SceneScript.Proofs.Script.Idempotent
import SceneScript.Proofs.Script.Fields
import SceneScript.Proofs.Script.Found
import SceneScript.Proofs.Script.Carried
import SceneScript.Proofs.Script.Ownership
import SceneScript.Proofs.Script.Recognition
import SceneScript.Proofs.Script.Span
import SceneScript.Proofs.Script.Marked
import SceneScript.Proofs.Script.Handler
import SceneScript.Proofs.Script.Told
import SceneScript.Proofs.Script.Trail
import SceneScript.Proofs.Script.Legible
import SceneScript.Proofs.Script.Lenient
import SceneScript.Proofs.Script.Settle
import SceneScript.Proofs.Script.Size
import SceneScript.Proofs.Script.Writable
import SceneScript.Proofs.Script.Export
import SceneScript.Proofs.Script.Drawable
import SceneScript.Proofs.Script.Stub
import SceneScript.Proofs.Script.Balance
import SceneScript.Proofs.Script.Assembly
import SceneScript.Proofs.Script.Silent
import SceneScript.Proofs.Script.Placed
import SceneScript.Proofs.Script.Numbering
import SceneScript.Proofs.Script.Noise
import SceneScript.Proofs.Script.Taken
import SceneScript.Proofs.Script.Moved
import SceneScript.Proofs.Script.Translation
import SceneScript.Proofs.Script.Traceable
import SceneScript.Proofs.Merge.Step
import SceneScript.Proofs.Merge.Twice
import SceneScript.Proofs.Merge.Sound
import SceneScript.Proofs.Merge.Account
import SceneScript.Proofs.Merge.Identity
import SceneScript.Proofs.Merge.Handler
import SceneScript.Proofs.Merge.Valid
import SceneScript.Proofs.Session.Run
import SceneScript.Proofs.Session.Sound
import SceneScript.Proofs.Session.Cycle
import SceneScript.Proofs.Session.Converge
import SceneScript.Proofs.Session.Intake
import SceneScript.Proofs.Session.Orderly
import SceneScript.Proofs.Session.Failure
import SceneScript.Proofs.Session.Property
import SceneScript.Proofs.Scene.Loading
import SceneScript.Proofs.Config.Bounds
import SceneScript.Proofs.Files.Tree
import SceneScript.Proofs.Command.Replay
