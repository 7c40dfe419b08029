import DocComments.Unicode.Word
import DocComments.Unicode.Blank
import DocComments.Unicode.Extender
import DocComments.Unicode.Printable
import DocComments.Unicode.LowerCase
import DocComments.Text.Trim
import DocComments.Text.Lines
import DocComments.Text.Words
import DocComments.Text.Search
import DocComments.Text.Utf8
import DocComments.Number.Layout
import DocComments.Expression.Reader
import DocComments.Json.Reader
import DocComments.Literal.Json
import DocComments.Parameter.Tag
import DocComments.Signature.Shape
import DocComments.Block
import DocComments.Comment.Reader
import DocComments.Record.Reader
import DocComments.Record.Json
import DocComments.Page.Format
import DocComments.Command.Run
import DocComments.Main
import DocComments.Proofs.Text.Occurrence
import DocComments.Proofs.Block.Reading
import DocComments.Proofs.Block.Scan
import DocComments.Proofs.Block.Append
import DocComments.Proofs.Block.SingleComment
import DocComments.Proofs.Text.Trimming
import DocComments.Proofs.Text.Lines
import DocComments.Proofs.Text.TrimmedLines
import DocComments.Proofs.Comment.BlankEnds
import DocComments.Proofs.Comment.Written
import DocComments.Proofs.Comment.Description
import DocComments.Proofs.Unicode.Disjoint
import DocComments.Proofs.Number.Whole
import DocComments.Proofs.Json.RoundTrip
import DocComments.Proofs.Literal.Plain
import DocComments.Proofs.Expression.Printed
import DocComments.Proofs.Signature.FunctionHead
import DocComments.Proofs.Record.Draft
import DocComments.Proofs.Record.TagReading
import DocComments.Proofs.Block.WrittenComment
import DocComments.Proofs.Record.DocumentedFunction
import DocComments.Proofs.Comment.Entry
import DocComments.Proofs.Signature.Words
import DocComments.Proofs.Signature.Commas
import DocComments.Proofs.Signature.Arguments
import DocComments.Proofs.Signature.Assignment
import DocComments.Proofs.Signature.Modifier
import DocComments.Proofs.Signature.Member
import DocComments.Proofs.Signature.Statement
import DocComments.Proofs.Signature.Fragment
import DocComments.Proofs.Signature.Exported
import DocComments.Proofs.Expression.Grammar
import DocComments.Proofs.Expression.Reading
import DocComments.Proofs.Expression.Locality
import DocComments.Proofs.Expression.Evaluation
import DocComments.Proofs.Expression.Setting
import DocComments.Proofs.Literal.RoundTrip
import DocComments.Proofs.Record.WellFormed
import DocComments.Proofs.Record.Fields
import DocComments.Proofs.Record.ReadBack
import DocComments.Proofs.Files.Tree
import DocComments.Proofs.Files.Path
import DocComments.Proofs.Files.Order
import DocComments.Proofs.Files.Search
import DocComments.Proofs.Command.Inputs
import DocComments.Proofs.Command.Pages
import DocComments.Proofs.Command.Listing
import DocComments.Proofs.Command.OwnPages
import DocComments.Proofs.Text.LineEnds
import DocComments.Proofs.Block.LineEnds
import DocComments.Proofs.Signature.ArgumentGap
import DocComments.Proofs.Signature.WholeName
import DocComments.Proofs.Signature.ClassStatement
import DocComments.Proofs.Text.Balanced
import DocComments.Proofs.Signature.Pattern
import DocComments.Proofs.Text.Words
import DocComments.Proofs.Parameter.Bracket
import DocComments.Proofs.Parameter.TypePrefix
import DocComments.Proofs.Parameter.QuotedDefault
import DocComments.Proofs.Parameter.Written
import DocComments.Proofs.Parameter.TypeName
import DocComments.Proofs.Comment.Segment
import DocComments.Proofs.Comment.FencedBlock
import DocComments.Proofs.Comment.FenceLifting
import DocComments.Proofs.Comment.CommonIndent
import DocComments.Proofs.Comment.UnbrokenCode
import DocComments.Proofs.Page.Fence
import DocComments.Proofs.Expression.Escape
import DocComments.Proofs.Expression.Spelling
import DocComments.Proofs.Expression.Template
import DocComments.Proofs.Literal.StringDefault
import DocComments.Proofs.Expression.NumberKey
import DocComments.Proofs.Text.Pieces
import DocComments.Proofs.Json.Characters
import DocComments.Proofs.Page.Row
import DocComments.Proofs.Parameter.Characters
import DocComments.Proofs.Record.Names
import DocComments.Proofs.Page.LineBreak
import DocComments.Proofs.Page.Link
import DocComments.Proofs.Page.Names
import DocComments.Proofs.Expression.Walk
import DocComments.Proofs.Expression.Offset
import DocComments.Proofs.Expression.WalkToken
import DocComments.Proofs.Expression.WalkValue
import DocComments.Proofs.Text.LineStart
import DocComments.Proofs.Comment.SharedIndent
