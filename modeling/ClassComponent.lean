import ClassComponent.CommandLine.Arguments
import ClassComponent.CommandLine.Session
import ClassComponent.Component.Basic
import ClassComponent.Component.Member
import ClassComponent.Component.Naming
import ClassComponent.Convert.Component
import ClassComponent.Convert.Finding
import ClassComponent.Convert.Function
import ClassComponent.Convert.Option
import ClassComponent.Convert.Origin
import ClassComponent.Convert.Script
import ClassComponent.Convert.Store
import ClassComponent.Convert.Walk
import ClassComponent.Diagnostic
import ClassComponent.Document.ScriptBlock
import ClassComponent.Event
import ClassComponent.Files.Conversion
import ClassComponent.Files.Disk
import ClassComponent.Files.Path
import ClassComponent.Main
import ClassComponent.Number.Binary64
import ClassComponent.Options.Kind
import ClassComponent.Options.Vocabulary
import ClassComponent.Proofs.CommandLine.Session
import ClassComponent.Proofs.Component.Matching
import ClassComponent.Proofs.Component.Naming
import ClassComponent.Proofs.Component.Slots
import ClassComponent.Proofs.Component.Updates
import ClassComponent.Proofs.Convert.Alike
import ClassComponent.Proofs.Convert.Exchange
import ClassComponent.Proofs.Convert.Independence
import ClassComponent.Proofs.Convert.Options
import ClassComponent.Proofs.Convert.Origin
import ClassComponent.Proofs.Convert.Pairing
import ClassComponent.Proofs.Convert.Reading
import ClassComponent.Proofs.Convert.Rejection
import ClassComponent.Proofs.Convert.Reports
import ClassComponent.Proofs.Convert.SideBySide
import ClassComponent.Proofs.Convert.Unsupported
import ClassComponent.Proofs.Convert.Verbatim
import ClassComponent.Proofs.Convert.Walk
import ClassComponent.Proofs.Files.Conversion
import ClassComponent.Proofs.Files.Disk
import ClassComponent.Proofs.Files.Faults
import ClassComponent.Proofs.Files.Path
import ClassComponent.Proofs.Render.Alike
import ClassComponent.Proofs.Render.Comments
import ClassComponent.Proofs.Render.Commutation
import ClassComponent.Proofs.Render.Imports
import ClassComponent.Proofs.Render.Markers
import ClassComponent.Proofs.Render.Members
import ClassComponent.Proofs.Render.PassThrough
import ClassComponent.Proofs.Render.Statements
import ClassComponent.Proofs.Text.Lines
import ClassComponent.Proofs.Text.Masking
import ClassComponent.Proofs.Text.Name
import ClassComponent.Proofs.Text.Pieces
import ClassComponent.Proofs.Tree.Parts
import ClassComponent.Render.Class
import ClassComponent.Render.Comment
import ClassComponent.Render.Import
import ClassComponent.Render.Module
import ClassComponent.Script.Expression
import ClassComponent.Script.Fault
import ClassComponent.Script.Function
import ClassComponent.Script.Letter
import ClassComponent.Script.Lexeme
import ClassComponent.Script.Literal
import ClassComponent.Script.Markup
import ClassComponent.Script.Module
import ClassComponent.Script.Pattern
import ClassComponent.Script.Reading
import ClassComponent.Script.Statement
import ClassComponent.Script.Token
import ClassComponent.Settings.Basic
import ClassComponent.Settings.Load
import ClassComponent.Settings.Reader
import ClassComponent.Settings.Value
import ClassComponent.Span
import ClassComponent.Text.Basic
import ClassComponent.Text.Blank
import ClassComponent.Text.Cased
import ClassComponent.Text.Category
import ClassComponent.Text.Digest
import ClassComponent.Text.LetterCase
import ClassComponent.Text.Lines
import ClassComponent.Text.Name
import ClassComponent.Text.Quoted
import ClassComponent.Text.Shown
import ClassComponent.Text.Utf8
import ClassComponent.Text.Word
import ClassComponent.Tree.Basic
import ClassComponent.Tree.Outline
import ClassComponent.Proofs.Convert.Entries
import ClassComponent.Proofs.Convert.Accessors
import ClassComponent.Proofs.Render.Keys
import ClassComponent.Proofs.Render.ClassName
import ClassComponent.Proofs.Convert.Hoisting
import ClassComponent.Proofs.Script.Name
import ClassComponent.Proofs.Convert.Spelling
import ClassComponent.Proofs.Render.Initializers
import ClassComponent.Proofs.Document.Scan
import ClassComponent.Proofs.Component.Candidates
import ClassComponent.Proofs.Text.Indentation
import ClassComponent.Proofs.Render.PropDecorators
import ClassComponent.Proofs.Component.Named
import ClassComponent.Proofs.Convert.Unmasking
import ClassComponent.Proofs.Convert.Watchers
import ClassComponent.Proofs.Convert.AccessorMembers
import ClassComponent.Proofs.Files.ReportedLines
import ClassComponent.Proofs.Render.Callees
import ClassComponent.Proofs.Text.MemberName
