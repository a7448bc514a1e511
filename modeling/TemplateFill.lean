import TemplateFill.Text.Line
import TemplateFill.Condition
import TemplateFill.Data.Source
import TemplateFill.Xml.Reader
import TemplateFill.Xml.Printer
import TemplateFill.Word.Vocabulary
import TemplateFill.Html.Token
import TemplateFill.Numbering.Merge
import TemplateFill.Block.Rendering
import TemplateFill.Control.Basic
import TemplateFill.Report
import TemplateFill.Walk.Basic
import TemplateFill.Control.RichText
import TemplateFill.Control.PlainText
import TemplateFill.Options
import TemplateFill.Problem
import TemplateFill.Population
import TemplateFill.Service
import TemplateFill.CommandLine.Run
import TemplateFill.Main
import TemplateFill.Proofs.Walk.Composition
import TemplateFill.Proofs.Walk.Series
import TemplateFill.Proofs.Walk.Paragraphs
import TemplateFill.Proofs.Walk.Repetition
import TemplateFill.Proofs.Report.Completion
import TemplateFill.Proofs.Walk.Identifiers
import TemplateFill.Proofs.Walk.Retention
import TemplateFill.Proofs.Report.Naming
import TemplateFill.Proofs.Package
import TemplateFill.Proofs.Control.Failure
import TemplateFill.Proofs.Walk.Section
import TemplateFill.Proofs.Condition
import TemplateFill.Proofs.Condition.Comparison
import TemplateFill.Proofs.Data.Quoted
import TemplateFill.Proofs.Query.Word
import TemplateFill.Proofs.Condition.Quotation
import TemplateFill.Proofs.Data.Written
import TemplateFill.Proofs.Condition.Negation
import TemplateFill.Proofs.Block.Rendering
import TemplateFill.Proofs.Numbering.Room
import TemplateFill.Proofs.Walk.Leftover
import TemplateFill.Proofs.Control.History
import TemplateFill.Proofs.Control.Reading
import TemplateFill.Proofs.Walk.RichText
import TemplateFill.Proofs.Report.Annotation
import TemplateFill.Proofs.Block.Letters
import TemplateFill.Proofs.Block.Succession
import TemplateFill.Proofs.Walk.Matches
import TemplateFill.Proofs.Walk.Levels
import TemplateFill.Proofs.Numbering.Order
import TemplateFill.Proofs.Data.Progress
import TemplateFill.Proofs.Data.LineBreak
import TemplateFill.Proofs.Data.Route
import TemplateFill.Proofs.Data.RoundTrip
import TemplateFill.Proofs.Text.LineBreak
import TemplateFill.Proofs.Control.Children
import TemplateFill.Proofs.Numbering.Seeding
import TemplateFill.Proofs.Service.Disposition
