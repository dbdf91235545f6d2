import ModInstall.Command.Basic
import ModInstall.Command.Environment
import ModInstall.Condition.Basic
import ModInstall.Condition.Evaluation
import ModInstall.Condition.Json
import ModInstall.Condition.Predicate
import ModInstall.FileTree
import ModInstall.InstallState.Basic
import ModInstall.InstallState.Json
import ModInstall.Json.Decoder
import ModInstall.Json.Reader
import ModInstall.Json.Token
import ModInstall.Json.Value
import ModInstall.Json.Writer
import ModInstall.Main
import ModInstall.Markup.Attribute
import ModInstall.Markup.Closer
import ModInstall.Markup.Document
import ModInstall.Markup.Element
import ModInstall.Markup.Entity
import ModInstall.Markup.Json
import ModInstall.Markup.Lexeme
import ModInstall.Package.Basic
import ModInstall.Package.Error
import ModInstall.Package.Grammar
import ModInstall.Package.Image
import ModInstall.Package.Json
import ModInstall.Package.Options
import ModInstall.Package.Reader
import ModInstall.Path
import ModInstall.Proofs.Condition.Json
import ModInstall.Proofs.Condition.Meaning
import ModInstall.Proofs.Condition.Mention
import ModInstall.Proofs.Condition.Outcome
import ModInstall.Proofs.Condition.Tree
import ModInstall.Proofs.Condition.Upgrade
import ModInstall.Proofs.InstallState.FileOrder
import ModInstall.Proofs.InstallState.Flags
import ModInstall.Proofs.InstallState.History
import ModInstall.Proofs.InstallState.Json
import ModInstall.Proofs.Json.Decoding
import ModInstall.Proofs.Json.Exact
import ModInstall.Proofs.Json.Reordering
import ModInstall.Proofs.Json.Text
import ModInstall.Proofs.Markup.Chain
import ModInstall.Proofs.Markup.Content
import ModInstall.Proofs.Markup.Cutting
import ModInstall.Proofs.Markup.DepthLimit
import ModInstall.Proofs.Markup.Escape
import ModInstall.Proofs.Markup.Height
import ModInstall.Proofs.Markup.Lexing
import ModInstall.Proofs.Markup.Path
import ModInstall.Proofs.Markup.Syntax
import ModInstall.Proofs.Markup.Tag
import ModInstall.Proofs.Markup.Tree
import ModInstall.Proofs.Markup.Writing
import ModInstall.Proofs.Names
import ModInstall.Proofs.Package.Comparison
import ModInstall.Proofs.Package.ConditionGrammar
import ModInstall.Proofs.Package.Correspondence
import ModInstall.Proofs.Package.Defect
import ModInstall.Proofs.Package.Evaluation
import ModInstall.Proofs.Package.FlagValue
import ModInstall.Proofs.Package.GrammarChoice
import ModInstall.Proofs.Package.Hosting
import ModInstall.Proofs.Package.ImagePath
import ModInstall.Proofs.Package.Json
import ModInstall.Proofs.Package.NewerGrammar
import ModInstall.Proofs.Package.Options
import ModInstall.Proofs.Package.Parts
import ModInstall.Proofs.Package.Patterns
import ModInstall.Proofs.Package.Placement
import ModInstall.Proofs.Package.RoundTrip
import ModInstall.Proofs.Package.Values
import ModInstall.Proofs.Path
import ModInstall.Proofs.Report.Heading
import ModInstall.Proofs.Report.Walk
import ModInstall.Proofs.Table
import ModInstall.Proofs.Text.Blank
import ModInstall.Proofs.Text.Lowercase
import ModInstall.Proofs.Text.Numeral
import ModInstall.Proofs.Text.Split
import ModInstall.Proofs.Traversal
import ModInstall.Proofs.Version
import ModInstall.Proofs.Version.Order
import ModInstall.Proofs.Version.Text
import ModInstall.Report.Basic
import ModInstall.Report.Json
import ModInstall.Report.Text
import ModInstall.Table
import ModInstall.Text.Blank
import ModInstall.Text.CaseTable
import ModInstall.Text.Lowercase
import ModInstall.Text.Numeral
import ModInstall.Text.Split
import ModInstall.Version
