import CrossRef.Allowlist
import CrossRef.Audit
import CrossRef.Category
import CrossRef.Checker
import CrossRef.Command
import CrossRef.Command.Arguments
import CrossRef.Command.Run
import CrossRef.Config
import CrossRef.Config.Reader
import CrossRef.Config.Template
import CrossRef.Defect
import CrossRef.Extraction
import CrossRef.Failure
import CrossRef.FileTree
import CrossRef.FileTree.Access
import CrossRef.FileTree.Walk
import CrossRef.Glob
import CrossRef.IndexMap
import CrossRef.Ledger
import CrossRef.Main
import CrossRef.Path
import CrossRef.Pattern
import CrossRef.Proofs.Alike
import CrossRef.Proofs.Audit
import CrossRef.Proofs.CheckAll
import CrossRef.Proofs.Commit
import CrossRef.Proofs.Defect
import CrossRef.Proofs.Extension
import CrossRef.Proofs.Extraction
import CrossRef.Proofs.FileTree
import CrossRef.Proofs.Headline
import CrossRef.Proofs.Insertion
import CrossRef.Proofs.Label
import CrossRef.Proofs.LabelOrder
import CrossRef.Proofs.Ledger
import CrossRef.Proofs.Listing
import CrossRef.Proofs.Path
import CrossRef.Proofs.Place
import CrossRef.Proofs.Pruning
import CrossRef.Proofs.Reach
import CrossRef.Proofs.Reading
import CrossRef.Proofs.Render
import CrossRef.Proofs.Section
import CrossRef.Proofs.Selection
import CrossRef.Proofs.SiteOrder
import CrossRef.Proofs.Staged
import CrossRef.Proofs.Utf8
import CrossRef.Proofs.Walk
import CrossRef.Proofs.Write
import CrossRef.Report
import CrossRef.Report.Render
import CrossRef.Report.Style
import CrossRef.Repository
import CrossRef.Rule
import CrossRef.Selection
import CrossRef.Source
import CrossRef.Symbol
import CrossRef.Text.Blank
import CrossRef.Text.Fragment
import CrossRef.Text.Hidden
import CrossRef.Text.Lines
import CrossRef.Text.Quoted
import CrossRef.Text.Ranges
import CrossRef.Text.Utf8
import CrossRef.Text.Word
import CrossRef.Validation
import CrossRef.Yaml.Cursor
import CrossRef.Yaml.Node
import CrossRef.Yaml.Scalar
import CrossRef.Yaml.Token
import CrossRef.Proofs.Scan
import CrossRef.Proofs.Statement
import CrossRef.Proofs.Block
import CrossRef.Proofs.Reference
import CrossRef.Proofs.Definition
import CrossRef.Proofs.Margin
import CrossRef.Proofs.Layout
import CrossRef.Proofs.Comment
import CrossRef.Proofs.Occurrence
import CrossRef.Proofs.Index
import CrossRef.Proofs.Interleaving
import CrossRef.Proofs.Color
import CrossRef.Proofs.Config
