import AssemblyAtlas.Assembly.Attribute
import AssemblyAtlas.Assembly.Builder
import AssemblyAtlas.Assembly.Definition
import AssemblyAtlas.Assembly.Identity
import AssemblyAtlas.Assembly.Module
import AssemblyAtlas.Assembly.Signature
import AssemblyAtlas.Assembly.SymbolKey
import AssemblyAtlas.Assembly.Token
import AssemblyAtlas.Assembly.TypeTable
import AssemblyAtlas.Cancellation
import AssemblyAtlas.Declaration.Build
import AssemblyAtlas.Declaration.Hidden
import AssemblyAtlas.Declaration.Settings
import AssemblyAtlas.Declaration.Spelling
import AssemblyAtlas.Declaration.TypeSystem
import AssemblyAtlas.Digest
import AssemblyAtlas.Disk
import AssemblyAtlas.Failure
import AssemblyAtlas.FileName
import AssemblyAtlas.Guid
import AssemblyAtlas.Markup.Element
import AssemblyAtlas.Markup.Entity
import AssemblyAtlas.Markup.Writer
import AssemblyAtlas.Navigation.GeneratedFile
import AssemblyAtlas.Navigation.Implementation
import AssemblyAtlas.Navigation.Key
import AssemblyAtlas.Navigation.Options
import AssemblyAtlas.Navigation.Project
import AssemblyAtlas.Navigation.ProjectFile
import AssemblyAtlas.Navigation.Provider
import AssemblyAtlas.Navigation.Workspace
import AssemblyAtlas.Path
import AssemblyAtlas.Reference.Compilation
import AssemblyAtlas.Reference.Image
import AssemblyAtlas.Reference.Log
import AssemblyAtlas.Reference.Resolver
import AssemblyAtlas.Sources.Layout
import AssemblyAtlas.Sources.Run
import AssemblyAtlas.Sources.SourceSet
import AssemblyAtlas.Syntax.Edit
import AssemblyAtlas.Syntax.Identifier
import AssemblyAtlas.Syntax.Literal
import AssemblyAtlas.Syntax.Page
import AssemblyAtlas.Syntax.Piece
import AssemblyAtlas.Syntax.Transform
import AssemblyAtlas.Syntax.Tree
import AssemblyAtlas.Syntax.Visit
import AssemblyAtlas.Text.Alphabetic
import AssemblyAtlas.Text.CaseContext
import AssemblyAtlas.Text.CharClass
import AssemblyAtlas.Text.CodeRanges
import AssemblyAtlas.Text.Lowercase
import AssemblyAtlas.Text.Numeral
import AssemblyAtlas.Text.Numeric
import AssemblyAtlas.Text.Quoted
import AssemblyAtlas.Text.Shortest
import AssemblyAtlas.Text.Split
import AssemblyAtlas.Text.Utf8
import AssemblyAtlas.Text.Visible
import AssemblyAtlas.Proofs.Declaration.SeveralTypes
import AssemblyAtlas.Proofs.Sources.Grouping
import AssemblyAtlas.Proofs.Sources.Partition
import AssemblyAtlas.Proofs.Assembly.Lookup
import AssemblyAtlas.Proofs.Sources.Rounds
import AssemblyAtlas.Proofs.Sources.Closure
import AssemblyAtlas.Proofs.Syntax.OneLine
import AssemblyAtlas.Proofs.Syntax.Declared
import AssemblyAtlas.Proofs.Syntax.Places
import AssemblyAtlas.Proofs.Declaration.DeclaredTypes
import AssemblyAtlas.Proofs.Sources.Drafts
import AssemblyAtlas.Proofs.Sources.Written
import AssemblyAtlas.Proofs.Sources.Kept
import AssemblyAtlas.Proofs.Navigation.Lookup
import AssemblyAtlas.Proofs.Navigation.Outcome
import AssemblyAtlas.Proofs.Navigation.Origin
import AssemblyAtlas.Proofs.Navigation.Landing
import AssemblyAtlas.Proofs.Text.Bytes
import AssemblyAtlas.Proofs.FileName.Scan
import AssemblyAtlas.Proofs.FileName.SafePath
import AssemblyAtlas.Proofs.FileName.Below
import AssemblyAtlas.Proofs.Navigation.Places
import AssemblyAtlas.Proofs.Navigation.Course
import AssemblyAtlas.Proofs.Navigation.History
import AssemblyAtlas.Proofs.Navigation.Documents
import AssemblyAtlas.Proofs.Navigation.Consistency
import AssemblyAtlas.Proofs.Navigation.Registration
import AssemblyAtlas.Proofs.Navigation.Bookkeeping
import AssemblyAtlas.Proofs.Navigation.Confinement
import AssemblyAtlas.Proofs.Navigation.Atomicity
import AssemblyAtlas.Proofs.Sources.Paths
import AssemblyAtlas.Proofs.Reference.OneFile
import AssemblyAtlas.Proofs.Sources.Quiet
import AssemblyAtlas.Proofs.Navigation.Finding
import AssemblyAtlas.Proofs.Navigation.Wholeness
import AssemblyAtlas.Proofs.Navigation.Repetition
import AssemblyAtlas.Proofs.Text.Joined
import AssemblyAtlas.Proofs.Assembly.KeyText
import AssemblyAtlas.Proofs.Syntax.Bodies
import AssemblyAtlas.Proofs.Declaration.TypeNodes
import AssemblyAtlas.Proofs.Declaration.Stubs
import AssemblyAtlas.Proofs.Sources.Order
import AssemblyAtlas.Proofs.Assembly.Nesting
import AssemblyAtlas.Proofs.Assembly.Rows
import AssemblyAtlas.Proofs.Assembly.Growth
import AssemblyAtlas.Proofs.Assembly.Built
import AssemblyAtlas.Proofs.Declaration.Concealed
import AssemblyAtlas.Proofs.Declaration.Complete
import AssemblyAtlas.Proofs.Declaration.Once
import AssemblyAtlas.Proofs.Declaration.Completeness
import AssemblyAtlas.Proofs.Sources.Reports
import AssemblyAtlas.Proofs.Sources.CutShort
import AssemblyAtlas.Proofs.Declaration.Unfolding
import AssemblyAtlas.Proofs.Text.Trimmed
import AssemblyAtlas.Proofs.Text.Digits
import AssemblyAtlas.Proofs.Assembly.IdentityText
import AssemblyAtlas.Proofs.Assembly.Reached
import AssemblyAtlas.Proofs.Assembly.Tables
import AssemblyAtlas.Proofs.FileName.Tidy
import AssemblyAtlas.Proofs.FileName.Portable
import AssemblyAtlas.Proofs.Sources.Portability
import AssemblyAtlas.Proofs.Navigation.Notices
import AssemblyAtlas.Proofs.Navigation.Presence
import AssemblyAtlas.Proofs.Syntax.Literals
import AssemblyAtlas.Proofs.Syntax.Rewriting
import AssemblyAtlas.Proofs.Syntax.Escaping
import AssemblyAtlas.Proofs.Syntax.Removal
import AssemblyAtlas.Proofs.FileName.Sanitized
import AssemblyAtlas.Proofs.Reference.Selection
import AssemblyAtlas.Proofs.Syntax.Identifiers
import AssemblyAtlas.Proofs.Navigation.Forwards
import AssemblyAtlas.Proofs.Assembly.Ascent
import AssemblyAtlas.Proofs.Assembly.Linked
import AssemblyAtlas.Proofs.Syntax.Mentions
import AssemblyAtlas.Proofs.Declaration.SourceNames
import AssemblyAtlas.Proofs.Declaration.KeptReferences
import AssemblyAtlas.Proofs.Declaration.Spelled
import AssemblyAtlas.Proofs.Declaration.References
import AssemblyAtlas.Proofs.Assembly.FullNames
import AssemblyAtlas.Proofs.Declaration.Resolution
import AssemblyAtlas.Proofs.Sources.Accounting
import AssemblyAtlas.Proofs.Text.Numerals
import AssemblyAtlas.Proofs.Assembly.Codes
import AssemblyAtlas.Proofs.Syntax.Pruning
import AssemblyAtlas.Proofs.Declaration.Hiding
import AssemblyAtlas.Proofs.Declaration.Pruning
import AssemblyAtlas.Proofs.Markup.Reading
import AssemblyAtlas.Proofs.Markup.Written
import AssemblyAtlas.Proofs.Navigation.ProjectFiles
import AssemblyAtlas.Proofs.Disk.Kept
import AssemblyAtlas.Proofs.Disk.Made
import AssemblyAtlas.Proofs.Disk.Walk
import AssemblyAtlas.Proofs.Navigation.WrittenOnce
import AssemblyAtlas.Proofs.Assembly.Walks
import AssemblyAtlas.Proofs.Syntax.Layout
