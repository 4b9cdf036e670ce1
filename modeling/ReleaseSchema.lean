import ReleaseSchema.Bindings
import ReleaseSchema.Build
import ReleaseSchema.Command.Arguments
import ReleaseSchema.Command.Run
import ReleaseSchema.Ddl.Column
import ReleaseSchema.Ddl.Data
import ReleaseSchema.Ddl.Entry
import ReleaseSchema.Ddl.Name
import ReleaseSchema.Ddl.Routine
import ReleaseSchema.Ddl.Table
import ReleaseSchema.Disk
import ReleaseSchema.Distinct
import ReleaseSchema.Failure
import ReleaseSchema.FileSystem
import ReleaseSchema.Json.Basic
import ReleaseSchema.Json.Printer
import ReleaseSchema.Json.Reader
import ReleaseSchema.Json.Record
import ReleaseSchema.Main
import ReleaseSchema.Path
import ReleaseSchema.Placeholder
import ReleaseSchema.Release.Fold
import ReleaseSchema.Release.Folder
import ReleaseSchema.Release.Manifest
import ReleaseSchema.Release.Version
import ReleaseSchema.Repository
import ReleaseSchema.Schema.Catalog
import ReleaseSchema.Schema.Column
import ReleaseSchema.Schema.DataScript
import ReleaseSchema.Schema.Entry
import ReleaseSchema.Schema.History
import ReleaseSchema.Schema.Kind
import ReleaseSchema.Schema.Routine
import ReleaseSchema.Schema.Table
import ReleaseSchema.SortedMap
import ReleaseSchema.Sql.Comment
import ReleaseSchema.Sql.Condense
import ReleaseSchema.Sql.Literal
import ReleaseSchema.Sql.Nesting
import ReleaseSchema.Sql.Token
import ReleaseSchema.Sql.Tokenize
import ReleaseSchema.Store.Document
import ReleaseSchema.Store.Memory
import ReleaseSchema.Tag
import ReleaseSchema.Text.Ascii
import ReleaseSchema.Text.Case
import ReleaseSchema.Text.Character
import ReleaseSchema.Text.Cursor
import ReleaseSchema.Text.Encoding
import ReleaseSchema.Text.Search
import ReleaseSchema.Text.Surrogate
import ReleaseSchema.Text.Trim
import ReleaseSchema.Unicode.CaseMap
import ReleaseSchema.Unicode.Category
import ReleaseSchema.Unicode.Grapheme
import ReleaseSchema.Proofs.Release.Listing
import ReleaseSchema.Proofs.Release.VersionKey
import ReleaseSchema.Proofs.Release.Order
import ReleaseSchema.Proofs.Ddl.Name
import ReleaseSchema.Proofs.Sql.Items
import ReleaseSchema.Proofs.Ddl.TableDefinition
import ReleaseSchema.Proofs.Ddl.TableConstraint
import ReleaseSchema.Proofs.Ddl.HeadComment
import ReleaseSchema.Proofs.Ddl.AttributeComment
import ReleaseSchema.Proofs.Traverse
import ReleaseSchema.Proofs.Text.Cursor
import ReleaseSchema.Proofs.Text.Surrogate
import ReleaseSchema.Proofs.Text.Utf8
import ReleaseSchema.Proofs.Json.Number
import ReleaseSchema.Proofs.Json.Layout
import ReleaseSchema.Proofs.Json.Quoted
import ReleaseSchema.Proofs.Json.RoundTrip
import ReleaseSchema.Proofs.Bindings
import ReleaseSchema.Proofs.Json.Value
import ReleaseSchema.Proofs.SortedMap
import ReleaseSchema.Proofs.Json.Record
import ReleaseSchema.Proofs.Schema.Column
import ReleaseSchema.Proofs.Schema.Entry
import ReleaseSchema.Proofs.Text.Trim
import ReleaseSchema.Proofs.Schema.Catalog
import ReleaseSchema.Proofs.Build
import ReleaseSchema.Proofs.Disk
import ReleaseSchema.Proofs.Store.Document
import ReleaseSchema.Proofs.Run
import ReleaseSchema.Proofs.Store.SavedCatalog
import ReleaseSchema.Proofs.Disk.Files
import ReleaseSchema.Proofs.Path
import ReleaseSchema.Proofs.Store.Paths
import ReleaseSchema.Proofs.Disk.Tree
import ReleaseSchema.Proofs.Release.Folder
import ReleaseSchema.Proofs.Repository
import ReleaseSchema.Proofs.Release.Manifest
import ReleaseSchema.Proofs.Store.Session
import ReleaseSchema.Proofs.Sql.Literal
import ReleaseSchema.Proofs.Sql.Echo
import ReleaseSchema.Proofs.Sql.Comment
import ReleaseSchema.Proofs.Sql.Condense
import ReleaseSchema.Proofs.Ddl.Argument
import ReleaseSchema.Proofs.Ddl.RoutineDefinition
import ReleaseSchema.Proofs.Entries
import ReleaseSchema.Proofs.Schema.CatalogText
import ReleaseSchema.Proofs.Tag
import ReleaseSchema.Proofs.Ddl.ColumnDefinition
import ReleaseSchema.Proofs.Distinct
import ReleaseSchema.Proofs.Placeholder
import ReleaseSchema.Proofs.Text.Search
import ReleaseSchema.Proofs.Ddl.RoutineBody
import ReleaseSchema.Proofs.Sql.Layout
import ReleaseSchema.Proofs.Sql.Fallback
import ReleaseSchema.Proofs.Sql.Enclosed
import ReleaseSchema.Proofs.Sql.Splitting
import ReleaseSchema.Proofs.Buckets
import ReleaseSchema.Proofs.Disk.Rewriting
import ReleaseSchema.Proofs.Store.Saves
import ReleaseSchema.Proofs.Sql.Stretch
import ReleaseSchema.Proofs.Ddl.ColumnDefault
import ReleaseSchema.Proofs.Ddl.ColumnTags
import ReleaseSchema.Proofs.Release.KeyRange
import ReleaseSchema.Proofs.Text.Case
import ReleaseSchema.Proofs.Sql.CommentStretch
import ReleaseSchema.Proofs.Ddl.ColumnCamelName
import ReleaseSchema.Proofs.Ddl.FragmentComment
import ReleaseSchema.Proofs.Ddl.TableKey
import ReleaseSchema.Proofs.Ddl.QuotedColumn
import ReleaseSchema.Proofs.TagComment
import ReleaseSchema.Proofs.Store.FailedSave
import ReleaseSchema.Proofs.Ddl.TableName
import ReleaseSchema.Proofs.Text.Encoding
import ReleaseSchema.Proofs.Ddl.InsertStatement
import ReleaseSchema.Proofs.Ddl.ForeignKeyName
import ReleaseSchema.Proofs.Release.Root
import ReleaseSchema.Proofs.Text.Bytes
import ReleaseSchema.Proofs.Text.CamelCase
import ReleaseSchema.Proofs.Text.Slice
import ReleaseSchema.Proofs.Sql.ByteNesting
import ReleaseSchema.Proofs.Ddl.NameOffset
import ReleaseSchema.Proofs.Offsets
