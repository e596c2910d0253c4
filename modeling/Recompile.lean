import Recompile.Bytes
import Recompile.Cache.Basic
import Recompile.Cache.Flush
import Recompile.Cache.Lookup
import Recompile.Decimal.Binary64
import Recompile.Decimal.Nearest
import Recompile.Decimal.Shortest
import Recompile.Diagnostic.Basic
import Recompile.Diagnostic.Log
import Recompile.Diagnostic.Packed
import Recompile.Digest.Basic
import Recompile.Digest.Xxh3
import Recompile.Disk.Basic
import Recompile.Disk.Path
import Recompile.Glob.Basic
import Recompile.Glob.Reader
import Recompile.Glob.Regular
import Recompile.ImportGraph.Adjacency
import Recompile.ImportGraph.Basic
import Recompile.Json.Basic
import Recompile.Json.Printer
import Recompile.Json.Reader
import Recompile.Json.Shape
import Recompile.Manifest
import Recompile.ModuleId
import Recompile.Options.Basic
import Recompile.Options.Document
import Recompile.Options.Fingerprint
import Recompile.Packed.Basic
import Recompile.Proofs.Cache.Alone
import Recompile.Proofs.Cache.Backed
import Recompile.Proofs.Cache.Collecting
import Recompile.Proofs.Cache.Commuting
import Recompile.Proofs.Cache.Crash
import Recompile.Proofs.Cache.Damage
import Recompile.Proofs.Cache.Detour
import Recompile.Proofs.Cache.Edges
import Recompile.Proofs.Cache.Flush
import Recompile.Proofs.Cache.Forgetting
import Recompile.Proofs.Cache.Fresh
import Recompile.Proofs.Cache.History
import Recompile.Proofs.Cache.Intact
import Recompile.Proofs.Cache.Invalidation
import Recompile.Proofs.Cache.Lineage
import Recompile.Proofs.Cache.Manifests
import Recompile.Proofs.Cache.Once
import Recompile.Proofs.Cache.Order
import Recompile.Proofs.Cache.Precise
import Recompile.Proofs.Cache.Provenance
import Recompile.Proofs.Cache.Records
import Recompile.Proofs.Cache.Restart
import Recompile.Proofs.Cache.Retry
import Recompile.Proofs.Cache.Snapshots
import Recompile.Proofs.Cache.Standing
import Recompile.Proofs.Cache.Survival
import Recompile.Proofs.Cache.Sweeping
import Recompile.Proofs.Cache.Tended
import Recompile.Proofs.Cache.Texts
import Recompile.Proofs.Cache.Winding
import Recompile.Proofs.Digest.Framing
import Recompile.Proofs.Disk.Making
import Recompile.Proofs.Disk.Parents
import Recompile.Proofs.Disk.Passing
import Recompile.Proofs.Disk.Place
import Recompile.Proofs.Disk.Reading
import Recompile.Proofs.Disk.Steps
import Recompile.Proofs.ImportGraph.BreadthFirst
import Recompile.Proofs.ImportGraph.Changes
import Recompile.Proofs.ImportGraph.Connected
import Recompile.Proofs.Json.ReadBack
import Recompile.Proofs.Manifest.Document
import Recompile.Proofs.Options.Fingerprint
import Recompile.Proofs.Packed.Grammar
import Recompile.Proofs.Packed.Lawful
import Recompile.Proofs.Packed.ReadBack
import Recompile.Proofs.Session.Declarations
import Recompile.Proofs.Session.Emissions
import Recompile.Proofs.Session.Notices
import Recompile.Proofs.Session.Placement
import Recompile.Proofs.Session.Transparent
import Recompile.Proofs.Session.Watching
import Recompile.Proofs.Snapshot.Versions
import Recompile.Proofs.Storage.Archive
import Recompile.Proofs.Storage.Artifact
import Recompile.Proofs.Storage.Collecting
import Recompile.Proofs.Storage.Format
import Recompile.Proofs.Storage.Lacking
import Recompile.Proofs.Storage.Mapping
import Recompile.Proofs.Storage.Reaching
import Recompile.Proofs.Storage.Reading
import Recompile.Proofs.Storage.Retry
import Recompile.Record.Basic
import Recompile.Record.Findings
import Recompile.Record.Output
import Recompile.Record.Slot
import Recompile.Record.SourceMap
import Recompile.Selection
import Recompile.Session.Basic
import Recompile.Session.Compiler
import Recompile.Session.Declarations
import Recompile.Session.Error
import Recompile.Session.Rounds
import Recompile.Snapshot.Basic
import Recompile.Snapshot.Table
import Recompile.Storage.Archive
import Recompile.Storage.Artifact
import Recompile.Storage.Error
import Recompile.Storage.Write
import Recompile.Store
import Recompile.Text.Blank
import Recompile.Text.Quoted
import Recompile.Toml.Basic
import Recompile.Toml.Blank
import Recompile.Toml.Draft
import Recompile.Toml.Key
import Recompile.Toml.Moment
import Recompile.Toml.Number
import Recompile.Toml.Printer
import Recompile.Toml.Quote
import Recompile.Toml.Reader
