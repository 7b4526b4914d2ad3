import PackageAtlas.Json.Parser
import PackageAtlas.Main
import PackageAtlas.Proofs.Diagram.Agreement
import PackageAtlas.Proofs.Diagram.Blanks
import PackageAtlas.Proofs.Diagram.Distinct
import PackageAtlas.Proofs.Diagram.Edges
import PackageAtlas.Proofs.Diagram.Recovery
import PackageAtlas.Proofs.Namespace.Displacement
import PackageAtlas.Proofs.Namespace.WellBuilt
import PackageAtlas.Proofs.Namespace.Lookup
import PackageAtlas.Proofs.Namespace.Persistence
import PackageAtlas.Proofs.SourceText.Declaration
import PackageAtlas.Proofs.SourceText.Grammar
import PackageAtlas.Proofs.SourceText.Layout
import PackageAtlas.Proofs.SourceText.Lines
import PackageAtlas.Proofs.SourceText.Printing
import PackageAtlas.Proofs.FileTree.Entries
import PackageAtlas.Proofs.FileTree.Resolution
import PackageAtlas.Proofs.FileTree.Path
import PackageAtlas.Proofs.Utf8Decoding
import PackageAtlas.Proofs.Search.Files
import PackageAtlas.Proofs.Search.Records
import PackageAtlas.Proofs.FileTree.Writing
import PackageAtlas.Proofs.ByteLines
import PackageAtlas.Proofs.Gathering
import PackageAtlas.Proofs.CommandLine.Output
import PackageAtlas.Proofs.CommandLine.Overrides
import PackageAtlas.Proofs.Glob
import PackageAtlas.Proofs.Handover
import PackageAtlas.Proofs.Settings
import PackageAtlas.Proofs.CommandLine.JsonListing
