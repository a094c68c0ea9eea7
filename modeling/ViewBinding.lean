import ViewBinding.Main
import ViewBinding.Proofs.Round.Indexing
import ViewBinding.Proofs.Round.Collection
import ViewBinding.Proofs.Round.Flattening
import ViewBinding.Proofs.Round.Regrouping
import ViewBinding.Proofs.Source.Emission
import ViewBinding.Proofs.Source.Isolation
import ViewBinding.Proofs.Name.Spelling
import ViewBinding.Proofs.Text.Lines
import ViewBinding.Proofs.Source.Layout
import ViewBinding.Proofs.Source.Reading
import ViewBinding.Proofs.Round.Acceptance
import ViewBinding.Proofs.Path.Artifacts
import ViewBinding.Proofs.FileTree.Following
import ViewBinding.Proofs.FileTree.Ways
import ViewBinding.Proofs.FileTree.Locating
import ViewBinding.Proofs.FileTree.Writing
import ViewBinding.Proofs.Source.DryRun
import ViewBinding.Proofs.Source.Reporting
import ViewBinding.Proofs.Source.Accounting
import ViewBinding.Proofs.Round.Extension
import ViewBinding.Proofs.Report.Grouping
import ViewBinding.Proofs.Model.Scanning
import ViewBinding.Proofs.Command.Loading
import ViewBinding.Proofs.Command.Stages
import ViewBinding.Proofs.Command.Issues
import ViewBinding.Proofs.Path.Names
import ViewBinding.Proofs.Source.Touching
import ViewBinding.Proofs.Command.Frame
import ViewBinding.Proofs.FileTree.Plain
import ViewBinding.Proofs.FileTree.Paving
import ViewBinding.Proofs.FileTree.Laying
import ViewBinding.Proofs.FileTree.Reaching
import ViewBinding.Proofs.Source.Keeping
import ViewBinding.Proofs.Source.Repeating
import ViewBinding.Proofs.FileTree.Growing
import ViewBinding.Proofs.Glob.Expansion
import ViewBinding.Proofs.Model.Rescanning
import ViewBinding.Proofs.Command.Growth
import ViewBinding.Proofs.Command.Regeneration
import ViewBinding.Proofs.Round.Walking
import ViewBinding.Proofs.Round.Enclosing
import ViewBinding.Proofs.Source.Collisions
import ViewBinding.Proofs.Command.Switches
import ViewBinding.Proofs.FileTree.Visiting
import ViewBinding.Proofs.Text.Order
import ViewBinding.Proofs.Model.Discovery
import ViewBinding.Proofs.Round.Ancestry
import ViewBinding.Proofs.Round.Listings
import ViewBinding.Proofs.Path.Components
import ViewBinding.Proofs.Source.Blocks
import ViewBinding.Proofs.Round.Duplicates
import ViewBinding.Proofs.Glob.Spelling
import ViewBinding.Proofs.Model.Narrowing
import ViewBinding.Proofs.Model.Overlapping
import ViewBinding.Proofs.Command.Refusal
import ViewBinding.Proofs.Glob.Reading
import ViewBinding.Proofs.Model.Compiling
import ViewBinding.Proofs.Config.Upward
import ViewBinding.Proofs.Json.Grammar
import ViewBinding.Proofs.Json.Reading
import ViewBinding.Proofs.Json.Decoding
import ViewBinding.Proofs.Json.Records
import ViewBinding.Proofs.Model.Documents
import ViewBinding.Proofs.Command.Directories
import ViewBinding.Proofs.Source.Creating
import ViewBinding.Proofs.Json.Writing
import ViewBinding.Proofs.Config.Documents
import ViewBinding.Proofs.Name.DeclaredTypes
import ViewBinding.Proofs.Name.Marks
import ViewBinding.Proofs.Name.Languages
import ViewBinding.Proofs.Source.Naming
