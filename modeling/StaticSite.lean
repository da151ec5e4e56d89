import StaticSite.Main
import StaticSite.Proofs.Template.Nesting
import StaticSite.Proofs.Fallible
import StaticSite.Proofs.Template.Evaluation
import StaticSite.Proofs.Disk.Entries
import StaticSite.Proofs.Disk.Following
import StaticSite.Proofs.LogicalName
import StaticSite.Proofs.Disk.Looking
import StaticSite.Proofs.Template.Journal
import StaticSite.Proofs.Project.Provenance
import StaticSite.Proofs.Disk.Agreement
import StaticSite.Proofs.Template.Containment
import StaticSite.Proofs.Disk.Changing
import StaticSite.Proofs.Project.Atomicity
import StaticSite.Proofs.Template.Circularity
import StaticSite.Proofs.Template.DepthLimit
import StaticSite.Proofs.Text.Cutting
import StaticSite.Proofs.Token.Shape
import StaticSite.Proofs.Token.Recognition
import StaticSite.Proofs.Disk.Trees
import StaticSite.Proofs.Project.Publication
import StaticSite.Proofs.Disk.Descending
import StaticSite.Proofs.Project.Editing
import StaticSite.Proofs.Arguments
import StaticSite.Proofs.Template.Seams
import StaticSite.Proofs.Disk.Rooms
import StaticSite.Proofs.Template.Transfer
import StaticSite.Proofs.Project.Rebuilding
import StaticSite.Proofs.Disk.Members
import StaticSite.Proofs.Process.Alone
import StaticSite.Proofs.Process.Exclusion
import StaticSite.Proofs.Process.Serialization
import StaticSite.Proofs.Disk.Fronts
import StaticSite.Proofs.Project.Reserving
import StaticSite.Proofs.Text.Encoding
import StaticSite.Proofs.Text.Numerals
import StaticSite.Proofs.Json.Literals
import StaticSite.Proofs.Json.Reading
import StaticSite.Proofs.Instants
import StaticSite.Proofs.Disk.Replacing
import StaticSite.Proofs.BuildState.Reading
import StaticSite.Proofs.BuildState.Storing
import StaticSite.Proofs.CommandLine.Reporting
import StaticSite.Proofs.Toml.Quoting
import StaticSite.Proofs.Toml.Values
import StaticSite.Proofs.Toml.Lines
import StaticSite.Proofs.Config
import StaticSite.Proofs.Template.Success
import StaticSite.Proofs.Disk.Removing
import StaticSite.Proofs.Project.Scaffolding
import StaticSite.Proofs.Project.Creating
import StaticSite.Proofs.Text.Slicing
import StaticSite.Proofs.Token.Positions
import StaticSite.Proofs.Project.Naming
import StaticSite.Proofs.Project.Sources
import StaticSite.Proofs.Text.Insertion
import StaticSite.Proofs.Text.Quotes
import StaticSite.Proofs.Page.Decoding
import StaticSite.Proofs.Page.Stamping
import StaticSite.Proofs.Project.Decoding
import StaticSite.Proofs.Token.Resuming
import StaticSite.Proofs.Token.Writing
import StaticSite.Proofs.Arguments.Writing
import StaticSite.Proofs.Token.Removing
import StaticSite.Proofs.Project.Deleting
import StaticSite.Proofs.Token.Inserting
import StaticSite.Proofs.Project.Inserting
import StaticSite.Proofs.Arguments.Joining
import StaticSite.Proofs.Template.Discarding
import StaticSite.Proofs.Paths.Normal
import StaticSite.Proofs.Paths.Single
import StaticSite.Proofs.Token.Closing
import StaticSite.Proofs.Template.Spans
import StaticSite.Proofs.Text.Places
import StaticSite.Proofs.Page.Anchors
import StaticSite.Proofs.BuildState.Staging
import StaticSite.Proofs.Disk.Making
import StaticSite.Proofs.BuildState.Recording
import StaticSite.Proofs.Disk.Spelling
import StaticSite.Proofs.Disk.Faraway
import StaticSite.Proofs.Disk.Interrupted
import StaticSite.Proofs.Project.Opening
import StaticSite.Proofs.CommandLine.Printing
