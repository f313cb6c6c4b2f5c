import PageBuilder.Dom.IndexedNames
import PageBuilder.Files.Disk
import PageBuilder.Files.FileMap
import PageBuilder.Main
import PageBuilder.Markup.Fragment
import PageBuilder.Proofs.Dom.Ancestors
import PageBuilder.Proofs.Dom.Links
import PageBuilder.Proofs.Dom.Attach
import PageBuilder.Proofs.Dom.Labels
import PageBuilder.Proofs.Dom.Operations
import PageBuilder.Proofs.Dom.Histories
import PageBuilder.Proofs.Dom.Refusals
import PageBuilder.Proofs.Dom.Views
import PageBuilder.Proofs.Markup.Roses
import PageBuilder.Proofs.Markup.Forms
import PageBuilder.Proofs.Markup.Escapes
import PageBuilder.Proofs.Markup.InnerOuter
import PageBuilder.Proofs.Markup.Indentation
import PageBuilder.Proofs.Dom.Changes
import PageBuilder.Proofs.Dom.Ids
import PageBuilder.Proofs.Dom.Paths
import PageBuilder.Proofs.Dom.Texts
import PageBuilder.Proofs.Page.Steps
import PageBuilder.Proofs.Page.Composition
import PageBuilder.Proofs.Markup.Reading
import PageBuilder.Proofs.Page.Parts
import PageBuilder.Proofs.Page.RoundTrip
import PageBuilder.Proofs.Page.Growth
import PageBuilder.Proofs.Page.Records
import PageBuilder.Proofs.Page.Acceptance
import PageBuilder.Proofs.Page.Accounts
import PageBuilder.Proofs.Page.Reports
import PageBuilder.Proofs.CommandLine.Runs
import PageBuilder.Proofs.Markup.Mixing
import PageBuilder.Proofs.Page.Spacing
import PageBuilder.Proofs.Dom.Appending
import PageBuilder.Proofs.Markup.Appending
import PageBuilder.Proofs.Markup.StartTags
import PageBuilder.Proofs.Page.Inputs
import PageBuilder.Proofs.Page.StartTags
import PageBuilder.Proofs.Dom.DocumentOrder
import PageBuilder.Proofs.Page.Lookups
import PageBuilder.Proofs.Markup.Abstraction
import PageBuilder.Proofs.Markup.Selection
import PageBuilder.Proofs.Json.Lists
import PageBuilder.Proofs.Page.Descriptions
import PageBuilder.Proofs.Files.Paths
import PageBuilder.Proofs.Files.Disks
import PageBuilder.Proofs.CommandLine.Inputs
import PageBuilder.Proofs.Text.Trimming
import PageBuilder.Proofs.Page.Directives
import PageBuilder.Proofs.Dom.Recursions
import PageBuilder.Proofs.Markup.Walks
import PageBuilder.Proofs.Dom.TextOrder
import PageBuilder.Proofs.Dom.Numbering
import PageBuilder.Proofs.Page.Vocabulary
