import DocAtlas.Main
import DocAtlas.Proofs.Comment.Lookahead
import DocAtlas.Proofs.Entry.Summary
import DocAtlas.Proofs.Model.Account
import DocAtlas.Proofs.Model.Ambiguity
import DocAtlas.Proofs.Model.Extension
import DocAtlas.Proofs.Model.Linking
import DocAtlas.Proofs.Model.Outcome
import DocAtlas.Proofs.Model.Redundancy
import DocAtlas.Proofs.Model.References
import DocAtlas.Proofs.Model.Reordering
import DocAtlas.Proofs.Model.Tags
import DocAtlas.Proofs.Model.Topics
import DocAtlas.Proofs.Resolution.Iteration
import DocAtlas.Proofs.Resolution.Repetition
import DocAtlas.Proofs.Tag.Code
import DocAtlas.Proofs.Tag.Division
import DocAtlas.Proofs.Tag.Indentation
import DocAtlas.Proofs.Tag.Lines
import DocAtlas.Proofs.Tag.Attribution
import DocAtlas.Proofs.Tag.NameList
import DocAtlas.Proofs.Name.Spelling
import DocAtlas.Proofs.Name.Signature
import DocAtlas.Proofs.Name.Agreement
import DocAtlas.Proofs.Segment.Inline
import DocAtlas.Proofs.Segment.Opaque
import DocAtlas.Proofs.Segment.Paragraph
import DocAtlas.Proofs.Segment.Reference
import DocAtlas.Proofs.Service
import DocAtlas.Proofs.Loading
import DocAtlas.Proofs.Symbol.Table
import DocAtlas.Proofs.Binding.Unlisted
import DocAtlas.Proofs.Project.Selection
import DocAtlas.Proofs.Comment.Markers
import DocAtlas.Proofs.Comment.Removal
import DocAtlas.Proofs.Model.Addresses
import DocAtlas.Proofs.Shape
