import BitSchema.Loading.Codec
import BitSchema.Main
import BitSchema.Proofs.AfterFailure
import BitSchema.Proofs.CDeclarations
import BitSchema.Proofs.Checking
import BitSchema.Proofs.FalseAnnouncements
import BitSchema.Proofs.FieldOrder
import BitSchema.Proofs.ImportGraph
import BitSchema.Proofs.ImportedNames
import BitSchema.Proofs.JsonKeys
import BitSchema.Proofs.OlderVersions
import BitSchema.Proofs.PackingCopies
import BitSchema.Proofs.Qualifiers
import BitSchema.Proofs.Tiling
import BitSchema.Proofs.UnpackingCopies
import BitSchema.Proofs.WrittenStrings
import BitSchema.Report.Details
import BitSchema.Wording
