import ClassLens.Code.Decode
import ClassLens.Flow.Graph
import ClassLens.Forest.Source
import ClassLens.Pattern.Builtin
import ClassLens.Context.Matches
import ClassLens.Report.Sarif
import ClassLens.Scan.Basic
import ClassLens.Command.Run
import ClassLens.Main
import ClassLens.Proofs.Forest.Assembly
import ClassLens.Proofs.Forest.Consumption
import ClassLens.Proofs.Forest.Flattening
import ClassLens.Proofs.Code.Boundaries
import ClassLens.Proofs.Code.BigEndian
import ClassLens.Proofs.Code.Written
import ClassLens.Proofs.Code.RoundTrip
import ClassLens.Proofs.Code.Agreement
import ClassLens.Proofs.Flow.Transfer
import ClassLens.Proofs.Flow.FallThrough
import ClassLens.Proofs.Context.Answers
import ClassLens.Proofs.Report.Results
import ClassLens.Proofs.Forest.Links
import ClassLens.Proofs.Forest.Supply
import ClassLens.Proofs.Forest.Outline
import ClassLens.Proofs.Forest.Wording
import ClassLens.Proofs.Pattern.Registration
import ClassLens.Proofs.Report.Accounts
import ClassLens.Proofs.Files.Listing
import ClassLens.Proofs.Forest.Rendering
import ClassLens.Proofs.Pattern.Signature
import ClassLens.Proofs.Archive.Relisting
import ClassLens.Proofs.Scan.Order
import ClassLens.Proofs.Scan.Artifacts
import ClassLens.Proofs.Code.Failure
import ClassLens.Proofs.Code.Relocation
import ClassLens.Proofs.Flow.Relabelling
import ClassLens.Proofs.Descriptor.Spelling
import ClassLens.Proofs.Context.Keys
import ClassLens.Proofs.Context.Callers
import ClassLens.Proofs.ClassFile.Methods
import ClassLens.Proofs.Forest.Indentation
import ClassLens.Proofs.Files.Writing
import ClassLens.Proofs.Forest.Fields
import ClassLens.Proofs.Command.Traces
