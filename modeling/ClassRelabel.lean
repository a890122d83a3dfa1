import ClassRelabel.Main
import ClassRelabel.Zip.Layout
import ClassRelabel.Proofs.Relabel.Frame
import ClassRelabel.Proofs.Relabel.Linking
import ClassRelabel.Proofs.Hierarchy.Result
import ClassRelabel.Proofs.ClassFile.Canonical
import ClassRelabel.Proofs.Pool.Representation
import ClassRelabel.Proofs.Pool.Trust
import ClassRelabel.Proofs.Signature.Renaming
import ClassRelabel.Proofs.Relabel.Declarations
import ClassRelabel.Proofs.Relabel.Variables
import ClassRelabel.Proofs.Naming.Used
import ClassRelabel.Proofs.Naming.History
import ClassRelabel.Proofs.Relabel.Distinct
import ClassRelabel.Proofs.Attribute.Payload
import ClassRelabel.Proofs.Descriptor.Spelling
import ClassRelabel.Proofs.Naming.Identity
import ClassRelabel.Proofs.Relabel.Identity
import ClassRelabel.Proofs.Archive.Contents
import ClassRelabel.Proofs.Archive.Canonical
import ClassRelabel.Proofs.Archive.Reproducible
import ClassRelabel.Proofs.Hierarchy.Extension
import ClassRelabel.Proofs.Archive.Permuted
import ClassRelabel.Proofs.Mapping.Format
import ClassRelabel.Proofs.Descriptor.Grammar
import ClassRelabel.Proofs.Naming.Class
import ClassRelabel.Proofs.Relabel.Slots
import ClassRelabel.Proofs.Relabel.SimpleNames
import ClassRelabel.Proofs.Relabel.ParameterNames
import ClassRelabel.Proofs.Relabel.Receiver
import ClassRelabel.Proofs.Signature.Erasure
import ClassRelabel.Proofs.Text.Sequences
import ClassRelabel.Proofs.Dictionary.Reading
import ClassRelabel.Proofs.Dictionary.Replacement
import ClassRelabel.Proofs.Dictionary.Words
import ClassRelabel.Proofs.Mapping.Faults
import ClassRelabel.Proofs.Archive.ClassPath
