import ClassFile.AccessFlags
import ClassFile.Assembly
import ClassFile.Descriptor
import ClassFile.Descriptor.Reader
import ClassFile.Holder
import ClassFile.Occurrence
import ClassFile.Opcode
import ClassFile.Script.Normal
import ClassFile.Script.Relabelling
import ClassFile.Session
import ClassFile.Slot
import ClassFile.SourceMap
import ClassFile.SourceMap.Reader
import ClassFile.Tree.Census
import ClassFile.Tree.Lookup
import ClassFile.Tree.WellPlaced
import ClassFile.Proofs.Destination
import ClassFile.Proofs.LexicalRule
import ClassFile.Proofs.Trails
import ClassFile.Proofs.Kept
import ClassFile.Proofs.WellPlaced
import ClassFile.Proofs.Conformance
import ClassFile.Proofs.Reported
import ClassFile.Proofs.History
import ClassFile.Proofs.Independence
import ClassFile.Proofs.Coherence
import ClassFile.Proofs.Parts
import ClassFile.Proofs.Payloads
import ClassFile.Proofs.Descriptors
import ClassFile.Proofs.Numerals
import ClassFile.Proofs.SourceMaps
import ClassFile.Proofs.NormalForms
import ClassFile.Proofs.Reordering
import ClassFile.Proofs.TrailSetting
import ClassFile.Proofs.Retries
import ClassFile.Proofs.Attaching
import ClassFile.Proofs.Names
import ClassFile.Proofs.Messages
import ClassFile.Proofs.Conservation
