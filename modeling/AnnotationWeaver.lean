import AnnotationWeaver.Report.Build
import AnnotationWeaver.Report.Declaration
import AnnotationWeaver.Report.Edits
import AnnotationWeaver.Report.Literal
import AnnotationWeaver.Script.Action
import AnnotationWeaver.Wire.Decode
import AnnotationWeaver.Proofs.Sameness
import AnnotationWeaver.Proofs.Ancestry
import AnnotationWeaver.Proofs.Lists
import AnnotationWeaver.Proofs.Seeding
import AnnotationWeaver.Proofs.ReadPaths
import AnnotationWeaver.Proofs.Replay
import AnnotationWeaver.Proofs.EditRuns
import AnnotationWeaver.Proofs.ClassQueries
import AnnotationWeaver.Proofs.Queries
import AnnotationWeaver.Proofs.Compilations
import AnnotationWeaver.Proofs.Sharing
import AnnotationWeaver.Proofs.Freezing
import AnnotationWeaver.Proofs.CanonicalText
import AnnotationWeaver.Proofs.CompilerRuns
import AnnotationWeaver.Proofs.StaticReads
import AnnotationWeaver.Proofs.Held
import AnnotationWeaver.Proofs.Termination
import AnnotationWeaver.Proofs.SharedNames
import AnnotationWeaver.Proofs.QualifierRuns
import AnnotationWeaver.Proofs.TraceRuns
import AnnotationWeaver.Proofs.BuildOutput
import AnnotationWeaver.Proofs.LinkClosure
import AnnotationWeaver.Proofs.OneOffNames
import AnnotationWeaver.Proofs.Decimals
import AnnotationWeaver.Proofs.FloatTexts
import AnnotationWeaver.Proofs.EscapedTexts
import AnnotationWeaver.Proofs.LegibleWords
import AnnotationWeaver.Proofs.LegibleTexts
import AnnotationWeaver.Proofs.OneOffClasses
import AnnotationWeaver.Proofs.Lifecycle
import AnnotationWeaver.Proofs.Conformance
import AnnotationWeaver.Proofs.EffectiveValues
import AnnotationWeaver.Proofs.Faithfulness
import AnnotationWeaver.Proofs.AlikeRuns
import AnnotationWeaver.Proofs.Restatements
import AnnotationWeaver.Proofs.Independence
import AnnotationWeaver.Proofs.Arguments
import AnnotationWeaver.Proofs.Matches
import AnnotationWeaver.Proofs.Agendas
import AnnotationWeaver.Proofs.AgendaRuns
import AnnotationWeaver.Proofs.RunOrder
import AnnotationWeaver.Proofs.ReportedMessages
import AnnotationWeaver.Proofs.Planning
import AnnotationWeaver.Proofs.Inventory
import AnnotationWeaver.Proofs.JsonTexts
import AnnotationWeaver.Proofs.WireForms
import AnnotationWeaver.Proofs.RoundTrips
import AnnotationWeaver.Proofs.Inheritance
import AnnotationWeaver.Proofs.History
import AnnotationWeaver.Proofs.Starts
import AnnotationWeaver.Proofs.SharedClasses
import AnnotationWeaver.Proofs.FieldNames
import AnnotationWeaver.Proofs.GeneratedNames
import AnnotationWeaver.Proofs.Components
import AnnotationWeaver.Proofs.Packages
import AnnotationWeaver.Proofs.SuperclassChains
import AnnotationWeaver.Annotation.Hashing
import AnnotationWeaver.Proofs.Arrangement
import AnnotationWeaver.Proofs.Hashes
import AnnotationWeaver.Proofs.Homogeneity
