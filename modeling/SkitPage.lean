import SkitPage.Build.Compiler
import SkitPage.Name.Table
import SkitPage.Storage.Disk
import SkitPage.Storage.Memory
import SkitPage.Toolchain.Rehearsal
import SkitPage.Proofs.Names
import SkitPage.Proofs.RuleText
import SkitPage.Proofs.FragmentText
import SkitPage.Proofs.Cascade
import SkitPage.Proofs.Display
import SkitPage.Proofs.Faults
import SkitPage.Proofs.Navigation
import SkitPage.Proofs.Activation
import SkitPage.Proofs.Visibility
import SkitPage.Proofs.Maps
import SkitPage.Proofs.Ways
import SkitPage.Proofs.Confinement
import SkitPage.Proofs.StorageLaws
import SkitPage.Proofs.Stages
import SkitPage.Proofs.BuildState
import SkitPage.Proofs.Incremental
import SkitPage.Proofs.RichText
import SkitPage.Proofs.Mentions
import SkitPage.Proofs.DenseNames
import SkitPage.Proofs.Atomicity
import SkitPage.Proofs.Work
import SkitPage.Proofs.Animation
import SkitPage.Proofs.Renaming
import SkitPage.Proofs.Discovery
import SkitPage.Proofs.JsonText
import SkitPage.Proofs.ScriptForms
import SkitPage.Proofs.Lexemes
import SkitPage.Proofs.AttributeForms
import SkitPage.Proofs.Documents
import SkitPage.Proofs.ByteOrderMark
import SkitPage.Proofs.RootAttributes
import SkitPage.Proofs.Findings
import SkitPage.Proofs.Refusals
import SkitPage.Proofs.RelevantChanges
import SkitPage.Proofs.LoadOrder
import SkitPage.Proofs.NameOrder
import SkitPage.Proofs.RunBoundaries
import SkitPage.Proofs.ByteOrder
import SkitPage.Proofs.Speakers
import SkitPage.Proofs.RenderedPages
import SkitPage.Proofs.ClosedRules
import SkitPage.Proofs.TrailingText
import SkitPage.Proofs.LookUps
import SkitPage.Proofs.KeyCount
