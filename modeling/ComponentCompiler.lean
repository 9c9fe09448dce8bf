import ComponentCompiler.Main
import ComponentCompiler.Proofs.Markup
import ComponentCompiler.Proofs.ModuleDecoding
import ComponentCompiler.Template.Render
import ComponentCompiler.Proofs.DocumentDecoding
import ComponentCompiler.Proofs.TemplateLexing
import ComponentCompiler.Proofs.Bytes
import ComponentCompiler.Proofs.DiscoveryOrder
import ComponentCompiler.Proofs.DiskWriting
import ComponentCompiler.Proofs.RunRefinement
import ComponentCompiler.Proofs.SectionLayout
import ComponentCompiler.Proofs.RunOutcomes
import ComponentCompiler.Proofs.RunLifecycle
import ComponentCompiler.Proofs.DiskFrame
import ComponentCompiler.Proofs.RunFrame
import ComponentCompiler.Proofs.ScriptRendering
import ComponentCompiler.Proofs.PathPieces
import ComponentCompiler.Proofs.Registration
import ComponentCompiler.Proofs.DiskRewriting
import ComponentCompiler.Proofs.RunRepetition
import ComponentCompiler.Proofs.ScriptClosing
import ComponentCompiler.Proofs.RunFailures
import ComponentCompiler.Proofs.CommandLineExits
import ComponentCompiler.Proofs.SectionSearch
import ComponentCompiler.Proofs.PropDependence
import ComponentCompiler.Proofs.TemplatePrinting
import ComponentCompiler.Proofs.TemplateComposition
import ComponentCompiler.Proofs.LiteralReading
import ComponentCompiler.Proofs.CanonicalOrder
import ComponentCompiler.Proofs.JsonGrammar
import ComponentCompiler.Proofs.KeyedPairs
import ComponentCompiler.Proofs.FileText
import ComponentCompiler.Proofs.JsonLayout
import ComponentCompiler.Proofs.SettingsChecking
import ComponentCompiler.Proofs.SettingsRoundTrip
import ComponentCompiler.Proofs.SourceReading
import ComponentCompiler.Proofs.LineEndings
import ComponentCompiler.Proofs.RunTrace
import ComponentCompiler.Proofs.Reregistration
import ComponentCompiler.Proofs.ScriptLibrary
import ComponentCompiler.Proofs.Traversal
