import Markflow.CommandLine.Verbosity
import Markflow.Main
import Markflow.Proofs.Document.BlockConversion
import Markflow.Proofs.Document.InlineConversion
import Markflow.Proofs.Registry.WellFormed
import Markflow.Proofs.Registry.Placement
import Markflow.Proofs.Registry.Erasure
import Markflow.Proofs.Pipeline.Reentry
import Markflow.Proofs.Config.Disabling
import Markflow.Proofs.Document.EmittedCode
import Markflow.Proofs.Pattern.Letters
import Markflow.Proofs.Document.BlockHtml
import Markflow.Proofs.Document.BlockTags
import Markflow.Proofs.Document.Elements
import Markflow.Proofs.Registry.Refusal
import Markflow.Proofs.Pipeline.Splicing
import Markflow.Proofs.Builtin.Totality
import Markflow.Proofs.CommandLine.Exit
import Markflow.Proofs.Scans.Fences
import Markflow.Proofs.Scans.CodeSpans
import Markflow.Proofs.Scans.Paragraphs
import Markflow.Proofs.Pattern.Spelling
import Markflow.Proofs.Escape.Decoding
import Markflow.Proofs.Scans.Lists
import Markflow.Proofs.Scans.Headers
import Markflow.Proofs.Passes.Separation
import Markflow.Proofs.Config.Discovery
import Markflow.Proofs.Passes.Returns
import Markflow.Proofs.Pipeline.Calls
import Markflow.Proofs.Pattern.Compilation
import Markflow.Proofs.Definition.Overriding
import Markflow.Proofs.Captures.Record
import Markflow.Proofs.Pipeline.Stages
import Markflow.Proofs.Passes.Locality
import Markflow.Proofs.Pattern.Substitution
import Markflow.Proofs.Pattern.Denotation
