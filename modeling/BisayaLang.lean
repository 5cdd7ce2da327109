import BisayaLang.Main
import BisayaLang.Proofs.Canonical.RoundTrip
import BisayaLang.Proofs.Execution.Typing
import BisayaLang.Report.Outbox
import BisayaLang.Run.Session
import BisayaLang.Proofs.Source.Slice
import BisayaLang.Proofs.Token.Tiling
import BisayaLang.Proofs.Token.Faults
import BisayaLang.Source.Feed
import BisayaLang.Token.Window
import BisayaLang.Proofs.Source.Utf8
import BisayaLang.Proofs.Token.Viewing
import BisayaLang.Proofs.Run.Streaming
import BisayaLang.Proofs.Grammar.Placement
import BisayaLang.Proofs.Grammar.ErrorSpans
import BisayaLang.Proofs.Execution.Blame
import BisayaLang.Proofs.Report.Spans
import BisayaLang.Proofs.Grammar.Splice
import BisayaLang.Proofs.Grammar.Relocation
import BisayaLang.Proofs.Grammar.Sequence
import BisayaLang.Proofs.Grammar.Completion
import BisayaLang.Proofs.Grammar.Repair
import BisayaLang.Proofs.Grammar.Viability
import BisayaLang.Proofs.Grammar.Prefixes
import BisayaLang.Proofs.Execution.Lockstep
import BisayaLang.Proofs.Execution.Sinks
import BisayaLang.Proofs.Execution.Causality
import BisayaLang.Proofs.Execution.Translation
import BisayaLang.Proofs.Execution.Locality
import BisayaLang.Proofs.Execution.Renaming
import BisayaLang.Proofs.Execution.Declarations
import BisayaLang.Proofs.Run.Trailing
import BisayaLang.Proofs.Run.Unreadable
import BisayaLang.Proofs.Execution.Evaluators
import BisayaLang.Proofs.Grammar.Drafts
import BisayaLang.Proofs.Execution.Calls
import BisayaLang.Proofs.Execution.Comparisons
import BisayaLang.Proofs.Canonical.Respelling
import BisayaLang.Proofs.Execution.Chains
import BisayaLang.Proofs.Execution.Printing
import BisayaLang.Proofs.Execution.ReadBack
import BisayaLang.Proofs.Grammar.Escapes
import BisayaLang.Proofs.Token.Quotes
import BisayaLang.Proofs.Grammar.Balance
import BisayaLang.Proofs.Number.Integers
import BisayaLang.Proofs.Execution.Fuel
import BisayaLang.Proofs.Execution.Untouched
import BisayaLang.Proofs.Execution.Counting
