import MiniC.Main
import MiniC.Proofs.Acceptance
import MiniC.Proofs.Checking.Scopes
import MiniC.Proofs.Lexing.RoundTrip
import MiniC.Proofs.Expression.Inference
import MiniC.Proofs.Expression.Derived
import MiniC.Proofs.Names.Resolution
import MiniC.Proofs.Lexing.Lines
import MiniC.Proofs.Editing.Layout
import MiniC.Proofs.Editing.Renaming
import MiniC.Proofs.Types.Resolved
import MiniC.Proofs.Collecting
import MiniC.Proofs.Names.Writes
import MiniC.Proofs.Ending.Mark
import MiniC.Proofs.Prolonging.Programs
import MiniC.Proofs.Recovery
import MiniC.Proofs.Expression.Places
import MiniC.Proofs.Expression.Unknown
import MiniC.Proofs.Exits
import MiniC.Proofs.Expression.Pointers
import MiniC.Proofs.Storing
import MiniC.Proofs.Names.Constants
import MiniC.Proofs.Types.Voids
import MiniC.Proofs.Labels
import MiniC.Proofs.Formats.Calls
import MiniC.Proofs.Formats.Documented
import MiniC.Proofs.Expression.Arithmetic
import MiniC.Proofs.Symbols.Functions
import MiniC.Proofs.Symbols.Shadowing
import MiniC.Proofs.Symbols.Structs
import MiniC.Proofs.Types.Compatibility
import MiniC.Proofs.CommandLine
import MiniC.Proofs.Lexing.Munch
import MiniC.Proofs.Types.Printing
import MiniC.Proofs.Headers.Foreseen
