import IPPcode24.Main
import IPPcode24.Proofs.AlphaEquivalence
import IPPcode24.Proofs.BoundedOutput
import IPPcode24.Proofs.Building
import IPPcode24.Proofs.CallMatching
import IPPcode24.Proofs.CharacterCells
import IPPcode24.Proofs.CodeLayout
import IPPcode24.Proofs.CommandAgreement
import IPPcode24.Proofs.Comparisons
import IPPcode24.Proofs.Computations
import IPPcode24.Proofs.ControlFlow
import IPPcode24.Proofs.Crashes
import IPPcode24.Proofs.Equality
import IPPcode24.Proofs.Escapes
import IPPcode24.Proofs.EventLogs
import IPPcode24.Proofs.FrameIdentity
import IPPcode24.Proofs.Grammar
import IPPcode24.Proofs.HexadecimalFloats
import IPPcode24.Proofs.IdleInstructions
import IPPcode24.Proofs.InputLocality
import IPPcode24.Proofs.IntegerArithmetic
import IPPcode24.Proofs.IntegerGrammar
import IPPcode24.Proofs.IntegerParts
import IPPcode24.Proofs.LineRoundTrip
import IPPcode24.Proofs.LiteralAgreement
import IPPcode24.Proofs.LocalFrames
import IPPcode24.Proofs.MisleadingLines
import IPPcode24.Proofs.OrderKeys
import IPPcode24.Proofs.Precedence
import IPPcode24.Proofs.Rebuilding
import IPPcode24.Proofs.Relocation
import IPPcode24.Proofs.Restarts
import IPPcode24.Proofs.RoundTrip
import IPPcode24.Proofs.Soundness
import IPPcode24.Proofs.SourceEdits
import IPPcode24.Proofs.StackFamily
import IPPcode24.Proofs.SuccessiveReads
import IPPcode24.Proofs.SurplusOperands
import IPPcode24.Proofs.UnvisitedCode
import IPPcode24.Proofs.VariableEffects
