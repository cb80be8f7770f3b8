import Logo.Grammar.Bound
import Logo.Main
import Logo.Outline
import Logo.Proofs.Known
import Logo.Proofs.Calls
import Logo.Proofs.Contract
import Logo.Proofs.Session
import Logo.Proofs.Frame
import Logo.Proofs.SourceOrder
import Logo.Proofs.Arity
import Logo.Proofs.Resolution
import Logo.Proofs.Steps
import Logo.Proofs.Attempt
import Logo.Proofs.Termination
import Logo.Proofs.Writing
import Logo.Proofs.Soundness
import Logo.Proofs.Spelling
import Logo.Proofs.Completion
import Logo.Proofs.Lookahead
import Logo.Proofs.Parts
import Logo.Proofs.RoundTrip
import Logo.Proofs.FirstError
import Logo.Proofs.Raising
import Logo.Proofs.Points
import Logo.Proofs.Plans
import Logo.Proofs.Drawing
import Logo.Proofs.Reparsing
import Logo.Proofs.Lines
import Logo.Proofs.Places
import Logo.Proofs.Joining
import Logo.Proofs.Lexing
import Logo.Proofs.Tiling
import Logo.Proofs.Respelling
import Logo.Proofs.Asking
import Logo.Proofs.Scripted
import Logo.Proofs.Conversation
import Logo.Proofs.Svg
import Logo.Proofs.Strokes
import Logo.Proofs.Unrolling
import Logo.Proofs.Endings
import Logo.Proofs.Arithmetic
import Logo.Proofs.Operands
import Logo.Proofs.Headings
import Logo.Proofs.Conditions
import Logo.Proofs.Moments
import Logo.Proofs.Depth
import Logo.Proofs.Reserved
import Logo.Proofs.Stacking
import Logo.Proofs.Numerals
import Logo.Proofs.OnDemand
import Logo.Proofs.Pulling
import Logo.Proofs.Feeding
import Logo.Proofs.Sparing
