import FoldTape.Listing.Reader
import FoldTape.Machine.Session
import FoldTape.Machine.Step
import FoldTape.Main
import FoldTape.Render
import FoldTape.Walk
import FoldTape.Proofs.Diagnostics
import FoldTape.Proofs.Folding.Acceptance
import FoldTape.Proofs.Folding.Concatenation
import FoldTape.Proofs.Folding.Inverse
import FoldTape.Proofs.Folding.Reuse
import FoldTape.Proofs.Machine.CutOff
import FoldTape.Proofs.Machine.EndOfInput
import FoldTape.Proofs.Machine.Extension
import FoldTape.Proofs.Machine.Failures
import FoldTape.Proofs.Machine.History
import FoldTape.Proofs.Machine.Interchange
import FoldTape.Proofs.Machine.Joining
import FoldTape.Proofs.Machine.Limits
import FoldTape.Proofs.Machine.LoopConditions
import FoldTape.Proofs.Machine.Relocation
import FoldTape.Proofs.Machine.Safety
import FoldTape.Proofs.Machine.TapeLength
import FoldTape.Proofs.Machine.Termination
import FoldTape.Proofs.Machine.UnreadInput
import FoldTape.Proofs.Walk.Simulation
import FoldTape.Proofs.CommandLine.Arguments
import FoldTape.Proofs.CommandLine.Agreement
import FoldTape.Proofs.Readings
import FoldTape.Proofs.Listing
import FoldTape.Proofs.Machine.Refusal
import FoldTape.Proofs.Machine.FoldedArithmetic
import FoldTape.Proofs.Machine.Opcodes
import FoldTape.Proofs.Machine.Resumption
