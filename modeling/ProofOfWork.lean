import ProofOfWork.Main
import ProofOfWork.Difficulty.Json
import ProofOfWork.Proofs.Difficulty.Target
import ProofOfWork.Proofs.Difficulty.Chain
import ProofOfWork.Proofs.Pool.Termination
import ProofOfWork.Proofs.Pool.FirstPass
import ProofOfWork.Proofs.Pool.Verdicts
import ProofOfWork.Proofs.Program.Confirmation
import ProofOfWork.Proofs.Program.Starting
import ProofOfWork.Proofs.Program.Totals
import ProofOfWork.Proofs.Difficulty.Shift
import ProofOfWork.Proofs.Search.Draws
import ProofOfWork.Proofs.Search.Operations
import ProofOfWork.Proofs.Search.Exhaustive
import ProofOfWork.Proofs.Search.FirstPass
import ProofOfWork.Proofs.Search.Stopping
import ProofOfWork.Proofs.Search.Thresholds
import ProofOfWork.Proofs.Report.Truncation
import ProofOfWork.Proofs.Bytes.HexDigits
import ProofOfWork.Proofs.Json.StringDocument
import ProofOfWork.Proofs.Difficulty.Texts
import ProofOfWork.Proofs.Difficulty.Repetition
import ProofOfWork.Proofs.Bytes.HexGrammar
import ProofOfWork.Proofs.Difficulty.Monotone
import ProofOfWork.Proofs.Text.Blank
import ProofOfWork.Proofs.CommandLine.Names
import ProofOfWork.Proofs.Bytes.HexSpelling
import ProofOfWork.Proofs.Difficulty.Reading
import ProofOfWork.Proofs.Difficulty.Count
import ProofOfWork.Proofs.Bytes.Bits
import ProofOfWork.Proofs.Bytes.Scan
import ProofOfWork.Proofs.Random.Keystream
import ProofOfWork.Proofs.Search.Nonces
import ProofOfWork.Proofs.Pool.Generators
import ProofOfWork.Proofs.Digest.Parts
