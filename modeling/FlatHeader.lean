import FlatHeader.Files.Host
import FlatHeader.Main
import FlatHeader.Proofs.Words
import FlatHeader.Proofs.Lines
import FlatHeader.Proofs.Tables
import FlatHeader.Proofs.Calls
import FlatHeader.Proofs.Runs
import FlatHeader.Proofs.Fixpoint
import FlatHeader.Proofs.Simultaneous
import FlatHeader.Proofs.Unfolding
import FlatHeader.Proofs.Markers
import FlatHeader.Proofs.Signatures
import FlatHeader.Proofs.LineSteps
import FlatHeader.Proofs.Bodies
import FlatHeader.Proofs.Backslashes
import FlatHeader.Proofs.Splicing
import FlatHeader.Proofs.Independence
import FlatHeader.Proofs.ArgumentLists
import FlatHeader.Proofs.Termination
import FlatHeader.Proofs.Rendering
import FlatHeader.Proofs.Concatenation
import FlatHeader.Proofs.Outcomes
import FlatHeader.Proofs.Stages
import FlatHeader.Proofs.MarkerPieces
import FlatHeader.Proofs.Gluing
import FlatHeader.Proofs.PlainCalls
import FlatHeader.Proofs.FlatTables
import FlatHeader.Proofs.Continuations
import FlatHeader.Proofs.Blocks
import FlatHeader.Proofs.Lockstep
import FlatHeader.Proofs.Relevance
import FlatHeader.Proofs.Renaming
import FlatHeader.Proofs.Offsets
import FlatHeader.Proofs.Scanning
import FlatHeader.Proofs.Reports
import FlatHeader.Proofs.DefinitionLines
import FlatHeader.Proofs.Files
import FlatHeader.Proofs.Running
import FlatHeader.Proofs.Indexing
import FlatHeader.Proofs.LeftToRight
import FlatHeader.Proofs.NormalForm
import FlatHeader.Proofs.WrittenCalls
import FlatHeader.Proofs.ContinuationModes
import FlatHeader.Proofs.KeptCharacters
import FlatHeader.Proofs.FaultLines
import FlatHeader.Proofs.ParameterLists
import FlatHeader.Proofs.Frame
import FlatHeader.Proofs.Exchanges
import FlatHeader.Proofs.WordOffsets
