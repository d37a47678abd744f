import SdcProbe.XorMultiplyHash
import SdcProbe.WordMixing
import SdcProbe.CheckedBuffer
import SdcProbe.FuelLoop
import SdcProbe.SetBits
import SdcProbe.ByteMemory
import SdcProbe.CNumeral
import SdcProbe.TextFields
import SdcProbe.Occurrences
import SdcProbe.Exploration
import SdcProbe.Fnv1a
import SdcProbe.SampleStream
import SdcProbe.LaneSequence
import SdcProbe.ComputeRows
import SdcProbe.LatticeHash
import SdcProbe.ReverseFnv
import SdcProbe.ReverseAnalysis
import SdcProbe.Report
import SdcProbe.Environment
import SdcProbe.TimedRun
import SdcProbe.ChRun
import SdcProbe.PopcountDiagnosis
import SdcProbe.PayloadCall
import SdcProbe.Arena
import SdcProbe.ArenaContents
import SdcProbe.FaultCapture
import SdcProbe.RbxRun
import SdcProbe.CaptureProtocol
import SdcProbe.Detection
import SdcProbe.CoreSweep
import SdcProbe.Calibration
import SdcProbe.SweepAccounts
import SdcProbe.SweepInvariant
import SdcProbe.SweepTotals
import SdcProbe.Verdict
import SdcProbe.VerdictSoundness
import SdcProbe.InterruptedSweep
import SdcProbe.CleanSweep
import SdcProbe.AnswerText
import SdcProbe.CpuSelection
import SdcProbe.SelectionGrammar
import SdcProbe.Separators
import SdcProbe.CpuList
import SdcProbe.CommandLine
import SdcProbe.OptionValues
import SdcProbe.Prompts
import SdcProbe.PromptLines
import SdcProbe.Disassembly
import SdcProbe.SymbolTable
import SdcProbe.AssemblerText
import SdcProbe.Relocation
import SdcProbe.CallGraph
import SdcProbe.ClosureInvariant
import SdcProbe.References
import SdcProbe.ClosureExactness
import SdcProbe.Layout
import SdcProbe.Emission
import SdcProbe.MemsetCode
import SdcProbe.FunctionTable
import SdcProbe.PageOffsets
import SdcProbe.BranchTargets
import SdcProbe.ArenaMapping
import SdcProbe.LogOutput
import SdcProbe.InstructionBytes
import SdcProbe.MemsetRun
import SdcProbe.MemsetInject
import SdcProbe.InstructionShape
import SdcProbe.Lockstep
import SdcProbe.ControlFlow
import SdcProbe.Generator
import SdcProbe.TransplantedBytes
import SdcProbe.TrapStubs
import SdcProbe.PayloadFlow
import SdcProbe.FunctionLookup
import SdcProbe.SectionLabels
import SdcProbe.NameText
import SdcProbe.FaultNames
import SdcProbe.SelfTest
import SdcProbe.RbxSelfTest
import SdcProbe.Processors
import SdcProbe.CoreStays
import SdcProbe.Questions
import SdcProbe.Durations
import SdcProbe.Throttle
import SdcProbe.ProgressLines
import SdcProbe.Program
import SdcProbe.Evidence
