import Mips64Emulator.Api.InstructionFetch
import Mips64Emulator.Api.MachineReset
import Mips64Emulator.Api.ProgramLoad
import Mips64Emulator.Api.RegisterApi
import Mips64Emulator.Guest.EndianSwizzle
import Mips64Emulator.Guest.MemoryRefinement
import Mips64Emulator.Isa.Architecture
import Mips64Emulator.Isa.RegisterHistory
import Mips64Emulator.Loader.ElfAcceptance
import Mips64Emulator.Api.StepAccounting
import Mips64Emulator.Guest.MemoryReset
import Mips64Emulator.Api.MemoryWrites
import Mips64Emulator.Api.StopReports
import Mips64Emulator.Isa.DecodeFormats
import Mips64Emulator.Isa.Reordering
import Mips64Emulator.Isa.WordAddition
import Mips64Emulator.X86.Format
import Mips64Emulator.X86.Machine
import Mips64Emulator.Jit.Encoder
import Mips64Emulator.Jit.RegisterEffects
import Mips64Emulator.Jit.Emitter
import Mips64Emulator.Jit.LinkTables
import Mips64Emulator.Jit.ThreeRegister
import Mips64Emulator.Jit.ZeroRegister
import Mips64Emulator.Loader.ByteReaders
import Mips64Emulator.Loader.HeaderLayout
import Mips64Emulator.Api.BoundsChecks
import Mips64Emulator.Loader.SymbolHash
import Mips64Emulator.Jit.Branches
import Mips64Emulator.Jit.SavedRegister
import Mips64Emulator.Jit.ShiftByRegister
import Mips64Emulator.Jit.ImmediateForms
import Mips64Emulator.Jit.Division
import Mips64Emulator.X86.DecodeSound
import Mips64Emulator.X86.Reading
import Mips64Emulator.Jit.MemoryForms
import Mips64Emulator.Jit.StreamDecoding
import Mips64Emulator.Jit.MemoryOperations
import Mips64Emulator.Jit.OperandForms
import Mips64Emulator.Jit.LoadedCode
import Mips64Emulator.Jit.LoadedTransfers
import Mips64Emulator.Jit.Programs
import Mips64Emulator.Jit.ProgramSimulation
import Mips64Emulator.Jit.ProgramRuns
import Mips64Emulator.X86.Vector
import Mips64Emulator.Jit.FloatOperations
import Mips64Emulator.Api.Host
import Mips64Emulator.Api.HostRuns
import Mips64Emulator.Api.DebugDump
import Mips64Emulator.Api.AbstractMachine
import Mips64Emulator.Api.Observations
import Mips64Emulator.Isa.Streams
import Mips64Emulator.Guest.MemoryLifecycle
import Mips64Emulator.Isa.CpuLifecycle
import Mips64Emulator.Jit.CallingConvention
