import Mips64Emulator.Shared.Pointer

set_option autoImplicit false

/-!
# The public types of `core.h`

A result of type `Option` is a C call that may touch memory outside an object: `none` is such an
access, `some` is the value returned with the objects the call wrote.
-/

namespace Mips64

inductive Status where
  | ok
  | invalidArgument
  | outOfMemory
  | addressOutOfRange
  | invalidRegister
  | unalignedPc
  | stepLimitReached
  | notImplemented
  | internalError
  | integerOverflow
  deriving DecidableEq, Repr

-- `other` is any value of the C enum that names neither byte order.
inductive Endian where
  | little
  | big
  | other
  deriving DecidableEq, Repr

inductive StopReason where
  | none
  | stopNotImplemented
  | notImplemented
  | stepLimit
  | overflow
  | error
  deriving DecidableEq, Repr

structure Config where
  memorySize : BitVec 64
  resetPc : BitVec 64
  endian : Endian
  clearMemoryOnReset : BitVec 32
  deriving DecidableEq, Repr

structure ProgramImage where
  data : Ptr (List (BitVec 8))
  size : BitVec 64
  loadAddress : BitVec 64
  entryPoint : BitVec 64
  setPcToEntry : BitVec 32
  deriving DecidableEq, Repr

structure StepInfo where
  pcBefore : BitVec 64
  pcAfter : BitVec 64
  instruction : BitVec 32
  stopReason : StopReason
  deriving DecidableEq, Repr

structure RunInfo where
  stepsExecuted : BitVec 64
  stepFinal : BitVec 64
  finalPc : BitVec 64
  stopReason : StopReason
  lastStatus : Status
  deriving DecidableEq, Repr

end Mips64
