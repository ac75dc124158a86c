import Mathlib.Logic.Function.Basic
import Mips64Emulator.Core.Types

set_option autoImplicit false

namespace Mips64

def maxSize : Nat := 64 * 1024 * 1024

def uint64Max : BitVec 64 := 0xFFFFFFFFFFFFFFFF

structure Memory where
  memory : Fin maxSize → BitVec 8
  endian : Endian

inductive MemoryStatus where
  | ok
  | nullPointer
  | outOfBounds
  | misaligned
  deriving DecidableEq, Repr

def Memory.load (mem : Memory) (address : BitVec 64) : Option (BitVec 8) :=
  if bound : address.toNat < maxSize then some (mem.memory ⟨address.toNat, bound⟩) else none

def Memory.store (mem : Memory) (address : BitVec 64) (value : BitVec 8) : Option Memory :=
  if bound : address.toNat < maxSize then
    some { mem with memory := Function.update mem.memory ⟨address.toNat, bound⟩ value }
  else none

-- `memory` is the first member and the enum behind it starts at `maxSize`, a multiple of four.
def sizeOfMemory : Nat := maxSize + 4

-- `memset(mem->memory, 0, count)`: the bytes of the array, then those of the enum.
def Memory.memset (mem : Memory) (count : Nat) : Memory :=
  { memory := fun index => if index < count then 0 else mem.memory index
    endian := if maxSize + 4 ≤ count then .little else mem.endian }

def boundChecking (address dataSize : BitVec 64) : Bool :=
  if dataSize = 0 then false
  else if address > uint64Max - dataSize then false
  else if address + dataSize > BitVec.ofNat 64 maxSize then false
  else true

def alignmentChecking (address dataSize : BitVec 64) : Bool :=
  if dataSize = 1 then true
  else if dataSize = 2 then address &&& 0x1 = 0
  else if dataSize = 4 then address &&& 0x3 = 0
  else if dataSize = 8 then address &&& 0x7 = 0
  else false

def memoryInit (mem : Ptr Memory) (endian : Endian) : MemoryStatus × Ptr Memory :=
  match mem with
  | .null => (.nullPointer, .null)
  | .ref mem => (.ok, .ref { mem.memset sizeOfMemory with endian := endian })

def memoryReset (mem : Ptr Memory) : MemoryStatus × Ptr Memory :=
  match mem with
  | .null => (.nullPointer, .null)
  | .ref mem => (.ok, .ref (mem.memset sizeOfMemory))

def memoryRead8 (mem : Ptr Memory) (address : BitVec 64) (outValue : Ptr (BitVec 8)) :
    Option (MemoryStatus × Ptr (BitVec 8)) :=
  match mem, outValue with
  | .ref mem, .ref _ =>
    if !boundChecking address 1 then some (.outOfBounds, outValue)
    else do
      let byte ← mem.load address
      some (.ok, .ref byte)
  | _, _ => some (.nullPointer, outValue)

def memoryRead16 (mem : Ptr Memory) (address : BitVec 64) (outValue : Ptr (BitVec 16)) :
    Option (MemoryStatus × Ptr (BitVec 16)) :=
  match mem, outValue with
  | .ref mem, .ref _ =>
    if !boundChecking address 2 then some (.outOfBounds, outValue)
    else if !alignmentChecking address 2 then some (.misaligned, outValue)
    else if mem.endian = .little then do
      let byte0 ← mem.load address
      let byte1 ← mem.load (address + 1)
      some (.ok, .ref (byte0.setWidth 16 ||| byte1.setWidth 16 <<< 8))
    else do
      let byte0 ← mem.load address
      let byte1 ← mem.load (address + 1)
      some (.ok, .ref (byte0.setWidth 16 <<< 8 ||| byte1.setWidth 16))
  | _, _ => some (.nullPointer, outValue)

def memoryRead32 (mem : Ptr Memory) (address : BitVec 64) (outValue : Ptr (BitVec 32)) :
    Option (MemoryStatus × Ptr (BitVec 32)) :=
  match mem, outValue with
  | .ref mem, .ref _ =>
    if !boundChecking address 4 then some (.outOfBounds, outValue)
    else if !alignmentChecking address 4 then some (.misaligned, outValue)
    else if mem.endian = .little then do
      let byte0 ← mem.load address
      let byte1 ← mem.load (address + 1)
      let byte2 ← mem.load (address + 2)
      let byte3 ← mem.load (address + 3)
      some (.ok, .ref (byte0.setWidth 32 ||| byte1.setWidth 32 <<< 8 |||
        byte2.setWidth 32 <<< 16 ||| byte3.setWidth 32 <<< 24))
    else do
      let byte0 ← mem.load address
      let byte1 ← mem.load (address + 1)
      let byte2 ← mem.load (address + 2)
      let byte3 ← mem.load (address + 3)
      some (.ok, .ref (byte0.setWidth 32 <<< 24 ||| byte1.setWidth 32 <<< 16 |||
        byte2.setWidth 32 <<< 8 ||| byte3.setWidth 32))
  | _, _ => some (.nullPointer, outValue)

-- `for (i = 0; i < 8; ++i) value |= (uint64_t)mem->memory[address + i] << shift(i);`
def Memory.readLoop (mem : Memory) (address : BitVec 64) (shift : Nat → Nat) :
    Option (BitVec 64) :=
  (List.range 8).foldlM (fun value i => do
    let byte ← mem.load (address + BitVec.ofNat 64 i)
    some (value ||| byte.setWidth 64 <<< shift i)) 0#64

def memoryRead64 (mem : Ptr Memory) (address : BitVec 64) (outValue : Ptr (BitVec 64)) :
    Option (MemoryStatus × Ptr (BitVec 64)) :=
  match mem, outValue with
  | .ref mem, .ref _ =>
    if !boundChecking address 8 then some (.outOfBounds, outValue)
    else if !alignmentChecking address 8 then some (.misaligned, outValue)
    else if mem.endian = .little then do
      let value ← mem.readLoop address fun i => i * 8
      some (.ok, .ref value)
    else do
      let value ← mem.readLoop address fun i => (7 - i) * 8
      some (.ok, .ref value)
  | _, _ => some (.nullPointer, outValue)

def memoryWrite8 (mem : Ptr Memory) (address : BitVec 64) (value : BitVec 8) :
    Option (MemoryStatus × Ptr Memory) :=
  match mem with
  | .null => some (.nullPointer, .null)
  | .ref mem =>
    if !boundChecking address 1 then some (.outOfBounds, .ref mem)
    else do
      let mem ← mem.store address value
      some (.ok, .ref mem)

def memoryWrite16 (mem : Ptr Memory) (address : BitVec 64) (value : BitVec 16) :
    Option (MemoryStatus × Ptr Memory) :=
  match mem with
  | .null => some (.nullPointer, .null)
  | .ref mem =>
    if !boundChecking address 2 then some (.outOfBounds, .ref mem)
    else if !alignmentChecking address 2 then some (.misaligned, .ref mem)
    else if mem.endian = .little then do
      let mem ← mem.store address ((value &&& 0x00FF).setWidth 8)
      let mem ← mem.store (address + 1) ((value >>> 8 &&& 0x00FF).setWidth 8)
      some (.ok, .ref mem)
    else do
      let mem ← mem.store address ((value >>> 8 &&& 0x00FF).setWidth 8)
      let mem ← mem.store (address + 1) ((value &&& 0x00FF).setWidth 8)
      some (.ok, .ref mem)

-- `(uint16_t)(value & 0xFF)` narrowed again by the store into a byte.
def maskedByte (value : BitVec 32) : BitVec 8 := ((value &&& 0x000000FF).setWidth 16).setWidth 8

def memoryWrite32 (mem : Ptr Memory) (address : BitVec 64) (value : BitVec 32) :
    Option (MemoryStatus × Ptr Memory) :=
  match mem with
  | .null => some (.nullPointer, .null)
  | .ref mem =>
    if !boundChecking address 4 then some (.outOfBounds, .ref mem)
    else if !alignmentChecking address 4 then some (.misaligned, .ref mem)
    else if mem.endian = .little then do
      let mem ← mem.store address (maskedByte value)
      let mem ← mem.store (address + 1) (maskedByte (value >>> 8))
      let mem ← mem.store (address + 2) (maskedByte (value >>> 16))
      let mem ← mem.store (address + 3) (maskedByte (value >>> 24))
      some (.ok, .ref mem)
    else do
      let mem ← mem.store address (maskedByte (value >>> 24))
      let mem ← mem.store (address + 1) (maskedByte (value >>> 16))
      let mem ← mem.store (address + 2) (maskedByte (value >>> 8))
      let mem ← mem.store (address + 3) (maskedByte value)
      some (.ok, .ref mem)

-- `for (i = 0; i < 8; ++i) mem->memory[address + i] = byte(i);`
def Memory.writeLoop (mem : Memory) (address : BitVec 64) (byte : Nat → BitVec 8) :
    Option Memory :=
  (List.range 8).foldlM (fun mem i => mem.store (address + BitVec.ofNat 64 i) (byte i)) mem

def memoryWrite64 (mem : Ptr Memory) (address : BitVec 64) (value : BitVec 64) :
    Option (MemoryStatus × Ptr Memory) :=
  match mem with
  | .null => some (.nullPointer, .null)
  | .ref mem =>
    if !boundChecking address 8 then some (.outOfBounds, .ref mem)
    else if !alignmentChecking address 8 then some (.misaligned, .ref mem)
    else if mem.endian = .little then do
      let mem ← mem.writeLoop address fun i => (value >>> (i * 8) &&& 0xFF).setWidth 8
      some (.ok, .ref mem)
    else do
      let mem ← mem.writeLoop address fun i => (value >>> ((7 - i) * 8)).setWidth 8 &&& 0xFF
      some (.ok, .ref mem)

end Mips64
