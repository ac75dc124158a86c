import Mips64Emulator.Guest.MemoryAccess
import Mips64Emulator.Shared.Transducer

set_option autoImplicit false

namespace Mips64

inductive Access where
  | read (width : AccessWidth) (address : BitVec 64) (out : BitVec width.bits)
  | write (width : AccessWidth) (address : BitVec 64) (value : BitVec width.bits)

inductive AccessResponse where
  | read (width : AccessWidth) (status : MemoryStatus) (out : Ptr (BitVec width.bits))
  | write (status : MemoryStatus)

namespace Access

def width : Access → AccessWidth
  | read width _ _ => width
  | write width _ _ => width

def address : Access → BitVec 64
  | read _ address _ => address
  | write _ address _ => address

def status (access : Access) : MemoryStatus := accessStatus access.address access.width.bytes

end Access

def AccessResponse.status : AccessResponse → MemoryStatus
  | read _ status _ => status
  | write status => status

def memoryRead : (width : AccessWidth) → Ptr Memory → BitVec 64 → Ptr (BitVec width.bits) →
    Option (MemoryStatus × Ptr (BitVec width.bits))
  | .byte => memoryRead8
  | .half => memoryRead16
  | .word => memoryRead32
  | .double => memoryRead64

def memoryWrite : (width : AccessWidth) → Ptr Memory → BitVec 64 → BitVec width.bits →
    Option (MemoryStatus × Ptr Memory)
  | .byte => memoryWrite8
  | .half => memoryWrite16
  | .word => memoryWrite32
  | .double => memoryWrite64

def perform (mem : Ptr Memory) : Access → Option (AccessResponse × Ptr Memory)
  | .read width address out =>
    (memoryRead width mem address (.ref out)).map fun (status, out) =>
      (.read width status out, mem)
  | .write width address value =>
    (memoryWrite width mem address value).map fun (status, mem) => (.write status, mem)

theorem memoryRead_correct (mem : Memory) (width : AccessWidth) (address : BitVec 64)
    (out : BitVec width.bits) :
    memoryRead width (.ref mem) address (.ref out) =
      some (readResult mem address width.bytes out) := by
  cases width with
  | byte => exact memoryRead8_correct mem address out
  | half => exact memoryRead16_correct mem address out
  | word => exact memoryRead32_correct mem address out
  | double => exact memoryRead64_correct mem address out

theorem memoryWrite_correct (mem : Memory) (width : AccessWidth) (address : BitVec 64)
    (value : BitVec width.bits) :
    memoryWrite width (.ref mem) address value =
      some (writeResult mem address width.bytes value) := by
  cases width with
  | byte => exact memoryWrite8_correct mem address value
  | half => exact memoryWrite16_correct mem address value
  | word => exact memoryWrite32_correct mem address value
  | double => exact memoryWrite64_correct mem address value

def Memory.word (mem : Memory) (width : AccessWidth) (address : BitVec 64) : BitVec width.bits :=
  ByteOrder.join width.bits (orient mem.endian (mem.window address.toNat width.bytes))

def Access.effect (mem : Memory) : Access → Memory
  | .read _ _ _ => mem
  | .write width address value =>
    if accessStatus address width.bytes = .ok then
      mem.patch address.toNat (orient mem.endian (ByteOrder.split width.bytes value))
    else mem

def Access.response (mem : Memory) : Access → AccessResponse
  | .read width address out =>
    if accessStatus address width.bytes = .ok then
      .read width .ok (.ref (mem.word width address))
    else .read width (accessStatus address width.bytes) (.ref out)
  | .write width address _ => .write (accessStatus address width.bytes)

theorem perform_correct (mem : Memory) (access : Access) :
    perform (.ref mem) access = some (access.response mem, .ref (access.effect mem)) := by
  cases access with
  | read width address out =>
    rw [perform, memoryRead_correct, readResult, Access.response]
    cases accessStatus address width.bytes <;> rfl
  | write width address value =>
    rw [perform, memoryWrite_correct, writeResult, Access.response, Access.effect]
    cases accessStatus address width.bytes <;> rfl

theorem response_status (mem : Memory) (access : Access) :
    (access.response mem).status = access.status := by
  cases access with
  | read width address out =>
    rw [Access.response]
    split
    next accepted => exact accepted.symm
    next => rfl
  | write width address value => rfl

theorem patch_byte (mem : Memory) (start : Nat) (bytes : List (BitVec 8)) (x : Nat)
    (inside : x < maxSize) :
    (mem.patch start bytes).byte x = Overlay.apply (Overlay.range start bytes) mem.byte x := by
  simp only [Memory.byte, inside, dif_pos, Memory.patch, Overlay.apply]

@[simp] theorem effect_endian (mem : Memory) (access : Access) :
    (access.effect mem).endian = mem.endian := by
  cases access with
  | read width address out => rfl
  | write width address value =>
    rw [Access.effect]
    split <;> rfl

end Mips64
