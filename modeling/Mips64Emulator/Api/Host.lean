import Mips64Emulator.Api.Calls
import Mips64Emulator.Shared.Allocator

set_option autoImplicit false

/-!
# Emulators on the heap of their host

Creating an emulator takes two blocks, its own and its memory, and destroying it gives back the two
its pointers reach. A handle is the address of an emulator.
-/

namespace Mips64

open Allocator

/-- An emulator in the block `handle`. Its memory lies in `block` for as long as its pointer is not
NULL. -/
structure Object where
  handle : Nat
  emulator : Emulator
  block : Nat

def Object.memory (object : Object) : Ptr Nat := object.emulator.memory.map fun _ => object.block

def Object.follow (handle : Nat) (emulator : Emulator) (object : Object) : Object :=
  if object.handle = handle then { object with emulator := emulator } else object

@[simp] theorem Object.follow_handle (handle : Nat) (emulator : Emulator) (object : Object) :
    (object.follow handle emulator).handle = object.handle := by
  unfold follow
  split <;> rfl

structure Host where
  heap : Heap
  objects : List Object

namespace Host

def empty : Host := { heap := Heap.empty, objects := [] }

-- `free`. NULL is no block.
def free (pointer : Ptr Nat) (heap : Heap) : Option Heap :=
  match pointer with
  | .null => some heap
  | .ref block => heap.release block

-- What a handle that is not NULL points to. There is nothing behind one that has been destroyed.
def find (host : Host) (handle : Nat) : Option Object :=
  host.objects.find? fun object => object.handle = handle

def update (host : Host) (handle : Nat) (emulator : Emulator) : Host :=
  { host with objects := host.objects.map (Object.follow handle emulator) }

def create (host : Host) (emulatorAllocated memoryAllocated : Bool) (config : Ptr Config)
    (outEmulator : Ptr (Ptr Nat)) : Option (Status × Ptr (Ptr Nat) × Host) :=
  match config, outEmulator with
  | .ref config, .ref _ =>
    if config.memorySize = 0 then some (.invalidArgument, .ref .null, host)
    else if !isValidEndian config.endian then some (.invalidArgument, .ref .null, host)
    else if !isInstructionAligned config.resetPc then some (.unalignedPc, .ref .null, host)
    else if config.resetPc > config.memorySize then some (.addressOutOfRange, .ref .null, host)
    else if !emulatorAllocated then some (.outOfMemory, .ref .null, host)
    else
      let (handle, heap) := host.heap.allocate
      match calloc memoryAllocated config.memorySize with
      | .null => do
        let heap ← free (.ref handle) heap
        some (.outOfMemory, .ref .null, { host with heap := heap })
      | .ref memory =>
        let (block, heap) := heap.allocate
        let cpu : Cpu :=
          { gpr := Function.update (fun _ => 0) 0 0, pc := config.resetPc, hi := 0, lo := 0 }
        let emulator : Emulator :=
          { config := config, memory := .ref memory, memorySize := config.memorySize, cpu := cpu }
        let object : Object := { handle := handle, emulator := emulator, block := block }
        some (.ok, .ref (.ref handle), { heap := heap, objects := object :: host.objects })
  | _, _ => some (.invalidArgument, outEmulator, host)

def destroy (host : Host) (emulator : Ptr Nat) : Option Host :=
  match emulator with
  | .null => some host
  | .ref handle => do
    let object ← host.find handle
    let heap ← free object.memory host.heap
    let heap ← free (.ref handle) heap
    some { heap := heap, objects := host.objects.filter fun other => other.handle ≠ handle }

def call (host : Host) (emulator : Ptr Nat) (call : Call) : Option (Response × Host) :=
  match emulator with
  | .null => (call.apply .null).map fun (response, _) => (response, host)
  | .ref handle => do
    let object ← host.find handle
    let (response, next) ← call.apply (.ref object.emulator)
    match next with
    | .null => none
    | .ref next => some (response, host.update handle next)

inductive Event where
  | create (emulatorAllocated memoryAllocated : Bool) (config : Ptr Config)
      (outEmulator : Ptr (Ptr Nat))
  | destroy (emulator : Ptr Nat)
  | call (emulator : Ptr Nat) (call : Call)

inductive Answer where
  | created (status : Status) (outEmulator : Ptr (Ptr Nat))
  | destroyed
  | called (response : Response)

def step (host : Host) : Event → Option (Answer × Host)
  | .create emulatorAllocated memoryAllocated config outEmulator =>
    (host.create emulatorAllocated memoryAllocated config outEmulator).map
      fun (status, outEmulator, host) => (.created status outEmulator, host)
  | .destroy emulator => (host.destroy emulator).map fun host => (.destroyed, host)
  | .call emulator call =>
    (host.call emulator call).map fun (response, host) => (.called response, host)

end Host

end Mips64
