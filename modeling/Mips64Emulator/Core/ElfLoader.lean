import Mips64Emulator.Core.Layout

set_option autoImplicit false

namespace Mips64

def elfMag0 : BitVec 8 := 0x7F
def elfMag1 : BitVec 8 := 0x45
def elfMag2 : BitVec 8 := 0x4C
def elfMag3 : BitVec 8 := 0x46

def eiMag0 : Nat := 0
def eiMag1 : Nat := 1
def eiMag2 : Nat := 2
def eiMag3 : Nat := 3
def eiClass : Nat := 4
def eiData : Nat := 5

def elfClass64 : BitVec 8 := 2

inductive ElfData where
  | dataNone
  | data2Lsb
  | data2Msb
  deriving DecidableEq, Repr

def ElfData.code : ElfData → BitVec 8
  | dataNone => 0
  | data2Lsb => 1
  | data2Msb => 2

def etExec : BitVec 16 := 2
def emMips : BitVec 16 := 8

-- The members of `Elf64_Ehdr` the loader extracts, at the widths it gives them.
structure ElfHeader where
  eType : BitVec 16
  eMachine : BitVec 16
  eVersion : BitVec 32
  eEntry : BitVec 64
  ePhoff : BitVec 32
  eEhsize : BitVec 16
  ePhentsize : BitVec 16
  ePhnum : BitVec 16
  deriving DecidableEq, Repr

def elfReadU16 (data : Nat → Option (BitVec 8)) (endian : ElfData) : Option (BitVec 16) :=
  if endian = .data2Lsb then do
    let byte0 ← data 0
    let byte1 ← data 1
    some (byte0.setWidth 16 ||| byte1.setWidth 16 <<< 8)
  else do
    let byte0 ← data 0
    let byte1 ← data 1
    some (byte0.setWidth 16 <<< 8 ||| byte1.setWidth 16)

def elfReadU32 (data : Nat → Option (BitVec 8)) (endian : ElfData) : Option (BitVec 32) :=
  if endian = .data2Lsb then do
    let byte0 ← data 0
    let byte1 ← data 1
    let byte2 ← data 2
    let byte3 ← data 3
    some (byte0.setWidth 32 ||| byte1.setWidth 32 <<< 8 ||| byte2.setWidth 32 <<< 16 |||
      byte3.setWidth 32 <<< 24)
  else do
    let byte0 ← data 0
    let byte1 ← data 1
    let byte2 ← data 2
    let byte3 ← data 3
    some (byte0.setWidth 32 <<< 24 ||| byte1.setWidth 32 <<< 16 ||| byte2.setWidth 32 <<< 8 |||
      byte3.setWidth 32)

-- `value <<= 8; value |= data[i];` over the indices in turn.
def shiftIn (data : Nat → Option (BitVec 8)) (indices : List Nat) : Option (BitVec 64) :=
  indices.foldlM (fun value i => do
    let byte ← data i
    some (value <<< 8 ||| byte.setWidth 64)) 0#64

def elfReadU64 (data : Nat → Option (BitVec 8)) (endian : ElfData) : Option (BitVec 64) :=
  if endian = .data2Lsb then shiftIn data (List.range 8).reverse
  else shiftIn data (List.range 8)

def readElfHeader (bytes : Nat → Option (BitVec 8)) (endian : ElfData) : Option ElfHeader := do
  let bytesFrom (offset : Nat) (i : Nat) : Option (BitVec 8) := bytes (offset + i)
  let eType ← elfReadU16 (bytesFrom 16) endian
  let eMachine ← elfReadU16 (bytesFrom 18) endian
  let eVersion ← elfReadU32 (bytesFrom 20) endian
  let eEntry ← elfReadU64 (bytesFrom 24) endian
  let ePhoff ← elfReadU32 (bytesFrom 32) endian
  let eEhsize ← elfReadU16 (bytesFrom 52) endian
  let ePhentsize ← elfReadU16 (bytesFrom 54) endian
  let ePhnum ← elfReadU16 (bytesFrom 56) endian
  some
    { eType := eType
      eMachine := eMachine
      eVersion := eVersion
      eEntry := eEntry
      ePhoff := ePhoff
      eEhsize := eEhsize
      ePhentsize := ePhentsize
      ePhnum := ePhnum }

/-- `bytes[i] != v || bytes[j] != w || …`; the first difference ends the evaluation. -/
def anyDiffers (bytes : Nat → Option (BitVec 8)) : List (Nat × BitVec 8) → Option Bool
  | [] => some false
  | (index, value) :: rest => do
    let byte ← bytes index
    if byte ≠ value then some true else anyDiffers bytes rest

def checkElfHeader (bytes : Nat → Option (BitVec 8)) (endian : ElfData) : Option Status := do
  let header ← readElfHeader bytes endian
  if header.eType ≠ etExec then some .invalidArgument
  else if header.eVersion ≠ 1 then some .invalidArgument
  else if header.eMachine ≠ emMips then some .invalidArgument
  else some .ok

-- The emulator is only compared with NULL.
def loadElf (emulator : Ptr Emulator) (data : Ptr (List (BitVec 8))) (size : BitVec 64) :
    Option Status :=
  match emulator, data with
  | .ref _, .ref data =>
    if size < 64 then some .invalidArgument
    else do
      let bytes (index : Nat) : Option (BitVec 8) := data[index]?
      let badMagic ← anyDiffers bytes
        [(eiMag0, elfMag0), (eiMag1, elfMag1), (eiMag2, elfMag2), (eiMag1, elfMag0),
          (eiMag3, elfMag3)]
      if badMagic then some .invalidArgument
      else do
        let identClass ← bytes eiClass
        if identClass ≠ elfClass64 then some .invalidArgument
        else do
          let identData ← bytes eiData
          if identData = ElfData.data2Lsb.code then checkElfHeader bytes .data2Lsb
          else if identData = ElfData.data2Msb.code then checkElfHeader bytes .data2Msb
          else some .invalidArgument
  | _, _ => some .invalidArgument

-- `while (*name)`; a name without a NUL byte is read past its end.
def hashName (hash : BitVec 32) : List (BitVec 8) → Option (BitVec 32)
  | [] => none
  | byte :: rest =>
    if byte = 0 then some hash
    else
      let hash := (hash <<< 4) + byte.setWidth 32
      let g := hash &&& 0xF0000000
      if g ≠ 0 then hashName ((hash ^^^ (g >>> 24)) &&& ~~~g) rest else hashName hash rest

def hashTable (outHash : Ptr (BitVec 32)) (name : Ptr (List (BitVec 8))) :
    Option (Status × Ptr (BitVec 32)) :=
  match outHash, name with
  | .ref _, .ref name => do
    let hash ← hashName 0 name
    some (.ok, .ref hash)
  | _, _ => some (.invalidArgument, outHash)

end Mips64
