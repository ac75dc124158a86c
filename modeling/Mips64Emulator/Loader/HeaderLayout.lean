import Mips64Emulator.Loader.ByteReaders
import Mips64Emulator.Shared.Splice

set_option autoImplicit false

namespace Mips64

def eiNident : Nat := 16

structure Elf64Ehdr where
  eIdent : List (BitVec 8)
  eIdent_length : eIdent.length = eiNident
  eType : BitVec 16
  eMachine : BitVec 16
  eVersion : BitVec 32
  eEntry : BitVec 64
  ePhoff : BitVec 64
  eShoff : BitVec 64
  eFlags : BitVec 32
  eEhsize : BitVec 16
  ePhentsize : BitVec 16
  ePhnum : BitVec 16
  eShentsize : BitVec 16
  eShnum : BitVec 16
  eShstrndx : BitVec 16

def encode {n : Nat} (encoding : ElfData) (value : BitVec n) : List (BitVec 8) :=
  orient encoding.order (ByteOrder.split (n / 8) value)

def Elf64Ehdr.members (header : Elf64Ehdr) (encoding : ElfData) : List (List (BitVec 8)) :=
  [header.eIdent, encode encoding header.eType, encode encoding header.eMachine,
    encode encoding header.eVersion, encode encoding header.eEntry, encode encoding header.ePhoff,
    encode encoding header.eShoff, encode encoding header.eFlags, encode encoding header.eEhsize,
    encode encoding header.ePhentsize, encode encoding header.ePhnum,
    encode encoding header.eShentsize, encode encoding header.eShnum,
    encode encoding header.eShstrndx]

def Elf64Ehdr.serialise (header : Elf64Ehdr) (encoding : ElfData) : List (BitVec 8) :=
  (header.members encoding).flatten

theorem encode_length {n : Nat} (encoding : ElfData) (value : BitVec n) :
    (encode encoding value).length = n / 8 := by
  rw [encode, orient_length, ByteOrder.split_length]

theorem orient_orient (endian : Endian) (bytes : List (BitVec 8)) :
    orient endian (orient endian bytes) = bytes := by
  by_cases order : endian = .little <;> simp [orient, order]

theorem join_orient_encode {n : Nat} (encoding : ElfData) (value : BitVec n)
    (whole : n ≤ 8 * (n / 8)) :
    ByteOrder.join n (orient encoding.order (encode encoding value)) = value := by
  rw [encode, orient_orient, ByteOrder.join_split _ _ whole]

section Members

variable (header : Elf64Ehdr) (encoding : ElfData)

theorem member_leads (k offset : Nat) (bytes : List (BitVec 8))
    (listed : (header.members encoding)[k]? = some bytes)
    (position : ((header.members encoding).take k).flatten.length = offset) :
    Leads (fun i => (header.serialise encoding)[offset + i]?) bytes := by
  intro i inside
  rw [← position]
  exact Splice.flatten_getElem? _ k bytes listed i inside

theorem reader_member {n : Nat}
    (elfRead : (Nat → Option (BitVec 8)) → ElfData → Option (BitVec n)) (whole : n ≤ 8 * (n / 8))
    (elfReads : ∀ data endian bytes, Leads data bytes → bytes.length = n / 8 →
      elfRead data endian = some (ByteOrder.join n (orient endian.order bytes)))
    (k offset : Nat) (value : BitVec n)
    (listed : (header.members encoding)[k]? = some (encode encoding value))
    (position : ((header.members encoding).take k).flatten.length = offset) :
    elfRead (fun i => (header.serialise encoding)[offset + i]?) encoding = some value := by
  rw [elfReads _ encoding _ (member_leads header encoding k offset _ listed position)
    (encode_length encoding value), join_orient_encode encoding value whole]

/-- The four bytes of an eight-byte member that a 32-bit read takes. -/
def firstWord (value : BitVec 64) : BitVec 32 :=
  if encoding = .data2Lsb then value.setWidth 32 else (value >>> 32).setWidth 32

theorem join_orient_take (value : BitVec 64) :
    ByteOrder.join 32 (orient encoding.order ((encode encoding value).take 4)) =
      firstWord encoding value := by
  have halves : ByteOrder.split 8 value =
      ByteOrder.split 4 value ++ ByteOrder.split 4 (value >>> 32) := ByteOrder.split_add 4 4 value
  rw [encode, show 64 / 8 = 8 from rfl, halves, orient_order, orient_order, firstWord]
  split
  · rw [List.take_left' (ByteOrder.split_length 4 value), ByteOrder.join_split_setWidth 4]
  · rw [List.reverse_append, List.take_left' (by simp), List.reverse_reverse,
      ByteOrder.join_split_setWidth 4]

theorem readElfHeader_serialise :
    readElfHeader (fun i => (header.serialise encoding)[i]?) encoding =
      some
        { eType := header.eType
          eMachine := header.eMachine
          eVersion := header.eVersion
          eEntry := header.eEntry
          ePhoff := firstWord encoding header.ePhoff
          eEhsize := header.eEhsize
          ePhentsize := header.ePhentsize
          ePhnum := header.ePhnum } := by
  have ident : header.eIdent.length = 16 := header.eIdent_length
  have phoff : elfReadU32 (fun i => (header.serialise encoding)[32 + i]?) encoding =
      some (firstWord encoding header.ePhoff) := by
    have leads := member_leads header encoding 5 32 (encode encoding header.ePhoff) rfl
      (by simp [Elf64Ehdr.members, encode_length, ident])
    have length : ((encode encoding header.ePhoff).take 4).length = 4 := by
      rw [List.length_take, encode_length]
      rfl
    have short : Leads (fun i => (header.serialise encoding)[32 + i]?)
        ((encode encoding header.ePhoff).take 4) := by
      intro i inside
      rw [length] at inside
      rw [List.getElem?_take, if_pos inside]
      exact leads i (by rw [encode_length]; omega)
    rw [elfReadU32_correct _ encoding _ short length, join_orient_take]
  have half := reader_member header encoding elfReadU16 (by decide) elfReadU16_correct
  have word := reader_member header encoding elfReadU32 (by decide) elfReadU32_correct
  have double := reader_member header encoding elfReadU64 (by decide) elfReadU64_correct
  have eType := half 1 16 header.eType rfl (by simp [Elf64Ehdr.members, ident])
  have eMachine := half 2 18 header.eMachine rfl
    (by simp [Elf64Ehdr.members, encode_length, ident])
  have eVersion := word 3 20 header.eVersion rfl
    (by simp [Elf64Ehdr.members, encode_length, ident])
  have eEntry := double 4 24 header.eEntry rfl
    (by simp [Elf64Ehdr.members, encode_length, ident])
  have eEhsize := half 8 52 header.eEhsize rfl
    (by simp [Elf64Ehdr.members, encode_length, ident])
  have ePhentsize := half 9 54 header.ePhentsize rfl
    (by simp [Elf64Ehdr.members, encode_length, ident])
  have ePhnum := half 10 56 header.ePhnum rfl
    (by simp [Elf64Ehdr.members, encode_length, ident])
  simp [readElfHeader, eType, eMachine, eVersion, eEntry, phoff, eEhsize, ePhentsize, ePhnum]

end Members

def Elf64Ehdr.ReadsBack (header : Elf64Ehdr) (encoding : ElfData) : Prop :=
  ∃ read, readElfHeader (fun i => (header.serialise encoding)[i]?) encoding = some read ∧
    read.eType = header.eType ∧ read.eMachine = header.eMachine ∧
    read.eVersion = header.eVersion ∧ read.eEntry = header.eEntry ∧
    read.ePhoff.toNat = header.ePhoff.toNat ∧ read.eEhsize = header.eEhsize ∧
    read.ePhentsize = header.ePhentsize ∧ read.ePhnum = header.ePhnum

theorem readsBack_iff_phoff (header : Elf64Ehdr) (encoding : ElfData) :
    header.ReadsBack encoding ↔ (firstWord encoding header.ePhoff).toNat = header.ePhoff.toNat := by
  rw [Elf64Ehdr.ReadsBack, readElfHeader_serialise]
  simp

theorem readElfHeader_reads_back_iff (header : Elf64Ehdr) :
    (header.ReadsBack .data2Lsb ↔ header.ePhoff.toNat < 2 ^ 32) ∧
      (header.ReadsBack .data2Msb ↔ header.ePhoff = 0) := by
  constructor
  · rw [readsBack_iff_phoff, firstWord, if_pos rfl, BitVec.toNat_setWidth]
    omega
  · rw [readsBack_iff_phoff, firstWord, if_neg (by decide), BitVec.toNat_setWidth,
      BitVec.toNat_ushiftRight, Nat.shiftRight_eq_div_pow, BitVec.toNat_eq]
    have bound := header.ePhoff.isLt
    have zero : (0 : BitVec 64).toNat = 0 := rfl
    omega

-- Program headers right behind the header, in a big-endian file.
theorem readElfHeader_loses_phoff :
    let header : Elf64Ehdr :=
      { eIdent := [0x7F, 0x45, 0x4C, 0x46, 2, 2, 1, 0, 0, 0, 0, 0, 0, 0, 0, 0]
        eIdent_length := rfl
        eType := 2
        eMachine := 8
        eVersion := 1
        eEntry := 0x120000000
        ePhoff := 64
        eShoff := 0
        eFlags := 0
        eEhsize := 64
        ePhentsize := 56
        ePhnum := 1
        eShentsize := 0
        eShnum := 0
        eShstrndx := 0 }
    ¬ header.ReadsBack .data2Msb := by
  intro header
  rw [readsBack_iff_phoff]
  decide

end Mips64
