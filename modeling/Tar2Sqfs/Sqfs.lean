import Mathlib.Logic.Function.Basic
import Mathlib.Data.UInt

set_option autoImplicit false

/-! # libsquashfs types the tools read and write

The superblock, the generic inode and the error codes of libsquashfs, restricted to the fields the
modelled functions of `tar2sqfs.c`, `serialize_fstree.c` and `id_table_write.c` touch. The headers
(`sqfs/super.h`, `sqfs/inode.h`, `sqfs/error.h`) are not among the sources; field widths follow the
SquashFS 4.0 on-disk format the spec describes, error codes are the negative values libsquashfs
uses. -/

namespace Tar2Sqfs

/-! ## Fixed-width integers

A C conversion to a narrower unsigned type keeps the value modulo `2 ^ w`. -/

theorem uint8_toNat_ofNat (n : Nat) : (UInt8.ofNat n).toNat = n % 256 := BitVec.toNat_ofNat ..

theorem uint16_toNat_ofNat (n : Nat) : n.toUInt16.toNat = n % 65536 := BitVec.toNat_ofNat ..

theorem uint32_toNat_ofNat (n : Nat) : (UInt32.ofNat n).toNat = n % 4294967296 :=
  BitVec.toNat_ofNat ..

/-! ## Fallible calls

A C function that returns `0` or a negative error code is modelled in `Except Int`. -/

theorem except_bind_eq_ok {ε α β : Type} {x : Except ε α} {f : α → Except ε β} {b : β} :
    x >>= f = .ok b ↔ ∃ a, x = .ok a ∧ f a = .ok b := by
  cases x <;> simp [bind, Except.bind]

/-! ## Error codes -/

def SQFS_ERROR_ALLOC : Int := -1
def SQFS_ERROR_IO : Int := -2
def SQFS_ERROR_INTERNAL : Int := -4
def SQFS_ERROR_OVERFLOW : Int := -7

/-! ## The superblock -/

/-- The fields of `sqfs_super_t` (the 96-byte superblock at offset 0) that the modelled code
    writes. `id_count` is one of the format's 16-bit fields. -/
structure Super where
  inodeCount : UInt32
  flags : UInt16
  idCount : UInt16
  rootInodeRef : UInt64
  bytesUsed : UInt64
  idTableStart : UInt64
  inodeTableStart : UInt64
  directoryTableStart : UInt64
deriving DecidableEq, Repr, Inhabited

/-! ## Inodes -/

/-- `SQFS_INODE_*`: the basic and extended inode types. -/
inductive InodeType where
  | dir | file | slink | bdev | cdev | fifo | socket
  | extDir | extFile | extSlink | extBdev | extCdev | extFifo | extSocket
deriving DecidableEq, Repr, Inhabited

/-- The parts of `sqfs_inode_generic_t` the serialiser fills in: the common header (`base`), the
    link count of the type-specific part, a device number and a symlink target. -/
structure SqfsInode where
  type : InodeType
  mode : UInt16
  modTime : UInt32
  inodeNumber : UInt32
  uidIdx : UInt16
  gidIdx : UInt16
  xattrIdx : UInt32
  nlink : UInt32
  devno : UInt32
  target : String
deriving DecidableEq, Repr, Inhabited

/-- An inode of type `t`, as `calloc` leaves it: every other field zero. -/
def SqfsInode.zero (t : InodeType) : SqfsInode :=
  { type := t, mode := 0, modTime := 0, inodeNumber := 0, uidIdx := 0, gidIdx := 0,
    xattrIdx := 0, nlink := 0, devno := 0, target := "" }

/-- Modelled from the spec: `sqfs_inode_set_xattr_index` (not among the sources) records the
    node's xattr index in the inode. -/
def sqfsInodeSetXattrIndex (inode : SqfsInode) (idx : UInt32) : SqfsInode :=
  { inode with xattrIdx := idx }

end Tar2Sqfs
