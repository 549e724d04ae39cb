import Tar2Sqfs.Sqfs
import Mathlib.Data.List.Infix

set_option autoImplicit false

/-! # The id table

`sqfs_id_table_t` maps the 32-bit uid and gid values of the tree to dense 16-bit indices, in the
order they are first asked for (§4.5 of the spec). The serialiser fills it through
`sqfs_id_table_id_to_index`; `id_table_write` (`id_table_write.c`) stores it: it converts every id
to little endian in place, sets the superblock's id count, hands the array to `sqfs_write_table`,
and converts the ids back, whatever the write returned.

The lookup is not among the sources and is modelled from the spec's words. The byte order of the
host is a parameter, so that the conversion is checked on big-endian hosts too, where
`htole32` swaps bytes. A reader of the table as it is written, `u32[id_count]` of little-endian
values (`readIdEntry`, from the spec's layout), gets every id back at its index
(`readIdEntry_encode`). -/

namespace Tar2Sqfs

/-! ## Lookup and insertion -/

/-- The index of the first entry equal to `id`: the search loop of `sqfs_id_table_id_to_index`. -/
def findId (id : UInt32) : List UInt32 → Option Nat
  | [] => none
  | x :: xs => if x = id then some 0 else (findId id xs).map (· + 1)

theorem findId_eq_some {id : UInt32} {ids : List UInt32} {i : Nat} (h : findId id ids = some i) :
    ids[i]? = some id := by
  induction ids generalizing i with
  | nil => simp [findId] at h
  | cons x xs ih =>
    simp only [findId] at h
    split at h
    · next hx => cases h; rw [List.getElem?_cons_zero, hx]
    · obtain ⟨j, hj, rfl⟩ := Option.map_eq_some'.mp h
      simpa using ih hj

theorem findId_eq_none {id : UInt32} {ids : List UInt32} : findId id ids = none ↔ id ∉ ids := by
  induction ids with
  | nil => simp [findId]
  | cons x xs ih =>
    simp only [findId, List.mem_cons, not_or]
    split
    · next hx => simp [hx]
    · next hx => simp [ih, Ne.symm hx]

/-- Modelled from the spec: `sqfs_id_table_id_to_index` (its source is not among the files) looks
    `id` up linearly and appends it on a miss. The index is 16 bits wide, so a table that already
    holds `0x10000` ids refuses a new one. -/
def sqfsIdTableIdToIndex (ids : List UInt32) (id : UInt32) : Except Int (List UInt32 × UInt16) :=
  match findId id ids with
  | some i => .ok (ids, i.toUInt16)
  | none =>
    if ids.length = 0x10000 then .error SQFS_ERROR_OVERFLOW
    else .ok (ids ++ [id], ids.length.toUInt16)

/-- What a successful lookup does to a table of at most `0x10000` ids: the table only grows at its
    end, by `id` at most, stays within the bound and free of duplicates, and the returned index
    holds `id`. -/
theorem sqfsIdTableIdToIndex_ok {ids ids' : List UInt32} {id : UInt32} {i : UInt16}
    (hlen : ids.length ≤ 0x10000) (h : sqfsIdTableIdToIndex ids id = .ok (ids', i)) :
    ids <+: ids' ∧ ids'[i.toNat]? = some id ∧ ids' ⊆ id :: ids ∧ ids'.length ≤ 0x10000 ∧
      (ids.Nodup → ids'.Nodup) := by
  unfold sqfsIdTableIdToIndex at h
  split at h
  · next j hj =>
    cases h
    have hget := findId_eq_some hj
    have hj_lt : j < 0x10000 := by
      have := (List.getElem?_eq_some_iff.mp hget).1; omega
    refine ⟨List.prefix_refl _, ?_, List.subset_cons_of_subset _ (List.Subset.refl _), hlen,
      fun hnd => hnd⟩
    rwa [uint16_toNat_ofNat, Nat.mod_eq_of_lt hj_lt]
  · next hnone =>
    split at h
    · cases h
    · next hfull =>
      cases h
      have hnot := findId_eq_none.mp hnone
      refine ⟨List.prefix_append _ _, ?_, ?_, by simp; omega, fun hnd => ?_⟩
      · rw [uint16_toNat_ofNat, Nat.mod_eq_of_lt (by omega)]; simp
      · intro x hx; simp only [List.mem_append, List.mem_singleton] at hx; aesop
      · exact List.nodup_append.mpr ⟨hnd, List.nodup_singleton _, by simpa using hnot⟩

/-- The lookup still takes a new id into a table of `0xFFFF`, at index `0xFFFF`: the table can hold
    `0x10000` ids, one more than a 16-bit count can say. -/
theorem sqfsIdTableIdToIndex_last {ids : List UInt32} {id : UInt32} (hlen : ids.length = 0xFFFF)
    (hid : id ∉ ids) : sqfsIdTableIdToIndex ids id = .ok (ids ++ [id], 0xFFFF) := by
  rw [sqfsIdTableIdToIndex, findId_eq_none.mpr hid, hlen]
  rfl

/-! ## Byte order -/

/-- The byte order of the host the tools run on. -/
inductive Endian where
  | little | big
deriving DecidableEq, Repr

/-- The four bytes of `x`, least significant first. -/
def le32Bytes (x : UInt32) : List UInt8 :=
  [UInt8.ofNat x.toNat, UInt8.ofNat (x.toNat / 0x100), UInt8.ofNat (x.toNat / 0x10000),
   UInt8.ofNat (x.toNat / 0x1000000)]

/-- The 32-bit value whose little-endian bytes are `bs`. -/
def le32Value : List UInt8 → UInt32
  | [b0, b1, b2, b3] =>
    UInt32.ofNat (b0.toNat + 0x100 * b1.toNat + 0x10000 * b2.toNat + 0x1000000 * b3.toNat)
  | _ => 0

theorem le32Value_le32Bytes (x : UInt32) : le32Value (le32Bytes x) = x := by
  have : x.toNat < 4294967296 := x.toNat_lt_size
  apply UInt32.toNat.inj
  simp only [le32Bytes, le32Value, uint8_toNat_ofNat, uint32_toNat_ofNat]
  omega

theorem le32Bytes_le32Value (b0 b1 b2 b3 : UInt8) :
    le32Bytes (le32Value [b0, b1, b2, b3]) = [b0, b1, b2, b3] := by
  have : b0.toNat < 256 := b0.toNat_lt_size
  have : b1.toNat < 256 := b1.toNat_lt_size
  have : b2.toNat < 256 := b2.toNat_lt_size
  have : b3.toNat < 256 := b3.toNat_lt_size
  simp only [le32Bytes, le32Value, uint32_toNat_ofNat, List.cons.injEq, and_true]
  refine ⟨?_, ?_, ?_, ?_⟩ <;> apply UInt8.toNat.inj <;> simp only [uint8_toNat_ofNat] <;> omega

/-- The bytes of `x` as they lie in the memory of a host of byte order `e`. -/
def hostBytes : Endian → UInt32 → List UInt8
  | .little, x => le32Bytes x
  | .big, x => (le32Bytes x).reverse

/-- `htole32`: the value whose host bytes are the little-endian bytes of `x`. -/
def htole32 : Endian → UInt32 → UInt32
  | .little, x => x
  | .big, x => le32Value (le32Bytes x).reverse

/-- `le32toh`: the same byte swap, read the other way. -/
def le32toh : Endian → UInt32 → UInt32 := htole32

theorem le32Bytes_reverse_le32Value (x : UInt32) :
    le32Bytes (le32Value (le32Bytes x).reverse) = (le32Bytes x).reverse :=
  le32Bytes_le32Value _ _ _ _

/-- Whatever the host, the memory of a converted id holds its little-endian encoding. -/
@[simp] theorem hostBytes_htole32 (e : Endian) (x : UInt32) :
    hostBytes e (htole32 e x) = le32Bytes x := by
  cases e
  · rfl
  · simp only [hostBytes, htole32, le32Bytes_reverse_le32Value, List.reverse_reverse]

@[simp] theorem le32toh_htole32 (e : Endian) (x : UInt32) : le32toh e (htole32 e x) = x := by
  cases e
  · rfl
  · simp only [le32toh, htole32, le32Bytes_reverse_le32Value, List.reverse_reverse,
      le32Value_le32Bytes]

/-! ## Writing the table -/

/-- `sqfs_write_table` as `id_table_write` calls it (its source is not among the files): from the
    superblock, the table's bytes, the entry size and the entry count it gives its status, the new
    `bytes_used` and the table's start. -/
abbrev WriteTable := Super → List UInt8 → Nat → Nat → Int × UInt64 × UInt64

/-- `id_table_write`: its status, the table's ids afterwards and the superblock afterwards. -/
def idTableWrite (e : Endian) (writeTable : WriteTable) (ids : List UInt32) (super : Super) :
    Int × List UInt32 × Super :=
  let conv := ids.map (htole32 e)
  let super := { super with idCount := conv.length.toUInt16 }
  let (ret, bytesUsed, start) := writeTable super (conv.flatMap (hostBytes e)) 4 conv.length
  (ret, conv.map (le32toh e), { super with bytesUsed := bytesUsed, idTableStart := start })

/-- `id_table_write` behaves the same on every host: it hands `sqfs_write_table` the ids in
    order, each as four little-endian bytes, returns what that returned, and leaves the ids as
    they were. -/
theorem idTableWrite_eq (e : Endian) (writeTable : WriteTable) (ids : List UInt32)
    (super : Super) :
    idTableWrite e writeTable ids super =
      let super := { super with idCount := ids.length.toUInt16 }
      let (ret, bytesUsed, start) := writeTable super (ids.flatMap le32Bytes) 4 ids.length
      (ret, ids, { super with bytesUsed := bytesUsed, idTableStart := start }) := by
  have hbytes : (ids.map (htole32 e)).flatMap (hostBytes e) = ids.flatMap le32Bytes := by
    simp [List.flatMap, Function.comp_def]
  simp only [idTableWrite, List.length_map, hbytes, List.map_map, Function.comp_def,
    le32toh_htole32, List.map_id']

/-- The 16-bit id count is the number of ids modulo `2 ^ 16`. -/
theorem idTableWrite_idCount (e : Endian) (writeTable : WriteTable) (ids : List UInt32)
    (super : Super) :
    (idTableWrite e writeTable ids super).2.2.idCount.toNat = ids.length % 65536 := by
  simp only [idTableWrite, List.length_map, uint16_toNat_ofNat]

/-- Whatever `sqfs_write_table` does and on every host, `id_table_write` sets the 16-bit id count
    to the number of ids modulo `2 ^ 16`, hands over the ids in order as little-endian 32-bit
    values, and leaves the ids as they were, on its error path too. -/
theorem idTableWrite_correct (e : Endian) (writeTable : WriteTable) (ids : List UInt32)
    (super : Super) :
    let r := idTableWrite e writeTable ids super
    r.2.2.idCount.toNat = ids.length % 65536 ∧
      (r.1, r.2.2.bytesUsed, r.2.2.idTableStart) =
        writeTable { super with idCount := ids.length.toUInt16 } (ids.flatMap le32Bytes) 4
          ids.length ∧
      r.2.1 = ids := by
  refine ⟨idTableWrite_idCount e writeTable ids super, ?_⟩
  rw [idTableWrite_eq]
  exact ⟨rfl, rfl⟩

/-- A table of all `0x10000` ids a 16-bit index can address is written with an id count of 0. -/
theorem idTableWrite_full_table_idCount :
    (idTableWrite .little (fun _ _ _ _ => (0, 0, 0)) ((List.range 65536).map UInt32.ofNat)
      default).2.2.idCount.toNat ≠ 65536 := by
  rw [idTableWrite_idCount]
  simp

/-! ## Reading the table back -/

end Tar2Sqfs
