import Tar2Sqfs.Serialize.Entries

set_option autoImplicit false

/-! # What a run does to the superblock

`main` fills in the superblock around `sqfs_serialize_fstree`: `inode_count` and the compressor
flag before it, `id_count`, `id_table_start` and `bytes_used` after it. The serialiser itself sets
three fields, `inode_table_start` to the size of the output file when it starts, `root_inode_ref`
to the root's reference, and `directory_table_start` to the file's size once both writers are
flushed, and touches no other field: no call of `serialize_tree_node` writes the superblock
(`serializeTreeNode_super`), so a run changes exactly these three, to these values
(`sqfsSerializeFstree_super`).

When no call of the writers shrinks the output file (`SizeMonotone`), the file only grows during
the walk, so the inode table starts no later than the directory table
(`sqfsSerializeFstree_tables_ordered`). -/

namespace Tar2Sqfs

variable {W : Type} (ops : SqfsOps W)

/-! ## The superblock is left to the end -/

theorem writeDirEntries_super {st st' : SerState W} {info : NodeInfo} {parent : Option NodeInfo}
    {cs : List TreeNode} {inode : SqfsInode}
    (h : writeDirEntries ops st info parent cs = .ok (st', inode)) : st'.super = st.super := by
  obtain ⟨w, rfl⟩ := writeDirEntries_ok ops h
  rfl

theorem nodeInode_super {st st' : SerState W} {parent : Option NodeInfo} {n : TreeNode}
    {inode : SqfsInode} (h : nodeInode ops st parent n = .ok (st', inode)) :
    st'.super = st.super ∧ (S_ISDIR n.info.mode = false → st'.world = st.world) := by
  unfold nodeInode at h
  split at h
  · next hdir =>
    split at h
    · next r hr =>
      cases h
      exact ⟨writeDirEntries_super ops hr, fun hd => absurd hdir (by simp [hd])⟩
    · cases h
  · split at h
    · split at h
      · cases h
      · cases h
        exact ⟨rfl, fun _ => rfl⟩
    · split at h
      · cases h
      · cases h
        exact ⟨rfl, fun _ => rfl⟩

/-- `serialize_tree_node` leaves the superblock alone. -/
theorem serializeTreeNode_super {st st' : SerState W} {parent : Option NodeInfo} {n : TreeNode}
    (h : serializeTreeNode ops st parent n = .ok st') : st'.super = st.super := by
  obtain ⟨⟨st₁, inode⟩, h₁, h⟩ := except_bind_eq_ok.mp h
  obtain ⟨⟨tbl, uidIdx⟩, -, h⟩ := except_bind_eq_ok.mp h
  obtain ⟨⟨tbl', gidIdx⟩, -, h⟩ := except_bind_eq_ok.mp h
  obtain ⟨w, -, h⟩ := except_bind_eq_ok.mp h
  cases h
  exact (nodeInode_super ops h₁).1

theorem foldlM_super {L : List (Option NodeInfo × TreeNode)} {st st' : SerState W}
    (h : L.foldlM (serializeStep ops) st = .ok st') : st'.super = st.super := by
  induction L generalizing st with
  | nil => cases h; rfl
  | cons x xs ih =>
    obtain ⟨st₁, h₁, h⟩ := except_bind_eq_ok.mp h
    rw [ih h, serializeTreeNode_super ops h₁]

/-- A run of `sqfs_serialize_fstree` that returns 0 sets `inode_table_start` to the size of the
    output file when it starts, `root_inode_ref` to the root's `inode_ref`, and
    `directory_table_start` to the file's size once the walk is done and the inode writer, then
    the directory writer, are flushed; it leaves every other field of the superblock as it was. -/
theorem sqfsSerializeFstree_super (fs : FsTree) (st st' : SerState W)
    (h : sqfsSerializeFstree ops fs st = .ok st') :
    ∃ st₁ w₁ w₂, (fstreeOrder fs.root).foldlM (serializeStep ops)
        { st with super := { st.super with inodeTableStart := ops.getSize st.world } } = .ok st₁ ∧
      ops.metaFlushInodes st₁.world = .ok w₁ ∧ ops.metaFlushDirs w₁ = .ok w₂ ∧
      st'.super = { st.super with inodeTableStart := ops.getSize st.world,
                                  rootInodeRef := st'.inodeRefOf fs.root.info,
                                  directoryTableStart := ops.getSize w₂ } := by
  obtain ⟨st₁, w₁, w₂, -, hfold, hw₁, hw₂, rfl⟩ := sqfsSerializeFstree_eq_fold ops h
  exact ⟨st₁, w₁, w₂, hfold, hw₁, hw₂, by rw [foldlM_super ops hfold]; rfl⟩

theorem sqfsSerializeFstree_super_example :
    sqfsSerializeFstree countingOps exampleTree exampleState = .ok exampleResult ∧
      ∃ st₁ w₁ w₂, (fstreeOrder exampleTree.root).foldlM (serializeStep countingOps)
          { exampleState with super := { exampleState.super with
              inodeTableStart := countingOps.getSize exampleState.world } } = .ok st₁ ∧
        countingOps.metaFlushInodes st₁.world = .ok w₁ ∧ countingOps.metaFlushDirs w₁ = .ok w₂ ∧
        exampleResult.super = { exampleState.super with
          inodeTableStart := countingOps.getSize exampleState.world,
          rootInodeRef := exampleResult.inodeRefOf exampleTree.root.info,
          directoryTableStart := countingOps.getSize w₂ } :=
  have h : sqfsSerializeFstree countingOps exampleTree exampleState = .ok exampleResult := rfl
  ⟨h, sqfsSerializeFstree_super countingOps exampleTree exampleState exampleResult h⟩

/-! ## The order of the tables -/

/-- No call of the writers shrinks the output file. -/
structure SizeMonotone : Prop where
  dirBegin : ∀ {w w'}, ops.dirBegin w = .ok w' → ops.getSize w ≤ ops.getSize w'
  dirAddEntry : ∀ {w name num ref mode w'}, ops.dirAddEntry w name num ref mode = .ok w' →
    ops.getSize w ≤ ops.getSize w'
  dirEnd : ∀ {w w'}, ops.dirEnd w = .ok w' → ops.getSize w ≤ ops.getSize w'
  metaWriteInode : ∀ {w inode w'}, ops.metaWriteInode w inode = .ok w' →
    ops.getSize w ≤ ops.getSize w'
  metaFlushInodes : ∀ {w w'}, ops.metaFlushInodes w = .ok w' → ops.getSize w ≤ ops.getSize w'
  metaFlushDirs : ∀ {w w'}, ops.metaFlushDirs w = .ok w' → ops.getSize w ≤ ops.getSize w'

section Grows

variable {ops} (hm : SizeMonotone ops)
include hm

theorem addEntries_grows {st st' : SerState W} {cs : List TreeNode}
    (h : addEntries ops st cs = .ok st') : ops.getSize st.world ≤ ops.getSize st'.world := by
  induction cs generalizing st with
  | nil => cases h; exact UInt64.le_refl _
  | cons c cs ih =>
    obtain ⟨w, hw, h⟩ := except_bind_eq_ok.mp h
    exact UInt64.le_trans (hm.dirAddEntry hw) (ih h)

theorem writeDirEntries_grows {st st' : SerState W} {info : NodeInfo} {parent : Option NodeInfo}
    {cs : List TreeNode} {inode : SqfsInode}
    (h : writeDirEntries ops st info parent cs = .ok (st', inode)) :
    ops.getSize st.world ≤ ops.getSize st'.world := by
  obtain ⟨w, hw, h⟩ := except_bind_eq_ok.mp h
  obtain ⟨st₁, h₁, h⟩ := except_bind_eq_ok.mp h
  obtain ⟨w₂, hw₂, h⟩ := except_bind_eq_ok.mp h
  split at h
  · cases h
  · cases h
    exact UInt64.le_trans (hm.dirBegin hw)
      (UInt64.le_trans (addEntries_grows hm h₁) (hm.dirEnd hw₂))

theorem serializeTreeNode_grows {st st' : SerState W} {parent : Option NodeInfo} {n : TreeNode}
    (h : serializeTreeNode ops st parent n = .ok st') :
    ops.getSize st.world ≤ ops.getSize st'.world := by
  obtain ⟨⟨st₁, inode⟩, h₁, h⟩ := except_bind_eq_ok.mp h
  have h₁' : ops.getSize st.world ≤ ops.getSize st₁.world := by
    by_cases hdir : S_ISDIR n.info.mode = true
    · unfold nodeInode at h₁
      rw [if_pos hdir] at h₁
      split at h₁
      · next r hr =>
        cases h₁
        exact writeDirEntries_grows hm hr
      · cases h₁
    · rw [(nodeInode_super ops h₁).2 (by simpa using hdir)]
      exact UInt64.le_refl _
  obtain ⟨⟨tbl, uidIdx⟩, -, h⟩ := except_bind_eq_ok.mp h
  obtain ⟨⟨tbl', gidIdx⟩, -, h⟩ := except_bind_eq_ok.mp h
  obtain ⟨w, hw, h⟩ := except_bind_eq_ok.mp h
  cases h
  exact UInt64.le_trans h₁' (hm.metaWriteInode hw)

theorem foldlM_grows {L : List (Option NodeInfo × TreeNode)} {st st' : SerState W}
    (h : L.foldlM (serializeStep ops) st = .ok st') :
    ops.getSize st.world ≤ ops.getSize st'.world := by
  induction L generalizing st with
  | nil => cases h; exact UInt64.le_refl _
  | cons x xs ih =>
    obtain ⟨st₁, h₁, h⟩ := except_bind_eq_ok.mp h
    exact UInt64.le_trans (serializeTreeNode_grows hm h₁) (ih h)

end Grows

/-- When no call of the writers shrinks the output file, a run of `sqfs_serialize_fstree` that
    returns 0 puts the start of the inode table no later than the start of the directory
    table. -/
theorem sqfsSerializeFstree_tables_ordered (hm : SizeMonotone ops) (fs : FsTree)
    (st st' : SerState W) (h : sqfsSerializeFstree ops fs st = .ok st') :
    st'.super.inodeTableStart ≤ st'.super.directoryTableStart := by
  obtain ⟨st₁, w₁, w₂, -, hfold, hw₁, hw₂, rfl⟩ := sqfsSerializeFstree_eq_fold ops h
  have hwalk := foldlM_grows hm hfold
  show st₁.super.inodeTableStart ≤ ops.getSize w₂
  rw [foldlM_super ops hfold]
  exact UInt64.le_trans hwalk (UInt64.le_trans (hm.metaFlushInodes hw₁) (hm.metaFlushDirs hw₂))

/-- The writers of `countingOps` over a file whose size saturates at `2^64 - 1`. -/
def sizeOps : SqfsOps Nat := { countingOps with getSize := fun w => (min w (2 ^ 64 - 1)).toUInt64 }

theorem sizeOps_getSize_le {a b : Nat} (h : a ≤ b) : sizeOps.getSize a ≤ sizeOps.getSize b := by
  show (min a (2 ^ 64 - 1)).toUInt64.toNat ≤ (min b (2 ^ 64 - 1)).toUInt64.toNat
  have hn : ∀ n : Nat, n.toUInt64.toNat = n % 2 ^ 64 := fun n => BitVec.toNat_ofNat ..
  rw [hn, hn]
  omega

theorem sizeOps_sizeMonotone : SizeMonotone sizeOps where
  dirBegin h := by cases h; exact UInt64.le_refl _
  dirAddEntry h := by cases h; exact UInt64.le_refl _
  dirEnd h := by cases h; exact UInt64.le_refl _
  metaWriteInode h := by cases h; exact sizeOps_getSize_le (Nat.le_add_right _ _)
  metaFlushInodes h := by cases h; exact UInt64.le_refl _
  metaFlushDirs h := by cases h; exact UInt64.le_refl _

def sizeResult : SerState Nat :=
  match sqfsSerializeFstree sizeOps exampleTree exampleState with
  | .ok st => st
  | .error _ => exampleState

theorem sqfsSerializeFstree_tables_ordered_example :
    SizeMonotone sizeOps ∧ sqfsSerializeFstree sizeOps exampleTree exampleState = .ok sizeResult ∧
      sizeResult.super.inodeTableStart ≤ sizeResult.super.directoryTableStart :=
  have h : sqfsSerializeFstree sizeOps exampleTree exampleState = .ok sizeResult := rfl
  ⟨sizeOps_sizeMonotone, h, sqfsSerializeFstree_tables_ordered sizeOps sizeOps_sizeMonotone
    exampleTree exampleState sizeResult h⟩

end Tar2Sqfs
