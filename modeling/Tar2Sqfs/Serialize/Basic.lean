import Tar2Sqfs.FsTree
import Tar2Sqfs.IdTable

set_option autoImplicit false

/-! # Serialising the tree (`serialize_fstree.c`)

`sqfs_serialize_fstree` walks the tree and emits one inode per node into the inode meta data
writer, directory listings into the directory writer, and records in every node the position its
inode was written at (`inode_ref`), which its parent's listing then refers to.

The rest of libsquashfs is not among the sources: the output file, the two meta data writers and
the directory writer are an abstract state `W` with the calls the serialiser makes on it
(`SqfsOps`), each of which may fail. The id table is the spec-level one of `IdTable.lean`.
Besides the C state, `SerState` keeps two records of the run: the `(child, inode_ref)` pairs handed
to `sqfs_dir_writer_add_entry` and the inodes handed to `sqfs_meta_writer_write_inode`, so that
what the serialiser emitted can be stated. -/

namespace Tar2Sqfs

/-- The libsquashfs calls of `serialize_fstree.c`, on an abstract state `W`:
    `outfile->get_size`; `sqfs_meta_writer_get_position`, `_write_inode` and `_flush` on the inode
    writer `im`; `sqfs_meta_writer_flush` and `sqfs_meta_write_write_to_file` on the directory
    writer `dm`; `sqfs_dir_writer_begin`, `_add_entry`, `_end` and `_create_inode`; and whether
    the `calloc` of `tree_node_to_inode` succeeds. -/
structure SqfsOps (W : Type) where
  getSize : W → UInt64
  metaGetPosition : W → UInt64 × UInt32
  metaWriteInode : W → SqfsInode → Except Int W
  metaFlushInodes : W → Except Int W
  metaFlushDirs : W → Except Int W
  metaWriteDirsToFile : W → Except Int W
  dirBegin : W → Except Int W
  dirAddEntry : W → String → UInt32 → UInt64 → UInt16 → Except Int W
  dirEnd : W → Except Int W
  dirCreateInode : W → UInt32 → UInt32 → Option SqfsInode
  calloc : W → Bool

/-- The state the serialiser works on (`sqfs_writer_t` and the nodes' written fields). -/
structure SerState (W : Type) where
  world : W
  super : Super
  idtbl : List UInt32
  /-- `data.file.user_ptr` of every regular file: its inode, left by the data writer. -/
  userPtr : NodeId → Option SqfsInode
  /-- The writes `n->inode_ref = ...` of this run, newest first. -/
  inodeRefs : List (NodeId × UInt64)
  /-- The children and `inode_ref`s handed to `sqfs_dir_writer_add_entry`, newest first. -/
  dirEntries : List (NodeId × UInt64)
  /-- The nodes whose inodes were handed to `sqfs_meta_writer_write_inode`, newest first. -/
  written : List (NodeInfo × SqfsInode)

variable {W : Type} (ops : SqfsOps W)

/-- `n->inode_ref`: the newest write of this run, else the value the node held before. -/
def SerState.inodeRefOf (st : SerState W) (n : NodeInfo) : UInt64 :=
  (st.inodeRefs.lookup n.nodeId).getD n.inodeRef

/-! ## The model -/

/-- `tree_node_to_inode`: the inode of a socket, fifo, symbolic link or device, or `none` when
    the allocation fails. A node of another type is not reachable here on an `FsTree`; the C code
    stops there on `assert(0)`. -/
def treeNodeToInode (allocOk : Bool) (info : NodeInfo) (target : String) (devno : UInt32) :
    Option SqfsInode :=
  if !allocOk then none else
  let t := info.mode &&& S_IFMT
  if t = S_IFSOCK then some { SqfsInode.zero .socket with nlink := info.linkCount }
  else if t = S_IFIFO then some { SqfsInode.zero .fifo with nlink := info.linkCount }
  else if t = S_IFLNK then
    some { SqfsInode.zero .slink with nlink := info.linkCount, target := target }
  else if t = S_IFBLK then
    some { SqfsInode.zero .bdev with nlink := info.linkCount, devno := devno }
  else if t = S_IFCHR then
    some { SqfsInode.zero .cdev with nlink := info.linkCount, devno := devno }
  else none

/-- The loop of `write_dir_entries`: one `sqfs_dir_writer_add_entry` per child, with its name,
    inode number, `inode_ref` and mode. -/
def addEntries (st : SerState W) : List TreeNode → Except Int (SerState W)
  | [] => pure st
  | c :: cs => do
    let ref := st.inodeRefOf c.info
    let w ← ops.dirAddEntry st.world c.info.name c.info.inodeNum ref c.info.mode
    addEntries { st with world := w, dirEntries := (c.info.nodeId, ref) :: st.dirEntries } cs

/-- `write_dir_entries`: the directory's listing, then its inode from the directory writer. -/
def writeDirEntries (st : SerState W) (info : NodeInfo) (parent : Option NodeInfo)
    (children : List TreeNode) : Except Int (SerState W × SqfsInode) := do
  let w ← ops.dirBegin st.world
  let st ← addEntries ops { st with world := w } children
  let w ← ops.dirEnd st.world
  match ops.dirCreateInode w info.xattrIdx ((parent.map (·.inodeNum)).getD 0) with
  | none => throw SQFS_ERROR_ALLOC
  | some inode => pure ({ st with world := w }, { inode with nlink := info.linkCount })

/-- The first half of `serialize_tree_node`: a directory's inode comes from `write_dir_entries`,
    a regular file's is taken out of `user_ptr`, any other node's is built. -/
def nodeInode (st : SerState W) (parent : Option NodeInfo) (n : TreeNode) :
    Except Int (SerState W × SqfsInode) :=
  if S_ISDIR n.info.mode then
    match writeDirEntries ops st n.info parent n.children with
    | .ok r => .ok r
    | .error _ => .error SQFS_ERROR_INTERNAL
  else if S_ISREG n.info.mode then
    match st.userPtr n.info.nodeId with
    | none => .error SQFS_ERROR_INTERNAL
    | some inode =>
      .ok ({ st with userPtr := Function.update st.userPtr n.info.nodeId none }, inode)
  else
    match treeNodeToInode (ops.calloc st.world) n.info n.target n.devno with
    | none => .error SQFS_ERROR_ALLOC
    | some inode => .ok (st, inode)

/-- `(block << 16) | offset`: an inode reference from a meta data writer position. -/
def packRef (pos : UInt64 × UInt32) : UInt64 := (pos.1 <<< 16) ||| pos.2.toUInt64

/-- `serialize_tree_node`: fill in the inode's header, look up the uid and gid, record the inode
    writer's position in `inode_ref` and write the inode. `parent` is `node->parent`. -/
def serializeTreeNode (st : SerState W) (parent : Option NodeInfo) (n : TreeNode) :
    Except Int (SerState W) := do
  let (st, inode) ← nodeInode ops st parent n
  let info := n.info
  let inode := sqfsInodeSetXattrIndex
    { inode with mode := info.mode, modTime := info.modTime, inodeNumber := info.inodeNum }
    info.xattrIdx
  let (idtbl, uidIdx) ← sqfsIdTableIdToIndex st.idtbl info.uid
  let (idtbl, gidIdx) ← sqfsIdTableIdToIndex idtbl info.gid
  let inode := { inode with uidIdx := uidIdx, gidIdx := gidIdx }
  let ref := packRef (ops.metaGetPosition st.world)
  let w ← ops.metaWriteInode st.world inode
  pure { st with world := w, idtbl := idtbl, inodeRefs := (info.nodeId, ref) :: st.inodeRefs,
                 written := (info, inode) :: st.written }

/-- The last loop of `serialize_recursive`: `serialize_tree_node` on every child, in order. -/
def serializeChildren (st : SerState W) (self : NodeInfo) (children : List TreeNode) :
    Except Int (SerState W) :=
  children.foldlM (fun st c => serializeTreeNode ops st (some self) c) st

mutual
/-- `serialize_recursive` on a directory: if it has a sub-directory, recurse into each, then
    serialise every child. It is only called on nodes whose mode says directory. -/
def serializeRecursive (st : SerState W) : TreeNode → Except Int (SerState W)
  | .dir info children => do
    let st ← (if children.any (fun c => S_ISDIR c.info.mode) then serializeSubdirs st children
      else pure st)
    serializeChildren ops st info children
  | .leaf .. => pure st

/-- The second loop of `serialize_recursive`: recurse into every child that is a directory. -/
def serializeSubdirs (st : SerState W) : List TreeNode → Except Int (SerState W)
  | [] => pure st
  | c :: cs => do
    let st ← (if S_ISDIR c.info.mode then serializeRecursive st c else pure st)
    serializeSubdirs st cs
end

/-- `sqfs_serialize_fstree`: the whole tree, the root last, then the writers are flushed, the
    root's reference and the directory table's start go into the superblock, and the directory
    table is appended to the file. -/
def sqfsSerializeFstree (fs : FsTree) (st : SerState W) : Except Int (SerState W) := do
  let st := { st with super := { st.super with inodeTableStart := ops.getSize st.world } }
  let st ← (if S_ISDIR fs.root.info.mode then serializeRecursive ops st fs.root else pure st)
  let st ← serializeTreeNode ops st none fs.root
  let w ← ops.metaFlushInodes st.world
  let w ← ops.metaFlushDirs w
  let st := { st with world := w,
                      super := { st.super with rootInodeRef := st.inodeRefOf fs.root.info,
                                               directoryTableStart := ops.getSize w } }
  let w ← ops.metaWriteDirsToFile st.world
  pure { st with world := w }

/-! ## One call at a time -/

/-- The entries `write_dir_entries` hands over for `n` when run in `st`, newest first: every
    child with the `inode_ref` it holds there. None unless `n`'s mode says directory. -/
def SerState.listing (st : SerState W) (n : TreeNode) : List (NodeId × UInt64) :=
  if S_ISDIR n.info.mode then
    (n.children.map fun c => (c.info.nodeId, st.inodeRefOf c.info)).reverse
  else []

theorem addEntries_ok {st st' : SerState W} {cs : List TreeNode}
    (h : addEntries ops st cs = .ok st') :
    ∃ w, st' = { st with world := w, dirEntries :=
      (cs.map fun c => (c.info.nodeId, st.inodeRefOf c.info)).reverse ++ st.dirEntries } := by
  induction cs generalizing st with
  | nil => exact ⟨st.world, by cases h; rfl⟩
  | cons c cs ih =>
    obtain ⟨w, -, h⟩ := except_bind_eq_ok.mp h
    obtain ⟨w', rfl⟩ := ih h
    exact ⟨w', by simp [SerState.inodeRefOf]⟩

theorem writeDirEntries_ok {st st' : SerState W} {info : NodeInfo} {parent : Option NodeInfo}
    {cs : List TreeNode} {inode : SqfsInode}
    (h : writeDirEntries ops st info parent cs = .ok (st', inode)) :
    ∃ w, st' = { st with world := w, dirEntries :=
      (cs.map fun c => (c.info.nodeId, st.inodeRefOf c.info)).reverse ++ st.dirEntries } := by
  obtain ⟨w, -, h⟩ := except_bind_eq_ok.mp h
  obtain ⟨st₁, h₁, h⟩ := except_bind_eq_ok.mp h
  obtain ⟨w₁, rfl⟩ := addEntries_ok ops h₁
  obtain ⟨w₂, -, h⟩ := except_bind_eq_ok.mp h
  split at h
  · cases h
  · cases h
    exact ⟨w₂, by simp [SerState.inodeRefOf]⟩

/-- Making a node's inode changes, of what the later steps read, only the directory writer's
    record (and `user_ptr`). -/
theorem nodeInode_ok {st st' : SerState W} {parent : Option NodeInfo} {n : TreeNode}
    {inode : SqfsInode} (h : nodeInode ops st parent n = .ok (st', inode)) :
    st'.inodeRefs = st.inodeRefs ∧ st'.idtbl = st.idtbl ∧ st'.written = st.written ∧
      st'.dirEntries = st.listing n ++ st.dirEntries := by
  unfold nodeInode at h
  split at h
  · next hdir =>
    split at h
    · next r hr =>
      cases h
      obtain ⟨w, rfl⟩ := writeDirEntries_ok ops hr
      simp [SerState.listing, hdir]
    · cases h
  · next hdir =>
    have hl : st.listing n = [] := by simp [SerState.listing, hdir]
    split at h
    · split at h
      · cases h
      · cases h; simp [hl]
    · split at h
      · cases h
      · cases h; simp [hl]

/-- What one successful `serialize_tree_node` does: it looks up the node's uid and then its gid,
    emits one inode carrying the two indices, records as the node's `inode_ref` the inode writer's
    position just before that write, and hands the directory writer the node's listing. -/
theorem serializeTreeNode_ok {st st' : SerState W} {parent : Option NodeInfo} {n : TreeNode}
    (h : serializeTreeNode ops st parent n = .ok st') :
    ∃ w inode tbl, ops.metaWriteInode w inode = .ok st'.world ∧
      sqfsIdTableIdToIndex st.idtbl n.info.uid = .ok (tbl, inode.uidIdx) ∧
      sqfsIdTableIdToIndex tbl n.info.gid = .ok (st'.idtbl, inode.gidIdx) ∧
      st'.inodeRefs = (n.info.nodeId, packRef (ops.metaGetPosition w)) :: st.inodeRefs ∧
      st'.written = (n.info, inode) :: st.written ∧
      st'.dirEntries = st.listing n ++ st.dirEntries := by
  obtain ⟨⟨st₁, inode⟩, h₁, h⟩ := except_bind_eq_ok.mp h
  obtain ⟨hrefs, htbl, hwr, hdirs⟩ := nodeInode_ok ops h₁
  obtain ⟨⟨tbl, uidIdx⟩, hu, h⟩ := except_bind_eq_ok.mp h
  obtain ⟨⟨tbl', gidIdx⟩, hg, h⟩ := except_bind_eq_ok.mp h
  obtain ⟨w, hw, h⟩ := except_bind_eq_ok.mp h
  cases h
  exact ⟨st₁.world, _, tbl, hw, htbl ▸ hu, hg, by rw [hrefs], by rw [hwr], by rw [hdirs]⟩

end Tar2Sqfs
