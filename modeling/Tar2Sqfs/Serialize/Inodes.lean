import Tar2Sqfs.Serialize.Order

set_option autoImplicit false

/-! # The inodes a run emits

`serialize_tree_node` takes a node's inode from one of three places, by the node's mode: the
directory writer, after `write_dir_entries` has written the listing; the data writer's
`user_ptr`, which it then clears, for a regular file; or `tree_node_to_inode` for any other node.
Whatever the source, it copies the node's mode, modification time, inode number and xattr index
into the inode's header. `InodeOf` says all of this of one inode, `serializeTreeNode_inodeOf`
shows that each call emits one such inode, and over the fold of `Order.lean`
`sqfsSerializeFstree_inodes` gives every node of the tree one: each directory's made with its
parent's inode number (0 for the root), each regular file's the one its `user_ptr` held before
the run. After the run, `user_ptr` has exactly the entries of the tree's regular files cleared
(`sqfsSerializeFstree_userPtr`).

File types are compared up to the basic/extended distinction (`InodeType.basic`): libsquashfs
may turn an inode into its extended type when it records an xattr index. -/

namespace Tar2Sqfs

open TreeNode List

/-- The file type of an inode type, extended or not. -/
def InodeType.basic : InodeType → InodeType
  | .extDir => .dir
  | .extFile => .file
  | .extSlink => .slink
  | .extBdev => .bdev
  | .extCdev => .cdev
  | .extFifo => .fifo
  | .extSocket => .socket
  | t => t

/-- The inode type `tree_node_to_inode` gives a node of mode `mode`: `none` unless the mode names a
    socket, a fifo, a symbolic link or a device. -/
def leafInodeType (mode : UInt16) : Option InodeType :=
  let t := mode &&& S_IFMT
  if t = S_IFSOCK then some .socket
  else if t = S_IFIFO then some .fifo
  else if t = S_IFLNK then some .slink
  else if t = S_IFBLK then some .bdev
  else if t = S_IFCHR then some .cdev
  else none

/-- What `tree_node_to_inode` fills in: the type the node's mode names, its link count, and a
    link's target or a device's number. -/
def LeafInodeOf (n : TreeNode) (inode : SqfsInode) : Prop :=
  ∃ t, leafInodeType n.info.mode = some t ∧ inode.type.basic = t ∧
    inode.nlink = n.info.linkCount ∧ (t = .slink → inode.target = n.target) ∧
    (t = .bdev ∨ t = .cdev → inode.devno = n.devno)

theorem treeNodeToInode_some {allocOk : Bool} {n : TreeNode} {inode : SqfsInode}
    (h : treeNodeToInode allocOk n.info n.target n.devno = some inode) : LeafInodeOf n inode := by
  dsimp only [treeNodeToInode] at h
  by_cases ha : (!allocOk) = true
  · rw [if_pos ha] at h
    cases h
  rw [if_neg ha] at h
  by_cases h₁ : n.info.mode &&& S_IFMT = S_IFSOCK
  · rw [if_pos h₁] at h
    cases h
    exact ⟨.socket, by rw [leafInodeType, if_pos h₁], rfl, rfl, nofun, nofun⟩
  rw [if_neg h₁] at h
  by_cases h₂ : n.info.mode &&& S_IFMT = S_IFIFO
  · rw [if_pos h₂] at h
    cases h
    exact ⟨.fifo, by rw [leafInodeType, if_neg h₁, if_pos h₂], rfl, rfl, nofun, nofun⟩
  rw [if_neg h₂] at h
  by_cases h₃ : n.info.mode &&& S_IFMT = S_IFLNK
  · rw [if_pos h₃] at h
    cases h
    exact ⟨.slink, by rw [leafInodeType, if_neg h₁, if_neg h₂, if_pos h₃], rfl, rfl,
      fun _ => rfl, nofun⟩
  rw [if_neg h₃] at h
  by_cases h₄ : n.info.mode &&& S_IFMT = S_IFBLK
  · rw [if_pos h₄] at h
    cases h
    exact ⟨.bdev, by rw [leafInodeType, if_neg h₁, if_neg h₂, if_neg h₃, if_pos h₄], rfl, rfl,
      nofun, fun _ => rfl⟩
  rw [if_neg h₄] at h
  by_cases h₅ : n.info.mode &&& S_IFMT = S_IFCHR
  · rw [if_pos h₅] at h
    cases h
    exact ⟨.cdev, by rw [leafInodeType, if_neg h₁, if_neg h₂, if_neg h₃, if_neg h₄, if_pos h₅],
      rfl, rfl, nofun, fun _ => rfl⟩
  rw [if_neg h₅] at h
  cases h

theorem S_ISDIR_eq_false_of_S_ISREG {m : UInt16} (h : S_ISREG m = true) : S_ISDIR m = false := by
  simp only [S_ISREG, S_ISDIR, beq_iff_eq] at h ⊢
  rw [h]
  decide

/-! ## `user_ptr` after the serialiser -/

/-- `user_ptr` with the entries of the regular files among `ns` cleared. -/
def clearRegular (ns : List TreeNode) (ptr : NodeId → Option SqfsInode) :
    NodeId → Option SqfsInode :=
  fun id => if ns.any (fun n => n.info.nodeId == id && S_ISREG n.info.mode) then none else ptr id

@[simp] theorem clearRegular_nil (ptr : NodeId → Option SqfsInode) : clearRegular [] ptr = ptr :=
  rfl

theorem clearRegular_cons (n : TreeNode) (ns : List TreeNode) (ptr : NodeId → Option SqfsInode) :
    clearRegular (n :: ns) ptr = clearRegular ns (clearRegular [n] ptr) := by
  funext id
  simp only [clearRegular, List.any_cons, List.any_nil, Bool.or_false, Bool.or_eq_true]
  by_cases h : (n.info.nodeId == id && S_ISREG n.info.mode) = true <;> simp [h]

theorem clearRegular_of_not_reg {n : TreeNode} (h : S_ISREG n.info.mode = false)
    (ptr : NodeId → Option SqfsInode) : clearRegular [n] ptr = ptr := by
  funext id
  simp [clearRegular, h]

theorem clearRegular_of_reg {n : TreeNode} (h : S_ISREG n.info.mode = true)
    (ptr : NodeId → Option SqfsInode) :
    clearRegular [n] ptr = Function.update ptr n.info.nodeId none := by
  funext id
  by_cases hid : id = n.info.nodeId
  · subst hid
    simp [clearRegular, h]
  · simp [clearRegular, Function.update_noteq hid, Ne.symm hid]

theorem clearRegular_of_ne {n : TreeNode} {ptr : NodeId → Option SqfsInode} {id : NodeId}
    (h : n.info.nodeId ≠ id) : clearRegular [n] ptr id = ptr id := by
  simp [clearRegular, h]

/-- Only the members matter, not their order. -/
theorem clearRegular_perm {ns ns' : List TreeNode} (h : ns.Perm ns') :
    clearRegular ns = clearRegular ns' := by
  funext ptr id
  have hany : ns.any (fun n => n.info.nodeId == id && S_ISREG n.info.mode) =
      ns'.any (fun n => n.info.nodeId == id && S_ISREG n.info.mode) :=
    Bool.eq_iff_iff.mpr (by simp only [List.any_eq_true, h.mem_iff])
  simp only [clearRegular, hany]

variable {W : Type} (ops : SqfsOps W)

/-- What the inode `serialize_tree_node` emits for `n` says of it, when `n`'s parent is `parent`
    and `user_ptr` held `ptr`: the header is the node's; a directory's inode is the directory
    writer's, made with the node's xattr index and its parent's inode number (0 for the root),
    with the node's link count; a regular file's is the data writer's from `user_ptr`; any other
    node's is what `tree_node_to_inode` builds. -/
structure InodeOf (ptr : NodeId → Option SqfsInode) (parent : Option NodeInfo) (n : TreeNode)
    (inode : SqfsInode) : Prop where
  mode : inode.mode = n.info.mode
  modTime : inode.modTime = n.info.modTime
  inodeNumber : inode.inodeNumber = n.info.inodeNum
  xattrIdx : inode.xattrIdx = n.info.xattrIdx
  dir : S_ISDIR n.info.mode = true → inode.nlink = n.info.linkCount ∧
    ∃ w i₀, ops.dirCreateInode w n.info.xattrIdx ((parent.map (·.inodeNum)).getD 0) = some i₀ ∧
      inode.type.basic = i₀.type.basic
  reg : S_ISREG n.info.mode = true →
    ∃ i₀, ptr n.info.nodeId = some i₀ ∧ inode.type.basic = i₀.type.basic ∧ inode.nlink = i₀.nlink
  leaf : S_ISDIR n.info.mode = false → S_ISREG n.info.mode = false → LeafInodeOf n inode

/-- `InodeOf` reads `user_ptr` at the node's own entry only. -/
theorem InodeOf.congr_ptr {ptr ptr' : NodeId → Option SqfsInode} {parent : Option NodeInfo}
    {n : TreeNode} {inode : SqfsInode} (h : InodeOf ops ptr parent n inode)
    (hptr : ptr' n.info.nodeId = ptr n.info.nodeId) : InodeOf ops ptr' parent n inode :=
  { h with reg := fun hr => hptr ▸ h.reg hr }

/-- The inode of `write_dir_entries`: the directory writer's, with the node's link count. -/
theorem writeDirEntries_inode {st st' : SerState W} {info : NodeInfo} {parent : Option NodeInfo}
    {cs : List TreeNode} {inode : SqfsInode}
    (h : writeDirEntries ops st info parent cs = .ok (st', inode)) :
    inode.nlink = info.linkCount ∧
      ∃ w i₀, ops.dirCreateInode w info.xattrIdx ((parent.map (·.inodeNum)).getD 0) = some i₀ ∧
        inode.type = i₀.type := by
  obtain ⟨w₁, -, h⟩ := except_bind_eq_ok.mp h
  obtain ⟨st₁, -, h⟩ := except_bind_eq_ok.mp h
  obtain ⟨w, -, h⟩ := except_bind_eq_ok.mp h
  split at h
  · cases h
  · next i₀ hi =>
    cases h
    exact ⟨rfl, w, i₀, hi, rfl⟩

/-- Where `serialize_tree_node` takes a node's inode from, and what that does to `user_ptr`: only
    a regular file's own entry is cleared. -/
theorem nodeInode_spec {st st' : SerState W} {parent : Option NodeInfo} {n : TreeNode}
    {inode : SqfsInode} (h : nodeInode ops st parent n = .ok (st', inode)) :
    (S_ISDIR n.info.mode = true → inode.nlink = n.info.linkCount ∧
      ∃ w i₀, ops.dirCreateInode w n.info.xattrIdx ((parent.map (·.inodeNum)).getD 0) = some i₀ ∧
        inode.type = i₀.type) ∧
    (S_ISREG n.info.mode = true → st.userPtr n.info.nodeId = some inode) ∧
    (S_ISDIR n.info.mode = false → S_ISREG n.info.mode = false → LeafInodeOf n inode) ∧
    st'.userPtr = clearRegular [n] st.userPtr := by
  unfold nodeInode at h
  split at h
  · next hdir =>
    have hreg : S_ISREG n.info.mode = false :=
      Bool.eq_false_iff.mpr fun hr => by simp [S_ISDIR_eq_false_of_S_ISREG hr] at hdir
    split at h
    · next r hr =>
      cases h
      obtain ⟨w, rfl⟩ := writeDirEntries_ok ops hr
      exact ⟨fun _ => writeDirEntries_inode ops hr, by simp [hreg], by simp [hdir],
        (clearRegular_of_not_reg hreg _).symm⟩
    · cases h
  · next hdir =>
    split at h
    · next hreg =>
      split at h
      · cases h
      · next i₀ hi =>
        cases h
        exact ⟨by simp [hdir], fun _ => hi, by simp [hreg], (clearRegular_of_reg hreg _).symm⟩
    · next hreg =>
      split at h
      · cases h
      · next i₀ hi =>
        cases h
        exact ⟨by simp [hdir], by simp [hreg], fun _ _ => treeNodeToInode_some hi,
          (clearRegular_of_not_reg (Bool.eq_false_iff.mpr hreg) _).symm⟩

/-- One `serialize_tree_node` emits one inode, which says of its node what `InodeOf` says, and
    clears the node's `user_ptr` if it is a regular file. -/
theorem serializeTreeNode_inodeOf {st st' : SerState W} {parent : Option NodeInfo} {n : TreeNode}
    (h : serializeTreeNode ops st parent n = .ok st') :
    ∃ inode, st'.written = (n.info, inode) :: st.written ∧ InodeOf ops st.userPtr parent n inode ∧
      st'.userPtr = clearRegular [n] st.userPtr := by
  obtain ⟨⟨st₁, inode⟩, h₁, h⟩ := except_bind_eq_ok.mp h
  obtain ⟨-, -, hwr, -⟩ := nodeInode_ok ops h₁
  obtain ⟨hdir, hreg, hleaf, hptr⟩ := nodeInode_spec ops h₁
  obtain ⟨⟨tbl, uidIdx⟩, -, h⟩ := except_bind_eq_ok.mp h
  obtain ⟨⟨tbl', gidIdx⟩, -, h⟩ := except_bind_eq_ok.mp h
  obtain ⟨w, -, h⟩ := except_bind_eq_ok.mp h
  cases h
  refine ⟨_, by rw [hwr], ⟨rfl, rfl, rfl, rfl, fun hd => ?_, fun hr => ?_, fun hd hr => ?_⟩, hptr⟩
  · obtain ⟨hn, w, i₀, hi, ht⟩ := hdir hd
    exact ⟨hn, w, i₀, hi, congrArg InodeType.basic ht⟩
  · exact ⟨inode, hreg hr, rfl, rfl⟩
  · exact hleaf hd hr

/-! ## Over the fold -/

/-- Over a fold, `user_ptr` ends with the entries of the regular files walked cleared. -/
theorem foldlM_userPtr {L : List (Option NodeInfo × TreeNode)} {st st' : SerState W}
    (h : L.foldlM (serializeStep ops) st = .ok st') :
    st'.userPtr = clearRegular (L.map (·.2)) st.userPtr := by
  induction L generalizing st with
  | nil => cases h; rfl
  | cons x xs ih =>
    obtain ⟨st₁, h₁, h⟩ := except_bind_eq_ok.mp h
    obtain ⟨-, -, -, hptr⟩ := serializeTreeNode_inodeOf ops h₁
    rw [ih h, hptr, List.map_cons, clearRegular_cons x.2 (xs.map (·.2))]

/-- A write of another node's `inode_ref` leaves this node's alone. -/
theorem SerState.inodeRefOf_of_cons {st st' : SerState W} {id : NodeId} {ref : UInt64}
    {n : NodeInfo} (h : st'.inodeRefs = (id, ref) :: st.inodeRefs) (hne : id ≠ n.nodeId) :
    st'.inodeRefOf n = st.inodeRefOf n := by
  have hbeq : (n.nodeId == id) = false := beq_false_of_ne (Ne.symm hne)
  simp only [SerState.inodeRefOf, h, List.lookup_cons, hbeq]

/-- A fold that walks other nodes leaves a node's `inode_ref` alone. -/
theorem foldlM_inodeRefOf_of_not_mem {L : List (Option NodeInfo × TreeNode)} {st st' : SerState W}
    (h : L.foldlM (serializeStep ops) st = .ok st') {n : NodeInfo}
    (hn : n.nodeId ∉ L.map (·.2.info.nodeId)) : st'.inodeRefOf n = st.inodeRefOf n := by
  induction L generalizing st with
  | nil => cases h; rfl
  | cons x xs ih =>
    obtain ⟨st₁, h₁, h⟩ := except_bind_eq_ok.mp h
    obtain ⟨_, _, _, -, -, -, hrefs, -, -⟩ := serializeTreeNode_ok ops h₁
    rw [List.map_cons, List.mem_cons, not_or] at hn
    rw [ih h hn.2, SerState.inodeRefOf_of_cons hrefs (Ne.symm hn.1)]

/-- Over a fold that walks distinct nodes, every entry's node gets an inode that says of it what
    `InodeOf` says against `user_ptr` as it was before the fold, written when the inode writer
    was at `w`, and ends the fold with that position, packed, as its `inode_ref`. -/
theorem foldlM_inodeRef {L : List (Option NodeInfo × TreeNode)} {st st' : SerState W}
    (hnd : (L.map (·.2.info.nodeId)).Nodup) (h : L.foldlM (serializeStep ops) st = .ok st') :
    ∀ e ∈ L, ∃ w inode w', (e.2.info, inode) ∈ st'.written ∧ InodeOf ops st.userPtr e.1 e.2 inode ∧
      ops.metaWriteInode w inode = .ok w' ∧
      st'.inodeRefOf e.2.info = packRef (ops.metaGetPosition w) := by
  induction L generalizing st with
  | nil => exact fun _ he => nomatch he
  | cons x xs ih =>
    obtain ⟨st₁, h₁, hrest⟩ := except_bind_eq_ok.mp h
    obtain ⟨w, inode, -, hw, -, -, hrefs, hwr, -⟩ := serializeTreeNode_ok ops h₁
    obtain ⟨inode', hwr', hof, hptr⟩ := serializeTreeNode_inodeOf ops h₁
    obtain rfl : inode' = inode := by simpa using hwr'.symm.trans hwr
    rw [List.map_cons, List.nodup_cons] at hnd
    intro e he
    rcases List.mem_cons.mp he with rfl | he
    · -- the node this call walks: no later call writes its `inode_ref`
      refine ⟨w, inode', st₁.world,
        (foldlM_written_suffix ops hrest).subset (hwr ▸ List.mem_cons_self ..), hof, hw, ?_⟩
      rw [foldlM_inodeRefOf_of_not_mem ops hrest hnd.1]
      simp [SerState.inodeRefOf, hrefs]
    · obtain ⟨w₂, inode₂, w₂', hmem, hof₂, hw₂, href⟩ := ih hnd.2 hrest e he
      have hne : x.2.info.nodeId ≠ e.2.info.nodeId :=
        fun heq => hnd.1 (heq ▸ List.mem_map_of_mem _ he)
      exact ⟨w₂, inode₂, w₂', hmem, hof₂.congr_ptr ops (by rw [hptr, clearRegular_of_ne hne]), hw₂,
        href⟩

/-- Over a fold that walks distinct nodes, every entry's node gets an inode that says of it what
    `InodeOf` says against `user_ptr` as it was before the fold. -/
theorem foldlM_inodeOf {L : List (Option NodeInfo × TreeNode)} {st st' : SerState W}
    (hnd : (L.map (·.2.info.nodeId)).Nodup) (h : L.foldlM (serializeStep ops) st = .ok st') :
    ∀ e ∈ L, ∃ inode, (e.2.info, inode) ∈ st'.written ∧ InodeOf ops st.userPtr e.1 e.2 inode :=
  fun e he =>
    have ⟨_, inode, _, hmem, hof, _⟩ := foldlM_inodeRef ops hnd h e he
    ⟨inode, hmem, hof⟩

/-! ## Parents -/

mutual
/-- The walk of `t` hands every child of a directory below `t` over with that directory as its
    parent. -/
theorem child_mem_serializeOrder : ∀ t : TreeNode, (∀ n ∈ t.nodes, n.modeOk) →
    ∀ d ∈ t.nodes, ∀ c ∈ d.children, (some d.info, c) ∈ t.serializeOrder
  | .dir info cs, hok, d, hd, c, hc => by
    rcases List.mem_cons.mp ((nodes_dir info cs) ▸ hd) with rfl | hd
    · exact List.mem_append_right _ (List.mem_map_of_mem _ hc)
    · exact List.mem_append_left _
        (child_mem_subdirsOrder cs (fun n hn => hok n (by simp [hn])) d hd c hc)
  | .leaf .., _, d, hd, c, hc => by
    simp only [nodes_leaf, List.mem_singleton] at hd
    subst hd
    simp at hc

theorem child_mem_subdirsOrder : ∀ cs : List TreeNode, (∀ n ∈ nodesOf cs, n.modeOk) →
    ∀ d ∈ nodesOf cs, ∀ c ∈ d.children, (some d.info, c) ∈ subdirsOrder cs
  | [], _, d, hd, _, _ => by simp at hd
  | c' :: cs, hok, d, hd, c, hc => by
    rw [subdirsOrder_cons]
    rcases List.mem_append.mp ((nodesOf_cons c' cs) ▸ hd) with hd | hd
    · have hc' : ∀ n ∈ c'.nodes, n.modeOk := fun n hn => hok n (by simp [hn])
      refine List.mem_append_left _ ?_
      rw [S_ISDIR_of_modeOk (hc' c' (self_mem_nodes c'))]
      cases c' with
      | dir info ccs => exact child_mem_serializeOrder _ hc' d hd c hc
      | leaf info t dv =>
        simp only [nodes_leaf, List.mem_singleton] at hd
        subst hd
        simp at hc
    · exact List.mem_append_right _
        (child_mem_subdirsOrder cs (fun n hn => hok n (by simp [hn])) d hd c hc)
end

/-- `sqfs_serialize_fstree` hands the root over with no parent and every other node with the
    directory that holds it. -/
theorem child_mem_fstreeOrder (fs : FsTree) :
    (none, fs.root) ∈ fstreeOrder fs.root ∧
      ∀ d ∈ fs.root.nodes, ∀ c ∈ d.children, (some d.info, c) ∈ fstreeOrder fs.root := by
  refine ⟨by simp [fstreeOrder], fun d hd c hc => List.mem_append_left _ ?_⟩
  rw [S_ISDIR_of_modeOk (fs.modes_ok _ (self_mem_nodes _))]
  cases hroot : fs.root with
  | dir info cs => exact child_mem_serializeOrder _ (hroot ▸ fs.modes_ok) d (hroot ▸ hd) c hc
  | leaf info t dv =>
    rw [hroot, nodes_leaf, List.mem_singleton] at hd
    subst hd
    simp at hc

/-- The walk of a tree hands over distinct nodes. -/
theorem fstreeOrder_nodup (fs : FsTree) :
    ((fstreeOrder fs.root).map (·.2.info.nodeId)).Nodup := by
  have h : (((fstreeOrder fs.root).map (·.2)).map fun n : TreeNode => n.info.nodeId).Nodup :=
    ((fstreeOrder_perm fs.root fs.modes_ok).map _).nodup_iff.mpr fs.ids_nodup
  simpa [Function.comp_def] using h

/-! ## A whole run -/

/-- After the fold, `sqfs_serialize_fstree` flushes the two writers, fills in the root's
    reference and the directory table's start, and appends the directory table. -/
theorem sqfsSerializeFstree_eq_fold {fs : FsTree} {st st' : SerState W}
    (h : sqfsSerializeFstree ops fs st = .ok st') :
    ∃ st₁ w₁ w₂ w₃, (fstreeOrder fs.root).foldlM (serializeStep ops)
        { st with super := { st.super with inodeTableStart := ops.getSize st.world } } = .ok st₁ ∧
      ops.metaFlushInodes st₁.world = .ok w₁ ∧ ops.metaFlushDirs w₁ = .ok w₂ ∧
      st' = { st₁ with world := w₃,
                       super := { st₁.super with rootInodeRef := st₁.inodeRefOf fs.root.info,
                                                 directoryTableStart := ops.getSize w₂ } } := by
  obtain ⟨st₀, h₀, h⟩ := except_bind_eq_ok.mp h
  obtain ⟨st₁, h₁, h⟩ := except_bind_eq_ok.mp h
  obtain ⟨w₁, hw₁, h⟩ := except_bind_eq_ok.mp h
  obtain ⟨w₂, hw₂, h⟩ := except_bind_eq_ok.mp h
  obtain ⟨w₃, -, h⟩ := except_bind_eq_ok.mp h
  cases h
  refine ⟨st₁, w₁, w₂, w₃, ?_, hw₁, hw₂, rfl⟩
  rw [rootWalk_eq] at h₀
  rw [fstreeOrder, List.foldlM_append, h₀]
  simpa [serializeStep] using h₁

/-- A run of `sqfs_serialize_fstree` that returns 0 emits for every node an inode that carries
    the node's mode, modification time, inode number and xattr index. A directory's inode is the
    directory writer's, made with its xattr index and its parent's inode number (0 for the root),
    with its link count; a regular file's is the one its `user_ptr` held, so a file without one
    fails the run; a socket's, fifo's, link's or device's has the type its mode names, its link
    count, and its target or device number. -/
theorem sqfsSerializeFstree_inodes (fs : FsTree) (st st' : SerState W)
    (h : sqfsSerializeFstree ops fs st = .ok st') :
    (∃ inode, (fs.root.info, inode) ∈ st'.written ∧ InodeOf ops st.userPtr none fs.root inode) ∧
      ∀ d ∈ fs.root.nodes, ∀ c ∈ d.children,
        ∃ inode, (c.info, inode) ∈ st'.written ∧ InodeOf ops st.userPtr (some d.info) c inode := by
  obtain ⟨st₁, -, -, -, hfold, -, -, rfl⟩ := sqfsSerializeFstree_eq_fold ops h
  obtain ⟨hroot, hchild⟩ := child_mem_fstreeOrder fs
  have hall := foldlM_inodeOf ops (fstreeOrder_nodup fs) hfold
  exact ⟨hall _ hroot, fun d hd c hc => hall _ (hchild d hd c hc)⟩

theorem sqfsSerializeFstree_inodes_example :
    sqfsSerializeFstree countingOps exampleTree exampleState = .ok exampleResult ∧
      (∃ inode, (exampleTree.root.info, inode) ∈ exampleResult.written ∧
        InodeOf countingOps exampleState.userPtr none exampleTree.root inode) ∧
      ∀ d ∈ exampleTree.root.nodes, ∀ c ∈ d.children, ∃ inode,
        (c.info, inode) ∈ exampleResult.written ∧
          InodeOf countingOps exampleState.userPtr (some d.info) c inode :=
  have h : sqfsSerializeFstree countingOps exampleTree exampleState = .ok exampleResult := rfl
  ⟨h, sqfsSerializeFstree_inodes countingOps exampleTree exampleState exampleResult h⟩

/-- After a run of `sqfs_serialize_fstree` that returns 0, `user_ptr` is what it was with the
    entries of exactly the tree's regular files cleared: every file's inode was handed over and
    freed, and no other entry was touched. -/
theorem sqfsSerializeFstree_userPtr (fs : FsTree) (st st' : SerState W)
    (h : sqfsSerializeFstree ops fs st = .ok st') :
    st'.userPtr = clearRegular fs.root.nodes st.userPtr := by
  obtain ⟨st₁, -, -, -, hfold, -, -, rfl⟩ := sqfsSerializeFstree_eq_fold ops h
  rw [foldlM_userPtr ops hfold, clearRegular_perm (fstreeOrder_perm fs.root fs.modes_ok)]

theorem sqfsSerializeFstree_userPtr_example :
    sqfsSerializeFstree countingOps exampleTree exampleState = .ok exampleResult ∧
      exampleResult.userPtr = clearRegular exampleTree.root.nodes exampleState.userPtr :=
  have h : sqfsSerializeFstree countingOps exampleTree exampleState = .ok exampleResult := rfl
  ⟨h, sqfsSerializeFstree_userPtr countingOps exampleTree exampleState exampleResult h⟩

/-! ## Inode references

`serialize_tree_node` records as a node's `inode_ref` the inode writer's position `(block, offset)`
packed as `(block << 16) | offset`, just before it writes the node's inode; the directory entries
and the superblock's root reference are these values. A reader takes a reference apart again into
the upper 48 and the lower 16 bits, which gives back the position whenever the offset fits in 16
bits and the block in 48 (`unpackRef_packRef`). So when the inode writer's positions fit, every
reference a run records locates the inode it wrote for that node
(`sqfsSerializeFstree_inodeRefs_decode`). -/

/-- Modelled from the spec: a reader takes an inode reference apart into the start of its meta
    data block (the upper 48 bits) and the offset in that block (the lower 16). -/
def unpackRef (ref : UInt64) : UInt64 × UInt32 := (ref >>> 16, (ref &&& 0xFFFF).toUInt32)

theorem packRef_toNat {b : UInt64} {o : UInt32} (hb : b.toNat < 2 ^ 48) (ho : o.toNat < 2 ^ 16) :
    (packRef (b, o)).toNat = 2 ^ 16 * b.toNat + o.toNat := by
  have hsh : (b <<< 16).toNat = 2 ^ 16 * b.toNat := by
    show (b.toBitVec <<< (16 : BitVec 64)).toNat = _
    rw [BitVec.shiftLeft_eq', BitVec.toNat_shiftLeft]
    simp only [Nat.shiftLeft_eq]
    show b.toNat * 2 ^ 16 % 2 ^ 64 = _
    rw [Nat.mod_eq_of_lt (by omega), Nat.mul_comm]
  have hor : (packRef (b, o)).toNat = (b <<< 16).toNat ||| o.toNat := BitVec.toNat_or ..
  rw [hor, hsh, ← Nat.mul_add_lt_is_or ho]

/-- An inode reference decodes to the position it was packed from, when the offset fits in 16
    bits and the block in 48. -/
theorem unpackRef_packRef {b : UInt64} {o : UInt32} (hb : b.toNat < 2 ^ 48)
    (ho : o.toNat < 2 ^ 16) : unpackRef (packRef (b, o)) = (b, o) := by
  have h := packRef_toNat hb ho
  refine Prod.ext ?_ ?_
  · apply UInt64.toNat.inj
    show (packRef (b, o)).toNat >>> 16 = b.toNat
    rw [Nat.shiftRight_eq_div_pow, h]
    omega
  · apply UInt32.toNat.inj
    show (packRef (b, o) &&& 0xFFFF).toNat % 2 ^ 32 = o.toNat
    rw [UInt64.and_toNat, h, show (0xFFFF : UInt64).toNat = 2 ^ 16 - 1 from rfl,
      Nat.and_pow_two_sub_one_eq_mod]
    omega

/-- The inode writer's positions fit an inode reference. -/
def PositionsFit : Prop :=
  ∀ w, (ops.metaGetPosition w).1.toNat < 2 ^ 48 ∧ (ops.metaGetPosition w).2.toNat < 2 ^ 16

/-- The reference `p.2` recorded for node `p.1` decodes to the position at which the inode writer
    was when it wrote an inode of that node, among `written`. -/
def RefLocates (written : List (NodeInfo × SqfsInode)) (p : NodeId × UInt64) : Prop :=
  ∃ w info inode w', info.nodeId = p.1 ∧ (info, inode) ∈ written ∧
    ops.metaWriteInode w inode = .ok w' ∧ unpackRef p.2 = ops.metaGetPosition w

/-- Over a fold, every reference recorded in it locates the inode written with it. -/
theorem foldlM_refLocates (hfit : PositionsFit ops) {L : List (Option NodeInfo × TreeNode)}
    {st st' : SerState W} (h : L.foldlM (serializeStep ops) st = .ok st') :
    ∀ p ∈ st'.inodeRefs, p ∈ st.inodeRefs ∨ RefLocates ops st'.written p := fun p hp =>
  (foldlM_inodeRefs_position ops h p hp).imp_right fun ⟨w, info, inode, w', hid, hmem, hw, href⟩ =>
    ⟨w, info, inode, w', hid, hmem, hw, href ▸ unpackRef_packRef (hfit w).1 (hfit w).2⟩

/-- When the inode writer's positions fit, every `inode_ref` a run of `sqfs_serialize_fstree`
    that returns 0 records, the references its directory entries and the superblock's root
    reference are made of, decodes to the position at which the inode writer was when it wrote
    that node's inode. -/
theorem sqfsSerializeFstree_inodeRefs_decode (hfit : PositionsFit ops) (fs : FsTree)
    (st st' : SerState W) (hrefs : st.inodeRefs = [])
    (h : sqfsSerializeFstree ops fs st = .ok st') :
    ∀ p ∈ st'.inodeRefs, ∃ w info inode w', info.nodeId = p.1 ∧ (info, inode) ∈ st'.written ∧
      ops.metaWriteInode w inode = .ok w' ∧ unpackRef p.2 = ops.metaGetPosition w := by
  obtain ⟨st₁, hfold, hr, -, hwr, -⟩ := sqfsSerializeFstree_ok ops h
  intro p hp
  rw [hr] at hp
  rcases foldlM_refLocates ops hfit hfold p hp with hp | hp
  · simp [hrefs] at hp
  · exact hwr ▸ hp

/-- An inode writer over 8 KiB meta data blocks: at byte `w` of the table it is at offset
    `w % 8192` of block `w / 8192`. -/
def blockOps : SqfsOps Nat :=
  { countingOps with
    metaGetPosition := fun w => ((w / 8192 % 2 ^ 32).toUInt64, (w % 8192).toUInt32) }

theorem blockOps_positionsFit : PositionsFit blockOps := fun w => by
  refine ⟨?_, ?_⟩
  · show (UInt64.ofNat (w / 8192 % 2 ^ 32)).toNat < 2 ^ 48
    rw [show (UInt64.ofNat _).toNat = _ from BitVec.toNat_ofNat ..]
    omega
  · show (UInt32.ofNat (w % 8192)).toNat < 2 ^ 16
    rw [uint32_toNat_ofNat]
    omega

def blockResult : SerState Nat :=
  match sqfsSerializeFstree blockOps exampleTree exampleState with
  | .ok st => st
  | .error _ => exampleState

theorem sqfsSerializeFstree_inodeRefs_decode_example :
    PositionsFit blockOps ∧ exampleState.inodeRefs = [] ∧
      sqfsSerializeFstree blockOps exampleTree exampleState = .ok blockResult ∧
      ∀ p ∈ blockResult.inodeRefs, ∃ w info inode w', info.nodeId = p.1 ∧
        (info, inode) ∈ blockResult.written ∧ blockOps.metaWriteInode w inode = .ok w' ∧
        unpackRef p.2 = blockOps.metaGetPosition w :=
  have h : sqfsSerializeFstree blockOps exampleTree exampleState = .ok blockResult := rfl
  ⟨blockOps_positionsFit, rfl, h, sqfsSerializeFstree_inodeRefs_decode blockOps
    blockOps_positionsFit exampleTree exampleState blockResult rfl h⟩

end Tar2Sqfs
