import Tar2Sqfs.Serialize.Inodes

set_option autoImplicit false

/-! # The directory entries a run hands over

`write_dir_entries` hands the directory writer one entry per child of the directory it is called
on, in the order of the children, each with the child's `inode_ref` as it is at that moment. The
walk of `sqfs_serialize_fstree` reaches every child before its directory (`Order.lean`) and every
node once, so a child's `inode_ref` is written before its directory's listing and never again.
Hence the entries of a whole run, in the order they are handed over, are the listings of the
directories in the order of the walk, each one the directory's children in order with the
`inode_ref` they hold at the end of the run (`sqfsSerializeFstree_dirEntries`): no child is left
out, none is listed twice or under another directory, and no other entry is handed over.

A node's `inode_ref` is, from the call that walks it to the end of the run, the inode writer's
position when that call wrote its inode (`foldlM_inodeRef`). So when the positions fit in a
reference, the directory table and the superblock point into the inode table at the right
inodes: the root reference and every entry handed over decode to where the inode of the node
they name was written (`sqfsSerializeFstree_refs_resolve`). -/

namespace Tar2Sqfs

variable {W : Type} (ops : SqfsOps W)

/-- A listing reads the children's `inode_ref`s only. -/
theorem SerState.listing_congr {st st' : SerState W} {n : TreeNode}
    (h : ∀ c ∈ n.children, st'.inodeRefOf c.info = st.inodeRefOf c.info) :
    st'.listing n = st.listing n := by
  unfold SerState.listing
  split
  · rw [List.map_congr_left fun c hc => by rw [h c hc]]
  · rfl

theorem SerState.listing_reverse (st : SerState W) (n : TreeNode) :
    (st.listing n).reverse = if S_ISDIR n.info.mode then
      n.children.map fun c => (c.info.nodeId, st.inodeRefOf c.info) else [] := by
  unfold SerState.listing
  split <;> simp

/-- Over a fold that walks distinct nodes, each after its children (which are walked earlier or
    are among `done`, whose nodes it does not walk), the entries handed over are the listings of
    the nodes walked, in order, each read with the `inode_ref`s of the end of the fold. -/
theorem foldlM_dirEntries_eq {L : List (Option NodeInfo × TreeNode)} {done : List TreeNode}
    {st st' : SerState W} (h : L.foldlM (serializeStep ops) st = .ok st')
    (hnd : (L.map (·.2.info.nodeId)).Nodup) (hcf : ChildrenFirst done (L.map (·.2)))
    (hdone : ∀ c ∈ done, c.info.nodeId ∉ L.map (·.2.info.nodeId)) :
    st'.dirEntries.reverse =
      st.dirEntries.reverse ++ (L.map (·.2)).flatMap fun n => (st'.listing n).reverse := by
  induction L generalizing st done with
  | nil => cases h; simp
  | cons x xs ih =>
    obtain ⟨st₁, h₁, h⟩ := except_bind_eq_ok.mp h
    obtain ⟨_, _, _, -, -, -, hrefs, -, hdirs⟩ := serializeTreeNode_ok ops h₁
    rw [List.map_cons, List.nodup_cons] at hnd
    obtain ⟨hx, hcf⟩ := hcf
    have hdone' : ∀ c ∈ x.2 :: done, c.info.nodeId ∉ xs.map (·.2.info.nodeId) := by
      intro c hc
      rcases List.mem_cons.mp hc with rfl | hc
      · exact hnd.1
      · exact fun hm => hdone c hc (List.mem_cons_of_mem _ hm)
    -- the children of `x` were walked before it, and are not walked again
    have hlist : st'.listing x.2 = st.listing x.2 := SerState.listing_congr fun c hc => by
      have hcd := hdone c (hx c hc)
      rw [List.map_cons, List.mem_cons, not_or] at hcd
      rw [foldlM_inodeRefOf_of_not_mem ops h hcd.2,
        SerState.inodeRefOf_of_cons hrefs (Ne.symm hcd.1)]
    rw [ih h hnd.2 hcf hdone', hdirs, List.reverse_append, List.map_cons, List.flatMap_cons, hlist,
      List.append_assoc]

/-- A run of `sqfs_serialize_fstree` that returns 0 hands the directory writer, in this order, the
    children of each directory of the tree in the order of the walk, each directory's children in
    their order, each child with the `inode_ref` it holds at the end of the run. -/
theorem sqfsSerializeFstree_dirEntries (fs : FsTree) (st st' : SerState W)
    (hdirs : st.dirEntries = []) (h : sqfsSerializeFstree ops fs st = .ok st') :
    st'.dirEntries.reverse = (fstreeOrder fs.root).flatMap fun e =>
      if S_ISDIR e.2.info.mode then
        e.2.children.map fun c => (c.info.nodeId, st'.inodeRefOf c.info)
      else [] := by
  obtain ⟨st₁, hfold, hr, hd, -, -, -⟩ := sqfsSerializeFstree_ok ops h
  have hrefOf : st'.inodeRefOf = st₁.inodeRefOf := by
    funext n
    simp only [SerState.inodeRefOf, hr]
  rw [hd, foldlM_dirEntries_eq ops hfold (fstreeOrder_nodup fs)
    (fstreeOrder_childrenFirst fs.root fs.modes_ok) (fun _ hc => nomatch hc)]
  simp only [hdirs, List.reverse_nil, List.nil_append, List.flatMap_map, SerState.listing_reverse,
    hrefOf]

theorem sqfsSerializeFstree_dirEntries_example :
    exampleState.dirEntries = [] ∧
      sqfsSerializeFstree countingOps exampleTree exampleState = .ok exampleResult ∧
      exampleResult.dirEntries.reverse = (fstreeOrder exampleTree.root).flatMap fun e =>
        if S_ISDIR e.2.info.mode then
          e.2.children.map fun c => (c.info.nodeId, exampleResult.inodeRefOf c.info)
        else [] :=
  have h : sqfsSerializeFstree countingOps exampleTree exampleState = .ok exampleResult := rfl
  ⟨rfl, h, sqfsSerializeFstree_dirEntries countingOps exampleTree exampleState exampleResult rfl h⟩

/-! ## Where the references point -/

/-- When the inode writer's positions fit in an inode reference, a run of `sqfs_serialize_fstree`
    that returns 0 leaves references that resolve: the superblock's root reference decodes to the
    position at which the inode writer wrote the root's inode, and every entry handed to the
    directory writer names a child of a directory of the tree and decodes to the position at
    which the inode writer wrote that child's inode. -/
theorem sqfsSerializeFstree_refs_resolve (hfit : PositionsFit ops) (fs : FsTree)
    (st st' : SerState W) (hdirs : st.dirEntries = [])
    (h : sqfsSerializeFstree ops fs st = .ok st') :
    (∃ w inode w', (fs.root.info, inode) ∈ st'.written ∧ InodeOf ops st.userPtr none fs.root inode ∧
      ops.metaWriteInode w inode = .ok w' ∧
      unpackRef st'.super.rootInodeRef = ops.metaGetPosition w) ∧
    ∀ p ∈ st'.dirEntries, ∃ d ∈ fs.root.nodes, ∃ c ∈ d.children, p.1 = c.info.nodeId ∧
      ∃ w inode w', (c.info, inode) ∈ st'.written ∧ InodeOf ops st.userPtr (some d.info) c inode ∧
        ops.metaWriteInode w inode = .ok w' ∧ unpackRef p.2 = ops.metaGetPosition w := by
  obtain ⟨st₁, hfold, -, hd, hwr, -, hroot⟩ := sqfsSerializeFstree_ok ops h
  have hnd := fstreeOrder_nodup fs
  -- every node the walk hands over ends with a reference to its own inode
  have hres : ∀ e ∈ fstreeOrder fs.root, ∃ w inode w', (e.2.info, inode) ∈ st'.written ∧
      InodeOf ops st.userPtr e.1 e.2 inode ∧ ops.metaWriteInode w inode = .ok w' ∧
      unpackRef (st₁.inodeRefOf e.2.info) = ops.metaGetPosition w := fun e he => by
    obtain ⟨w, inode, w', hmem, hof, hw, href⟩ := foldlM_inodeRef ops hnd hfold e he
    exact ⟨w, inode, w', hwr ▸ hmem, hof, hw, href ▸ unpackRef_packRef (hfit w).1 (hfit w).2⟩
  obtain ⟨hroot', hchild⟩ := child_mem_fstreeOrder fs
  refine ⟨hroot ▸ hres _ hroot', fun p hp => ?_⟩
  -- an entry is a child of a directory of the walk, with the reference of the end of the run
  have hmem : p ∈ ((fstreeOrder fs.root).map (·.2)).flatMap fun n => (st₁.listing n).reverse := by
    have hp' := List.mem_reverse.mpr hp
    rw [hd, foldlM_dirEntries_eq ops hfold hnd (fstreeOrder_childrenFirst fs.root fs.modes_ok)
      (fun _ hc => nomatch hc)] at hp'
    simpa only [hdirs, List.reverse_nil, List.nil_append] using hp'
  obtain ⟨d, hdo, hpd⟩ := List.mem_flatMap.mp hmem
  have hdn : d ∈ fs.root.nodes := (fstreeOrder_perm fs.root fs.modes_ok).mem_iff.mp hdo
  rw [SerState.listing_reverse] at hpd
  split at hpd
  · obtain ⟨c, hc, rfl⟩ := List.mem_map.mp hpd
    exact ⟨d, hdn, c, hc, rfl, hres _ (hchild d hdn c hc)⟩
  · nomatch hpd

theorem sqfsSerializeFstree_refs_resolve_example :
    PositionsFit blockOps ∧ exampleState.dirEntries = [] ∧
      sqfsSerializeFstree blockOps exampleTree exampleState = .ok blockResult ∧
      (∃ w inode w', (exampleTree.root.info, inode) ∈ blockResult.written ∧
        InodeOf blockOps exampleState.userPtr none exampleTree.root inode ∧
        blockOps.metaWriteInode w inode = .ok w' ∧
        unpackRef blockResult.super.rootInodeRef = blockOps.metaGetPosition w) ∧
      ∀ p ∈ blockResult.dirEntries, ∃ d ∈ exampleTree.root.nodes, ∃ c ∈ d.children,
        p.1 = c.info.nodeId ∧ ∃ w inode w', (c.info, inode) ∈ blockResult.written ∧
          InodeOf blockOps exampleState.userPtr (some d.info) c inode ∧
          blockOps.metaWriteInode w inode = .ok w' ∧ unpackRef p.2 = blockOps.metaGetPosition w :=
  have h : sqfsSerializeFstree blockOps exampleTree exampleState = .ok blockResult := rfl
  ⟨blockOps_positionsFit, rfl, h, sqfsSerializeFstree_refs_resolve blockOps blockOps_positionsFit
    exampleTree exampleState blockResult rfl h⟩

end Tar2Sqfs
