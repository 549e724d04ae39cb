import Tar2Sqfs.Serialize.Basic

set_option autoImplicit false

/-! # The order of the walk

`serialize_recursive` is a recursion with early exits; what it computes is simpler to say as a
list. `TreeNode.serializeOrder` lists the nodes it hands to `serialize_tree_node`, each with its
parent, and `sqfsSerializeFstree_eq` shows the walk is the left fold of `serialize_tree_node` over
`fstreeOrder` — the `has_subdirs` shortcut included, which skips nothing.

On that list the rest is list reasoning: it holds every node of the tree once, each after all its
children and the root last (`fstreeOrder_perm`, `fstreeOrder_childrenFirst`); so, by the step
lemma `serializeTreeNode_ok`, every `inode_ref` a listing hands over was written earlier in the
same run. -/

namespace Tar2Sqfs

open TreeNode List

/-! ## The order -/

mutual
/-- The nodes `serialize_recursive` on `t` hands to `serialize_tree_node`, each with its parent:
    the walks of the sub-directories first, then `t`'s children. -/
def TreeNode.serializeOrder : TreeNode → List (Option NodeInfo × TreeNode)
  | .dir info children => subdirsOrder children ++ children.map fun c => (some info, c)
  | .leaf .. => []

/-- The walks of the children whose mode says directory, in order. -/
def subdirsOrder : List TreeNode → List (Option NodeInfo × TreeNode)
  | [] => []
  | c :: cs => (if S_ISDIR c.info.mode then c.serializeOrder else []) ++ subdirsOrder cs
end

/-- The order of `sqfs_serialize_fstree`: the walk of the root, then the root. -/
def fstreeOrder (root : TreeNode) : List (Option NodeInfo × TreeNode) :=
  (if S_ISDIR root.info.mode then root.serializeOrder else []) ++ [(none, root)]

@[simp] theorem serializeOrder_dir (info : NodeInfo) (cs : List TreeNode) :
    (dir info cs).serializeOrder = subdirsOrder cs ++ cs.map fun c => (some info, c) := by
  simp [serializeOrder]

@[simp] theorem serializeOrder_leaf (info : NodeInfo) (t : String) (d : UInt32) :
    (leaf info t d).serializeOrder = [] := by
  simp [serializeOrder]

@[simp] theorem subdirsOrder_nil : subdirsOrder [] = [] := by simp [subdirsOrder]

@[simp] theorem subdirsOrder_cons (c : TreeNode) (cs : List TreeNode) :
    subdirsOrder (c :: cs) =
      (if S_ISDIR c.info.mode then c.serializeOrder else []) ++ subdirsOrder cs := by
  simp [subdirsOrder]

theorem subdirsOrder_eq_nil {cs : List TreeNode}
    (h : cs.any (fun c => S_ISDIR c.info.mode) = false) : subdirsOrder cs = [] := by
  induction cs with
  | nil => simp
  | cons c cs ih =>
    simp only [List.any_cons, Bool.or_eq_false_iff] at h
    simp [h.1, ih h.2]

theorem nodes_eq_cons (t : TreeNode) : t.nodes = t :: nodesOf t.children := by
  cases t <;> simp

theorem children_mem_serializeOrder {t c : TreeNode} (hc : c ∈ t.children) :
    c ∈ t.serializeOrder.map (·.2) := by
  cases t with
  | dir info cs => simp_all
  | leaf info t d => simp at hc

/-! ## Every node once -/

/-- The nodes below the members of `cs` are the members and what lies below each. -/
theorem nodesOf_perm (cs : List TreeNode) :
    (nodesOf cs).Perm (cs ++ cs.flatMap fun c => nodesOf c.children) := by
  induction cs with
  | nil => simp
  | cons c cs ih =>
    rw [nodesOf_cons, nodes_eq_cons, List.flatMap_cons, List.cons_append, List.cons_append]
    refine ((ih.append_left _).trans ?_).cons c
    simpa only [List.append_assoc] using
      (@perm_append_comm _ (nodesOf c.children) cs).append_right _

mutual
theorem serializeOrder_perm :
    ∀ t : TreeNode, (∀ n ∈ t.nodes, n.modeOk) →
      (t.serializeOrder.map (·.2)).Perm (nodesOf t.children)
  | .dir info cs, hok => by
    have hsub := subdirsOrder_perm cs fun n hn => hok n (by simp [hn])
    calc (dir info cs).serializeOrder.map (·.2)
        = (subdirsOrder cs).map (·.2) ++ cs := by simp [Function.comp_def]
      _ ~ cs.flatMap (fun c => nodesOf c.children) ++ cs := hsub.append_right cs
      _ ~ cs ++ cs.flatMap (fun c => nodesOf c.children) := List.perm_append_comm
      _ ~ nodesOf (dir info cs).children := (nodesOf_perm cs).symm
  | .leaf .., _ => by simp

theorem subdirsOrder_perm : ∀ cs : List TreeNode, (∀ n ∈ nodesOf cs, n.modeOk) →
    ((subdirsOrder cs).map (·.2)).Perm (cs.flatMap fun c => nodesOf c.children)
  | [], _ => by simp
  | c :: cs, hok => by
    have hc : ∀ n ∈ c.nodes, n.modeOk := fun n hn => hok n (by simp [hn])
    rw [subdirsOrder_cons, List.map_append, List.flatMap_cons,
      S_ISDIR_of_modeOk (hc c (self_mem_nodes c))]
    refine List.Perm.append ?_ (subdirsOrder_perm cs fun n hn => hok n (by simp [hn]))
    cases c with
    | dir info ccs => exact serializeOrder_perm _ hc
    | leaf info t d => simp [isDir]
end

/-- On a tree whose modes agree with its nodes, the order holds every node exactly once. -/
theorem fstreeOrder_perm (t : TreeNode) (hok : ∀ n ∈ t.nodes, n.modeOk) :
    ((fstreeOrder t).map (·.2)).Perm t.nodes := by
  rw [fstreeOrder, S_ISDIR_of_modeOk (hok t (self_mem_nodes t)), nodes_eq_cons, List.map_append]
  cases t with
  | dir info cs =>
    exact (perm_append_singleton _ _).trans ((serializeOrder_perm _ hok).cons _)
  | leaf info t d => simp [isDir]

/-! ## Children first -/

/-- `L` lists every node after all of its children, the nodes of `done` having come before. -/
def ChildrenFirst : List TreeNode → List TreeNode → Prop
  | _, [] => True
  | done, n :: ns => (∀ c ∈ n.children, c ∈ done) ∧ ChildrenFirst (n :: done) ns

theorem childrenFirst_append {done A B : List TreeNode} :
    ChildrenFirst done (A ++ B) ↔ ChildrenFirst done A ∧ ChildrenFirst (A.reverse ++ done) B := by
  induction A generalizing done with
  | nil => simp [ChildrenFirst]
  | cons a A ih => simp [ChildrenFirst, ih, and_assoc]

theorem childrenFirst_of_forall {done : List TreeNode} :
    ∀ {L : List TreeNode}, (∀ n ∈ L, ∀ c ∈ n.children, c ∈ done) → ChildrenFirst done L
  | [], _ => trivial
  | n :: _, h =>
    ⟨h n (List.mem_cons_self ..), childrenFirst_of_forall fun m hm c hc =>
      List.mem_cons_of_mem _ (h m (List.mem_cons_of_mem _ hm) c hc)⟩

/-- The children of a member of `cs` whose mode says directory are walked in `subdirsOrder cs`. -/
theorem children_mem_subdirsOrder {cs : List TreeNode} {n c : TreeNode} (hn : n ∈ cs)
    (hok : ∀ m ∈ nodesOf cs, m.modeOk) (hc : c ∈ n.children) :
    c ∈ (subdirsOrder cs).map (·.2) := by
  induction cs with
  | nil => simp at hn
  | cons d cs ih =>
    rw [subdirsOrder_cons, List.map_append, List.mem_append]
    rcases List.mem_cons.mp hn with rfl | hn
    · left
      have hdir : n.isDir := by cases n <;> simp_all [isDir]
      rw [S_ISDIR_of_modeOk (hok n (by simp [self_mem_nodes])), hdir]
      exact children_mem_serializeOrder hc
    · exact .inr (ih hn fun m hm => hok m (by simp [hm]))

mutual
theorem serializeOrder_childrenFirst : ∀ t : TreeNode, (∀ n ∈ t.nodes, n.modeOk) →
    ∀ done, ChildrenFirst done (t.serializeOrder.map (·.2))
  | .dir info cs, hok, done => by
    have hcs : ∀ n ∈ nodesOf cs, n.modeOk := fun n hn => hok n (by simp [hn])
    rw [serializeOrder_dir, List.map_append, childrenFirst_append]
    refine ⟨subdirsOrder_childrenFirst cs hcs done, childrenFirst_of_forall ?_⟩
    intro n hn c hc
    simp only [List.map_map, Function.comp_def, List.map_id'] at hn
    exact List.mem_append_left _ (List.mem_reverse.mpr (children_mem_subdirsOrder hn hcs hc))
  | .leaf .., _, _ => by simp [ChildrenFirst]

theorem subdirsOrder_childrenFirst : ∀ cs : List TreeNode, (∀ n ∈ nodesOf cs, n.modeOk) →
    ∀ done, ChildrenFirst done ((subdirsOrder cs).map (·.2))
  | [], _, _ => by simp [ChildrenFirst]
  | c :: cs, hok, done => by
    have hc : ∀ n ∈ c.nodes, n.modeOk := fun n hn => hok n (by simp [hn])
    rw [subdirsOrder_cons, List.map_append, childrenFirst_append]
    refine ⟨?_, subdirsOrder_childrenFirst cs (fun n hn => hok n (by simp [hn])) _⟩
    split
    · exact serializeOrder_childrenFirst c hc done
    · trivial
end

/-- On a tree whose modes agree with its nodes, the order lists every node after its children. -/
theorem fstreeOrder_childrenFirst (t : TreeNode) (hok : ∀ n ∈ t.nodes, n.modeOk) :
    ChildrenFirst [] ((fstreeOrder t).map (·.2)) := by
  rw [fstreeOrder, List.map_append, childrenFirst_append]
  refine ⟨?_, childrenFirst_of_forall ?_⟩
  · split
    · exact serializeOrder_childrenFirst t hok []
    · trivial
  · intro n hn c hc
    simp only [List.map_cons, List.map_nil, List.mem_singleton] at hn
    subst hn
    have hdir : n.isDir := by cases n <;> simp_all [isDir]
    rw [S_ISDIR_of_modeOk (hok n (self_mem_nodes n)), hdir]
    simpa using children_mem_serializeOrder hc

theorem ChildrenFirst.mem_before {done L : List TreeNode} (h : ChildrenFirst done L)
    {pre post : List TreeNode} {n : TreeNode} (hL : L = pre ++ n :: post) :
    ∀ c ∈ n.children, c ∈ pre ∨ c ∈ done := by
  induction pre generalizing done L with
  | nil => subst hL; exact fun c hc => .inr (h.1 c hc)
  | cons m pre ih =>
    subst hL
    intro c hc
    rcases ih h.2 rfl c hc with h' | h'
    · exact .inl (List.mem_cons_of_mem _ h')
    · rcases List.mem_cons.mp h' with rfl | h'
      · exact .inl (List.mem_cons_self ..)
      · exact .inr h'

/-! ## The walk is a fold over the order -/

variable {W : Type} (ops : SqfsOps W)

/-- `serialize_tree_node` on one entry of the order. -/
def serializeStep (st : SerState W) (e : Option NodeInfo × TreeNode) : Except Int (SerState W) :=
  serializeTreeNode ops st e.1 e.2

mutual
theorem serializeRecursive_eq (st : SerState W) :
    ∀ t : TreeNode, serializeRecursive ops st t = t.serializeOrder.foldlM (serializeStep ops) st
  | .dir info cs => by
    have hsub : (if cs.any (fun c => S_ISDIR c.info.mode) then serializeSubdirs ops st cs
        else pure st) = (subdirsOrder cs).foldlM (serializeStep ops) st := by
      split
      · exact serializeSubdirs_eq st cs
      · next h => simp [subdirsOrder_eq_nil (Bool.not_eq_true _ ▸ h)]
    rw [serializeRecursive, hsub, serializeOrder_dir, List.foldlM_append]
    simp only [serializeChildren, List.foldlM_map]
    rfl
  | .leaf .. => by simp [serializeRecursive]

theorem serializeSubdirs_eq (st : SerState W) :
    ∀ cs : List TreeNode,
      serializeSubdirs ops st cs = (subdirsOrder cs).foldlM (serializeStep ops) st
  | [] => by simp [serializeSubdirs]
  | c :: cs => by
    have hc : (if S_ISDIR c.info.mode then serializeRecursive ops st c else pure st) =
        (if S_ISDIR c.info.mode then c.serializeOrder else []).foldlM (serializeStep ops) st := by
      split
      · exact serializeRecursive_eq st c
      · rfl
    rw [serializeSubdirs, hc, subdirsOrder_cons, List.foldlM_append]
    simp only [serializeSubdirs_eq _ cs]
end

/-- The walk of the root as a fold: `serialize_recursive` when the root's mode says directory. -/
theorem rootWalk_eq (st : SerState W) (root : TreeNode) :
    (if S_ISDIR root.info.mode then serializeRecursive ops st root else pure st) =
      (if S_ISDIR root.info.mode then root.serializeOrder else []).foldlM
        (serializeStep ops) st := by
  split
  · exact serializeRecursive_eq ops st root
  · rfl

/-- A successful `sqfs_serialize_fstree` is the fold of `serialize_tree_node` over
    `fstreeOrder`, followed by calls that touch only the writers and the superblock. -/
theorem sqfsSerializeFstree_ok {fs : FsTree} {st st' : SerState W}
    (h : sqfsSerializeFstree ops fs st = .ok st') :
    ∃ st₁, (fstreeOrder fs.root).foldlM (serializeStep ops)
        { st with super := { st.super with inodeTableStart := ops.getSize st.world } } = .ok st₁ ∧
      st'.inodeRefs = st₁.inodeRefs ∧ st'.dirEntries = st₁.dirEntries ∧
      st'.written = st₁.written ∧ st'.idtbl = st₁.idtbl ∧
      st'.super.rootInodeRef = st₁.inodeRefOf fs.root.info := by
  obtain ⟨st₀, h₀, h⟩ := except_bind_eq_ok.mp h
  obtain ⟨st₁, h₁, h⟩ := except_bind_eq_ok.mp h
  obtain ⟨w₁, -, h⟩ := except_bind_eq_ok.mp h
  obtain ⟨w₂, -, h⟩ := except_bind_eq_ok.mp h
  obtain ⟨w₃, -, h⟩ := except_bind_eq_ok.mp h
  cases h
  refine ⟨st₁, ?_, rfl, rfl, rfl, rfl, rfl⟩
  rw [rootWalk_eq] at h₀
  rw [fstreeOrder, List.foldlM_append, h₀]
  simpa [serializeStep] using h₁

/-! ## What a run records -/

/-- A node whose `inode_ref` was written in this run reads back the newest write. -/
theorem SerState.inodeRefOf_mem {st : SerState W} {n : NodeInfo}
    (h : n.nodeId ∈ st.inodeRefs.map Prod.fst) : (n.nodeId, st.inodeRefOf n) ∈ st.inodeRefs := by
  obtain ⟨p, hp, hpk⟩ := List.mem_map.mp h
  obtain ⟨v, hv⟩ : ∃ v, st.inodeRefs.lookup n.nodeId = some v :=
    Option.isSome_iff_exists.mp (List.lookup_isSome_iff.mpr ⟨p, hp, by simp [hpk]⟩)
  obtain ⟨l₁, l₂, heq, -⟩ := List.lookup_eq_some_iff.mp hv
  simp only [SerState.inodeRefOf, hv, Option.getD_some]
  rw [heq]
  simp

theorem SerState.mem_listing {st : SerState W} {n : TreeNode} {e : NodeId × UInt64}
    (h : e ∈ st.listing n) : ∃ c ∈ n.children, e = (c.info.nodeId, st.inodeRefOf c.info) := by
  unfold SerState.listing at h
  split at h
  · simpa [eq_comm] using h
  · simp at h

/-- Over a fold, the run records one `inode_ref` write per entry, in the fold's order. -/
theorem foldlM_inodeRefs {L : List (Option NodeInfo × TreeNode)} {st st' : SerState W}
    (h : L.foldlM (serializeStep ops) st = .ok st') :
    st'.inodeRefs.map Prod.fst =
      (L.map (·.2.info.nodeId)).reverse ++ st.inodeRefs.map Prod.fst := by
  induction L generalizing st with
  | nil => cases h; simp
  | cons x xs ih =>
    obtain ⟨st₁, h₁, h⟩ := except_bind_eq_ok.mp h
    obtain ⟨_, _, _, -, -, -, hrefs, -, -⟩ := serializeTreeNode_ok ops h₁
    simp [ih h, hrefs]

/-- Over a fold, no inode is taken back. -/
theorem foldlM_written_suffix {L : List (Option NodeInfo × TreeNode)} {st st' : SerState W}
    (h : L.foldlM (serializeStep ops) st = .ok st') : st.written <:+ st'.written := by
  induction L generalizing st with
  | nil => cases h; exact List.suffix_refl _
  | cons x xs ih =>
    obtain ⟨st₁, h₁, h⟩ := except_bind_eq_ok.mp h
    obtain ⟨_, _, _, -, -, -, -, hwr, -⟩ := serializeTreeNode_ok ops h₁
    exact (List.suffix_cons _ _).trans (hwr ▸ ih h)

/-- Over a fold, every `inode_ref` recorded in it is the inode writer's position, packed, taken at
    the world from which the inode of its node was then written. -/
theorem foldlM_inodeRefs_position {L : List (Option NodeInfo × TreeNode)} {st st' : SerState W}
    (h : L.foldlM (serializeStep ops) st = .ok st') :
    ∀ p ∈ st'.inodeRefs, p ∈ st.inodeRefs ∨ ∃ w info inode w', info.nodeId = p.1 ∧
      (info, inode) ∈ st'.written ∧ ops.metaWriteInode w inode = .ok w' ∧
      p.2 = packRef (ops.metaGetPosition w) := by
  induction L generalizing st with
  | nil => cases h; exact fun p hp => .inl hp
  | cons x xs ih =>
    obtain ⟨st₁, h₁, hrest⟩ := except_bind_eq_ok.mp h
    obtain ⟨w, inode, -, hw, -, -, hrefs, hwr, -⟩ := serializeTreeNode_ok ops h₁
    intro p hp
    rcases ih hrest p hp with hp | hp
    · rw [hrefs] at hp
      rcases List.mem_cons.mp hp with rfl | hp
      · exact .inr ⟨w, x.2.info, inode, st₁.world, rfl,
          (foldlM_written_suffix ops hrest).subset (hwr ▸ List.mem_cons_self ..), hw, rfl⟩
      · exact .inl hp
    · exact .inr hp

/-- Over a fold that visits every node after its children, each listing hands over `inode_ref`s
    that were written earlier in the run. -/
theorem foldlM_dirEntries {L : List (Option NodeInfo × TreeNode)} {done : List TreeNode}
    {st st' : SerState W} (h : L.foldlM (serializeStep ops) st = .ok st')
    (hcf : ChildrenFirst done (L.map (·.2)))
    (hdone : ∀ c ∈ done, c.info.nodeId ∈ st.inodeRefs.map Prod.fst)
    (hinv : ∀ e ∈ st.dirEntries, e ∈ st.inodeRefs) : ∀ e ∈ st'.dirEntries, e ∈ st'.inodeRefs := by
  induction L generalizing st done with
  | nil => cases h; exact hinv
  | cons x xs ih =>
    obtain ⟨st₁, h₁, h⟩ := except_bind_eq_ok.mp h
    obtain ⟨_, _, _, -, -, -, hrefs, -, hdirs⟩ := serializeTreeNode_ok ops h₁
    obtain ⟨hx, hcf⟩ := hcf
    refine ih h hcf (fun c hc => ?_) (fun e he => ?_)
    · rw [hrefs]
      rcases List.mem_cons.mp hc with rfl | hc
      · exact List.mem_cons_self ..
      · exact List.mem_cons_of_mem _ (hdone c hc)
    · rw [hrefs]
      rw [hdirs] at he
      rcases List.mem_append.mp he with he | he
      · obtain ⟨c, hc, rfl⟩ := SerState.mem_listing he
        exact List.mem_cons_of_mem _ (SerState.inodeRefOf_mem (hdone c (hx c hc)))
      · exact List.mem_cons_of_mem _ (hinv e he)

/-- A run of `sqfs_serialize_fstree` that returns 0 calls `serialize_tree_node` once on every node
    of the tree and on no other node, each after all of its children and the root last; so every
    `inode_ref` a listing hands to the directory writer, and the root reference put in the
    superblock, is the one `serialize_tree_node` recorded for that node in this run: the inode
    writer's position `(block, offset)`, as `(block << 16) | offset`, taken just before that node's
    inode was written. -/
theorem sqfsSerializeFstree_visits (fs : FsTree) (st st' : SerState W)
    (hrefs : st.inodeRefs = []) (hdirs : st.dirEntries = [])
    (h : sqfsSerializeFstree ops fs st = .ok st') :
    let order := (fstreeOrder fs.root).map (·.2)
    (st'.inodeRefs.map Prod.fst).reverse = order.map (·.info.nodeId) ∧
      (st'.inodeRefs.map Prod.fst).Nodup ∧
      order.Perm fs.root.nodes ∧ order.getLast? = some fs.root ∧
      (∀ pre n post, order = pre ++ n :: post → ∀ c ∈ n.children, c ∈ pre) ∧
      (∀ e ∈ st'.dirEntries, e ∈ st'.inodeRefs) ∧
      (∀ p ∈ st'.inodeRefs, ∃ w info inode w', info.nodeId = p.1 ∧ (info, inode) ∈ st'.written ∧
        ops.metaWriteInode w inode = .ok w' ∧
        p.2 = (ops.metaGetPosition w).1 <<< 16 ||| (ops.metaGetPosition w).2.toUInt64) ∧
      (fs.root.info.nodeId, st'.super.rootInodeRef) ∈ st'.inodeRefs := by
  intro order
  obtain ⟨st₁, hfold, hr, hd, hwr, -, hroot⟩ := sqfsSerializeFstree_ok ops h
  have hvisits : (st'.inodeRefs.map Prod.fst).reverse = order.map (·.info.nodeId) := by
    rw [hr, foldlM_inodeRefs ops hfold]
    simp [hrefs, order, Function.comp_def]
  have hperm : order.Perm fs.root.nodes := fstreeOrder_perm fs.root fs.modes_ok
  have hcf : ChildrenFirst [] order := fstreeOrder_childrenFirst fs.root fs.modes_ok
  have hroot_mem : fs.root.info.nodeId ∈ st'.inodeRefs.map Prod.fst := by
    rw [← List.mem_reverse, hvisits]
    exact List.mem_map_of_mem _ (by simp [order, fstreeOrder])
  refine ⟨hvisits, ?_, hperm, by simp [order, fstreeOrder], fun pre n post hL c hc => ?_, ?_,
    fun p hp => ?_, ?_⟩
  · rw [← List.nodup_reverse, hvisits]
    exact (hperm.map _).nodup_iff.mpr fs.ids_nodup
  · simpa using hcf.mem_before hL c hc
  · rw [hr, hd]
    exact foldlM_dirEntries ops hfold hcf (by simp) (by simp [hdirs])
  · -- every reference recorded in the run is a packed position of the inode writer
    rw [hr] at hp
    rcases foldlM_inodeRefs_position ops hfold p hp with
      hp | ⟨w, info, inode, w', hid, hmem, hw, href⟩
    · simp [hrefs] at hp
    · exact ⟨w, info, inode, w', hid, hwr ▸ hmem, hw, href⟩
  · rw [hroot, hr]
    exact SerState.inodeRefOf_mem (hr ▸ hroot_mem)

/-- Writers that accept every call and count the bytes of the inode table, 32 per inode. -/
def countingOps : SqfsOps Nat where
  getSize w := w.toUInt64
  metaGetPosition w := (0, w.toUInt32)
  metaWriteInode w _ := .ok (w + 32)
  metaFlushInodes w := .ok w
  metaFlushDirs w := .ok w
  metaWriteDirsToFile w := .ok w
  dirBegin w := .ok w
  dirAddEntry w _ _ _ _ := .ok w
  dirEnd w := .ok w
  dirCreateInode _ _ _ := some (SqfsInode.zero .dir)
  calloc _ := true

def exampleInfo (id : NodeId) (mode : UInt16) (uid : UInt32) : NodeInfo :=
  { nodeId := id, name := "", mode := mode, uid := uid, gid := 0, modTime := 0,
    inodeNum := UInt32.ofNat id, xattrIdx := 0, linkCount := 1, inodeRef := 0 }

/-- `/` holding a file and a directory that holds a symbolic link. -/
def exampleTree : FsTree where
  root := .dir (exampleInfo 0 0o040755 0)
    [.leaf (exampleInfo 1 0o100644 1000) "" 0,
     .dir (exampleInfo 2 0o040755 0) [.leaf (exampleInfo 3 0o120777 1000) "a" 0]]
  ids_nodup := by decide
  modes_ok := by decide

def exampleState : SerState Nat :=
  { world := 0, super := default, idtbl := [],
    userPtr := fun id => if id = 1 then some (SqfsInode.zero .file) else none,
    inodeRefs := [], dirEntries := [], written := [] }

def exampleResult : SerState Nat :=
  match sqfsSerializeFstree countingOps exampleTree exampleState with
  | .ok st => st
  | .error _ => exampleState

theorem sqfsSerializeFstree_visits_example :
    exampleState.inodeRefs = [] ∧ exampleState.dirEntries = [] ∧
      sqfsSerializeFstree countingOps exampleTree exampleState = .ok exampleResult ∧
      let order := (fstreeOrder exampleTree.root).map (·.2)
      (exampleResult.inodeRefs.map Prod.fst).reverse = order.map (·.info.nodeId) ∧
      (exampleResult.inodeRefs.map Prod.fst).Nodup ∧
      order.Perm exampleTree.root.nodes ∧ order.getLast? = some exampleTree.root ∧
      (∀ pre n post, order = pre ++ n :: post → ∀ c ∈ n.children, c ∈ pre) ∧
      (∀ e ∈ exampleResult.dirEntries, e ∈ exampleResult.inodeRefs) ∧
      (∀ p ∈ exampleResult.inodeRefs, ∃ w info inode w', info.nodeId = p.1 ∧
        (info, inode) ∈ exampleResult.written ∧ countingOps.metaWriteInode w inode = .ok w' ∧
        p.2 = (countingOps.metaGetPosition w).1 <<< 16 |||
          (countingOps.metaGetPosition w).2.toUInt64) ∧
      (exampleTree.root.info.nodeId, exampleResult.super.rootInodeRef) ∈ exampleResult.inodeRefs :=
  ⟨rfl, rfl, rfl, sqfsSerializeFstree_visits countingOps exampleTree exampleState exampleResult
    rfl rfl rfl⟩

end Tar2Sqfs
