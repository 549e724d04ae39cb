import Tar2Sqfs.Sqfs
import Mathlib.Data.List.Perm.Basic

set_option autoImplicit false

/-! # The filesystem tree

`tree_node_t` (`fstree.h`, not among the sources) as the serialiser reads it. A directory's
`data.dir.children` list, chained through `next`, becomes the `children` of a `dir` node, so the
inductive type holds exactly the finite trees; a node's address becomes its `nodeId`, and an
`FsTree` asks that no address occurs twice, which is what it takes for the children lists to form
a tree rather than a graph with shared nodes.

The `data` union is read according to the mode bits, as in C: `FsTree` also asks that a node is a
`dir` node exactly when its mode says so, and that every other node has one of the six other
types `tree_node_to_inode` knows. The fields the serialiser writes (`inode_ref`,
`data.file.user_ptr`) live in the serialiser's state; `inodeRef` here is the value the field held
before the serialiser ran. -/

namespace Tar2Sqfs

/-! ## Mode bits -/

def S_IFMT : UInt16 := 0o170000
def S_IFSOCK : UInt16 := 0o140000
def S_IFLNK : UInt16 := 0o120000
def S_IFREG : UInt16 := 0o100000
def S_IFBLK : UInt16 := 0o060000
def S_IFDIR : UInt16 := 0o040000
def S_IFCHR : UInt16 := 0o020000
def S_IFIFO : UInt16 := 0o010000

def S_ISDIR (m : UInt16) : Bool := m &&& S_IFMT == S_IFDIR

def S_ISREG (m : UInt16) : Bool := m &&& S_IFMT == S_IFREG

/-! ## Nodes -/

/-- A node's identity: the address of its `tree_node_t`. -/
abbrev NodeId := Nat

/-- The scalar fields of a `tree_node_t` the serialiser reads. -/
structure NodeInfo where
  nodeId : NodeId
  name : String
  mode : UInt16
  uid : UInt32
  gid : UInt32
  modTime : UInt32
  inodeNum : UInt32
  xattrIdx : UInt32
  linkCount : UInt32
  inodeRef : UInt64
deriving DecidableEq, Repr

/-- A tree node: a directory with its children, or any other node with the union members
    `data.target` (symbolic links) and `data.devno` (devices). -/
inductive TreeNode where
  | dir (info : NodeInfo) (children : List TreeNode)
  | leaf (info : NodeInfo) (target : String) (devno : UInt32)
deriving Repr

namespace TreeNode

def info : TreeNode → NodeInfo
  | .dir info _ => info
  | .leaf info _ _ => info

/-- `data.dir.children`; empty for a node that is not a directory. -/
def children : TreeNode → List TreeNode
  | .dir _ cs => cs
  | .leaf .. => []

def target : TreeNode → String
  | .dir .. => ""
  | .leaf _ t _ => t

def devno : TreeNode → UInt32
  | .dir .. => 0
  | .leaf _ _ d => d

def isDir : TreeNode → Bool
  | .dir .. => true
  | .leaf .. => false

@[simp] theorem info_dir (info : NodeInfo) (cs : List TreeNode) : (dir info cs).info = info := rfl
@[simp] theorem info_leaf (info : NodeInfo) (t : String) (d : UInt32) :
    (leaf info t d).info = info := rfl
@[simp] theorem children_dir (info : NodeInfo) (cs : List TreeNode) :
    (dir info cs).children = cs := rfl
@[simp] theorem children_leaf (info : NodeInfo) (t : String) (d : UInt32) :
    (leaf info t d).children = [] := rfl

/-- The mode bits agree with the kind of node: a directory's say so, and every other node has a
    type `tree_node_to_inode` handles or is a regular file. -/
def modeOk : TreeNode → Bool
  | .dir info _ => S_ISDIR info.mode
  | .leaf info _ _ =>
    [S_IFREG, S_IFLNK, S_IFBLK, S_IFCHR, S_IFSOCK, S_IFIFO].contains (info.mode &&& S_IFMT)

theorem S_ISDIR_of_modeOk {n : TreeNode} (h : n.modeOk) : S_ISDIR n.info.mode = n.isDir := by
  cases n with
  | dir info cs => simpa [modeOk, isDir] using h
  | leaf info t d =>
    simp only [modeOk, List.contains, List.elem, beq_iff_eq] at h
    simp only [info_leaf, isDir, S_ISDIR, beq_eq_false_iff_ne]
    intro hd
    rw [hd] at h
    revert h
    decide

/-! ## The nodes of a tree -/

mutual
/-- Every node of the tree rooted at `t`, `t` first, each directory before its contents. -/
def nodes : TreeNode → List TreeNode
  | t@(.dir _ cs) => t :: nodesOf cs
  | t@(.leaf ..) => [t]

/-- The nodes of the trees rooted at the members of a children list. -/
def nodesOf : List TreeNode → List TreeNode
  | [] => []
  | t :: ts => t.nodes ++ nodesOf ts
end

@[simp] theorem nodes_dir (info : NodeInfo) (cs : List TreeNode) :
    (dir info cs).nodes = dir info cs :: nodesOf cs := by
  simp [nodes]

@[simp] theorem nodes_leaf (info : NodeInfo) (t : String) (d : UInt32) :
    (leaf info t d).nodes = [leaf info t d] := by
  simp [nodes]

@[simp] theorem nodesOf_nil : nodesOf [] = [] := by simp [nodesOf]

@[simp] theorem nodesOf_cons (t : TreeNode) (ts : List TreeNode) :
    nodesOf (t :: ts) = t.nodes ++ nodesOf ts := by
  simp [nodesOf]

theorem nodesOf_eq_flatMap (ts : List TreeNode) : nodesOf ts = ts.flatMap nodes := by
  induction ts with
  | nil => simp
  | cons t ts ih => simp [ih]

theorem self_mem_nodes (t : TreeNode) : t ∈ t.nodes := by
  cases t <;> simp

/-- The ids of the nodes of a tree. -/
def nodeIds (t : TreeNode) : List NodeId := t.nodes.map (·.info.nodeId)

end TreeNode

/-- A filesystem tree as `fstree_t` holds it: `root` and, below it, the children lists. -/
structure FsTree where
  root : TreeNode
  /-- No node is reachable twice: the children lists form a tree. -/
  ids_nodup : root.nodeIds.Nodup
  modes_ok : ∀ n ∈ root.nodes, n.modeOk

end Tar2Sqfs
