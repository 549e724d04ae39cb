import Tar2Sqfs.Serialize.Order

set_option autoImplicit false

/-! # The id table a run leaves behind

Every `serialize_tree_node` looks up its node's uid, then its gid, in the id table, and stores the
two indices in the inode it emits. Over the fold of `Order.lean` this leaves the table holding each
uid and gid of the tree exactly once, with every emitted inode pointing at its node's values. The
invariant is `IdsInv`: the table stays free of duplicates and within the 16-bit bound, its entries
are exactly the ids of the nodes emitted so far, and every emitted inode's indices still point at
its node's ids — an index never moves, since the table only grows at its end. -/

namespace Tar2Sqfs

open TreeNode List

variable {W : Type} (ops : SqfsOps W)

theorem IsPrefix.getElem?_eq {l₁ l₂ : List UInt32} {i : Nat} {x : UInt32} (hp : l₁ <+: l₂)
    (h : l₁[i]? = some x) : l₂[i]? = some x := by
  obtain ⟨t, rfl⟩ := hp
  rw [List.getElem?_append_left (List.getElem?_eq_some_iff.mp h).1, h]

/-- What the id table and the emitted inodes satisfy throughout a run. -/
structure IdsInv (st : SerState W) : Prop where
  nodup : st.idtbl.Nodup
  bound : st.idtbl.length ≤ 0x10000
  mem : ∀ x, x ∈ st.idtbl ↔ ∃ p ∈ st.written, x = p.1.uid ∨ x = p.1.gid
  idx : ∀ p ∈ st.written,
    st.idtbl[p.2.uidIdx.toNat]? = some p.1.uid ∧ st.idtbl[p.2.gidIdx.toNat]? = some p.1.gid

theorem IdsInv.init {st : SerState W} (htbl : st.idtbl = []) (hwr : st.written = []) :
    IdsInv st :=
  ⟨by simp [htbl], by simp [htbl], by simp [htbl, hwr], by simp [hwr]⟩

/-- One `serialize_tree_node` keeps the invariant. -/
theorem IdsInv.step {st st' : SerState W} {parent : Option NodeInfo} {n : TreeNode}
    (hi : IdsInv st) (h : serializeTreeNode ops st parent n = .ok st') : IdsInv st' := by
  obtain ⟨_, inode, tbl, -, hu, hg, -, hwr, -⟩ := serializeTreeNode_ok ops h
  obtain ⟨hp₁, hget₁, hsub₁, hlen₁, hnd₁⟩ := sqfsIdTableIdToIndex_ok hi.bound hu
  obtain ⟨hp₂, hget₂, hsub₂, hlen₂, hnd₂⟩ := sqfsIdTableIdToIndex_ok hlen₁ hg
  have hp := hp₁.trans hp₂
  refine ⟨hnd₂ (hnd₁ hi.nodup), hlen₂, fun x => ?_, fun p hp' => ?_⟩
  · rw [hwr]
    constructor
    · intro hx
      rcases List.mem_cons.mp (hsub₂ hx) with rfl | hx
      · exact ⟨_, List.mem_cons_self .., .inr rfl⟩
      rcases List.mem_cons.mp (hsub₁ hx) with rfl | hx
      · exact ⟨_, List.mem_cons_self .., .inl rfl⟩
      obtain ⟨q, hq, hxq⟩ := (hi.mem x).mp hx
      exact ⟨q, List.mem_cons_of_mem _ hq, hxq⟩
    · rintro ⟨q, hq, hxq⟩
      rcases List.mem_cons.mp hq with rfl | hq
      · rcases hxq with rfl | rfl
        · exact hp₂.subset (List.getElem?_mem hget₁)
        · exact List.getElem?_mem hget₂
      · exact hp.subset ((hi.mem x).mpr ⟨q, hq, hxq⟩)
  · rw [hwr] at hp'
    rcases List.mem_cons.mp hp' with rfl | hp'
    · exact ⟨IsPrefix.getElem?_eq hp₂ hget₁, hget₂⟩
    · obtain ⟨hu', hg'⟩ := hi.idx p hp'
      exact ⟨IsPrefix.getElem?_eq hp hu', IsPrefix.getElem?_eq hp hg'⟩

theorem IdsInv.foldlM {L : List (Option NodeInfo × TreeNode)} {st st' : SerState W}
    (hi : IdsInv st) (h : L.foldlM (serializeStep ops) st = .ok st') : IdsInv st' := by
  induction L generalizing st with
  | nil => cases h; exact hi
  | cons x xs ih =>
    obtain ⟨st₁, h₁, h⟩ := except_bind_eq_ok.mp h
    exact ih (hi.step ops h₁) h

/-- Over a fold, one inode is emitted per entry, in the fold's order. -/
theorem foldlM_written {L : List (Option NodeInfo × TreeNode)} {st st' : SerState W}
    (h : L.foldlM (serializeStep ops) st = .ok st') :
    st'.written.map Prod.fst = (L.map (·.2.info)).reverse ++ st.written.map Prod.fst := by
  induction L generalizing st with
  | nil => cases h; simp
  | cons x xs ih =>
    obtain ⟨st₁, h₁, h⟩ := except_bind_eq_ok.mp h
    obtain ⟨_, _, _, -, -, -, -, hwr, -⟩ := serializeTreeNode_ok ops h₁
    simp [ih h, hwr]

/-- A run of `sqfs_serialize_fstree` that starts from an empty id table and returns 0 emits one
    inode per node, leaves in the id table each uid and gid of the tree exactly once, and gives
    every emitted inode the table positions of its node's uid and gid. -/
theorem sqfsSerializeFstree_idTable (fs : FsTree) (st st' : SerState W)
    (htbl : st.idtbl = []) (hwr : st.written = [])
    (h : sqfsSerializeFstree ops fs st = .ok st') :
    (st'.written.map Prod.fst).Perm (fs.root.nodes.map (·.info)) ∧
      st'.idtbl.Nodup ∧
      (∀ x, x ∈ st'.idtbl ↔ ∃ n ∈ fs.root.nodes, x = n.info.uid ∨ x = n.info.gid) ∧
      (∀ p ∈ st'.written,
        st'.idtbl[p.2.uidIdx.toNat]? = some p.1.uid ∧
          st'.idtbl[p.2.gidIdx.toNat]? = some p.1.gid) := by
  obtain ⟨st₁, hfold, -, -, hw, ht, -⟩ := sqfsSerializeFstree_ok ops h
  have hi : IdsInv st₁ := IdsInv.foldlM ops (by exact IdsInv.init htbl hwr) hfold
  have hperm : (st'.written.map Prod.fst).Perm (fs.root.nodes.map (·.info)) := by
    rw [hw, foldlM_written ops hfold]
    simpa [hwr, Function.comp_def] using
      (List.reverse_perm _).trans ((fstreeOrder_perm fs.root fs.modes_ok).map (·.info))
  refine ⟨hperm, ht ▸ hi.nodup, fun x => ?_, ht ▸ hw ▸ hi.idx⟩
  rw [ht, hi.mem x, ← hw]
  constructor
  · rintro ⟨p, hp, hx⟩
    obtain ⟨n, hn, hnp⟩ := List.mem_map.mp (hperm.subset (List.mem_map_of_mem Prod.fst hp))
    exact ⟨n, hn, hnp ▸ hx⟩
  · rintro ⟨n, hn, hx⟩
    obtain ⟨p, hp, hpn⟩ := List.mem_map.mp (hperm.symm.subset (List.mem_map_of_mem (·.info) hn))
    exact ⟨p, hp, hpn ▸ hx⟩

theorem sqfsSerializeFstree_idTable_example :
    exampleState.idtbl = [] ∧ exampleState.written = [] ∧
      sqfsSerializeFstree countingOps exampleTree exampleState = .ok exampleResult ∧
      (exampleResult.written.map Prod.fst).Perm (exampleTree.root.nodes.map (·.info)) ∧
      exampleResult.idtbl.Nodup ∧
      (∀ x, x ∈ exampleResult.idtbl ↔
        ∃ n ∈ exampleTree.root.nodes, x = n.info.uid ∨ x = n.info.gid) ∧
      (∀ p ∈ exampleResult.written, exampleResult.idtbl[p.2.uidIdx.toNat]? = some p.1.uid ∧
        exampleResult.idtbl[p.2.gidIdx.toNat]? = some p.1.gid) :=
  ⟨rfl, rfl, rfl, sqfsSerializeFstree_idTable countingOps exampleTree exampleState exampleResult
    rfl rfl rfl⟩

/-! ## The table on disk

`main` hands the table a run leaves to `id_table_write`, which writes it as `u32[id_count]` of
little-endian values. A run leaves at most `2^16` distinct ids, the most the lookup takes
(`sqfsIdTableIdToIndex_last`). With fewer, a reader that takes entry `i` of that array finds, for
every inode the run emitted, its node's uid at the inode's `uid_idx` and its gid at its `gid_idx`;
with exactly `2^16`, `id_count` wraps to 0 and the reader finds no entry
(`sqfsSerializeFstree_idTableWrite_resolves`). -/

end Tar2Sqfs
