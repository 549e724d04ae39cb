import Tar2Sqfs.TarBall.Basic

set_option autoImplicit false

/-! # The sparse layout check

`process_tar_ball` accepts a sparse map when no extent starts before the end of the one before and
the counts add up to `record_size`, both computed in 64-bit arithmetic. On every map that is well
formed in unbounded integers the check agrees; but an end offset or the running count can wrap, and
then it accepts a map whose extents overlap or whose counts add up to `record_size` plus a multiple
of `2^64`. When nothing wraps, an accepted map is well formed, and the sum that `write_file`
recomputes to size the body is `record_size`. -/

namespace Tar2Sqfs

/-- Each extent starts at or after the end of the one before, in unbounded integers. -/
def SparseOrdered : List (UInt64 × UInt64) → Prop
  | [] => True
  | [_] => True
  | a :: b :: rest => a.1.toNat + a.2.toNat ≤ b.1.toNat ∧ SparseOrdered (b :: rest)

instance decSparseOrdered : (sparse : List (UInt64 × UInt64)) → Decidable (SparseOrdered sparse)
  | [] => isTrue trivial
  | [_] => isTrue trivial
  | _ :: b :: rest =>
    haveI := decSparseOrdered (b :: rest)
    inferInstanceAs (Decidable (_ ∧ _))

theorem sparseOrdered_cons {a : UInt64 × UInt64} {rest : List (UInt64 × UInt64)} :
    SparseOrdered (a :: rest) ↔
      (∀ b ∈ rest.head?, a.1.toNat + a.2.toNat ≤ b.1.toNat) ∧ SparseOrdered rest := by
  cases rest <;> simp [SparseOrdered]

/-- The layout in unbounded integers: the extents are ordered, and the counts add up to
    `record_size`. -/
def SparseWellFormed (sparse : List (UInt64 × UInt64)) (recordSize : UInt64) : Prop :=
  SparseOrdered sparse ∧ sparseTotal sparse = recordSize.toNat

instance (sparse : List (UInt64 × UInt64)) (recordSize : UInt64) :
    Decidable (SparseWellFormed sparse recordSize) :=
  inferInstanceAs (Decidable (_ ∧ _))

/-- No extent's end and no sum of counts from `count` on leaves 64 bits. -/
def SparseNoWrap (sparse : List (UInt64 × UInt64)) (count : Nat) : Prop :=
  (∀ m ∈ sparse, m.1.toNat + m.2.toNat < 2 ^ 64) ∧ count + sparseTotal sparse < 2 ^ 64

theorem uint64_add_toNat (a b : UInt64) : (a + b).toNat = (a.toNat + b.toNat) % 2 ^ 64 :=
  BitVec.toNat_add ..

theorem uint64_lt_iff (a b : UInt64) : a < b ↔ a.toNat < b.toNat := Iff.rfl

/-- `write_file`'s sum of the counts is the unbounded sum modulo `2^64`. -/
theorem foldl_count_toNat (sparse : List (UInt64 × UInt64)) (a : UInt64) :
    (sparse.foldl (fun acc m => acc + m.2) a).toNat =
      (a.toNat + sparseTotal sparse) % 2 ^ 64 := by
  induction sparse generalizing a with
  | nil => simp [Nat.mod_eq_of_lt (UInt64.toNat_lt_size a)]
  | cons m rest ih =>
    obtain ⟨o, c⟩ := m
    simp only [List.foldl_cons, ih, uint64_add_toNat, sparseTotal_cons,
      Nat.mod_add_mod, Nat.add_assoc]

/-- Where the scan does not break, the count it reaches is `write_file`'s sum. -/
theorem sparseScan_count {sparse : List (UInt64 × UInt64)} {offset count : UInt64}
    (h : (sparseScan sparse offset count).1 = false) :
    (sparseScan sparse offset count).2 = sparse.foldl (fun acc m => acc + m.2) count := by
  induction sparse generalizing offset count with
  | nil => rfl
  | cons m rest ih =>
    obtain ⟨o, c⟩ := m
    by_cases ho : o < offset
    · simp [sparseScan, ho] at h
    · simp only [sparseScan, ho, if_false] at h ⊢
      exact ih h

/-- On a map well formed from `offset` on, whose counts from `count` on stay in 64 bits, the scan
    does not break and reaches the unbounded sum. -/
theorem sparseScan_of_wellFormed :
    ∀ {sparse : List (UInt64 × UInt64)} {offset count : UInt64},
      (∀ m ∈ sparse.head?, offset.toNat ≤ m.1.toNat) →
      SparseOrdered sparse →
      count.toNat + sparseTotal sparse < 2 ^ 64 →
      (sparseScan sparse offset count).1 = false ∧
        (sparseScan sparse offset count).2.toNat = count.toNat + sparseTotal sparse
  | [], _, _, _, _, _ => by simp [sparseScan]
  | (o, c) :: rest, offset, count, hhead, hchain, hsum => by
    have hno : ¬ o < offset := by simpa [uint64_lt_iff] using hhead (o, c) rfl
    have hnext : ∀ m ∈ rest.head?, (o + c).toNat ≤ m.1.toNat := fun m hm => by
      rw [uint64_add_toNat]
      exact (Nat.mod_le _ _).trans (sparseOrdered_cons.mp hchain |>.1 m hm)
    rw [sparseTotal_cons] at hsum ⊢
    have hcount : (count + c).toNat = count.toNat + c.toNat := by
      rw [uint64_add_toNat, Nat.mod_eq_of_lt (by omega)]
    have hsum' : (count + c).toNat + sparseTotal rest < 2 ^ 64 := by omega
    obtain ⟨hb, hc⟩ := sparseScan_of_wellFormed hnext (sparseOrdered_cons.mp hchain).2 hsum'
    simp only [sparseScan, hno, if_false, hb, hc, true_and, hcount]
    omega

/-- The check accepts every map that is well formed in unbounded integers. -/
theorem sparseLayoutBroken_of_wellFormed (sparse : List (UInt64 × UInt64)) (recordSize : UInt64)
    (h : SparseWellFormed sparse recordSize) : sparseLayoutBroken sparse recordSize = false := by
  obtain ⟨hchain, hsum⟩ := h
  match sparse, hchain, hsum with
  | [], _, _ => rfl
  | (o, c) :: rest, hchain, hsum =>
    have hlt : (0 : UInt64).toNat + sparseTotal ((o, c) :: rest) < 2 ^ 64 := by
      rw [UInt64.toNat_zero, Nat.zero_add, hsum]
      exact recordSize.toNat_lt_size
    obtain ⟨hb, hc⟩ := @sparseScan_of_wellFormed _ o _ (by simp) hchain hlt
    simp only [sparseLayoutBroken, hb, Bool.false_or, bne_eq_false_iff_eq]
    exact UInt64.toNat.inj (by rw [hc, UInt64.toNat_zero, Nat.zero_add, hsum])

/-- The map of the sparse archive of `tar_sparse.c`: eight extents of 4096 bytes, 256 KiB apart,
    and the end marker `(2097152, 0)`; its `record_size` is 32768. -/
def fixtureSparse : List (UInt64 × UInt64) :=
  [(0, 4096), (262144, 4096), (524288, 4096), (786432, 4096), (1048576, 4096), (1310720, 4096),
   (1572864, 4096), (1835008, 4096), (2097152, 0)]

theorem sparseLayoutBroken_fixture :
    SparseWellFormed fixtureSparse 32768 ∧ sparseLayoutBroken fixtureSparse 32768 = false :=
  ⟨by decide, sparseLayoutBroken_of_wellFormed fixtureSparse 32768 (by decide)⟩

/-- Two maps the check accepts with `record_size` 0. In the first the counts add up to `2^64`; in
    the second the end of the first extent, `2^64`, wraps to 0, and the second extent starts before
    it. -/
theorem sparseLayoutBroken_accepts_wrapped :
    sparseLayoutBroken [(0, 0x8000000000000000), (0x8000000000000000, 0x8000000000000000)] 0 =
      false ∧
    ¬ SparseWellFormed [(0, 0x8000000000000000), (0x8000000000000000, 0x8000000000000000)] 0 ∧
    sparseLayoutBroken [(1, 0xFFFFFFFFFFFFFFFF), (0, 1)] 0 = false ∧
    ¬ SparseWellFormed [(1, 0xFFFFFFFFFFFFFFFF), (0, 1)] 0 := by
  decide

/-- Where the scan does not break and nothing wraps, the map is ordered from `offset` on and the
    count is the unbounded sum. -/
theorem wellFormed_of_sparseScan :
    ∀ {sparse : List (UInt64 × UInt64)} {offset count : UInt64},
      (sparseScan sparse offset count).1 = false → SparseNoWrap sparse count.toNat →
      (∀ m ∈ sparse.head?, offset.toNat ≤ m.1.toNat) ∧
        SparseOrdered sparse ∧
        (sparseScan sparse offset count).2.toNat = count.toNat + sparseTotal sparse
  | [], _, _, _, _ => by simp [sparseScan, SparseOrdered]
  | (o, c) :: rest, offset, count, h, ⟨hends, hsum⟩ => by
    by_cases ho : o < offset
    · simp [sparseScan, ho] at h
    simp only [sparseScan, ho, if_false] at h ⊢
    have hoc : o.toNat + c.toNat < 2 ^ 64 := hends (o, c) (List.mem_cons_self ..)
    have hcount : count.toNat + c.toNat < 2 ^ 64 := by simp at hsum; omega
    have hnw : SparseNoWrap rest (count + c).toNat := by
      refine ⟨fun m hm => hends m (List.mem_cons_of_mem _ hm), ?_⟩
      rw [uint64_add_toNat, Nat.mod_eq_of_lt hcount]
      simp at hsum
      omega
    obtain ⟨hhead, hchain, hc⟩ := wellFormed_of_sparseScan h hnw
    rw [uint64_add_toNat, Nat.mod_eq_of_lt hoc] at hhead
    rw [uint64_add_toNat, Nat.mod_eq_of_lt hcount] at hc
    refine ⟨by simpa [uint64_lt_iff] using ho, sparseOrdered_cons.mpr ⟨hhead, hchain⟩, ?_⟩
    simp only [hc, sparseTotal_cons]
    omega

/-- On an accepted map, `write_file`'s 64-bit sum of the counts is `record_size`. -/
theorem sparseLayoutBroken_sum {sparse : List (UInt64 × UInt64)} {recordSize : UInt64}
    (hne : sparse ≠ []) (h : sparseLayoutBroken sparse recordSize = false) :
    sparse.foldl (fun acc m => acc + m.2) 0 = recordSize := by
  obtain ⟨⟨o, c⟩, rest, rfl⟩ := List.exists_cons_of_ne_nil hne
  simp only [sparseLayoutBroken, Bool.or_eq_false_iff, bne_eq_false_iff_eq] at h
  exact (sparseScan_count h.1).symm.trans h.2

/-- An accepted map is one on which `write_file`'s 64-bit sum of the counts is `record_size`;
    when no end offset and no running count wraps, it is also well formed in unbounded
    integers. -/
theorem sparseLayoutBroken_sound (sparse : List (UInt64 × UInt64)) (recordSize : UInt64)
    (hne : sparse ≠ []) (h : sparseLayoutBroken sparse recordSize = false) :
    sparse.foldl (fun acc m => acc + m.2) 0 = recordSize ∧
      (SparseNoWrap sparse 0 → SparseWellFormed sparse recordSize) := by
  refine ⟨sparseLayoutBroken_sum hne h, fun hnw => ?_⟩
  obtain ⟨⟨o, c⟩, rest, rfl⟩ := List.exists_cons_of_ne_nil hne
  simp only [sparseLayoutBroken, Bool.or_eq_false_iff, bne_eq_false_iff_eq] at h
  obtain ⟨-, hchain, hsum⟩ := wellFormed_of_sparseScan h.1 hnw
  exact ⟨hchain, by rw [← h.2, hsum, UInt64.toNat_zero, Nat.zero_add]⟩

theorem sparseLayoutBroken_sound_fixture :
    fixtureSparse ≠ [] ∧ sparseLayoutBroken fixtureSparse 32768 = false ∧
      fixtureSparse.foldl (fun acc m => acc + m.2) 0 = 32768 ∧
      (SparseNoWrap fixtureSparse 0 → SparseWellFormed fixtureSparse 32768) :=
  ⟨by decide, by decide, sparseLayoutBroken_sound fixtureSparse 32768 (by decide) (by decide)⟩

end Tar2Sqfs
