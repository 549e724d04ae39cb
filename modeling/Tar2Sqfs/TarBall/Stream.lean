import Tar2Sqfs.TarBall.Sparse
import Tar2Sqfs.Sqfs

set_option autoImplicit false

/-! # What the loop reads from standard input

After `read_header`, a pass of the loop that goes on consumes a fixed amount of standard input. A
packed regular file consumes its body and padding: `record_size` bytes and padding for a sparse
file, whose map the layout check made add up to `record_size`, and `st_size` bytes and padding
otherwise. Any other packed record consumes nothing. A skipped record consumes `st_size` bytes and
padding, through `skip_entry`; for a sparse file `st_size` is the logical size, not the size of
the body in the stream. So when every record consumes its `record_size` and padding, the loop
reads the archive header after header and ends where it ends; a skipped sparse file whose logical
size is larger than its body sends the next `read_header` past the next header. -/

namespace Tar2Sqfs

section Consumption

variable {W : Type} (ops : TarOps W) {flags : TarFlags}

/-- What packing a record consumes after its header. -/
def packConsumes (hdr : TarHeader) : Nat :=
  if S_ISREG hdr.sb.mode then
    if hdr.sparse = [] then hdr.sb.size.toNat + tarPadding hdr.sb.size.toNat
    else hdr.recordSize.toNat + tarPadding hdr.recordSize.toNat
  else 0

/-- What a pass of the loop that goes on to the next header consumes after the header. -/
def passConsumes (hdr : TarHeader) : Nat :=
  match tarRecordName ops hdr with
  | none => hdr.sb.size.toNat + tarPadding hdr.sb.size.toNat
  | some _ => packConsumes hdr

variable {ops}

theorem Stdin.consume_ok {s s' : Stdin} {n : Nat} (h : s.consume n = .ok s') :
    s' = { s with pos := s.pos + n } := by
  unfold Stdin.consume at h
  split_ifs at h
  cases h
  rfl

/-- A condensed read that succeeds reads the unbounded sum of the counts, which is then below
    `2^64` and equal to `write_file`'s sum. -/
theorem readStdinFileCondensed_ok {s s' : Stdin} {sparse : List (UInt64 × UInt64)}
    (h : readStdinFileCondensed s (sparse.foldl (fun (acc : UInt64) m => acc + m.2) 0) sparse =
      .ok s') :
    s' = { s with pos := s.pos + (sparse.foldl (fun (acc : UInt64) m => acc + m.2) 0).toNat } := by
  unfold readStdinFileCondensed at h
  split_ifs at h with hle
  rw [Stdin.consume_ok h]
  rw [foldl_count_toNat, UInt64.toNat_zero, Nat.zero_add] at hle ⊢
  rw [Nat.mod_eq_of_lt (lt_of_le_of_lt hle (Nat.mod_lt _ (Nat.two_pow_pos 64)))]

theorem writeFile_consumes {hdr : TarHeader} {fi : FileInfo} {w w' : W} {s e : Stdin}
    (hok : sparseLayoutBroken hdr.sparse hdr.recordSize = false)
    (h : writeFile ops hdr fi w s = .ok (w', e)) :
    e = { s with pos := s.pos + if hdr.sparse = [] then fi.size.toNat + tarPadding fi.size.toNat
      else hdr.recordSize.toNat + tarPadding hdr.recordSize.toNat } := by
  unfold writeFile at h
  split_ifs at h with hsp halloc halloc
  · obtain ⟨s₁, h₁, h⟩ := except_bind_eq_ok.mp h
    split at h
    · obtain ⟨s₂, h₂, h⟩ := except_bind_eq_ok.mp h
      cases h
      have hsum := sparseLayoutBroken_sum hsp hok
      rw [Stdin.consume_ok h₂, readStdinFileCondensed_ok h₁, hsum, if_neg hsp]
      simp [Nat.add_assoc]
    · cases h
  · obtain ⟨s₁, h₁, h⟩ := except_bind_eq_ok.mp h
    split at h
    · obtain ⟨s₂, h₂, h⟩ := except_bind_eq_ok.mp h
      cases h
      rw [Stdin.consume_ok h₂, Stdin.consume_ok h₁, if_pos (not_not.mp hsp)]
      simp [Nat.add_assoc]
    · cases h

theorem createNodeAndRepackData_consumes {hdr : TarHeader} {name : String} {w w' : W}
    {s e : Stdin} (hok : sparseLayoutBroken hdr.sparse hdr.recordSize = false)
    (h : createNodeAndRepackData ops flags hdr name w s = .ok (w', e)) :
    e = { s with pos := s.pos + packConsumes hdr } := by
  dsimp only [createNodeAndRepackData] at h
  split at h
  · obtain ⟨w₂, -, h⟩ := except_bind_eq_ok.mp h
    unfold packConsumes
    rw [packStat_mode] at h
    split_ifs at h with hreg
    · rw [writeFile_consumes hok h]
      simp [hreg]
    · cases h
      simp [hreg]
  · cases h

/-- A pass of the loop that goes on consumes `passConsumes` after the header. -/
theorem tarLoopStep_consumes {w w' : W} {s b e : Stdin} {hdr : TarHeader}
    (hread : ops.readHeader s = .ok (some (hdr, b))) (h : tarLoopStep ops flags w s = .next w' e) :
    e = { b with pos := b.pos + passConsumes ops hdr } := by
  unfold tarLoopStep at h
  simp only [hread] at h
  cases hname : tarRecordName ops hdr with
  | none =>
    simp only [hname] at h
    simp only [passConsumes, hname]
    split_ifs at h
    split at h
    · cases h
    · cases h
      exact Stdin.consume_ok ‹_›
  | some name =>
    simp only [hname] at h
    simp only [passConsumes, hname]
    have hok : sparseLayoutBroken hdr.sparse hdr.recordSize = false := by
      unfold tarRecordName at hname
      split at hname
      · cases hname
      · split_ifs at hname with hbad
        simp only [Bool.or_eq_true, not_or, Bool.not_eq_true] at hbad
        exact hbad.2
    split at h
    · cases h
    · cases h
      exact createNodeAndRepackData_consumes hok ‹_›

/-- A pass that reads a header either goes on or returns `-1`. -/
theorem tarLoopStep_done_of_header {w w' : W} {s b e : Stdin} {hdr : TarHeader} {ret : Int}
    (hread : ops.readHeader s = .ok (some (hdr, b)))
    (h : tarLoopStep ops flags w s = .done ret w' e) :
    ret = -1 := by
  unfold tarLoopStep at h
  simp only [hread] at h
  split at h
  · split_ifs at h
    · cases h; rfl
    · split at h
      · cases h; rfl
      · cases h
  · split at h
    · cases h; rfl
    · cases h

/-! ## Whole runs -/

variable (ops)

/-- The records `rs`, each the length of its header and the decoded header, laid out from `p` in
    a stream of `len` bytes: at a record's start `read_header` returns its header and the start of
    its body, the next record starts after the body and its padding, and after the last one
    `read_header` reports the end of the archive. -/
def TarLayout (len : Nat) : List (Nat × TarHeader) → Nat → Prop
  | [], p => ops.readHeader ⟨p, len⟩ = .ok none
  | (hlen, hdr) :: rs, p =>
    ops.readHeader ⟨p, len⟩ = .ok (some (hdr, ⟨p + hlen, len⟩)) ∧
      TarLayout len rs (p + hlen + hdr.recordSize.toNat + tarPadding hdr.recordSize.toNat)

/-- Where the records `rs` laid out from `p` end. -/
def layoutEnd : List (Nat × TarHeader) → Nat → Nat
  | [], p => p
  | (hlen, hdr) :: rs, p =>
    layoutEnd rs (p + hlen + hdr.recordSize.toNat + tarPadding hdr.recordSize.toNat)

variable {ops}

/-- On an archive whose every record consumes its body and padding, the loop reads the records
    header after header: it returns within one pass per record and one more, and when it returns 0
    it has consumed the archive to its end. -/
theorem processTarBall_synced (len : Nat) :
    ∀ (rs : List (Nat × TarHeader)) (p : Nat) (w : W), TarLayout ops len rs p →
      (∀ r ∈ rs, passConsumes ops r.2 = r.2.recordSize.toNat + tarPadding r.2.recordSize.toNat) →
      ∃ ret w' s', processTarBall ops flags (rs.length + 1) w ⟨p, len⟩ = some (ret, w', s') ∧
        (ret = 0 → s' = ⟨layoutEnd rs p, len⟩)
  | [], p, w, hl, _ =>
    ⟨0, w, ⟨p, len⟩,
      by simp [processTarBall, tarLoopStep, show ops.readHeader ⟨p, len⟩ = _ from hl], fun _ => rfl⟩
  | (hlen, hdr) :: rs, p, w, ⟨hread, hl⟩, hsync => by
    cases hstep : tarLoopStep ops flags w ⟨p, len⟩ with
    | done ret w' s' =>
      refine ⟨ret, w', s', by simp [processTarBall, hstep], fun h0 => ?_⟩
      exact absurd (h0 ▸ tarLoopStep_done_of_header hread hstep) (by decide)
    | next w' e =>
      have he : e = ⟨p + hlen + hdr.recordSize.toNat + tarPadding hdr.recordSize.toNat, len⟩ := by
        rw [tarLoopStep_consumes hread hstep, hsync _ (List.mem_cons_self ..)]
        simp [Nat.add_assoc]
      obtain ⟨ret, w'', s'', hrun, hend⟩ := processTarBall_synced len rs _ w' hl
        (fun r hr => hsync r (List.mem_cons_of_mem _ hr))
      refine ⟨ret, w'', s'', ?_, hend⟩
      rw [List.length_cons, processTarBall, hstep, he]
      exact hrun

end Consumption

/-! ## The sparse archive of `tar_sparse.c` -/

/-- The sparse file of `tar_sparse.c`: logical size 2097152, a body of 32768 bytes. -/
def fixtureSparseHeader : TarHeader where
  name := some "input.bin"
  sb := ⟨S_IFREG ||| 0o644, 0o1750, 0o1750, 2097152, 0⟩
  linkTarget := none
  sparse := fixtureSparse
  xattr := []
  recordSize := 32768
  unknownRecord := false

/-- A tree that takes every record, over a stream that holds `hdr` in its first 512 bytes and the
    end of the archive after its body. -/
def oneRecordOps (hdr : TarHeader) : TarOps Unit where
  readHeader s :=
    if s.pos = 0 then .ok (some (hdr, { s with pos := 512 }))
    else if s.pos = 512 + hdr.recordSize.toNat + tarPadding hdr.recordSize.toNat then .ok none
    else .error (-1)
  canonicalizeName := some
  defaultMtime _ := 0
  addGeneric w _ _ _ := some w
  hasXattr _ := true
  addXattr w _ _ := some w
  stdinFileAlloc _ := true
  writeData w _ _ := some w

theorem processTarBall_synced_fixture :
    TarLayout (oneRecordOps fixtureSparseHeader) 65536 [(512, fixtureSparseHeader)] 0 ∧
    (∀ r ∈ [(512, fixtureSparseHeader)], passConsumes (oneRecordOps fixtureSparseHeader) r.2 =
      r.2.recordSize.toNat + tarPadding r.2.recordSize.toNat) ∧
    ∃ ret w' s', processTarBall (oneRecordOps fixtureSparseHeader) ⟨false, false, false⟩ 2 ()
        ⟨0, 65536⟩ = some (ret, w', s') ∧ (ret = 0 → s' = ⟨33280, 65536⟩) := by
  have hl : TarLayout (oneRecordOps fixtureSparseHeader) 65536 [(512, fixtureSparseHeader)] 0 :=
    ⟨rfl, rfl⟩
  have hsync : ∀ r ∈ [(512, fixtureSparseHeader)], passConsumes (oneRecordOps fixtureSparseHeader)
      r.2 = r.2.recordSize.toNat + tarPadding r.2.recordSize.toNat := by decide
  exact ⟨hl, hsync, processTarBall_synced 65536 [(512, fixtureSparseHeader)] 0 () hl hsync⟩

/-- The same file in a header whose size field says 36864: the map no longer adds up to
    `record_size`, and the record is skipped. -/
def brokenSparseHeader : TarHeader := { fixtureSparseHeader with recordSize := 36864 }

/-- A pass over this record: its body and padding take 36864 bytes, but `skip_entry` drains
    `st_size` = 2097152 bytes and the next pass reads its header from there. -/
theorem tarLoopStep_skips_sparse_st_size :
    passConsumes (oneRecordOps brokenSparseHeader) brokenSparseHeader = 2097152 ∧
    brokenSparseHeader.recordSize.toNat + tarPadding brokenSparseHeader.recordSize.toNat = 36864 ∧
    tarLoopStep (oneRecordOps brokenSparseHeader) ⟨false, false, false⟩ () ⟨0, 4194304⟩ =
      .next () ⟨512 + 2097152, 4194304⟩ :=
  ⟨by decide, by decide, rfl⟩

end Tar2Sqfs
