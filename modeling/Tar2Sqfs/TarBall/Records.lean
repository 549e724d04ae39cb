import Tar2Sqfs.TarBall.Stream

set_option autoImplicit false

/-! # What the tree gets from an archive

`process_tar_ball` is there to put the records of the archive into the tree, in their order, with
the data of the regular files handed to the data writer: a record that fails the checks (its name,
its type, its sparse layout) is left out, or ends the run under `--no-skip`. `packRecords` says
this over the headers of an archive, with `packRecord` for what packing one record does to the
world, the stream left out.

A pass of the loop that goes on does to the world what `packRecords` does with the record it read
(`tarLoopStep_next_world`): packing changes the world as `packRecord` says
(`createNodeAndRepackData_world`), skipping leaves it as it was. So on an archive the loop reads
header after header (`TarLayout`, with every pass consuming its record), a run that returns 0 has
built exactly `packRecords` of the archive (`processTarBall_packRecords`): every kept record, in
order, nothing else, and under `--no-skip` no record skipped (`processTarBall_builds_kept_records`).
Conversely, when the archive fits the stream and its sparse maps' counts stay in 64 bits, a run
returns 0 whenever `packRecords` succeeds (`processTarBall_of_packRecords`).

Packing a record copies its extended attributes with `copy_xattr`, which fails the record on a
key squashfs cannot encode under `--no-skip`, and otherwise adds exactly the pairs whose key it
encodes, in their order (`copyXattr_skips_unencodable`). -/

namespace Tar2Sqfs

variable {W : Type} (ops : TarOps W) (flags : TarFlags)

/-! ## `copy_xattr` -/

/-- `fstree_add_xattr` as one step of `copy_xattr`. -/
def addXattrStep (w : W) (kv : String × String) : Except Int W :=
  match ops.addXattr w kv.1 kv.2 with
  | none => .error (-1)
  | some w => .ok w

/-- What copying the extended attributes is for: add the pairs whose key squashfs can encode, in
    their order, and leave out the others. -/
def addEncodableXattrs (w : W) (xattr : List (String × String)) : Except Int W :=
  (xattr.filter fun kv => ops.hasXattr kv.1).foldlM (addXattrStep ops) w

/-- `copy_xattr` fails when `--no-skip` is given and a key cannot be encoded; otherwise it adds the
    pairs whose key can be, in order, and leaves out the others. -/
theorem copyXattr_skips_unencodable (w : W) (xattr : List (String × String)) :
    copyXattr ops flags w xattr =
      if flags.dontSkip && !xattr.all (fun kv => ops.hasXattr kv.1) then .error (-1)
      else addEncodableXattrs ops w xattr := by
  induction xattr generalizing w with
  | nil => simp [copyXattr, addEncodableXattrs]
  | cons kv rest ih =>
    unfold copyXattr addEncodableXattrs at ih ⊢
    cases hk : ops.hasXattr kv.1
    · cases hd : flags.dontSkip
      · simpa [hk, hd] using ih w
      · simp [hk, hd, bind, Except.bind]
    · simp only [List.foldlM_cons, hk, if_true, List.all_cons, Bool.true_and, List.filter_cons]
      cases ha : ops.addXattr w kv.1 kv.2 with
      | none => simp [addXattrStep, ha, bind, Except.bind]
      | some w' => simpa [addXattrStep, ha] using ih w'

/-- A tree that records the pairs it is given, and encodes the keys in the `user.` namespace. -/
def recordingXattrOps : TarOps (List (String × String)) where
  readHeader _ := .ok none
  canonicalizeName := some
  defaultMtime _ := 0
  addGeneric w _ _ _ := some w
  hasXattr key := key.toList.take 5 == "user.".toList
  addXattr w key value := some (w ++ [(key, value)])
  stdinFileAlloc _ := true
  writeData w _ _ := some w

/-- The `security.` pair is left out. -/
example :
    copyXattr recordingXattrOps ⟨false, false, false⟩ []
      [("user.a", "1"), ("security.b", "2"), ("user.c", "3")] =
      .ok [("user.a", "1"), ("user.c", "3")] := rfl

/-! ## Packing a record -/

/-- What packing a record whose canonical name is `name` does to the tree and the data writer:
    add the node, copy its extended attributes unless `--no-xattr`, and hand a regular file's data
    to the data writer. -/
def packRecord (hdr : TarHeader) (name : String) (w : W) : Option W := do
  let sb := packStat ops flags w hdr
  let w ← ops.addGeneric w name sb hdr.linkTarget
  let w ← (if flags.noXattr then pure w else copyXattr ops flags w hdr.xattr).toOption
  if S_ISREG sb.mode then
    if ops.stdinFileAlloc w then ops.writeData w ⟨sb.size⟩ hdr.sparse else none
  else pure w

/-- What the loop is for: the records of an archive in order, each kept one packed, each skipped
    one left out, or an error under `--no-skip`. -/
def packRecords : List TarHeader → W → Option W
  | [], w => some w
  | hdr :: rs, w =>
    match tarRecordName ops hdr with
    | none => if flags.dontSkip then none else packRecords rs w
    | some name => (packRecord ops flags hdr name w).bind (packRecords rs)

variable {ops flags}

/-- Under `--no-skip`, an archive that packs has no record the checks reject. -/
theorem packRecords_dontSkip (hd : flags.dontSkip = true) :
    ∀ {rs : List TarHeader} {w w' : W}, packRecords ops flags rs w = some w' →
      ∀ hdr ∈ rs, tarRecordName ops hdr ≠ none
  | [], _, _, _, _, hmem => absurd hmem (List.not_mem_nil _)
  | hdr :: rs, w, w', h, hdr', hmem => by
    unfold packRecords at h
    cases hname : tarRecordName ops hdr with
    | none => simp [hname, hd] at h
    | some name =>
      rw [hname, Option.bind_eq_some] at h
      obtain ⟨w₁, -, h⟩ := h
      rcases List.mem_cons.mp hmem with rfl | hmem
      · simp [hname]
      · exact packRecords_dontSkip hd h hdr' hmem

/-! ## One pass -/

section Pass

variable {hdr : TarHeader} {name : String} {w w' : W} {s e : Stdin}

/-- `write_file` that succeeds got its file object and handed the data to the data writer. -/
theorem writeFile_world {fi : FileInfo} (h : writeFile ops hdr fi w s = .ok (w', e)) :
    ops.stdinFileAlloc w = true ∧ ops.writeData w fi hdr.sparse = some w' := by
  unfold writeFile at h
  split_ifs at h with hsp halloc halloc
  · obtain ⟨s₁, -, h⟩ := except_bind_eq_ok.mp h
    split at h
    · rename_i w₁ hw
      obtain ⟨s₂, -, h⟩ := except_bind_eq_ok.mp h
      cases h
      exact ⟨halloc, hw⟩
    · cases h
  · obtain ⟨s₁, -, h⟩ := except_bind_eq_ok.mp h
    split at h
    · rename_i w₁ hw
      obtain ⟨s₂, -, h⟩ := except_bind_eq_ok.mp h
      cases h
      exact ⟨halloc, by rw [not_not.mp hsp]; exact hw⟩
    · cases h

/-- `create_node_and_repack_data` that succeeds does to the world what `packRecord` does. -/
theorem createNodeAndRepackData_world
    (h : createNodeAndRepackData ops flags hdr name w s = .ok (w', e)) :
    packRecord ops flags hdr name w = some w' := by
  dsimp only [createNodeAndRepackData] at h
  split at h
  · rename_i w₁ hadd
    obtain ⟨w₂, hx, h⟩ := except_bind_eq_ok.mp h
    dsimp only [packRecord]
    rw [hadd, Option.bind_eq_bind, Option.some_bind, hx]
    simp only [Except.toOption, Option.some_bind]
    rw [packStat_mode] at h ⊢
    by_cases hreg : S_ISREG hdr.sb.mode = true
    · rw [if_pos hreg] at h ⊢
      obtain ⟨halloc, hw⟩ := writeFile_world h
      rw [if_pos halloc, ← hw, packStat_size]
    · rw [if_neg hreg] at h ⊢
      cases h
      rfl
  · cases h

/-- A pass of the loop that goes on does to the world what `packRecords` does with the record it
    read: it packs a kept record, and leaves the world alone when it skips one. -/
theorem tarLoopStep_next_world {b : Stdin} (hread : ops.readHeader s = .ok (some (hdr, b)))
    (h : tarLoopStep ops flags w s = .next w' e) (rs : List TarHeader) :
    packRecords ops flags (hdr :: rs) w = packRecords ops flags rs w' := by
  unfold tarLoopStep at h
  simp only [hread] at h
  rw [packRecords]
  cases hname : tarRecordName ops hdr with
  | none =>
    simp only [hname] at h ⊢
    split_ifs at h ⊢ with hd
    split at h
    · cases h
    · cases h
      rfl
  | some name =>
    simp only [hname] at h ⊢
    split at h
    · cases h
    · rename_i w₁ e₁ hc
      cases h
      rw [createNodeAndRepackData_world hc, Option.some_bind]

end Pass

/-! ## Whole archives -/

/-- On an archive the loop reads header after header, a run that returns 0 has built exactly
    what packing its kept records in order builds. -/
theorem processTarBall_packRecords (len : Nat) :
    ∀ (rs : List (Nat × TarHeader)) (p : Nat) (fuel : Nat) (w : W) {w' : W} {s' : Stdin},
      TarLayout ops len rs p →
      (∀ r ∈ rs, passConsumes ops r.2 = r.2.recordSize.toNat + tarPadding r.2.recordSize.toNat) →
      processTarBall ops flags fuel w ⟨p, len⟩ = some (0, w', s') →
      packRecords ops flags (rs.map Prod.snd) w = some w'
  | _, _, 0, _, _, _, _, _, h => by cases h
  | [], p, _ + 1, w, _, _, hl, _, h => by
    simp only [processTarBall, tarLoopStep, show ops.readHeader ⟨p, len⟩ = _ from hl,
      Option.some.injEq, Prod.mk.injEq] at h
    rw [← h.2.1]
    rfl
  | (hlen, hdr) :: rs, p, fuel + 1, w, _, _, ⟨hread, hl⟩, hsync, h => by
    rw [processTarBall] at h
    cases hstep : tarLoopStep ops flags w ⟨p, len⟩ with
    | done ret w₁ s₁ =>
      rw [hstep, Option.some.injEq, Prod.mk.injEq] at h
      exact absurd (h.1 ▸ tarLoopStep_done_of_header hread hstep) (by decide)
    | next w₁ e =>
      rw [hstep] at h
      have he : e = ⟨p + hlen + hdr.recordSize.toNat + tarPadding hdr.recordSize.toNat, len⟩ := by
        rw [tarLoopStep_consumes hread hstep, hsync _ (List.mem_cons_self ..)]
        simp [Nat.add_assoc]
      rw [List.map_cons, tarLoopStep_next_world hread hstep]
      exact processTarBall_packRecords len rs _ fuel w₁ hl
        (fun r hr => hsync r (List.mem_cons_of_mem _ hr)) (he ▸ h)

/-- On an archive the loop reads header after header, a run of `process_tar_ball` that returns 0
    has done to the tree and the data writer exactly what packing the kept records, in the order
    of the archive, does (`packRecords`); under `--no-skip` it kept every record. -/
theorem processTarBall_builds_kept_records {len p fuel : Nat} {rs : List (Nat × TarHeader)}
    {w w' : W} {s' : Stdin} (hl : TarLayout ops len rs p)
    (hsync : ∀ r ∈ rs,
      passConsumes ops r.2 = r.2.recordSize.toNat + tarPadding r.2.recordSize.toNat)
    (h : processTarBall ops flags fuel w ⟨p, len⟩ = some (0, w', s')) :
    packRecords ops flags (rs.map Prod.snd) w = some w' ∧
      (flags.dontSkip = true → ∀ r ∈ rs, tarRecordName ops r.2 ≠ none) :=
  have hpack := processTarBall_packRecords len rs p fuel w hl hsync h
  ⟨hpack, fun hd r hr => packRecords_dontSkip hd hpack r.2 (List.mem_map_of_mem _ hr)⟩

/-- A record of an unknown type, with a 512-byte header and no body. -/
def thingHeader : TarHeader where
  name := some "dev/thing"
  sb := ⟨0, 0, 0, 0, 0⟩
  linkTarget := none
  sparse := []
  xattr := []
  recordSize := 0
  unknownRecord := true

/-- The directory `etc`, with a 512-byte header and no body. -/
def etcHeader : TarHeader where
  name := some "etc"
  sb := ⟨S_IFDIR ||| 0o755, 0, 0, 0, 0⟩
  linkTarget := none
  sparse := []
  xattr := []
  recordSize := 0
  unknownRecord := false

/-- A tree that records the names it is given, over a stream that holds `thingHeader` and
    then `etcHeader`. -/
def namesOps : TarOps (List String) where
  readHeader s :=
    if s.pos = 0 then .ok (some (thingHeader, { s with pos := 512 }))
    else if s.pos = 512 then .ok (some (etcHeader, { s with pos := 1024 }))
    else if s.pos = 1024 then .ok none
    else .error (-1)
  canonicalizeName := some
  defaultMtime _ := 0
  addGeneric w name _ _ := some (w ++ [name])
  hasXattr _ := true
  addXattr w _ _ := some w
  stdinFileAlloc _ := true
  writeData w _ _ := some w

/-- The record of unknown type is skipped and leaves no trace: the tree gets `etc` alone. -/
theorem processTarBall_builds_kept_records_etc :
    TarLayout namesOps 1024 [(512, thingHeader), (512, etcHeader)] 0 ∧
    (∀ r ∈ [(512, thingHeader), (512, etcHeader)],
      passConsumes namesOps r.2 = r.2.recordSize.toNat + tarPadding r.2.recordSize.toNat) ∧
    processTarBall namesOps ⟨false, false, false⟩ 3 [] ⟨0, 1024⟩ =
      some (0, ["etc"], ⟨1024, 1024⟩) ∧
    (packRecords namesOps ⟨false, false, false⟩
        ([(512, thingHeader), (512, etcHeader)].map Prod.snd) [] = some ["etc"] ∧
      ((⟨false, false, false⟩ : TarFlags).dontSkip = true →
        ∀ r ∈ [(512, thingHeader), (512, etcHeader)], tarRecordName namesOps r.2 ≠ none)) :=
  have hl : TarLayout namesOps 1024 [(512, thingHeader), (512, etcHeader)] 0 := ⟨rfl, rfl, rfl⟩
  have hsync : ∀ r ∈ [(512, thingHeader), (512, etcHeader)],
      passConsumes namesOps r.2 = r.2.recordSize.toNat + tarPadding r.2.recordSize.toNat := by
    decide
  have hrun : processTarBall namesOps ⟨false, false, false⟩ 3 [] ⟨0, 1024⟩ =
      some (0, ["etc"], ⟨1024, 1024⟩) := rfl
  ⟨hl, hsync, hrun, processTarBall_builds_kept_records hl hsync hrun⟩

/-! ## Archives that pack

Conversely, a run does not fail where nothing under it fails: on an archive the loop reads header
after header and that the stream holds to its end, whose sparse maps' counts stay below `2^64`,
and whose kept records the tree and the data writer take (`packRecords` succeeds),
`process_tar_ball` returns 0 after one pass per record and one more, having built what
`packRecords` builds (`processTarBall_of_packRecords`). The bound on the counts is needed: a map
whose counts wrap passes the layout check, and `write_file` then fails on it
(`writeFile_wrapped_fails`). -/

section Complete

variable {hdr : TarHeader} {name : String} {w w' : W} {s : Stdin}

/-- A record the checks keep has a layout the sparse check accepts. -/
theorem sparseLayoutBroken_of_tarRecordName (h : tarRecordName ops hdr = some name) :
    sparseLayoutBroken hdr.sparse hdr.recordSize = false := by
  unfold tarRecordName at h
  split at h
  · cases h
  · split_ifs at h with hbad
    simp only [Bool.or_eq_true, not_or, Bool.not_eq_true] at hbad
    exact hbad.2

theorem Stdin.consume_of_le {n : Nat} (h : s.pos + n ≤ s.len) :
    s.consume n = .ok { s with pos := s.pos + n } := by
  rw [Stdin.consume, if_pos h]

/-- `write_file` succeeds when the data writer takes the file and the stream holds its body and
    padding; it consumes what `writeFile_consumes` says. -/
theorem writeFile_of_writeData (hdr : TarHeader) (fi : FileInfo)
    (hok : sparseLayoutBroken hdr.sparse hdr.recordSize = false)
    (hwrap : sparseTotal hdr.sparse < 2 ^ 64) (halloc : ops.stdinFileAlloc w = true)
    (hw : ops.writeData w fi hdr.sparse = some w')
    (hfit : s.pos + (if hdr.sparse = [] then fi.size.toNat + tarPadding fi.size.toNat
      else hdr.recordSize.toNat + tarPadding hdr.recordSize.toNat) ≤ s.len) :
    writeFile ops hdr fi w s = .ok (w', { s with pos := s.pos +
      (if hdr.sparse = [] then fi.size.toNat + tarPadding fi.size.toNat
        else hdr.recordSize.toNat + tarPadding hdr.recordSize.toNat) }) := by
  unfold writeFile
  by_cases hsp : hdr.sparse = []
  · rw [if_pos hsp] at hfit ⊢
    have h₁ : readStdinFile s fi.size = .ok { s with pos := s.pos + fi.size.toNat } :=
      Stdin.consume_of_le (by omega)
    have h₂ : skipPadding { s with pos := s.pos + fi.size.toNat } fi.size =
        .ok { s with pos := s.pos + (fi.size.toNat + tarPadding fi.size.toNat) } := by
      rw [skipPadding, Stdin.consume_of_le (by simp only; omega), Nat.add_assoc]
    rw [hsp] at hw
    rw [if_neg (not_not.mpr hsp), if_pos halloc]
    simp only [bind, Except.bind, h₁, hw, h₂]
    rfl
  · rw [if_neg hsp] at hfit ⊢
    have hsum := sparseLayoutBroken_sum hsp hok
    have htotal : sparseTotal hdr.sparse = hdr.recordSize.toNat := by
      have h := foldl_count_toNat hdr.sparse 0
      rw [hsum, UInt64.toNat_zero, Nat.zero_add, Nat.mod_eq_of_lt hwrap] at h
      exact h.symm
    have h₁ : readStdinFileCondensed s hdr.recordSize hdr.sparse =
        .ok { s with pos := s.pos + hdr.recordSize.toNat } := by
      rw [readStdinFileCondensed, if_pos (by rw [htotal]), htotal, Stdin.consume_of_le (by omega)]
    have h₂ : skipPadding { s with pos := s.pos + hdr.recordSize.toNat } hdr.recordSize =
        .ok { s with pos := s.pos + (hdr.recordSize.toNat + tarPadding hdr.recordSize.toNat) } := by
      rw [skipPadding, Stdin.consume_of_le (by simp only; omega), Nat.add_assoc]
    rw [if_pos hsp, if_pos halloc, hsum]
    simp only [bind, Except.bind, h₁, hw, h₂]
    rfl

/-- A sparse map whose counts add up to `2^64` or more passes the layout check when they wrap to
    `record_size`, but `write_file` then fails on any stream: the condensed read is given their
    wrapped sum and asks for their whole count. -/
theorem writeFile_wrapped_fails (hdr : TarHeader) (fi : FileInfo) (hsp : hdr.sparse ≠ [])
    (hwrap : 2 ^ 64 ≤ sparseTotal hdr.sparse) : writeFile ops hdr fi w s = .error (-1) := by
  have hsum : ¬sparseTotal hdr.sparse ≤
      (hdr.sparse.foldl (fun (acc : UInt64) (m : UInt64 × UInt64) => acc + m.2) 0).toNat := by
    rw [foldl_count_toNat, UInt64.toNat_zero, Nat.zero_add]
    omega
  unfold writeFile
  rw [if_pos hsp]
  split_ifs
  · simp only [readStdinFileCondensed, if_neg hsum]
    rfl
  · rfl

/-- `create_node_and_repack_data` succeeds where `packRecord` does and the stream holds the
    record's body and padding. -/
theorem createNodeAndRepackData_of_packRecord (hpack : packRecord ops flags hdr name w = some w')
    (hok : sparseLayoutBroken hdr.sparse hdr.recordSize = false)
    (hwrap : sparseTotal hdr.sparse < 2 ^ 64) (hfit : s.pos + packConsumes hdr ≤ s.len) :
    createNodeAndRepackData ops flags hdr name w s =
      .ok (w', { s with pos := s.pos + packConsumes hdr }) := by
  dsimp only [packRecord] at hpack
  simp only [Option.bind_eq_bind, Option.bind_eq_some] at hpack
  obtain ⟨w₁, hadd, w₂, hx, hpack⟩ := hpack
  have hx' : (if flags.noXattr then pure w₁ else copyXattr ops flags w₁ hdr.xattr) = .ok w₂ := by
    revert hx
    cases (if flags.noXattr then pure w₁ else copyXattr ops flags w₁ hdr.xattr) <;>
      simp [Except.toOption]
  dsimp only [createNodeAndRepackData]
  rw [hadd]
  simp only [bind, Except.bind, hx', packStat_mode]
  unfold packConsumes at hfit ⊢
  rw [packStat_mode] at hpack
  by_cases hreg : S_ISREG hdr.sb.mode = true
  · simp only [if_pos hreg] at hpack hfit ⊢
    split_ifs at hpack with halloc
    rw [writeFile_of_writeData { hdr with sb := packStat ops flags w hdr } ⟨_⟩ hok hwrap halloc
      hpack (by simpa only [packStat_size] using hfit), packStat_size]
  · simp only [if_neg hreg] at hpack hfit ⊢
    cases hpack
    simp [pure, Except.pure]

/-- A pass over a record that `packRecords` packs or skips goes on, consuming what
    `passConsumes` says, to a world from which `packRecords` packs the rest. -/
theorem tarLoopStep_of_packRecords {b : Stdin} {rs : List TarHeader}
    (hread : ops.readHeader s = .ok (some (hdr, b))) (hwrap : sparseTotal hdr.sparse < 2 ^ 64)
    (hfit : b.pos + passConsumes ops hdr ≤ b.len)
    (hpack : packRecords ops flags (hdr :: rs) w = some w') :
    ∃ w₁, tarLoopStep ops flags w s = .next w₁ { b with pos := b.pos + passConsumes ops hdr } ∧
      packRecords ops flags rs w₁ = some w' := by
  rw [packRecords] at hpack
  unfold tarLoopStep
  simp only [hread]
  cases hname : tarRecordName ops hdr with
  | none =>
    rw [hname] at hpack
    have hd : flags.dontSkip = false := Bool.eq_false_iff.mpr fun hd => by simp [hd] at hpack
    rw [hd, if_neg (by decide)] at hpack
    simp only [passConsumes, hname] at hfit ⊢
    simp only [hd, skipEntry, Stdin.consume_of_le hfit]
    exact ⟨w, rfl, hpack⟩
  | some name =>
    rw [hname, Option.bind_eq_some] at hpack
    obtain ⟨w₁, hw₁, hrest⟩ := hpack
    simp only [passConsumes, hname] at hfit ⊢
    rw [createNodeAndRepackData_of_packRecord hw₁ (sparseLayoutBroken_of_tarRecordName hname)
      hwrap hfit]
    exact ⟨w₁, rfl, hrest⟩

end Complete

/-- Where the records `rs` laid out from `p` end is at or after `p`. -/
theorem le_layoutEnd : ∀ (rs : List (Nat × TarHeader)) (p : Nat), p ≤ layoutEnd rs p
  | [], _ => Nat.le_refl _
  | (_, _) :: rs, _ => Nat.le_trans (by omega) (le_layoutEnd rs _)

/-- On an archive the loop reads header after header and that the stream holds to its end, whose
    sparse maps' counts stay below `2^64`, and whose kept records the tree and the data writer
    take, `process_tar_ball` returns 0 after one pass per record and one more, at the end of the
    archive, having built what `packRecords` builds. -/
theorem processTarBall_of_packRecords (len : Nat) :
    ∀ (rs : List (Nat × TarHeader)) (p : Nat) (w : W) {w' : W},
      TarLayout ops len rs p →
      (∀ r ∈ rs, passConsumes ops r.2 = r.2.recordSize.toNat + tarPadding r.2.recordSize.toNat) →
      (∀ r ∈ rs, sparseTotal r.2.sparse < 2 ^ 64) → layoutEnd rs p ≤ len →
      packRecords ops flags (rs.map Prod.snd) w = some w' →
      processTarBall ops flags (rs.length + 1) w ⟨p, len⟩ = some (0, w', ⟨layoutEnd rs p, len⟩)
  | [], p, w, _, hl, _, _, _, hpack => by
    cases hpack
    simp only [processTarBall, tarLoopStep, show ops.readHeader ⟨p, len⟩ = _ from hl]
    rfl
  | (hlen, hdr) :: rs, p, w, _, ⟨hread, hl⟩, hsync, hwrap, hend, hpack => by
    have hnext :=
      le_layoutEnd rs (p + hlen + hdr.recordSize.toNat + tarPadding hdr.recordSize.toNat)
    have hc := hsync _ (List.mem_cons_self ..)
    obtain ⟨w₁, hstep, hrest⟩ := tarLoopStep_of_packRecords hread (hwrap _ (List.mem_cons_self ..))
      (by simp only [hc, layoutEnd] at hend ⊢; omega) hpack
    rw [List.length_cons, processTarBall, hstep]
    simp only [hc, ← Nat.add_assoc]
    exact processTarBall_of_packRecords len rs _ w₁ hl
      (fun r hr => hsync r (List.mem_cons_of_mem _ hr))
      (fun r hr => hwrap r (List.mem_cons_of_mem _ hr)) hend hrest

theorem processTarBall_of_packRecords_etc :
    TarLayout namesOps 1024 [(512, thingHeader), (512, etcHeader)] 0 ∧
    (∀ r ∈ [(512, thingHeader), (512, etcHeader)],
      passConsumes namesOps r.2 = r.2.recordSize.toNat + tarPadding r.2.recordSize.toNat) ∧
    (∀ r ∈ [(512, thingHeader), (512, etcHeader)], sparseTotal r.2.sparse < 2 ^ 64) ∧
    layoutEnd [(512, thingHeader), (512, etcHeader)] 0 ≤ 1024 ∧
    packRecords namesOps ⟨false, false, false⟩ ([(512, thingHeader), (512, etcHeader)].map Prod.snd)
      [] = some ["etc"] ∧
    processTarBall namesOps ⟨false, false, false⟩
        ([(512, thingHeader), (512, etcHeader)].length + 1) [] ⟨0, 1024⟩ =
      some (0, ["etc"], ⟨layoutEnd [(512, thingHeader), (512, etcHeader)] 0, 1024⟩) :=
  have hl : TarLayout namesOps 1024 [(512, thingHeader), (512, etcHeader)] 0 := ⟨rfl, rfl, rfl⟩
  have hsync : ∀ r ∈ [(512, thingHeader), (512, etcHeader)],
      passConsumes namesOps r.2 = r.2.recordSize.toNat + tarPadding r.2.recordSize.toNat := by
    decide
  have hwrap : ∀ r ∈ [(512, thingHeader), (512, etcHeader)], sparseTotal r.2.sparse < 2 ^ 64 := by
    decide
  have hend : layoutEnd [(512, thingHeader), (512, etcHeader)] 0 ≤ 1024 := by decide
  have hpack : packRecords namesOps ⟨false, false, false⟩
      ([(512, thingHeader), (512, etcHeader)].map Prod.snd) [] = some ["etc"] := rfl
  ⟨hl, hsync, hwrap, hend, hpack,
    processTarBall_of_packRecords 1024 _ 0 [] hl hsync hwrap hend hpack⟩

end Tar2Sqfs
