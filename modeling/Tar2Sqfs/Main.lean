import Tar2Sqfs.TarBall.Stream

set_option autoImplicit false

/-! # `main`

`main` of `tar2sqfs.c`, after `process_args`: it opens the output file, then creates the tree, the
compressor, the superblock, the data writer and the id table, runs `process_tar_ball`, and writes
the image. A failing call jumps to one of the labels `out`, `out_data`, `out_cmp`, `out_fs` and
`out_fd`, from which `main` releases what it created, in the reverse order, and returns `status`.

The calls are the fields of `MainOps`, over an abstract world; `mainCalls` lists them in the order
of the source, each with the label its failure jumps to. `status` starts as `EXIT_SUCCESS` and is
only ever set to `EXIT_SUCCESS` again, so `main` returns `EXIT_SUCCESS` on every path past
`sqfs_open_file`, whichever call failed. -/

namespace Tar2Sqfs

def EXIT_SUCCESS : Int := 0
def EXIT_FAILURE : Int := 1

/-- The objects `main` creates and releases. -/
inductive Resource
  | outfile
  | fs
  | cmp
  | data
  | idtbl
deriving DecidableEq, Repr

/-- The labels of `main`. -/
inductive MainLabel
  | out
  | outData
  | outCmp
  | outFs
  | outFd
deriving DecidableEq, Repr

/-- What the code from each label on releases, in order. -/
def MainLabel.releases : MainLabel → List Resource
  | .out => [.idtbl, .data, .cmp, .fs, .outfile]
  | .outData => [.data, .cmp, .fs, .outfile]
  | .outCmp => [.cmp, .fs, .outfile]
  | .outFs => [.fs, .outfile]
  | .outFd => [.outfile]

/-- The functions `main` calls; one that can fail returns `none` when it does. -/
structure MainOps (W : Type) where
  compressorCfgInitOptions : W → Int
  sqfsOpenFile : W → Option W
  fstreeInit : W → Option W
  sqfsCompressorCreate : W → Option W
  sqfsSuperInit : W → Option W
  sqfsSuperWrite : W → Option W
  /-- `cmp->write_options`: negative on an error, positive when it wrote options. -/
  writeOptions : W → Int × W
  /-- `super.flags |= SQFS_FLAG_COMPRESSOR_OPTIONS`. -/
  setCompressorOptionsFlag : W → W
  dataWriterCreate : W → Option W
  sqfsIdTableCreate : W → Option W
  processTarBall : W → Int × W
  dataWriterSync : W → Option W
  treeNodeSortRecursive : W → W
  fstreeGenInodeTable : W → Option W
  /-- `super.inode_count = fs.inode_tbl_size - 2`. -/
  setInodeCount : W → W
  fstreeXattrDeduplicate : W → W
  sqfsSerializeFstree : W → Option W
  dataWriterWriteFragmentTable : W → Option W
  writeExportTable : W → Option W
  sqfsIdTableWrite : W → Option W
  writeXattr : W → Option W
  /-- `super.bytes_used = outfile->get_size(outfile)`. -/
  setBytesUsed : W → W
  paddSqfs : W → Option W
  /-- `fstree_gen_file_list` and `sqfs_print_statistics`. -/
  printStatistics : W → W
  sqfsIdTableDestroy : W → W
  dataWriterDestroy : W → W
  cmpDestroy : W → W
  fstreeCleanup : W → W
  fileDestroy : W → W

variable {W : Type}

/-- A call of `main`: one that can fail and the label it then jumps to, one that creates an
    object, or one that cannot fail. -/
inductive MainCall (W : Type) where
  | step (f : W → Option W) (label : MainLabel)
  | create (f : W → Option W) (r : Resource) (label : MainLabel)
  | pure (f : W → W)

/-- The `if (...) goto label;` of a call that returns a status. -/
def failsWith (f : W → Int × W) : W → Option W := fun w =>
  if (f w).1 ≠ 0 then none else some (f w).2

/-- The calls of `main` from `fstree_init` on, in order. -/
def mainCalls (ops : MainOps W) (exportable quiet : Bool) : List (MainCall W) :=
  [.create ops.fstreeInit .fs .outFd,
   .create ops.sqfsCompressorCreate .cmp .outFs,
   .step ops.sqfsSuperInit .outCmp,
   .step ops.sqfsSuperWrite .outCmp,
   .step (fun w =>
     if (ops.writeOptions w).1 < 0 then none
     else if (ops.writeOptions w).1 > 0 then
       some (ops.setCompressorOptionsFlag (ops.writeOptions w).2)
     else some (ops.writeOptions w).2) .outCmp,
   .create ops.dataWriterCreate .data .outCmp,
   .create ops.sqfsIdTableCreate .idtbl .outData,
   .step (failsWith ops.processTarBall) .out,
   .step ops.dataWriterSync .out,
   .pure ops.treeNodeSortRecursive,
   .step ops.fstreeGenInodeTable .out,
   .pure ops.setInodeCount,
   .pure ops.fstreeXattrDeduplicate,
   .step ops.sqfsSerializeFstree .out,
   .step ops.dataWriterWriteFragmentTable .out] ++
  (if exportable then [.step ops.writeExportTable .out] else []) ++
  [.step ops.sqfsIdTableWrite .out,
   .step ops.writeXattr .out,
   .pure ops.setBytesUsed,
   .step ops.sqfsSuperWrite .out,
   .step ops.paddSqfs .out] ++
  (if quiet then [] else [.pure ops.printStatistics])

/-- The world, with the objects created and released so far, in order. -/
structure MainRun (W : Type) where
  world : W
  created : List Resource
  released : List Resource

/-- The calls run one after another: the run after the last, or the label of the first that fails
    with the run before it. -/
def runMainCalls : List (MainCall W) → MainRun W → Except (MainLabel × MainRun W) (MainRun W)
  | [], r => .ok r
  | .step f label :: cs, r =>
    match f r.world with
    | none => .error (label, r)
    | some w => runMainCalls cs { r with world := w }
  | .create f x label :: cs, r =>
    match f r.world with
    | none => .error (label, r)
    | some w => runMainCalls cs { r with world := w, created := r.created ++ [x] }
  | .pure f :: cs, r => runMainCalls cs { r with world := f r.world }

/-- The call that releases an object. -/
def release (ops : MainOps W) : Resource → W → W
  | .outfile => ops.fileDestroy
  | .fs => ops.fstreeCleanup
  | .cmp => ops.cmpDestroy
  | .data => ops.dataWriterDestroy
  | .idtbl => ops.sqfsIdTableDestroy

/-- The code from `label` to the end of `main`: release, then return `status`. -/
def unwind (ops : MainOps W) (label : MainLabel) (status : Int) (r : MainRun W) :
    Int × MainRun W :=
  (status, { r with
    world := label.releases.foldl (fun w x => release ops x w) r.world
    released := r.released ++ label.releases })

/-- `main` after `process_args`: its return value, and the run. -/
def tar2sqfsMain (ops : MainOps W) (exportable quiet : Bool) (w : W) : Int × MainRun W :=
  if ops.compressorCfgInitOptions w ≠ 0 then (EXIT_FAILURE, ⟨w, [], []⟩)
  else
    match ops.sqfsOpenFile w with
    | none => (EXIT_FAILURE, ⟨w, [], []⟩)
    | some w =>
      let status := EXIT_SUCCESS
      match runMainCalls (mainCalls ops exportable quiet) ⟨w, [.outfile], []⟩ with
      | .error (label, r) => unwind ops label status r
      | .ok r =>
        let status := EXIT_SUCCESS
        unwind ops .out status r

/-! ## The return value -/

/-- Past `sqfs_open_file`, `main` returns `EXIT_SUCCESS` whichever call fails. -/
theorem tar2sqfsMain_status (ops : MainOps W) (exportable quiet : Bool) (w : W)
    (hcfg : ops.compressorCfgInitOptions w = 0) (hopen : (ops.sqfsOpenFile w).isSome) :
    (tar2sqfsMain ops exportable quiet w).1 = EXIT_SUCCESS := by
  obtain ⟨w', hw'⟩ := Option.isSome_iff_exists.mp hopen
  unfold tar2sqfsMain
  simp only [hcfg, ne_eq, not_true_eq_false, if_false, hw']
  split <;> rfl

/-- A record of an unknown type. -/
def unknownRecordHeader : TarHeader where
  name := some "dev/thing"
  sb := ⟨0, 0, 0, 0, 0⟩
  linkTarget := none
  sparse := []
  xattr := []
  recordSize := 0
  unknownRecord := true

/-- `tar2sqfs --no-skip out.sqfs` over an archive whose one record has an unknown type: every call
    succeeds but `process_tar_ball`, run as the loop of `TarBall` over that archive. -/
def unknownRecordMainOps : MainOps Unit where
  compressorCfgInitOptions _ := 0
  sqfsOpenFile := some
  fstreeInit := some
  sqfsCompressorCreate := some
  sqfsSuperInit := some
  sqfsSuperWrite := some
  writeOptions w := (0, w)
  setCompressorOptionsFlag := id
  dataWriterCreate := some
  sqfsIdTableCreate := some
  processTarBall w :=
    (((Tar2Sqfs.processTarBall (oneRecordOps unknownRecordHeader) ⟨true, false, false⟩ 2 w
      ⟨0, 1024⟩).map (·.1)).getD (-1), w)
  dataWriterSync := some
  treeNodeSortRecursive := id
  fstreeGenInodeTable := some
  setInodeCount := id
  fstreeXattrDeduplicate := id
  sqfsSerializeFstree := some
  dataWriterWriteFragmentTable := some
  writeExportTable := some
  sqfsIdTableWrite := some
  writeXattr := some
  setBytesUsed := id
  paddSqfs := some
  printStatistics := id
  sqfsIdTableDestroy := id
  dataWriterDestroy := id
  cmpDestroy := id
  fstreeCleanup := id
  fileDestroy := id

theorem tar2sqfsMain_status_unknownRecord :
    (unknownRecordMainOps.processTarBall ()).1 = -1 ∧
      (tar2sqfsMain unknownRecordMainOps false false ()).1 = EXIT_SUCCESS :=
  ⟨rfl, tar2sqfsMain_status unknownRecordMainOps false false () rfl rfl⟩

end Tar2Sqfs
