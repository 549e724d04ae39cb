import Tar2Sqfs.FsTree

set_option autoImplicit false

/-! # `process_tar_ball`

The main loop of `tar2sqfs.c`: read a header from standard input, decide whether to skip the
record, then either drain its body (`skip_entry`) or add a node to the tree and, for a regular
file, pack its body into the image (`create_node_and_repack_data`, `write_file`).

The decoder (`read_header`), name canonicalisation, the tree (`fstree_add_generic`,
`fstree_add_xattr`) and the compressing side of the data writer are not among the sources: they are
the fields of `TarOps`, arbitrary functions over an abstract world. What the loop reads from
standard input is modelled from the spec: the stream is the number of bytes consumed so far out of
its length, `skip_entry` drains a body and its padding to the next multiple of 512, `skip_padding`
the padding alone, and the data writer reads from a file object over standard input the bytes of
the file, where a read past the size the object was made with fails. -/

namespace Tar2Sqfs

/-! ## Standard input -/

/-- Standard input: `pos` of its `len` bytes consumed. -/
structure Stdin where
  pos : Nat
  len : Nat
deriving DecidableEq, Repr

/-- The padding after a body of `n` bytes, up to the next multiple of 512. -/
def tarPadding (n : Nat) : Nat := (512 - n % 512) % 512

/-- Modelled from the spec: read or drop `n` bytes; a stream that ends first is an error. -/
def Stdin.consume (s : Stdin) (n : Nat) : Except Int Stdin :=
  if s.pos + n ≤ s.len then .ok { s with pos := s.pos + n } else .error (-1)

/-- Modelled from the spec: `skip_entry(fd, size)` drains a body of `size` bytes and its
    padding. -/
def skipEntry (s : Stdin) (size : UInt64) : Except Int Stdin :=
  s.consume (size.toNat + tarPadding size.toNat)

/-- Modelled from the spec: `skip_padding(fd, size)` drains the padding after a body of `size`
    bytes. -/
def skipPadding (s : Stdin) (size : UInt64) : Except Int Stdin :=
  s.consume (tarPadding size.toNat)

/-- Modelled from the spec: `write_data_from_file` reads the whole file object
    `sqfs_get_stdin_file(size)`. -/
def readStdinFile (s : Stdin) (size : UInt64) : Except Int Stdin :=
  s.consume size.toNat

/-- The counts of a sparse map added up in unbounded integers. -/
def sparseTotal : List (UInt64 × UInt64) → Nat
  | [] => 0
  | (_, c) :: rest => c.toNat + sparseTotal rest

@[simp] theorem sparseTotal_nil : sparseTotal [] = 0 := rfl
@[simp] theorem sparseTotal_cons (o c : UInt64) (rest : List (UInt64 × UInt64)) :
    sparseTotal ((o, c) :: rest) = c.toNat + sparseTotal rest := rfl

/-- Modelled from the spec: `write_data_from_file_condensed` reads the extents of `sparse` one after
    the other from the file object `sqfs_get_stdin_file(size)`, and fails at a read past `size`. -/
def readStdinFileCondensed (s : Stdin) (size : UInt64) (sparse : List (UInt64 × UInt64)) :
    Except Int Stdin :=
  if sparseTotal sparse ≤ size.toNat then s.consume (sparseTotal sparse) else .error (-1)

/-! ## Decoded headers -/

/-- The `struct stat` of a decoded header. -/
structure Stat where
  mode : UInt16
  uid : UInt32
  gid : UInt32
  size : UInt64
  mtime : Int
deriving DecidableEq, Repr

/-- `tar_header_decoded_t`, with the fields `tar2sqfs.c` reads: `name` is NULL or a string,
    `sparse` the list the `sparse` pointer heads (`[]` for NULL), `xattr` the list of
    (key, value) pairs. -/
structure TarHeader where
  name : Option String
  sb : Stat
  linkTarget : Option String
  sparse : List (UInt64 × UInt64)
  xattr : List (String × String)
  recordSize : UInt64
  unknownRecord : Bool
deriving DecidableEq, Repr

/-- The globals of `tar2sqfs.c` that the loop reads (`quiet` only chooses what is printed). -/
structure TarFlags where
  dontSkip : Bool
  noXattr : Bool
  keepTime : Bool
deriving DecidableEq, Repr

/-- `file_info_t` of a regular file: `fstree_add_generic` sets its `size` from `st_size`. -/
structure FileInfo where
  size : UInt64
deriving DecidableEq, Repr

/-- The functions the loop calls that are not among the sources, over a world `W` that holds the
    tree and the data writer. -/
structure TarOps (W : Type) where
  /-- `read_header`: the header and the stream at the start of its body, `none` at the end of
      the archive (a positive return), or an error. -/
  readHeader : Stdin → Except Int (Option (TarHeader × Stdin))
  /-- `canonicalize_name`: the canonical name, `none` when it rejects the name. -/
  canonicalizeName : String → Option String
  /-- `fs->defaults.st_mtime`. -/
  defaultMtime : W → Int
  /-- `fstree_add_generic`, `none` when it fails. -/
  addGeneric : W → String → Stat → Option String → Option W
  /-- `sqfs_has_xattr`. -/
  hasXattr : String → Bool
  /-- `fstree_add_xattr`, `none` when it fails. -/
  addXattr : W → String → String → Option W
  /-- Whether `sqfs_get_stdin_file` gets its file object. -/
  stdinFileAlloc : W → Bool
  /-- What `write_data_from_file` (sparse map `[]`) and `write_data_from_file_condensed` do to
      the data writer, `none` when they fail. -/
  writeData : W → FileInfo → List (UInt64 × UInt64) → Option W

variable {W : Type} (ops : TarOps W) (flags : TarFlags)

/-! ## The sparse layout check -/

/-- The loop of the layout check from `offset` and `count` on, in 64-bit arithmetic: whether it
    breaks at an extent that starts before `offset`, and the count it reaches. -/
def sparseScan : List (UInt64 × UInt64) → UInt64 → UInt64 → Bool × UInt64
  | [], _, count => (false, count)
  | (o, c) :: rest, offset, count =>
    if o < offset then (true, count) else sparseScan rest (o + c) (count + c)

/-- Whether the layout check sets `skip`: for a map, when an extent starts before the end of the
    one before, or the counts do not add up to `record_size` (both in 64-bit arithmetic). -/
def sparseLayoutBroken (sparse : List (UInt64 × UInt64)) (recordSize : UInt64) : Bool :=
  match sparse with
  | [] => false
  | (offset, _) :: _ =>
    let r := sparseScan sparse offset 0
    r.1 || r.2 != recordSize

/-- The checks before a record is packed: the canonical name, or `none` when the record is
    skipped (a NULL or rejected name, an unknown record type, a broken sparse layout). -/
def tarRecordName (hdr : TarHeader) : Option String :=
  match hdr.name.bind ops.canonicalizeName with
  | none => none
  | some name =>
    if hdr.unknownRecord || sparseLayoutBroken hdr.sparse hdr.recordSize then none else some name

/-! ## Packing a record -/

/-- `write_file`: pack the body of a regular file from standard input, then drain its padding.
    A sparse file's body is read through a file object whose size is the sum of the counts in
    64-bit arithmetic, and its padding is that of `record_size`. -/
def writeFile (hdr : TarHeader) (fi : FileInfo) (w : W) (s : Stdin) : Except Int (W × Stdin) :=
  if hdr.sparse ≠ [] then
    let sum := hdr.sparse.foldl (fun acc m => acc + m.2) 0
    if ops.stdinFileAlloc w then do
      let s ← readStdinFileCondensed s sum hdr.sparse
      let some w := ops.writeData w fi hdr.sparse | .error (-1)
      let s ← skipPadding s hdr.recordSize
      pure (w, s)
    else .error (-1)
  else
    if ops.stdinFileAlloc w then do
      let s ← readStdinFile s fi.size
      let some w := ops.writeData w fi [] | .error (-1)
      let s ← skipPadding s fi.size
      pure (w, s)
    else .error (-1)

/-- `copy_xattr`: keys that squashfs cannot encode are an error under `--no-skip` and are left
    out otherwise. -/
def copyXattr (w : W) (xattr : List (String × String)) : Except Int W :=
  xattr.foldlM (fun w kv =>
    if ops.hasXattr kv.1 then
      match ops.addXattr w kv.1 kv.2 with
      | none => .error (-1)
      | some w => .ok w
    else if flags.dontSkip then .error (-1) else .ok w) w

/-- The stat that `create_node_and_repack_data` hands to the tree: the header's, with the tree's
    default modification time unless `--keep-time`. -/
def packStat (w : W) (hdr : TarHeader) : Stat :=
  if flags.keepTime then hdr.sb else { hdr.sb with mtime := ops.defaultMtime w }

@[simp] theorem packStat_mode (w : W) (hdr : TarHeader) :
    (packStat ops flags w hdr).mode = hdr.sb.mode := by
  unfold packStat
  split_ifs <;> rfl

@[simp] theorem packStat_size (w : W) (hdr : TarHeader) :
    (packStat ops flags w hdr).size = hdr.sb.size := by
  unfold packStat
  split_ifs <;> rfl

/-- `create_node_and_repack_data` for a record whose canonical name is `name`. -/
def createNodeAndRepackData (hdr : TarHeader) (name : String) (w : W) (s : Stdin) :
    Except Int (W × Stdin) := do
  let sb := packStat ops flags w hdr
  let some w := ops.addGeneric w name sb hdr.linkTarget | .error (-1)
  let w ← (if flags.noXattr then pure w else copyXattr ops flags w hdr.xattr)
  if S_ISREG sb.mode then writeFile ops { hdr with sb := sb } ⟨sb.size⟩ w s else pure (w, s)

/-! ## The loop -/

/-- How one pass of the loop of `process_tar_ball` ends: it returns `ret`, or goes on to the
    next header. -/
inductive LoopStep (W : Type) where
  | done (ret : Int) (w : W) (s : Stdin)
  | next (w : W) (s : Stdin)

/-- One pass of the loop of `process_tar_ball`. -/
def tarLoopStep (w : W) (s : Stdin) : LoopStep W :=
  match ops.readHeader s with
  | .error _ => .done (-1) w s
  | .ok none => .done 0 w s
  | .ok (some (hdr, s)) =>
    match tarRecordName ops hdr with
    | none =>
      if flags.dontSkip then .done (-1) w s
      else
        match skipEntry s hdr.sb.size with
        | .error _ => .done (-1) w s
        | .ok s => .next w s
    | some name =>
      match createNodeAndRepackData ops flags hdr name w s with
      | .error _ => .done (-1) w s
      | .ok (w, s) => .next w s

/-- `process_tar_ball`, for at most `fuel` passes of its loop: what it returns, with the world
    and the stream after it, or `none` when the fuel runs out first. -/
def processTarBall : Nat → W → Stdin → Option (Int × W × Stdin)
  | 0, _, _ => none
  | fuel + 1, w, s =>
    match tarLoopStep ops flags w s with
    | .done ret w s => some (ret, w, s)
    | .next w s => processTarBall fuel w s

end Tar2Sqfs
