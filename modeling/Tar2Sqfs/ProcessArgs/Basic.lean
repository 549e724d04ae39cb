import Mathlib.Data.Nat.GCD.Basic
import Tar2Sqfs.Getopt.Reference
import Tar2Sqfs.Getopt.Progress
import Tar2Sqfs.Main

set_option autoImplicit false

/-! # `process_args`

`process_args` (`tar2sqfs.c`) calls `getopt_long` until it returns `-1`, and for each option sets
one of the globals of `tar2sqfs.c` or exits; then it fixes up `num_jobs` and `max_backlog` and
takes the image name, which must be the one argument left. The libsquashfs calls, its constants
and `strtol` are the fields of `ArgsEnv`. A `long` stored into an `int`, an `unsigned int` or a
`size_t` keeps its low bits, and `10 * num_jobs` is computed in `unsigned int`.

This module holds the model and what one pass of the loop and the code after it do; the loop as a
whole is in `ProcessArgs.Loop`. -/

namespace Tar2Sqfs


/-! ## The globals and the option switch -/

/-- The names of libsquashfs and of the C library that `process_args` uses. -/
structure ArgsEnv where
  /-- `SQFS_DEFAULT_BLOCK_SIZE`. -/
  defaultBlockSize : Int
  /-- `SQFS_DEVBLK_SIZE`. -/
  devblkSize : UInt64
  /-- `SQFS_FILE_OPEN_OVERWRITE`. -/
  fileOpenOverwrite : Nat
  /-- `compressor_get_default()`. -/
  compressorGetDefault : Nat
  /-- `sqfs_compressor_id_from_name`: the id, or `none` where it returns an error. -/
  compressorIdFromName : List Char → Option Nat
  /-- `sqfs_compressor_exists`. -/
  compressorExists : Nat → Bool
  /-- `strtol(s, NULL, 0)`, a `long`. -/
  strtol : List Char → Int

/-- The globals of `tar2sqfs.c` that `process_args` sets, `filename` apart. -/
structure Options where
  blockSize : Int
  devblksize : UInt64
  quiet : Bool
  outmode : Nat
  numJobs : UInt32
  maxBacklog : UInt64
  compId : Nat
  compExtra : Option (List Char)
  fsDefaults : Option (List Char)
  dontSkip : Bool
  noXattr : Bool
  exportable : Bool
  keepTime : Bool
deriving DecidableEq, Repr

/-- The initial values of the globals, with `comp_id = compressor_get_default()` from the first
    line of `process_args`. -/
def Options.init (env : ArgsEnv) : Options where
  blockSize := env.defaultBlockSize
  devblksize := env.devblkSize
  quiet := false
  outmode := 0
  numJobs := 1
  maxBacklog := 0
  compId := env.compressorGetDefault
  compExtra := none
  fsDefaults := none
  dontSkip := false
  noXattr := false
  exportable := false
  keepTime := false

/-- How `process_args` stops without returning: `exit(status)` after the lines it wrote to
    `stderr`, or behaviour that C leaves undefined (a read past `long_opts`, or a NULL `optarg`
    where the option needs one). -/
inductive ArgsExit
  | exit (status : Int) (stderr : List String)
  | undefined
deriving DecidableEq, Repr

/-- The line written at `fail_arg`. -/
def tryHelp : String := "Try \x60tar2sqfs --help\x27 for more information.\n"

/-- `fprintf(stderr, "Unsupported compressor '%s'\n", optarg)` and `exit(EXIT_FAILURE)`. -/
def unsupportedCompressor (name : List Char) : ArgsExit :=
  .exit EXIT_FAILURE ["Unsupported compressor \x27" ++ String.mk name ++ "\x27\n"]

/-- The two ways `process_args` exits: `EXIT_SUCCESS` with nothing on `stderr`, or `EXIT_FAILURE`
    after a message there. -/
def exitReported (status : Int) (stderr : List String) : Prop :=
  status = EXIT_SUCCESS ∧ stderr = [] ∨ status = EXIT_FAILURE ∧ stderr ≠ []

instance (status : Int) (stderr : List String) : Decidable (exitReported status stderr) :=
  inferInstanceAs (Decidable (_ ∨ _))

/-- A `long` stored into an `int`: its low 32 bits, read as two's complement. -/
def toCInt (x : Int) : Int := x.bmod (2 ^ 32)

/-- A `long` stored into an `unsigned int`. -/
def toCUInt (x : Int) : UInt32 := UInt32.ofNat (x % 2 ^ 32).toNat

/-- A `long` stored into a `size_t`. -/
def toSizeT (x : Int) : UInt64 := UInt64.ofNat (x % 2 ^ 64).toNat

/-- The `optarg` of an option that needs one; a NULL one is undefined behaviour. -/
def withOptarg (optarg : Option (List Char)) (k : List Char → Except ArgsExit Options) :
    Except ArgsExit Options :=
  match optarg with
  | none => .error .undefined
  | some a => k a

/-- The body of the loop: the `switch` on the value `i` that `getopt_long` returned. Every `case`
    label is a character other than NUL, and `Char.ofNat` takes a negative `i` and one that is no
    character's code to NUL, so `i` takes the branch of a label exactly when it is its code. -/
def processOption (env : ArgsEnv) (o : Options) (i : Int) (optarg : Option (List Char)) :
    Except ArgsExit Options :=
  match Char.ofNat i.toNat with
  | 'b' => withOptarg optarg fun a => .ok { o with blockSize := toCInt (env.strtol a) }
  | 'B' => withOptarg optarg fun a =>
    if toSizeT (env.strtol a) < 1024 then
      .error (.exit EXIT_FAILURE ["Device block size must be at least 1024\n"])
    else .ok { o with devblksize := toSizeT (env.strtol a) }
  | 'c' => withOptarg optarg fun a =>
    match env.compressorIdFromName a with
    | none => .error (unsupportedCompressor a)
    | some id =>
      if env.compressorExists id then .ok { o with compId := id }
      else .error (unsupportedCompressor a)
  | 'j' => withOptarg optarg fun a => .ok { o with numJobs := toCUInt (env.strtol a) }
  | 'Q' => withOptarg optarg fun a => .ok { o with maxBacklog := toSizeT (env.strtol a) }
  | 'X' => .ok { o with compExtra := optarg }
  | 'd' => .ok { o with fsDefaults := optarg }
  | 'x' => .ok { o with noXattr := true }
  | 'k' => .ok { o with keepTime := true }
  | 's' => .ok { o with dontSkip := true }
  | 'e' => .ok { o with exportable := true }
  | 'f' => .ok { o with outmode := o.outmode ||| env.fileOpenOverwrite }
  | 'q' => .ok { o with quiet := true }
  | 'h' => .error (.exit EXIT_SUCCESS [])
  | 'V' => .error (.exit EXIT_SUCCESS [])
  | _ => .error (.exit EXIT_FAILURE [tryHelp])

/-- `if (num_jobs < 1) num_jobs = 1;` and `if (max_backlog < 1) max_backlog = 10 * num_jobs;`. -/
def fixUpJobs (o : Options) : Options :=
  let o := if o.numJobs < 1 then { o with numJobs := 1 } else o
  if o.maxBacklog < 1 then { o with maxBacklog := (10 * o.numJobs).toUInt64 } else o

/-- What follows the loop, with `optind` where `getopt_long` left it: the globals and `filename`
    when `process_args` returns. -/
def finishArgs (argv : List CStr) (o : Options) (optind : Nat) :
    Except ArgsExit (Options × List Char) :=
  let o := fixUpJobs o
  if o.compExtra = some "help".toList then .error (.exit EXIT_SUCCESS [])
  else if argv.length ≤ optind then
    .error (.exit EXIT_FAILURE ["Missing argument: squashfs image\n", tryHelp])
  else if optind + 1 < argv.length then
    .error (.exit EXIT_FAILURE ["Unknown extra arguments\n", tryHelp])
  else .ok (o, argAt argv optind)

/-- The loop of `process_args` with at most `fuel` calls of `getopt_long`, and what follows it;
    `none` when the fuel runs out. -/
def processArgsLoop (env : ArgsEnv) (argv : List CStr) :
    Nat → Options → GetoptState → Option (Except ArgsExit (Options × List Char))
  | 0, _, _ => none
  | fuel + 1, o, s =>
    match getoptLong argv shortOpts longOpts s with
    | none => some (.error .undefined)
    | some (i, s) =>
      if i = -1 then some (finishArgs argv o s.optind)
      else
        match processOption env o i s.optarg with
        | .error e => some (.error e)
        | .ok o => processArgsLoop env argv fuel o s

/-! ## The measure of what is left to parse -/

/-- The characters of the arguments, each argument counted with two more. -/
def argsWeight : List CStr → Nat
  | [] => 0
  | a :: rest => a.chars.length + 2 + argsWeight rest

/-- What is left to parse from state `s`: it falls at every call of `getopt_long` that returns
    an option. The first term falls when `optind` grows over an argument `--name` while `current`
    is not empty, which no run reaches but the state allows. -/
def parseMeasure (argv : List CStr) (s : GetoptState) : Nat :=
  argv.length + 2 - s.optind +
    if s.current = [] then argsWeight (argv.drop s.optind)
    else argsWeight (argv.drop (s.optind + 1)) + s.current.length

/-- `process_args`: the loop, with one call more than the measure allows. -/
def processArgs (env : ArgsEnv) (argv : List CStr) :
    Option (Except ArgsExit (Options × List Char)) :=
  processArgsLoop env argv (parseMeasure argv GetoptState.init + 1) (Options.init env)
    GetoptState.init

/-! ## One pass of the switch -/

section Switch

variable {env : ArgsEnv} {o o' : Options} {i : Int} {optarg : Option (List Char)}

theorem processOption_questionMark :
    processOption env o questionMark optarg = .error (.exit EXIT_FAILURE [tryHelp]) := rfl

/-- The switch goes on only for an option it knows, which `?` is not. -/
theorem processOption_ne_questionMark (h : processOption env o i optarg = .ok o') :
    i ≠ questionMark := by
  rintro rfl
  rw [processOption_questionMark] at h
  cases h

theorem withOptarg_eq_ok {k : List Char → Except ArgsExit Options}
    (h : withOptarg optarg k = .ok o') : ∃ a, optarg = some a ∧ k a = .ok o' := by
  cases optarg with
  | none => cases h
  | some a => exact ⟨a, rfl, h⟩

/-- Every way the switch exits: undefined behaviour when an option that needs `optarg` finds it
    NULL, `EXIT_SUCCESS` for help or the version, `EXIT_FAILURE` at `fail_arg`, for a device block
    under 1024 bytes, or for an unknown compressor. -/
theorem processOption_error {e : ArgsExit} (h : processOption env o i optarg = .error e) :
    e = .undefined ∧ optarg = none ∧ Char.ofNat i.toNat ∈ ['b', 'B', 'c', 'j', 'Q'] ∨
      e = .exit EXIT_SUCCESS [] ∨ e = .exit EXIT_FAILURE [tryHelp] ∨
      e = .exit EXIT_FAILURE ["Device block size must be at least 1024\n"] ∨
      ∃ a, optarg = some a ∧ e = unsupportedCompressor a := by
  unfold processOption at h
  split at h <;> (try cases optarg) <;> (try simp only [withOptarg] at h) <;>
    (repeat' split at h) <;> cases h
  all_goals first
    | exact .inl ⟨rfl, rfl, by rename_i hc; rw [hc]; decide⟩
    | exact .inr (.inl rfl)
    | exact .inr (.inr (.inl rfl))
    | exact .inr (.inr (.inr (.inl rfl)))
    | exact .inr (.inr (.inr (.inr ⟨_, rfl, rfl⟩)))

theorem processOption_exitReported {status : Int} {stderr : List String}
    (h : processOption env o i optarg = .error (.exit status stderr)) :
    exitReported status stderr := by
  rcases processOption_error h with ⟨h, -⟩ | h | h | h | ⟨a, -, h⟩
  · cases h
  all_goals
    simp only [unsupportedCompressor, ArgsExit.exit.injEq] at h
    obtain ⟨rfl, rfl⟩ := h
    simp [exitReported]

/-- Only `-B` sets `devblksize`, and only to a value of at least 1024. -/
theorem processOption_devblksize (h : processOption env o i optarg = .ok o')
    (hd : 1024 ≤ o.devblksize.toNat) : 1024 ≤ o'.devblksize.toNat := by
  unfold processOption at h
  split at h
  all_goals first
    | (cases h <;> exact hd)
    | obtain ⟨a, -, ha⟩ := withOptarg_eq_ok h
      first
        | (cases ha; exact hd)
        | (split_ifs at ha with hlt; cases ha; exact Nat.le_of_not_lt hlt)
        | (split at ha <;> (try split_ifs at ha) <;> cases ha; exact hd)

end Switch

/-! ## What follows the loop -/

/-- `10 * num_jobs` wraps to zero in `unsigned int` only at `num_jobs = 2^31`. -/
theorem uint32_ten_mul_eq_zero {n : UInt32} (h : (10 * n).toNat = 0) (hn : 1 ≤ n.toNat) :
    n.toNat = 2 ^ 31 := by
  have hmod : 10 * n.toNat % 2 ^ 32 = 0 := by
    have hmul : (10 * n).toNat = (10 : UInt32).toNat * n.toNat % 2 ^ 32 := BitVec.toNat_mul ..
    rw [← h, hmul]
    rfl
  have hd : 2 ^ 31 ∣ 5 * n.toNat := by
    have : 2 * 2 ^ 31 ∣ 2 * (5 * n.toNat) := by
      rw [← Nat.mul_assoc]
      exact Nat.dvd_of_mod_eq_zero hmod
    exact Nat.dvd_of_mul_dvd_mul_left (by decide) this
  have hlt : n.toNat < 2 ^ 32 := n.toNat_lt_size
  obtain ⟨t, ht⟩ :=
    (Nat.Coprime.pow_left 31 (by decide : Nat.Coprime 2 5)).dvd_of_dvd_mul_left hd
  clear h hmod hd
  omega

/-- What the options must be when `process_args` returns: at least one job, a device block of at
    least 1024 bytes, a nonzero backlog unless `10 * num_jobs` wrapped, and the image name the
    last argument. -/
def ParsedOk (argv : List CStr) (o : Options) (filename : List Char) : Prop :=
  1 ≤ o.numJobs.toNat ∧ 1024 ≤ o.devblksize.toNat ∧
    (o.maxBacklog.toNat = 0 → o.numJobs.toNat = 2 ^ 31) ∧
    argv.getLast?.map CStr.chars = some filename

theorem fixUpJobs_spec (o : Options) :
    1 ≤ (fixUpJobs o).numJobs.toNat ∧ (fixUpJobs o).devblksize = o.devblksize ∧
      ((fixUpJobs o).maxBacklog.toNat = 0 → (fixUpJobs o).numJobs.toNat = 2 ^ 31) := by
  let o₁ := if o.numJobs < 1 then { o with numJobs := 1 } else o
  have hjobs : 1 ≤ o₁.numJobs.toNat := by
    dsimp only [o₁]
    split_ifs with hj
    · exact Nat.le_refl 1
    · exact Nat.le_of_not_lt hj
  have hdev : o₁.devblksize = o.devblksize := by dsimp only [o₁]; split_ifs <;> rfl
  have hfix : fixUpJobs o =
      if o₁.maxBacklog < 1 then { o₁ with maxBacklog := (10 * o₁.numJobs).toUInt64 } else o₁ := rfl
  rw [hfix]
  split_ifs with hb
  · exact ⟨hjobs, hdev, fun h0 => uint32_ten_mul_eq_zero h0 hjobs⟩
  · exact ⟨hjobs, hdev, fun h0 => (hb (show o₁.maxBacklog.toNat < 1 by omega)).elim⟩

theorem finishArgs_ok {argv : List CStr} {o o' : Options} {optind : Nat}
    {filename : List Char} (h : finishArgs argv o optind = .ok (o', filename))
    (hd : 1024 ≤ o.devblksize.toNat) : ParsedOk argv o' filename := by
  dsimp only [finishArgs] at h
  split_ifs at h with hhelp hmiss hextra
  cases h
  obtain ⟨hj, hb, hq⟩ := fixUpJobs_spec o
  refine ⟨hj, hb ▸ hd, hq, ?_⟩
  rw [List.getLast?_eq_getElem?, show argv.length - 1 = optind by omega]
  simp [argAt, List.get?_eq_getElem?, List.getElem?_eq_getElem (show optind < argv.length by omega)]

theorem finishArgs_exitReported {argv : List CStr} {o : Options} {optind : Nat} {status : Int}
    {stderr : List String} (h : finishArgs argv o optind = .error (.exit status stderr)) :
    exitReported status stderr := by
  dsimp only [finishArgs] at h
  split_ifs at h <;> cases h <;> decide

end Tar2Sqfs
