import Tar2Sqfs.ProcessArgs.Basic

set_option autoImplicit false

/-! # The loop of `process_args`

A call of `getopt_long` that returns `?` need not move the parse on (`Getopt.Progress`), but
`process_args` exits on it, and every call that returns an option does move it on: the loop makes
at most `parseMeasure` calls on every argument vector. On the vectors the reference parser reads,
the loop applies the options in the order the reference yields them. Its one source of undefined
behaviour is the read past `long_opts`: a call that returns an option with `optarg` NULL returns
one that takes no argument. `processArgsLoop_outcome` says once how a run can end; what the loop
returns, its defined behaviour and its exits (`EXIT_SUCCESS` with nothing on `stderr`, or
`EXIT_FAILURE` after a message) each follow from it and from one lemma per way out. -/

namespace Tar2Sqfs

/-! ## Every option leaves less to parse -/

theorem argsWeight_drop_succ_le (argv : List CStr) (i : Nat) :
    argsWeight (argv.drop (i + 1)) ≤ argsWeight (argv.drop i) := by
  induction argv generalizing i with
  | nil => simp
  | cons a rest ih =>
    cases i with
    | zero => simp [argsWeight]
    | succ i => exact ih i

theorem argsWeight_drop_le (argv : List CStr) {i j : Nat} (h : i ≤ j) :
    argsWeight (argv.drop j) ≤ argsWeight (argv.drop i) := by
  induction j, h using Nat.le_induction with
  | base => exact Nat.le_refl _
  | succ j _ ih => exact Nat.le_trans (argsWeight_drop_succ_le argv j) ih

theorem argsWeight_drop_of_lt {argv : List CStr} {i : Nat} (h : i < argv.length) :
    argsWeight (argv.drop i) = (argAt argv i).length + 2 + argsWeight (argv.drop (i + 1)) := by
  induction argv generalizing i with
  | nil => simp at h
  | cons a rest ih =>
    cases i with
    | zero => rfl
    | succ i => exact ih (Nat.lt_of_succ_lt_succ h)

section Measure

variable {argv : List CStr} {optstr : CStr} {longopts : List LongOption} {s s' : GetoptState}
  {r : Int}

theorem parseMeasure_of_nil (h : s.current = []) :
    parseMeasure argv s = argv.length + 2 - s.optind + argsWeight (argv.drop s.optind) := by
  simp [parseMeasure, h]

theorem parseMeasure_of_ne_nil (h : s.current ≠ []) :
    parseMeasure argv s =
      argv.length + 2 - s.optind + (argsWeight (argv.drop (s.optind + 1)) + s.current.length) := by
  simp [parseMeasure, h]

/-- After an option read from `optchr :: rest`, what is left is at most the arguments after
    `argv[optind]` and `rest`. -/
theorem parseMeasure_getoptNextChar {c : Char} {rest : List Char}
    (h : getoptNextChar argv optstr s c rest = (r, s')) (hq : r ≠ questionMark) :
    parseMeasure argv s' ≤
      argv.length + 2 - s.optind + argsWeight (argv.drop (s.optind + 1)) + rest.length := by
  rcases getoptNextChar_advances h hq with ⟨hlt, hnil⟩ | ⟨hopt, hcur, hne⟩
  · have := argsWeight_drop_le argv (show s.optind + 1 ≤ s'.optind by omega)
    rw [parseMeasure_of_nil hnil]
    omega
  · rw [parseMeasure_of_ne_nil (hcur ▸ hne), hopt, hcur]
    omega

theorem parseMeasure_getopt_lt (h : getopt argv optstr s = (r, s')) (hr : r ≠ -1)
    (hq : r ≠ questionMark) : parseMeasure argv s' < parseMeasure argv s := by
  unfold getopt at h
  split at h
  · rename_i c rest hcur
    have := parseMeasure_getoptNextChar h hq
    rw [parseMeasure_of_ne_nil (s := s) (by simp [hcur]), hcur, List.length_cons]
    omega
  · rename_i hcur
    split_ifs at h with hlen
    · exact absurd (Prod.mk.inj h).1.symm hr
    · split at h
      · exact absurd (Prod.mk.inj h).1.symm hr
      · rename_i c rest harg
        have := parseMeasure_getoptNextChar h hq
        rw [parseMeasure_of_nil hcur, argsWeight_drop_of_lt (by omega), harg]
        simp only [List.length_cons]
        omega
      · exact absurd (Prod.mk.inj h).1.symm hr

theorem parseMeasure_getoptLongName_lt {ptr : List Char}
    (h : getoptLongName argv longopts s ptr = some (r, s')) (hq : r ≠ questionMark)
    (hlen : s.optind < argv.length) : parseMeasure argv s' < parseMeasure argv s := by
  obtain ⟨hlt, hcur⟩ := getoptLongName_advances h hq
  have := argsWeight_drop_le argv (show s.optind + 1 ≤ s'.optind by omega)
  have := argsWeight_drop_le argv (show s.optind + 1 ≤ s'.optind + 1 by omega)
  by_cases hnil : s.current = []
  · rw [parseMeasure_of_nil hnil, parseMeasure_of_nil (hcur ▸ hnil), argsWeight_drop_of_lt hlen]
    omega
  · rw [parseMeasure_of_ne_nil hnil, parseMeasure_of_ne_nil (hcur ▸ hnil), hcur]
    omega

/-- Every call of `getopt_long` that returns an option leaves less to parse. -/
theorem parseMeasure_getoptLong_lt (h : getoptLong argv optstr longopts s = some (r, s'))
    (hr : r ≠ -1) (hq : r ≠ questionMark) : parseMeasure argv s' < parseMeasure argv s := by
  dsimp only [getoptLong] at h
  split_ifs at h with hshort
  · exact parseMeasure_getopt_lt (Option.some.inj h) hr hq
  · exact parseMeasure_getoptLongName_lt h hq (Nat.lt_of_not_le fun h' => hshort (.inl h'))

end Measure

/-! ## The loop -/

section Loop

variable {env : ArgsEnv} {argv : List CStr}

/-- The loop goes on only after a call that returns an option, which leaves less to parse, so a
    fuel above the measure never runs out. -/
theorem processArgsLoop_isSome : ∀ {fuel : Nat} {o : Options} {s : GetoptState},
    parseMeasure argv s < fuel → (processArgsLoop env argv fuel o s).isSome
  | 0, _, _, h => absurd h (Nat.not_lt_zero _)
  | fuel + 1, o, s, h => by
    rw [processArgsLoop]
    rcases hcall : getoptLong argv shortOpts longOpts s with _ | ⟨i, s'⟩
    · rfl
    · simp only
      split_ifs with hi
      · rfl
      · rcases hopt : processOption env o i s'.optarg with e | o'
        · rfl
        · have := parseMeasure_getoptLong_lt hcall hi (processOption_ne_questionMark hopt)
          exact processArgsLoop_isSome (by omega)

/-- More fuel does not change an outcome the loop reached. -/
theorem processArgsLoop_succ : ∀ {fuel : Nat} {o : Options} {s : GetoptState}
    {out : Except ArgsExit (Options × List Char)},
    processArgsLoop env argv fuel o s = some out →
      processArgsLoop env argv (fuel + 1) o s = some out
  | 0, _, _, _, h => nomatch h
  | fuel + 1, o, s, out, h => by
    rw [processArgsLoop] at h ⊢
    rcases hcall : getoptLong argv shortOpts longOpts s with _ | ⟨i, s'⟩
    · simpa only [hcall] using h
    · simp only [hcall] at h ⊢
      split_ifs at h ⊢ with hi
      · exact h
      · rcases hopt : processOption env o i s'.optarg with e | o'
        · simpa only [hopt] using h
        · simp only [hopt] at h ⊢
          exact processArgsLoop_succ h

/-- What a run of the loop can end on, said once: every outcome satisfies `P` when each way out
    of the loop does, from globals that satisfy `I`, which each option the switch accepts keeps. -/
theorem processArgsLoop_outcome {I : Options → Prop}
    {P : Except ArgsExit (Options × List Char) → Prop}
    (hnone : ∀ s, getoptLong argv shortOpts longOpts s = none → P (.error .undefined))
    (hend : ∀ o s s', I o → getoptLong argv shortOpts longOpts s = some (-1, s') →
      P (finishArgs argv o s'.optind))
    (herr : ∀ o s i s' e, I o → getoptLong argv shortOpts longOpts s = some (i, s') → i ≠ -1 →
      processOption env o i s'.optarg = .error e → P (.error e))
    (hkeep : ∀ o i a o', I o → processOption env o i a = .ok o' → I o') :
    ∀ {fuel : Nat} {o : Options} {s : GetoptState} {out : Except ArgsExit (Options × List Char)},
      I o → processArgsLoop env argv fuel o s = some out → P out
  | 0, _, _, _, _, h => nomatch h
  | fuel + 1, o, s, out, ho, h => by
    rw [processArgsLoop] at h
    rcases hcall : getoptLong argv shortOpts longOpts s with _ | ⟨i, s'⟩
    · simp only [hcall, Option.some.injEq] at h
      exact h ▸ hnone s hcall
    · simp only [hcall] at h
      split_ifs at h with hi
      · exact Option.some.inj h ▸ hend o s s' ho (hi ▸ hcall)
      · rcases hopt : processOption env o i s'.optarg with e | o'
        · simp only [hopt, Option.some.injEq] at h
          exact h ▸ herr o s i s' e ho hcall hi hopt
        · simp only [hopt] at h
          exact processArgsLoop_outcome hnone hend herr hkeep (hkeep o i _ o' ho hopt) h

/-- What the loop returns: the globals keep the checks of the switch and of what follows it. -/
theorem processArgsLoop_ok : ∀ {fuel : Nat} {o o' : Options} {s : GetoptState}
    {filename : List Char}, 1024 ≤ o.devblksize.toNat →
      processArgsLoop env argv fuel o s = some (.ok (o', filename)) → ParsedOk argv o' filename :=
  fun hd h => processArgsLoop_outcome (I := fun o => 1024 ≤ o.devblksize.toNat)
    (P := fun out => ∀ o' f, out = .ok (o', f) → ParsedOk argv o' f)
    (fun _ _ _ _ h => nomatch h) (fun _ _ _ hd _ _ _ h => finishArgs_ok h hd)
    (fun _ _ _ _ _ _ _ _ _ _ _ h => nomatch h) (fun _ _ _ _ hd h => processOption_devblksize h hd)
    hd h _ _ rfl

/-- Every exit of the loop is `EXIT_SUCCESS` with nothing on `stderr`, or `EXIT_FAILURE` after a
    message there. -/
theorem processArgsLoop_exitReported : ∀ {fuel : Nat} {o : Options} {s : GetoptState}
    {status : Int} {stderr : List String},
      processArgsLoop env argv fuel o s = some (.error (.exit status stderr)) →
        exitReported status stderr :=
  fun h => processArgsLoop_outcome (I := fun _ => True)
    (P := fun out => ∀ status stderr, out = .error (.exit status stderr) →
      exitReported status stderr)
    (fun _ _ _ _ h => nomatch h) (fun _ _ _ _ _ _ _ h => finishArgs_exitReported h)
    (fun _ _ _ _ _ _ _ _ hopt _ _ he => processOption_exitReported (Except.error.inj he ▸ hopt))
    (fun _ _ _ _ _ _ => trivial) trivial h _ _ rfl

/-! ## The loop as a fold over the options -/

/-- The switch applied to the (value, argument) pairs in order, stopping at the first exit. -/
def applyOptions (env : ArgsEnv) :
    Options → List (Int × Option (List Char)) → Except ArgsExit Options
  | o, [] => .ok o
  | o, (i, a) :: ps => (processOption env o i a).bind fun o => applyOptions env o ps

/-- Parsing the options first and then applying them gives what the loop gives. -/
theorem processArgsLoop_of_collectOpts : ∀ {n : Nat} {o : Options} {s s' : GetoptState}
    {ps : List (Int × Option (List Char))},
    collectOpts argv shortOpts longOpts n s = some (ps, s') →
      processArgsLoop env argv (ps.length + 1) o s =
        some ((applyOptions env o ps).bind fun o => finishArgs argv o s'.optind)
  | 0, _, _, _, _, h => nomatch h
  | n + 1, o, s, s', ps, h => by
    rw [collectOpts] at h
    rw [processArgsLoop]
    rcases hcall : getoptLong argv shortOpts longOpts s with _ | ⟨i, s₁⟩
    · simp only [hcall] at h
      cases h
    · simp only [hcall] at h ⊢
      split_ifs at h ⊢ with hi
      · obtain ⟨rfl, rfl⟩ := Prod.mk.inj (Option.some.inj h)
        rfl
      · obtain ⟨⟨rs, s₂⟩, hrest, heq⟩ := Option.map_eq_some'.mp h
        obtain ⟨rfl, rfl⟩ := Prod.mk.inj heq
        rcases hopt : processOption env o i s₁.optarg with e | o₁
        · simp only [applyOptions, hopt]
          rfl
        · simp only [applyOptions, hopt]
          exact processArgsLoop_of_collectOpts hrest

theorem processArgsLoop_add {fuel : Nat} {o : Options} {s : GetoptState}
    {out : Except ArgsExit (Options × List Char)}
    (h : processArgsLoop env argv fuel o s = some out) :
    ∀ k, processArgsLoop env argv (fuel + k) o s = some out
  | 0 => h
  | k + 1 => processArgsLoop_succ (processArgsLoop_add h k)

/-- Two fuels that both reach an outcome reach the same one. -/
theorem processArgsLoop_agree {fuel fuel' : Nat} {o : Options} {s : GetoptState}
    {out out' : Except ArgsExit (Options × List Char)}
    (h : processArgsLoop env argv fuel o s = some out)
    (h' : processArgsLoop env argv fuel' o s = some out') : out = out' := by
  have hsum := processArgsLoop_add h' fuel
  rw [Nat.add_comm, processArgsLoop_add h fuel'] at hsum
  exact Option.some.inj hsum

theorem processArgs_of_collectOpts {n : Nat} {s : GetoptState}
    {ps : List (Int × Option (List Char))}
    (h : collectOpts argv shortOpts longOpts n GetoptState.init = some (ps, s)) :
    processArgs env argv =
      some ((applyOptions env (Options.init env) ps).bind fun o => finishArgs argv o s.optind) := by
  have hsome : (processArgs env argv).isSome := processArgsLoop_isSome (Nat.lt_succ_self _)
  obtain ⟨out, hout⟩ := Option.isSome_iff_exists.mp hsome
  rw [hout, processArgsLoop_agree hout (processArgsLoop_of_collectOpts h)]

end Loop

/-! ## Defined behaviour -/

/-- `process_args` ends on every argument vector: an exit, undefined behaviour, or its return. -/
theorem processArgs_isSome (env : ArgsEnv) (argv : List CStr) : (processArgs env argv).isSome :=
  processArgsLoop_isSome (Nat.lt_succ_self _)

/-- An environment for the examples: `strtol` reads decimal digits, and the compressors are `xz`
    and the default. -/
def exampleEnv : ArgsEnv where
  defaultBlockSize := 131072
  devblkSize := 4096
  fileOpenOverwrite := 1
  compressorGetDefault := 1
  compressorIdFromName name := if name = "xz".toList then some 4 else none
  compressorExists id := id = 1 || id = 4
  strtol digits := digits.foldl (fun n c => 10 * n + ((c.toNat : Int) - 48)) 0

/-- `tar2sqfs -z out.sqfs`, on which `getopt_long` returns `?` for ever, ends at the first `?`. -/
example :
    processArgs exampleEnv [⟨"tar2sqfs".toList, by decide⟩, ⟨"-z".toList, by decide⟩,
      ⟨"out.sqfs".toList, by decide⟩] = some (.error (.exit EXIT_FAILURE [tryHelp])) :=
  rfl

/-- `process_args` exits in one of two ways: with `EXIT_SUCCESS` and nothing on `stderr`, or with
    `EXIT_FAILURE` after a message there. -/
theorem processArgs_exit (env : ArgsEnv) (argv : List CStr) (status : Int) (stderr : List String)
    (h : processArgs env argv = some (.error (.exit status stderr))) :
    exitReported status stderr :=
  processArgsLoop_exitReported h

/-- `tar2sqfs -q`, with no image name. -/
example :
    processArgs exampleEnv [⟨"tar2sqfs".toList, by decide⟩, ⟨"-q".toList, by decide⟩] =
      some (.error (.exit EXIT_FAILURE ["Missing argument: squashfs image\n", tryHelp])) :=
  rfl

/-- When `process_args` returns, there is at least one job, the device block is at least 1024
    bytes, the backlog is not zero unless `10 * num_jobs` wrapped, and the image name is the last
    argument. -/
theorem processArgs_parsedOk (env : ArgsEnv) (argv : List CStr) (o : Options)
    (filename : List Char) (hdev : 1024 ≤ env.devblkSize.toNat)
    (h : processArgs env argv = some (.ok (o, filename))) : ParsedOk argv o filename :=
  processArgsLoop_ok hdev h

/-- `tar2sqfs -j 2147483648 out.sqfs`. -/
def jobsArgv : List CStr :=
  [⟨"tar2sqfs".toList, by decide⟩, ⟨"-j".toList, by decide⟩, ⟨"2147483648".toList, by decide⟩,
    ⟨"out.sqfs".toList, by decide⟩]

/-- The globals after `jobsArgv`: `max_backlog` is `10 * 2^31`, zero in `unsigned int`. -/
def jobsOptions : Options := { Options.init exampleEnv with numJobs := 2147483648, maxBacklog := 0 }

theorem processArgs_parsedOk_jobs :
    processArgs exampleEnv jobsArgv = some (.ok (jobsOptions, "out.sqfs".toList)) ∧
      ParsedOk jobsArgv jobsOptions "out.sqfs".toList :=
  have h : processArgs exampleEnv jobsArgv = some (.ok (jobsOptions, "out.sqfs".toList)) := rfl
  ⟨h, processArgs_parsedOk exampleEnv jobsArgv _ _ (by decide) h⟩

/-- On an argument vector that the reference parser reads as the pairs `ps` over `k` arguments,
    `process_args` applies the options of `ps` in order, then looks at the arguments from
    `argv[1 + k]` on. -/
theorem processArgs_of_refParse (env : ArgsEnv) (argv : List CStr)
    (ps : List (Int × Option (List Char))) (k : Nat)
    (h : refParse shortOpts.chars longOpts true ((argv.drop 1).map CStr.chars) = some (ps, k)) :
    processArgs env argv =
      some ((applyOptions env (Options.init env) ps).bind fun o => finishArgs argv o (1 + k)) := by
  obtain ⟨s, hs, hk⟩ := collectOpts_of_refParse shortOpts_ascii (by decide) _ rfl h GetoptState.init
    rfl rfl
  rw [processArgs_of_collectOpts hs, hk]

/-- `tar2sqfs -kx --compressor xz -j4 out.sqfs`. -/
def compressorArgv : List CStr :=
  [⟨"tar2sqfs".toList, by decide⟩, ⟨"-kx".toList, by decide⟩, ⟨"--compressor".toList, by decide⟩,
    ⟨"xz".toList, by decide⟩, ⟨"-j4".toList, by decide⟩, ⟨"out.sqfs".toList, by decide⟩]

/-- Its options, as the reference parser reads them. -/
def compressorPairs : List (Int × Option (List Char)) :=
  [('k'.toNat, none), ('x'.toNat, none), ('c'.toNat, some "xz".toList), ('j'.toNat, some ['4'])]

theorem processArgs_of_refParse_compressor :
    refParse shortOpts.chars longOpts true ((compressorArgv.drop 1).map CStr.chars) =
      some (compressorPairs, 4) ∧
    processArgs exampleEnv compressorArgv =
      some ((applyOptions exampleEnv (Options.init exampleEnv) compressorPairs).bind
        fun o => finishArgs compressorArgv o (1 + 4)) :=
  have h : refParse shortOpts.chars longOpts true ((compressorArgv.drop 1).map CStr.chars) =
      some (compressorPairs, 4) := by decide
  ⟨h, processArgs_of_refParse exampleEnv compressorArgv _ _ h⟩

end Tar2Sqfs
