import Tar2Sqfs.ProcessArgs.Loop
import Tar2Sqfs.Getopt.Reachable

set_option autoImplicit false

/-! # What `process_args` keeps of its arguments

`process_args` keeps two of the `optarg`s `getopt_long` gives it as they are, `comp_extra` (`-X`)
and `fs_defaults` (`-d`), and `main` reads them after it returns. The switch only ever sets either
of them to the `optarg` of the call (`processOption_strings`), and that `optarg` points into an
argument in every state a run of `getopt_long` reaches (`GetoptState.Inv`). So whenever
`process_args` returns, each of the two is NULL or a tail of one of the program's arguments
(`processArgs_strings_in_argv`). -/

namespace Tar2Sqfs

variable {env : ArgsEnv} {argv : List CStr}

/-- The switch leaves `comp_extra` and `fs_defaults` as they were, or sets one of them to
    `optarg`. -/
theorem processOption_strings {o o' : Options} {i : Int} {optarg : Option (List Char)}
    (h : processOption env o i optarg = .ok o') :
    (o'.compExtra = o.compExtra ∨ o'.compExtra = optarg) ∧
      (o'.fsDefaults = o.fsDefaults ∨ o'.fsDefaults = optarg) := by
  unfold processOption at h
  split at h <;> (try cases optarg) <;> (try simp only [withOptarg] at h) <;>
    (repeat' split at h) <;> cases h
  -- only `-X` sets `comp_extra` and only `-d` sets `fs_defaults`
  all_goals first
    | exact ⟨.inl rfl, .inl rfl⟩ | exact ⟨.inr rfl, .inl rfl⟩ | exact ⟨.inl rfl, .inr rfl⟩

/-- A string is NULL or a tail of one of the arguments. -/
def InArgv (argv : List CStr) (x : Option (List Char)) : Prop :=
  ∀ a, x = some a → ∃ i < argv.length, a <:+ argAt argv i

/-- `comp_extra` and `fs_defaults` point into the arguments. -/
def Options.StringsIn (argv : List CStr) (o : Options) : Prop :=
  InArgv argv o.compExtra ∧ InArgv argv o.fsDefaults

theorem InArgv.of_set {x y optarg : Option (List Char)} (hx : InArgv argv x)
    (hopt : InArgv argv optarg) (h : y = x ∨ y = optarg) : InArgv argv y := by
  rcases h with rfl | rfl
  · exact hx
  · exact hopt

/-- In a state a run reaches, `optarg` points into the arguments. -/
theorem GetoptReachable.optarg_inArgv {s : GetoptState} (hargc : 1 ≤ argv.length)
    (hs : GetoptReachable argv shortOpts longOpts s) : InArgv argv s.optarg := fun a ha =>
  have hi := hs.inv hargc
  have ⟨i, hlt, hsuf⟩ := hi.optarg a ha
  ⟨i, by have := hi.optind_le; omega, hsuf⟩

theorem fixUpJobs_stringsIn {o : Options} (h : o.StringsIn argv) :
    (fixUpJobs o).StringsIn argv := by
  dsimp only [fixUpJobs]
  split_ifs <;> exact h

/-- The loop keeps `comp_extra` and `fs_defaults` pointing into the arguments, from every state a
    run of `getopt_long` reaches. -/
theorem processArgsLoop_stringsIn (hargc : 1 ≤ argv.length) :
    ∀ {fuel : Nat} {o : Options} {s : GetoptState} {o' : Options} {name : List Char},
      GetoptReachable argv shortOpts longOpts s → o.StringsIn argv →
      processArgsLoop env argv fuel o s = some (.ok (o', name)) → o'.StringsIn argv
  | 0, _, _, _, _, _, _, h => by cases h
  | fuel + 1, o, s, o', name, hs, ho, h => by
    rw [processArgsLoop] at h
    split at h
    · cases h
    · rename_i i s' hcall
      have hs' := hs.step hcall
      split_ifs at h with hi
      · dsimp only [finishArgs] at h
        split_ifs at h <;> cases h
        exact fixUpJobs_stringsIn ho
      · split at h
        · cases h
        · rename_i o₁ hopt
          have hopt' := hs'.optarg_inArgv hargc
          obtain ⟨hc, hd⟩ := processOption_strings hopt
          exact processArgsLoop_stringsIn hargc hs' ⟨ho.1.of_set hopt' hc, ho.2.of_set hopt' hd⟩ h

/-- Whenever `process_args` returns, `comp_extra` and `fs_defaults` are NULL or a tail of one of
    the program's arguments: the value of an option `-X`, `-d`, `--comp-extra` or `--defaults`. -/
theorem processArgs_strings_in_argv {o : Options} {filename : List Char}
    (hargc : 1 ≤ argv.length) (h : processArgs env argv = some (.ok (o, filename))) :
    (∀ a, o.compExtra = some a → ∃ i < argv.length, a <:+ argAt argv i) ∧
      ∀ a, o.fsDefaults = some a → ∃ i < argv.length, a <:+ argAt argv i :=
  processArgsLoop_stringsIn hargc .init ⟨fun _ h => (by cases h), fun _ h => (by cases h)⟩ h

/-- `tar2sqfs -X level=9 --defaults=uid=0 out.sqfs`. -/
def stringsArgv : List CStr :=
  [⟨"tar2sqfs".toList, by decide⟩, ⟨"-X".toList, by decide⟩, ⟨"level=9".toList, by decide⟩,
    ⟨"--defaults=uid=0".toList, by decide⟩, ⟨"out.sqfs".toList, by decide⟩]

/-- The globals after `stringsArgv`. -/
def stringsOptions : Options :=
  { Options.init exampleEnv with
    compExtra := some "level=9".toList, fsDefaults := some "uid=0".toList, maxBacklog := 10 }

theorem processArgs_strings_in_argv_example :
    1 ≤ stringsArgv.length ∧
      processArgs exampleEnv stringsArgv = some (.ok (stringsOptions, "out.sqfs".toList)) ∧
      (∀ a, stringsOptions.compExtra = some a →
        ∃ i < stringsArgv.length, a <:+ argAt stringsArgv i) ∧
      ∀ a, stringsOptions.fsDefaults = some a →
        ∃ i < stringsArgv.length, a <:+ argAt stringsArgv i :=
  have h : processArgs exampleEnv stringsArgv = some (.ok (stringsOptions, "out.sqfs".toList)) :=
    rfl
  ⟨by decide, h, processArgs_strings_in_argv (by decide) h⟩

end Tar2Sqfs
