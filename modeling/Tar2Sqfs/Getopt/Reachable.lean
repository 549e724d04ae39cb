import Tar2Sqfs.Getopt.Progress

set_option autoImplicit false

/-! # The states `getopt_long` reaches

`getopt.c` keeps its place between calls in three globals: `optind`, the argument it is at,
`current`, what is left of a cluster `-c…` of short options, and `optarg`, the argument of the
last option. `getopt_long.c` does not look at `current`: it takes `argv[optind]` as a long option
whenever it starts with `--` and goes on, and hands every other argument to `getopt`, which reads
`current` first.

Whatever the arguments and the tables, and whatever a caller does with the return values (going
on after `?` or `-1` included), every state reached from the initial one by calls of
`getopt_long` keeps `optind` within `argc`, `current` empty or the unread rest of a cluster `-c…`
of `argv[optind]` with `c` not `-`, and `optarg` NULL or pointing into an argument before
`optind` (`GetoptState.Inv`). One call keeps this (`GetoptState.Inv.step`, by the shape of
`argv[optind]`), so a run does (`GetoptReachable.inv`).

So `current` never points outside the argument `optind` names, and `getopt_long` never takes a
long option while a cluster is half read: mid-cluster, `argv[optind]` is the cluster itself, which
does not start with `--`, and the call is `getopt`'s (`getoptLong_reachable_cluster`). And the
`optarg` a caller reads after any call, which `process_args` hands to `strtol` or keeps in
`comp_extra` and `fs_defaults`, is a tail of one of the program's arguments
(`getoptLong_reachable_optarg`). -/

namespace Tar2Sqfs

/-- The states calls of `getopt_long` reach from the initial globals, whatever the caller does
    with their results. -/
inductive GetoptReachable (argv : List CStr) (optstr : CStr) (longopts : List LongOption) :
    GetoptState → Prop
  | init : GetoptReachable argv optstr longopts GetoptState.init
  | step {s s' : GetoptState} {r : Int} : GetoptReachable argv optstr longopts s →
      getoptLong argv optstr longopts s = some (r, s') → GetoptReachable argv optstr longopts s'

/-- `optarg` is NULL or points into an argument before `optind`. -/
def GetoptState.OptargIn (argv : List CStr) (s : GetoptState) : Prop :=
  ∀ a, s.optarg = some a → ∃ i < s.optind, a <:+ argAt argv i

/-- The globals between calls: `optind` is within `argc`, `current` is empty or what is left of a
    cluster `-c…` of `argv[optind]`, after at least its first option character `c`, and `optarg`
    points into an argument before `optind`. -/
structure GetoptState.Inv (argv : List CStr) (s : GetoptState) : Prop where
  optind_le : s.optind ≤ argv.length
  current : s.current = [] ∨
    ∃ c pre, c ≠ '-' ∧ argAt argv s.optind = '-' :: c :: (pre ++ s.current)
  optarg : s.OptargIn argv

section Step

variable {argv : List CStr} {optstr : CStr} {longopts : List LongOption} {s s' : GetoptState}
  {r : Int}

namespace GetoptState.OptargIn

theorem of_none (h : s'.optarg = none) : s'.OptargIn argv := fun _ ha => nomatch h ▸ ha

/-- A call that leaves `optarg` and does not move `optind` back keeps it where it points. -/
theorem mono (ho : s.OptargIn argv) (h : s'.optarg = s.optarg) (hle : s.optind ≤ s'.optind) :
    s'.OptargIn argv := fun a ha => by
  obtain ⟨i, hi, hsuf⟩ := ho a (h ▸ ha)
  exact ⟨i, by omega, hsuf⟩

/-- A call that sets `optarg` to a tail of `argv[i]` goes past `argv[i]`. -/
theorem of_suffix {a : List Char} {i : Nat} (h : s'.optarg = some a) (hsuf : a <:+ argAt argv i)
    (hi : i < s'.optind) : s'.OptargIn argv := fun _ ha => by
  rw [h, Option.some.injEq] at ha
  exact ⟨i, hi, ha ▸ hsuf⟩

end GetoptState.OptargIn

open GetoptState.OptargIn in
/-- One option character, whatever it is: `current` is emptied, or it moves on to the rest of the
    cluster with `optind` where it was; `optarg` is left, cleared, or set to the rest of the
    cluster or to the next argument, which `optind` then goes past. -/
theorem getoptNextChar_inv {c : Char} {rest : List Char}
    (h : getoptNextChar argv optstr s c rest = (r, s')) (hlt : s.optind < argv.length)
    (hrest : rest <:+ argAt argv s.optind) (ho : s.OptargIn argv) :
    s'.optind ≤ argv.length ∧ (s'.current = [] ∨ (s'.optind = s.optind ∧ s'.current = rest)) ∧
      s'.OptargIn argv := by
  by_cases hunk : c = ':' ∨ c ∉ optstr.chars
  · rw [getoptNextChar_unknown hunk] at h
    cases h
    exact ⟨hlt.le, .inr ⟨rfl, rfl⟩, ho⟩
  obtain ⟨hc, hmem⟩ := not_or.mp hunk
  cases ht : takesArg optstr.chars c
  · rw [getoptNextChar_noArg hc (not_not.mp hmem) ht] at h
    cases h
    refine ⟨?_, ?_, of_none rfl⟩ <;> by_cases hrest : rest = [] <;> simp [hrest] <;> omega
  · rcases rest with _ | ⟨x, xs⟩
    · by_cases hlt' : s.optind + 1 < argv.length
      · rw [getoptNextChar_detached hc (not_not.mp hmem) ht hlt'] at h
        cases h
        exact ⟨hlt', .inl rfl, of_suffix rfl (List.suffix_refl _) (by simp)⟩
      · rw [getoptNextChar_missing hc (not_not.mp hmem) ht (by omega)] at h
        cases h
        exact ⟨hlt, .inl rfl, mono ho rfl (by simp)⟩
    · rw [getoptNextChar_attached hc (not_not.mp hmem) ht (List.cons_ne_nil x xs)] at h
      cases h
      exact ⟨hlt, .inl rfl, of_suffix rfl hrest (by simp)⟩

open GetoptState.OptargIn in
/-- A long option leaves `current` alone and `optind` within `argc`; `optarg` is cleared, or set
    to the value after `=` or to the next argument, which `optind` then goes past. -/
theorem getoptLongName_inv {ptr : List Char} (h : getoptLongName argv longopts s ptr = some (r, s'))
    (hlt : s.optind < argv.length) (hptr : ptr <:+ argAt argv s.optind) :
    s'.optind ≤ argv.length ∧ s'.current = s.current ∧ s'.OptargIn argv := by
  dsimp only [getoptLongName] at h
  split at h
  · cases h
  · split at h
    · cases h
      exact ⟨hlt.le, rfl, of_none rfl⟩
    · split_ifs at h with heq hzero hne hle <;> cases h
      · exact ⟨hlt.le, rfl, of_none rfl⟩
      · exact ⟨hlt, rfl, of_suffix rfl ((List.drop_suffix _ _).trans hptr) (by simp)⟩
      · exact ⟨hlt, rfl, of_none rfl⟩
      · exact ⟨by simp; omega, rfl, of_suffix rfl (List.suffix_refl _) (by simp)⟩
      · exact ⟨hlt, rfl, of_none rfl⟩

/-- Mid-cluster, `argv[optind]` is the cluster, which is no long option. -/
theorem GetoptState.Inv.not_long (hi : s.Inv argv) (hcur : s.current ≠ []) :
    ∀ c name, argAt argv s.optind ≠ '-' :: '-' :: c :: name := by
  obtain ⟨c₀, pre, hc₀, harg⟩ := hi.current.resolve_left hcur
  intro c name h
  exact hc₀ (List.cons.inj (List.cons.inj (harg.symm.trans h)).2).1

/-- Mid-cluster, `getopt_long` is `getopt` on the next character of the cluster. -/
theorem GetoptState.Inv.getoptLong_of_cluster {c : Char} {rest : List Char} (hi : s.Inv argv)
    (hcur : s.current = c :: rest) :
    getoptLong argv optstr longopts s = some (getoptNextChar argv optstr s c rest) := by
  rw [getoptLong_of_not_long (hi.not_long (by simp [hcur])), getopt_of_current hcur]

/-- One call of `getopt_long` keeps the invariant, whatever it returns. -/
theorem GetoptState.Inv.step (hi : s.Inv argv)
    (h : getoptLong argv optstr longopts s = some (r, s')) : s'.Inv argv := by
  rcases hcur : s.current with _ | ⟨c, rest⟩
  · -- between arguments: by the shape of `argv[optind]`
    by_cases hlong : ∃ c name, argAt argv s.optind = '-' :: '-' :: c :: name
    · obtain ⟨c, name, ha⟩ := hlong
      rw [getoptLong_of_long (List.cons_ne_nil c name) ha] at h
      obtain ⟨hle, hcur', ho⟩ := getoptLongName_inv h (lt_of_argAt_ne_nil (by simp [ha]))
        ⟨['-', '-'], ha.symm⟩
      exact ⟨hle, .inl (hcur'.trans hcur), ho⟩
    push_neg at hlong
    rw [getoptLong_of_not_long hlong, Option.some.injEq] at h
    by_cases hdd : argAt argv s.optind = ['-', '-']
    · rw [getopt_dashdash hcur hdd] at h
      cases h
      exact ⟨lt_of_argAt_ne_nil (by simp [hdd]), .inl hcur, hi.optarg.mono rfl (by simp)⟩
    by_cases hcl : ∃ c cs, argAt argv s.optind = '-' :: c :: cs
    · obtain ⟨c, cs, ha⟩ := hcl
      have hc : c ≠ '-' := by
        rintro rfl
        cases cs with
        | nil => exact hdd ha
        | cons d ds => exact hlong d ds ha
      rw [getopt_cluster hcur ha hc] at h
      obtain ⟨hle, hcur' | ⟨hopt, hrest⟩, ho⟩ :=
        getoptNextChar_inv h (lt_of_argAt_ne_nil (by simp [ha])) ⟨['-', c], ha.symm⟩ hi.optarg
      · exact ⟨hle, .inl hcur', ho⟩
      · exact ⟨hle, .inr ⟨c, [], hc, by rw [hopt, hrest, ha]; rfl⟩, ho⟩
    push_neg at hcl
    rw [getopt_stop hcur hcl] at h
    cases h
    exact hi
  · -- mid-cluster: the next character of the cluster
    obtain ⟨c₀, pre, hc₀, harg⟩ := hi.current.resolve_left (by simp [hcur])
    rw [hi.getoptLong_of_cluster hcur, Option.some.injEq] at h
    obtain ⟨hle, hcur' | ⟨hopt, hrest⟩, ho⟩ :=
      getoptNextChar_inv h (lt_of_argAt_ne_nil (by simp [harg]))
        ⟨'-' :: c₀ :: (pre ++ [c]), by rw [harg, hcur]; simp⟩ hi.optarg
    · exact ⟨hle, .inl hcur', ho⟩
    · exact ⟨hle, .inr ⟨c₀, pre ++ [c], hc₀, by rw [hopt, hrest, harg, hcur]; simp⟩, ho⟩

/-- Every state a run reaches keeps the invariant, once `argc` is at least one. -/
theorem GetoptReachable.inv (hargc : 1 ≤ argv.length)
    (hs : GetoptReachable argv optstr longopts s) : s.Inv argv := by
  induction hs with
  | init => exact ⟨hargc, .inl rfl, GetoptState.OptargIn.of_none rfl⟩
  | step _ hcall ih => exact ih.step hcall

end Step

/-- In every state calls of `getopt_long` reach, whatever the caller did with their results,
    `optind` is within `argc`; and while a cluster of short options is half read, `current` is
    the unread rest of the cluster `argv[optind]`, which does not start with `--`, and the next
    call is `getopt`'s. -/
theorem getoptLong_reachable_cluster {argv : List CStr} {optstr : CStr}
    {longopts : List LongOption} {s : GetoptState} (hargc : 1 ≤ argv.length)
    (hs : GetoptReachable argv optstr longopts s) :
    s.optind ≤ argv.length ∧
      (s.current ≠ [] →
        (∃ c pre, c ≠ '-' ∧ argAt argv s.optind = '-' :: c :: (pre ++ s.current)) ∧
          getoptLong argv optstr longopts s = some (getopt argv optstr s)) :=
  have hi := hs.inv hargc
  ⟨hi.optind_le, fun hcur =>
    ⟨hi.current.resolve_left hcur, getoptLong_of_not_long (hi.not_long hcur)⟩⟩

/-- `tar2sqfs -qs out.sqfs` after its first call, with `s` left of the cluster `-qs`. -/
theorem getoptLong_reachable_cluster_qs :
    1 ≤ clusterArgv.length ∧ GetoptReachable clusterArgv shortOpts longOpts ⟨1, ['s'], none⟩ ∧
      ((1 : Nat) ≤ clusterArgv.length ∧
        (['s'] ≠ [] →
          (∃ c pre, c ≠ '-' ∧ argAt clusterArgv 1 = '-' :: c :: (pre ++ ['s'])) ∧
            getoptLong clusterArgv shortOpts longOpts ⟨1, ['s'], none⟩ =
              some (getopt clusterArgv shortOpts ⟨1, ['s'], none⟩))) :=
  have hr : GetoptReachable clusterArgv shortOpts longOpts ⟨1, ['s'], none⟩ :=
    .step (r := ('q'.toNat : Int)) .init (by decide)
  ⟨by decide, hr, getoptLong_reachable_cluster (by decide) hr⟩

/-- In every state calls of `getopt_long` reach, whatever the caller did with their results,
    `optarg` is NULL or a tail of an argument `argv[i]` with `i < optind`: the value after `=` of
    a long option, the rest of a cluster, or a whole argument. -/
theorem getoptLong_reachable_optarg {argv : List CStr} {optstr : CStr}
    {longopts : List LongOption} {s : GetoptState} {a : List Char} (hargc : 1 ≤ argv.length)
    (hs : GetoptReachable argv optstr longopts s) (ha : s.optarg = some a) :
    ∃ i < s.optind, i < argv.length ∧ a <:+ argAt argv i :=
  have hi := hs.inv hargc
  have ⟨i, hlt, hsuf⟩ := hi.optarg a ha
  ⟨i, hlt, by have := hi.optind_le; omega, hsuf⟩

/-- `tar2sqfs --block-size=4096 out.sqfs`. -/
def blockSizeEqArgv : List CStr :=
  [⟨"tar2sqfs".toList, by decide⟩, ⟨"--block-size=4096".toList, by decide⟩,
    ⟨"out.sqfs".toList, by decide⟩]

/-- After the first call, `optarg` is the `4096` of `argv[1]`. -/
theorem getoptLong_reachable_optarg_blockSize :
    1 ≤ blockSizeEqArgv.length ∧
      GetoptReachable blockSizeEqArgv shortOpts longOpts ⟨2, [], some "4096".toList⟩ ∧
      (⟨2, [], some "4096".toList⟩ : GetoptState).optarg = some "4096".toList ∧
      ∃ i < 2, i < blockSizeEqArgv.length ∧ "4096".toList <:+ argAt blockSizeEqArgv i :=
  have hr : GetoptReachable blockSizeEqArgv shortOpts longOpts ⟨2, [], some "4096".toList⟩ :=
    .step (r := ('b'.toNat : Int)) .init (by decide)
  ⟨by decide, hr, rfl, getoptLong_reachable_optarg (by decide) hr rfl⟩

end Tar2Sqfs
