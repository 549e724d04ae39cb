import Tar2Sqfs.Getopt.Basic

set_option autoImplicit false

/-! # The options of `tar2sqfs`

`process_args` (`tar2sqfs.c`) calls `getopt_long` with `short_opts` and `long_opts`. The long
option array has fifteen entries and no entry with a NULL name after them, while the search loop
of `getopt_long` stops only at an exact name match or at a NULL name. So any name after `--` that
is none of the fifteen sends the loop to `long_opts[15]`, outside the array. -/

namespace Tar2Sqfs

/-- `has_arg` values of `getopt.h`. -/
def no_argument : Int := 0
def required_argument : Int := 1
def optional_argument : Int := 2

/-- An entry `{ name, has_arg, NULL, val }`. -/
def longOption (name : List Char) (h : '\x00' ∉ name) (hasArg : Int) (val : Char) : LongOption :=
  ⟨some ⟨name, h⟩, hasArg, val.toNat⟩

/-- `long_opts` of `tar2sqfs.c`, as declared: fifteen entries. -/
def longOpts : List LongOption :=
  [longOption "compressor".toList (by decide) required_argument 'c',
   longOption "block-size".toList (by decide) required_argument 'b',
   longOption "dev-block-size".toList (by decide) required_argument 'B',
   longOption "defaults".toList (by decide) required_argument 'd',
   longOption "num-jobs".toList (by decide) required_argument 'j',
   longOption "queue-backlog".toList (by decide) required_argument 'Q',
   longOption "comp-extra".toList (by decide) required_argument 'X',
   longOption "no-skip".toList (by decide) no_argument 's',
   longOption "no-xattr".toList (by decide) no_argument 'x',
   longOption "keep-time".toList (by decide) no_argument 'k',
   longOption "exportable".toList (by decide) no_argument 'e',
   longOption "force".toList (by decide) no_argument 'f',
   longOption "quiet".toList (by decide) no_argument 'q',
   longOption "help".toList (by decide) no_argument 'h',
   longOption "version".toList (by decide) no_argument 'V']

/-- `short_opts` of `tar2sqfs.c`. -/
def shortOpts : CStr := ⟨"c:b:B:d:X:j:Q:sxekfqhV".toList, by decide⟩

/-- `short_opts` is ASCII, so `getopt` returns each of its options as the character's code. -/
theorem shortOpts_ascii : ∀ c ∈ shortOpts.chars, c.toNat < 0x80 := by decide

/-- Over an array without a NULL name, the search runs off the end exactly when no entry's name
    is the first `len` characters of `ptr`. -/
theorem findLongOpt_eq_none_iff {ptr : List Char} {len : Nat} :
    ∀ {opts : List LongOption} {i : Nat}, (∀ o ∈ opts, o.name.isSome) →
      (findLongOpt ptr len opts i = none ↔
        ∀ o ∈ opts, ∀ name, o.name = some name →
          ¬ (strncmpEq name.chars ptr len && charAt name.chars len == '\x00'))
  | [], _, _ => by simp [findLongOpt]
  | o :: os, i, h => by
    obtain ⟨name, hname⟩ := Option.isSome_iff_exists.mp (h o (List.mem_cons_self ..))
    have ih := @findLongOpt_eq_none_iff ptr len os (i + 1)
      fun o' ho' => h o' (List.mem_cons_of_mem _ ho')
    simp only [findLongOpt, hname, List.mem_cons, forall_eq_or_imp, Option.some.injEq,
      forall_eq', ih]
    split <;> simp_all

/-- Every name after `--` that is none of the fifteen (the part before a `=`, if any) sends the
    search of `getopt_long` past the end of `long_opts`. -/
theorem getoptLong_unknown_reads_past_longOpts (argv : List CStr) (s : GetoptState)
    (name : List Char) (hne : name ≠ []) (harg : argAt argv s.optind = '-' :: '-' :: name)
    (hunk : ∀ o ∈ longOpts, ∀ n : CStr, o.name = some n → n.chars ≠ name.takeWhile (· ≠ '=')) :
    getoptLong argv shortOpts longOpts s = none := by
  have hnamed : ∀ o ∈ longOpts, o.name.isSome := by decide
  have hfind : findLongOpt name (name.takeWhile (· ≠ '=')).length longOpts 0 = none :=
    (findLongOpt_eq_none_iff hnamed).mpr fun o ho n hn =>
      mt (nameMatch_iff n.nul_free).mp (hunk o ho n hn)
  rw [getoptLong_of_long hne harg, getoptLongName, hfind]

/-- `tar2sqfs --bogus out.sqfs`. -/
theorem getoptLong_bogus_reads_past_longOpts :
    getoptLong [⟨"tar2sqfs".toList, by decide⟩, ⟨"--bogus".toList, by decide⟩,
      ⟨"out.sqfs".toList, by decide⟩] shortOpts longOpts GetoptState.init = none :=
  getoptLong_unknown_reads_past_longOpts _ _ "bogus".toList (by decide) rfl (by decide)

end Tar2Sqfs
