import Tar2Sqfs.Args

set_option autoImplicit false

/-! # `getopt_long` against a reference parser

A reference parser reads the arguments after `argv[0]` from left to right: it stops without
consuming at an argument that does not start with `-` or is `-` alone, stops after consuming
`--`, reads `--name` and `--name=value` as the long option of that exact name, and reads a cluster
`-c₁…cₖ` option by option, an option with an argument taking the rest of the cluster or, when
that is empty, the next argument. Run on every argument vector it accepts, repeated calls of
`getoptLong` give the same (value, argument) pairs and end at the same `optind`.

Two readings differ. `getopt_long` gives `--name=value` an error `?` when the option takes no
argument, and lets every option whose `has_arg` is not zero take the next argument, so
`optional_argument` behaves as `required_argument`. The parameter `codeReading` of `refParse`
chooses between the code's reading and the plain one. -/

namespace Tar2Sqfs

/-! ## The reference parser -/

/-- The entry of `longopts` named `key`: the first one, before any entry with a NULL name. -/
def longOptNamed (key : List Char) : List LongOption → Option LongOption
  | [] => none
  | o :: os =>
    match o.name with
    | none => none
    | some n => if n.chars = key then some o else longOptNamed key os

/-- The options of the cluster `cs`, with `next` the argument after it: the (value, argument)
    pairs, and whether the last one takes `next`. `none` when an option is unknown or misses its
    argument. -/
def refCluster (optstr : List Char) (next : Option (List Char)) :
    List Char → Option (List (Int × Option (List Char)) × Bool)
  | [] => some ([], false)
  | c :: cs =>
    if c = ':' ∨ c ∉ optstr then none
    else if takesArg optstr c then
      match cs, next with
      | _ :: _, _ => some ([((c.toNat : Int), some cs)], false)
      | [], some v => some ([((c.toNat : Int), some v)], true)
      | [], none => none
    else (refCluster optstr next cs).map fun r => (((c.toNat : Int), none) :: r.1, r.2)

/-- Whether a long option takes an argument: in the code's reading when its `has_arg` is not
    zero, in the plain one when it is `required_argument`. -/
def longTakesArg (codeReading : Bool) (o : LongOption) : Bool :=
  if codeReading then o.hasArg ≠ no_argument else o.hasArg = required_argument

/-- What the reference parser makes of one argument. -/
inductive RefStep
  /-- The options end here; `consumed` when the argument (`--`) is consumed. -/
  | stop (consumed : Bool)
  /-- An unknown option, a missing argument, or an argument given to an option without one. -/
  | error
  /-- The argument's options, and whether the last one takes the next argument. -/
  | opts (ps : List (Int × Option (List Char))) (takesNext : Bool)

/-- The reference parser on `--name` or `--name=value`, given `name` or `name=value`, with
    `next` the argument after it. -/
def refLong (longopts : List LongOption) (codeReading : Bool) (name : List Char)
    (next : Option (List Char)) : RefStep :=
  match longOptNamed (name.takeWhile (· ≠ '=')) longopts with
  | none => .error
  | some o =>
    if '=' ∈ name then
      if codeReading ∧ o.hasArg = no_argument then .error
      else .opts [(o.val, some (name.drop ((name.takeWhile (· ≠ '=')).length + 1)))] false
    else if longTakesArg codeReading o then
      match next with
      | none => .error
      | some v => .opts [(o.val, some v)] true
    else .opts [(o.val, none)] false

/-- The reference parser on the argument `arg`, with `next` the argument after it. -/
def refArg (optstr : List Char) (longopts : List LongOption) (codeReading : Bool)
    (arg : List Char) (next : Option (List Char)) : RefStep :=
  match arg with
  | a :: c :: cs =>
    if a ≠ '-' then .stop false
    else if c = '-' then
      if cs = [] then .stop true else refLong longopts codeReading cs next
    else
      match refCluster optstr next (c :: cs) with
      | none => .error
      | some (ps, t) => .opts ps t
  | _ => .stop false

/-- The reference parser: the (value, argument) pairs of the options in `args` and how many
    arguments they take, or `none` at an unknown option or a missing argument. -/
def refParse (optstr : List Char) (longopts : List LongOption) (codeReading : Bool) :
    List (List Char) → Option (List (Int × Option (List Char)) × Nat)
  | [] => some ([], 0)
  | arg :: rest =>
    match refArg optstr longopts codeReading arg rest.head? with
    | .stop consumed => some ([], consumed.toNat)
    | .error => none
    | .opts ps false =>
      (refParse optstr longopts codeReading rest).map fun r => (ps ++ r.1, r.2 + 1)
    | .opts ps true =>
      match rest with
      | [] => none
      | _ :: rest' => (refParse optstr longopts codeReading rest').map fun r => (ps ++ r.1, r.2 + 2)

/-! ## The search of `longopts` -/

theorem longOptNamed_spec {key : List Char} :
    ∀ {l : List LongOption} {o : LongOption}, longOptNamed key l = some o →
      o ∈ l ∧ ∃ n : CStr, o.name = some n ∧ n.chars = key
  | [], _, h => by simp [longOptNamed] at h
  | o' :: os, o, h => by
    unfold longOptNamed at h
    split at h
    · simp at h
    · rename_i n hn
      split_ifs at h with hk
      · cases h
        exact ⟨List.mem_cons_self .., n, hn, hk⟩
      · obtain ⟨hm, hrest⟩ := longOptNamed_spec h
        exact ⟨List.mem_cons_of_mem _ hm, hrest⟩

/-- On a name that has an entry, the search loop of `getopt_long` stops at that entry. -/
theorem findLongOpt_of_longOptNamed {ptr : List Char} {o : LongOption} :
    ∀ {l : List LongOption} {i : Nat}, longOptNamed (ptr.takeWhile (· ≠ '=')) l = some o →
      ∃ j, findLongOpt ptr (ptr.takeWhile (· ≠ '=')).length l i = some (j, o)
  | [], _, h => by simp [longOptNamed] at h
  | o' :: os, i, h => by
    unfold longOptNamed at h
    split at h
    · simp at h
    · rename_i n hn
      simp only [findLongOpt, hn]
      split_ifs at h with hk
      · cases h
        exact ⟨i, by rw [if_pos ((nameMatch_iff n.nul_free).mpr hk)]⟩
      · rw [if_neg (mt (nameMatch_iff n.nul_free).mp hk)]
        exact findLongOpt_of_longOptNamed h

/-! ## Agreement -/

section Agreement

variable {argv : List CStr} {optstr : CStr} {longopts : List LongOption}

/-- The calls over a cluster at `argv[i]`, from its character `c` on: they give the cluster's
    pairs, and leave `current` empty and `optind` past the cluster and the argument its last
    option took. -/
theorem calls_cluster (hascii : ∀ c ∈ optstr.chars, c.toNat < 0x80) {i : Nat}
    {rest : List (List Char)}
    (hrest : (argv.drop (i + 1)).map CStr.chars = rest)
    (htok : ∀ s : GetoptState, s.optind = i →
      getoptLong argv optstr longopts s = some (getopt argv optstr s)) :
    ∀ {cs : List Char} {c : Char} {s : GetoptState} {ps : List (Int × Option (List Char))}
      {t : Bool}, s.optind = i → getopt argv optstr s = getoptNextChar argv optstr s c cs →
      refCluster optstr.chars rest.head? (c :: cs) = some (ps, t) →
      ∃ s', s'.current = [] ∧ s'.optind = i + 1 + t.toNat ∧ Calls argv optstr longopts s ps s' := by
  intro cs
  induction cs with
  | nil =>
    intro c s ps t hs hg h
    simp only [refCluster] at h
    split_ifs at h with hunk ht
    · obtain ⟨hc, hmem⟩ := not_or.mp hunk
      obtain ⟨v, rest', rfl⟩ : ∃ v rest', rest = v :: rest' := by
        cases rest <;> simp_all
      simp only [List.head?_cons, Option.some.injEq, Prod.mk.injEq] at h
      obtain ⟨rfl, rfl⟩ := h
      obtain ⟨hlt, hv, -⟩ := args_eq_cons hrest
      have hcall : getoptNextChar argv optstr s c [] = _ :=
        getoptNextChar_detached hc (not_not.mp hmem) ht (by omega)
      rw [charValue_of_lt (hascii c (not_not.mp hmem))] at hcall
      exact ⟨(getoptNextChar argv optstr s c []).2, by simp [hcall], by simp [hcall, hs],
        Calls.single (by rw [htok s hs, hg, hcall]) (by simp) (by simp [hcall, hs, hv])⟩
    · obtain ⟨hc, hmem⟩ := not_or.mp hunk
      simp only [Option.map_some', Option.some.injEq, Prod.mk.injEq] at h
      obtain ⟨rfl, rfl⟩ := h
      have hcall : getoptNextChar argv optstr s c [] = _ :=
        getoptNextChar_noArg hc (not_not.mp hmem) (Bool.eq_false_iff.mpr ht)
      rw [charValue_of_lt (hascii c (not_not.mp hmem))] at hcall
      exact ⟨(getoptNextChar argv optstr s c []).2, by simp [hcall], by simp [hcall, hs],
        Calls.single (by rw [htok s hs, hg, hcall]) (by simp) (by simp [hcall])⟩
  | cons c' cs ih =>
    intro c s ps t hs hg h
    rw [refCluster] at h
    split_ifs at h with hunk ht
    · obtain ⟨hc, hmem⟩ := not_or.mp hunk
      simp only [Option.some.injEq, Prod.mk.injEq] at h
      obtain ⟨rfl, rfl⟩ := h
      have hcall : getoptNextChar argv optstr s c (c' :: cs) = _ :=
        getoptNextChar_attached hc (not_not.mp hmem) ht (List.cons_ne_nil c' cs)
      rw [charValue_of_lt (hascii c (not_not.mp hmem))] at hcall
      exact ⟨(getoptNextChar argv optstr s c (c' :: cs)).2, by simp [hcall], by simp [hcall, hs],
        Calls.single (by rw [htok s hs, hg, hcall]) (by simp) (by simp [hcall])⟩
    · obtain ⟨hc, hmem⟩ := not_or.mp hunk
      obtain ⟨⟨ps', t'⟩, hcl, hps⟩ := Option.map_eq_some'.mp h
      simp only [Prod.mk.injEq] at hps
      obtain ⟨rfl, rfl⟩ := hps
      have hcall : getoptNextChar argv optstr s c (c' :: cs) = _ :=
        getoptNextChar_noArg hc (not_not.mp hmem) (Bool.eq_false_iff.mpr ht)
      rw [charValue_of_lt (hascii c (not_not.mp hmem))] at hcall
      obtain ⟨s', hcur, hopt, hcalls⟩ := ih (s := (getoptNextChar argv optstr s c (c' :: cs)).2)
        (by simp [hcall, hs]) (getopt_of_current (by simp [hcall])) hcl
      exact ⟨s', hcur, hopt,
        (Calls.single (by rw [htok s hs, hg, hcall]) (by simp) (by simp [hcall])).trans hcalls⟩

theorem refLong_ne_stop {codeReading : Bool} {name : List Char} {next : Option (List Char)}
    {b : Bool} : refLong longopts codeReading name next ≠ .stop b := by
  unfold refLong
  split
  · simp
  · split_ifs <;> (try split) <;> simp

/-- `--name` or `--name=value` that the reference parser reads as an option in the code's
    reading: the call of `getopt_long` on it returns that option and moves past it and the
    argument it took. -/
theorem calls_refLong (hval : ∀ o ∈ longopts, o.val ≠ -1) {i : Nat} {name : List Char}
    {rest : List (List Char)} (hrest : (argv.drop (i + 1)).map CStr.chars = rest)
    {s : GetoptState} (hs : s.optind = i) (hcur : s.current = [])
    (hlong : getoptLong argv optstr longopts s = getoptLongName argv longopts s name)
    {ps : List (Int × Option (List Char))} {t : Bool}
    (h : refLong longopts true name rest.head? = .opts ps t) :
    ∃ s', s'.current = [] ∧ s'.optind = i + 1 + t.toNat ∧ Calls argv optstr longopts s ps s' := by
  unfold refLong at h
  split at h
  · cases h
  · rename_i o hfound
    obtain ⟨hmem, n, hn, -⟩ := longOptNamed_spec hfound
    obtain ⟨j, hf⟩ := findLongOpt_of_longOptNamed (i := 0) hfound
    split_ifs at h with heq hbad htakes
    · cases h
      have harg : o.hasArg ≠ 0 := by simpa [no_argument] using hbad
      exact ⟨_, by simp [hcur], by simp [hs],
        Calls.single (hlong.trans (getoptLongName_value hf hn heq harg)) (hval o hmem) rfl⟩
    · split at h
      · cases h
      · cases h
        rename_i v hv
        obtain ⟨v', rest', rfl⟩ : ∃ v' rest', rest = v' :: rest' := by
          cases rest <;> simp_all
        obtain rfl : v' = v := by simpa using hv
        obtain ⟨hlt, hv', -⟩ := args_eq_cons hrest
        have harg : o.hasArg ≠ 0 := by simpa [longTakesArg, no_argument] using htakes
        exact ⟨_, by simp [hcur], by simp [hs],
          Calls.single (hlong.trans (getoptLongName_next hf hn heq harg (by omega)))
            (hval o hmem) (by simp [hs, hv'])⟩
    · cases h
      have harg : o.hasArg = 0 := by simpa [longTakesArg, no_argument] using htakes
      exact ⟨_, by simp [hcur], by simp [hs],
        Calls.single (hlong.trans (getoptLongName_flag hf hn heq harg)) (hval o hmem) rfl⟩

/-- An argument where the reference parser stops: `getopt_long` returns `-1` there. -/
theorem getoptLong_of_refArg_stop {codeReading : Bool} {s : GetoptState} {arg : List Char}
    {next : Option (List Char)} {b : Bool}
    (h : refArg optstr.chars longopts codeReading arg next = .stop b)
    (harg : argAt argv s.optind = arg) (hcur : s.current = []) :
    ∃ s', getoptLong argv optstr longopts s = some (-1, s') ∧ s'.optind = s.optind + b.toNat := by
  unfold refArg at h
  split at h
  · rename_i a c cs
    split_ifs at h with ha hc hcs
    · cases h
      have hshape : ∀ c' cs', argAt argv s.optind ≠ '-' :: c' :: cs' := by simp [harg, ha]
      exact ⟨s, by rw [getoptLong_of_not_long (by simp [harg, ha]), getopt_stop hcur hshape],
        rfl⟩
    · cases h
      obtain rfl : a = '-' := not_not.mp ha
      subst hc hcs
      exact ⟨_, by rw [getoptLong_of_not_long (by simp [harg]), getopt_dashdash hcur harg],
        rfl⟩
    · exact absurd h refLong_ne_stop
    · split at h <;> cases h
  · cases h
    rename_i hshort
    have hshape : ∀ c' cs', argAt argv s.optind ≠ '-' :: c' :: cs' :=
      fun c' cs' he => hshort _ _ _ (harg ▸ he)
    exact ⟨s, by rw [getoptLong_of_not_long (by simp [hshape]), getopt_stop hcur hshape], rfl⟩

/-- An argument that the reference parser reads as options in the code's reading: the calls over
    it give those options and move past it and the argument its last option took. -/
theorem calls_refArg (hascii : ∀ c ∈ optstr.chars, c.toNat < 0x80)
    (hval : ∀ o ∈ longopts, o.val ≠ -1) {i : Nat} {arg : List Char}
    {rest : List (List Char)} (hargs : (argv.drop i).map CStr.chars = arg :: rest)
    {ps : List (Int × Option (List Char))} {t : Bool}
    (h : refArg optstr.chars longopts true arg rest.head? = .opts ps t) {s : GetoptState}
    (hs : s.optind = i) (hcur : s.current = []) :
    ∃ s', s'.current = [] ∧ s'.optind = i + 1 + t.toNat ∧ Calls argv optstr longopts s ps s' := by
  obtain ⟨-, harg, hrest⟩ := args_eq_cons hargs
  rw [← hs] at harg
  unfold refArg at h
  split at h
  · rename_i a c cs
    split_ifs at h with ha hc hcs
    · obtain rfl : a = '-' := not_not.mp ha
      subst hc
      exact calls_refLong hval hrest hs hcur (getoptLong_of_long hcs harg) h
    · obtain rfl : a = '-' := not_not.mp ha
      split at h
      · cases h
      · cases h
        rename_i hcl
        have htok : ∀ s' : GetoptState, s'.optind = i →
            getoptLong argv optstr longopts s' = some (getopt argv optstr s') := fun s' hs' =>
          getoptLong_of_not_long (by simp [hs', ← hs, harg, hc])
        exact calls_cluster hascii hrest htok hs (getopt_cluster hcur harg hc) hcl
  · cases h

/-- From `argv[i]`, between arguments, the calls of `getoptLong` follow the reference parser in
    the code's reading: they give its pairs, then `-1`, and stop at the `optind` past what it
    consumed. -/
theorem collectOpts_of_refParse (hascii : ∀ c ∈ optstr.chars, c.toNat < 0x80)
    (hval : ∀ o ∈ longopts, o.val ≠ -1) (args : List (List Char)) :
    ∀ {i : Nat} {ps : List (Int × Option (List Char))} {k : Nat},
      (argv.drop i).map CStr.chars = args →
      refParse optstr.chars longopts true args = some (ps, k) →
      ∀ s : GetoptState, s.optind = i → s.current = [] →
      ∃ s', collectOpts argv optstr longopts (ps.length + 1) s = some (ps, s') ∧
        s'.optind = i + k := by
  induction args using refParse.induct optstr.chars longopts true with
  | case1 =>
    intro i ps k hargs h s hs hcur
    simp only [refParse, Option.some.injEq, Prod.mk.injEq] at h
    obtain ⟨rfl, rfl⟩ := h
    have harg : argAt argv s.optind = [] := by
      simp [argAt, List.getElem?_eq_none, hs, args_eq_nil hargs]
    refine ⟨s, collectOpts_stop ?_, by simp [hs]⟩
    rw [getoptLong_of_not_long (by simp [harg]), getopt_stop hcur (by simp [harg])]
  | case2 arg rest b hstep =>
    intro i ps k hargs h s hs hcur
    simp only [refParse, hstep, Option.some.injEq, Prod.mk.injEq] at h
    obtain ⟨rfl, rfl⟩ := h
    obtain ⟨-, harg, -⟩ := args_eq_cons hargs
    obtain ⟨s', hcall, hopt⟩ := getoptLong_of_refArg_stop hstep (hs ▸ harg) hcur
    exact ⟨s', collectOpts_stop hcall, by simp [hopt, hs]⟩
  | case3 arg rest hstep =>
    intro i ps k _ h
    simp [refParse, hstep] at h
  | case4 arg rest ps hstep ih =>
    intro i ps' k hargs h s hs hcur
    simp only [refParse, hstep] at h
    obtain ⟨⟨qs, k'⟩, hr, hpk⟩ := Option.map_eq_some'.mp h
    simp only [Prod.mk.injEq] at hpk
    obtain ⟨rfl, rfl⟩ := hpk
    obtain ⟨s₁, hcur₁, hopt₁, hcalls⟩ := calls_refArg hascii hval hargs hstep hs hcur
    obtain ⟨s', hc, ho⟩ := ih (args_eq_cons hargs).2.2 hr s₁ (by simpa using hopt₁) hcur₁
    exact ⟨s', hcalls.collectOpts_append hc, by omega⟩
  | case5 arg ps hstep =>
    intro i ps' k _ h
    rw [List.head?_nil] at hstep
    simp [refParse, hstep] at h
  | case6 arg ps v rest hstep ih =>
    intro i ps' k hargs h s hs hcur
    simp only [refParse, hstep] at h
    obtain ⟨⟨qs, k'⟩, hr, hpk⟩ := Option.map_eq_some'.mp h
    simp only [Prod.mk.injEq] at hpk
    obtain ⟨rfl, rfl⟩ := hpk
    obtain ⟨s₁, hcur₁, hopt₁, hcalls⟩ := calls_refArg hascii hval hargs hstep hs hcur
    have hrest := (args_eq_cons (args_eq_cons hargs).2.2).2.2
    obtain ⟨s', hc, ho⟩ := ih hrest hr s₁ (by simpa using hopt₁) hcur₁
    exact ⟨s', hcalls.collectOpts_append hc, by omega⟩

end Agreement

/-! ## The two readings -/

section Readings

variable {optstr : List Char} {longopts : List LongOption}
  (hargs : ∀ o ∈ longopts, o.hasArg = no_argument ∨ o.hasArg = required_argument)
include hargs

theorem refLong_plain {name : List Char} {next : Option (List Char)}
    (h : refLong longopts true name next ≠ .error) :
    refLong longopts false name next = refLong longopts true name next := by
  unfold refLong at h ⊢
  split
  · rfl
  · rename_i o hfound
    have htakes : longTakesArg false o = longTakesArg true o := by
      rcases hargs o (longOptNamed_spec hfound).1 with ha | ha <;>
        simp [longTakesArg, ha, no_argument, required_argument]
    rw [hfound] at h
    by_cases heq : '=' ∈ name
    · simp only [heq, if_true] at h ⊢
      split_ifs at h ⊢ <;> simp_all
    · simp only [heq, if_false, htakes]

/-- Where the code's reading accepts an argument, the plain reading reads it the same way. -/
theorem refArg_plain {arg : List Char} {next : Option (List Char)}
    (h : refArg optstr longopts true arg next ≠ .error) :
    refArg optstr longopts false arg next = refArg optstr longopts true arg next := by
  rcases arg with _ | ⟨a, _ | ⟨c, cs⟩⟩
  · rfl
  · rfl
  · simp only [refArg] at h ⊢
    split_ifs at h ⊢
    · rfl
    · rfl
    · exact refLong_plain hargs h
    · rfl

/-- Where the code's reading accepts the arguments, the plain reading reads them the same way. -/
theorem refParse_plain (args : List (List Char)) :
    ∀ {r : List (Int × Option (List Char)) × Nat}, refParse optstr longopts true args = some r →
      refParse optstr longopts false args = some r := by
  induction args using refParse.induct optstr longopts true with
  | case1 => exact id
  | case2 arg rest b hstep =>
    have hplain := refArg_plain hargs (by rw [hstep]; simp)
    intro r h
    simpa only [refParse, hplain, hstep] using h
  | case3 arg rest hstep =>
    intro r h
    simp [refParse, hstep] at h
  | case4 arg rest ps hstep ih =>
    have hplain := refArg_plain hargs (by rw [hstep]; simp)
    intro r h
    simp only [refParse, hplain, hstep] at h ⊢
    obtain ⟨r', hr, rfl⟩ := Option.map_eq_some'.mp h
    rw [ih hr]
    rfl
  | case5 arg ps hstep =>
    intro r h
    rw [List.head?_nil] at hstep
    simp [refParse, hstep] at h
  | case6 arg ps v rest hstep ih =>
    have hplain := refArg_plain hargs (by rw [hstep]; simp)
    intro r h
    simp only [refParse, hplain, hstep] at h ⊢
    obtain ⟨r', hr, rfl⟩ := Option.map_eq_some'.mp h
    rw [ih hr]
    rfl

end Readings

/-! ## Agreement from the first argument -/

/-- Run on `argv` until it returns `-1`, `getopt_long` gives the options that the reference parser
    finds in the code's reading, and ends with `optind` past the arguments it consumed, when the
    option string is ASCII (a byte from `0x80` on comes back as a negative `char`, and `0xFF` as
    the `-1` that ends the calls) and no `val` is `-1`. When every `has_arg` is `no_argument` or
    `required_argument`, the plain reading gives the same. -/
theorem collectOpts_agrees_refParse (argv : List CStr) (optstr : CStr)
    (longopts : List LongOption) (hascii : ∀ c ∈ optstr.chars, c.toNat < 0x80)
    (hval : ∀ o ∈ longopts, o.val ≠ -1)
    (ps : List (Int × Option (List Char))) (k : Nat)
    (h : refParse optstr.chars longopts true ((argv.drop 1).map CStr.chars) = some (ps, k)) :
    (∃ s, collectOpts argv optstr longopts (ps.length + 1) GetoptState.init = some (ps, s) ∧
      s.optind = 1 + k) ∧
    ((∀ o ∈ longopts, o.hasArg = no_argument ∨ o.hasArg = required_argument) →
      refParse optstr.chars longopts false ((argv.drop 1).map CStr.chars) = some (ps, k)) :=
  ⟨collectOpts_of_refParse hascii hval _ rfl h _ rfl rfl, fun hargs => refParse_plain hargs _ h⟩

/-- `tar2sqfs -sj4 --compressor xz --block-size=65536 -- out.sqfs`. -/
def exampleArgv : List CStr :=
  [⟨"tar2sqfs".toList, by decide⟩, ⟨"-sj4".toList, by decide⟩, ⟨"--compressor".toList, by decide⟩,
   ⟨"xz".toList, by decide⟩, ⟨"--block-size=65536".toList, by decide⟩, ⟨"--".toList, by decide⟩,
   ⟨"out.sqfs".toList, by decide⟩]

/-- Its options: `-s`, `-j 4`, `-c xz` and `-b 65536`. -/
def examplePairs : List (Int × Option (List Char)) :=
  [('s'.toNat, none), ('j'.toNat, some "4".toList), ('c'.toNat, some "xz".toList),
   ('b'.toNat, some "65536".toList)]

theorem collectOpts_agrees_refParse_example :
    (∃ s, collectOpts exampleArgv shortOpts longOpts (examplePairs.length + 1) GetoptState.init =
      some (examplePairs, s) ∧ s.optind = 1 + 5) ∧
    ((∀ o ∈ longOpts, o.hasArg = no_argument ∨ o.hasArg = required_argument) →
      refParse shortOpts.chars longOpts false ((exampleArgv.drop 1).map CStr.chars) =
        some (examplePairs, 5)) :=
  collectOpts_agrees_refParse exampleArgv shortOpts longOpts (by decide) (by decide) examplePairs 5
    (by decide)

/-- `tar2sqfs --no-skip=x out.sqfs`. -/
def noSkipValueArgv : List CStr :=
  [⟨"tar2sqfs".toList, by decide⟩, ⟨"--no-skip=x".toList, by decide⟩,
   ⟨"out.sqfs".toList, by decide⟩]

/-- A table with one option whose argument is optional, ended by a NULL name. -/
def colorOpts : List LongOption :=
  [longOption "color".toList (by decide) optional_argument 'c', ⟨none, no_argument, 0⟩]

/-- `prog --color out`. -/
def colorArgv : List CStr :=
  [⟨"prog".toList, by decide⟩, ⟨"--color".toList, by decide⟩, ⟨"out".toList, by decide⟩]

/-- Two argument vectors on which the plain reading and `getopt_long` part. On
    `tar2sqfs --no-skip=x out.sqfs` the plain reading gives `-s` with the argument `x`, while the
    calls never reach `-1`. On `prog --color out`, with `color` an `optional_argument`, the plain
    reading gives `color` without an argument and stops at `out`, while `getopt_long` takes `out`
    as its argument. -/
theorem collectOpts_disagrees_plain :
    refParse shortOpts.chars longOpts false ((noSkipValueArgv.drop 1).map CStr.chars) =
      some ([(('s'.toNat : Int), some "x".toList)], 1) ∧
    (∀ n, collectOpts noSkipValueArgv shortOpts longOpts n GetoptState.init = none) ∧
    refParse [] colorOpts false ((colorArgv.drop 1).map CStr.chars) =
      some ([(('c'.toNat : Int), none)], 1) ∧
    collectOpts colorArgv ⟨[], by decide⟩ colorOpts 2 GetoptState.init =
      some ([(('c'.toNat : Int), some "out".toList)], ⟨3, [], some "out".toList⟩) :=
  ⟨by decide, collectOpts_of_fixpoint (r := questionMark) (by decide) (by decide), by decide,
    by decide⟩

end Tar2Sqfs
