import Mathlib.Data.List.Basic

set_option autoImplicit false

/-! # `getopt` and `getopt_long`

The compatibility parsers of `compat/getopt.c` and `compat/getopt_long.c`, used when the C library
has none. Their state is three globals: `optind`, the index of the argument being read; `optarg`;
and the static `current`, which points into the argument holding a cluster of short options
(`-abc`) and is empty between arguments. A C string is the list of its characters before the NUL;
`current` and `optarg` point into an argument, so they are modelled as the rest of its characters.

`getopt_long` searches its option array until an exact name match or an entry whose name is NULL.
It reads `longopts[i]` for every `i` up to where it stops, so when neither comes before the end of
the array it reads past it; `getoptLong` returns `none` then. -/

namespace Tar2Sqfs

/-! ## C strings and arguments -/

/-- A NUL-terminated C string: the characters before its terminator. -/
structure CStr where
  chars : List Char
  nul_free : '\x00' ∉ chars
deriving DecidableEq

/-- `s[i]`: the character at `i`, or the terminator at and past the end. -/
def charAt (s : List Char) (i : Nat) : Char := s.getD i '\x00'

/-- `argv[i]`, for `i < argc`. -/
def argAt (argv : List CStr) (i : Nat) : List Char := ((argv.get? i).map CStr.chars).getD []

/-- `strchr(s, c)` for a character that is not NUL: `s` from the first `c` on. -/
def strchr : List Char → Char → Option (List Char)
  | [], _ => none
  | x :: xs, c => if x = c then some (x :: xs) else strchr xs c

/-- Whether the option string gives `c` an argument: `ptr[1] == ':'` for `ptr = strchr(optstr, c)`,
    that is, its first `c` is followed by `:`. -/
def takesArg (optstr : List Char) (c : Char) : Bool :=
  match optstr.dropWhile (· ≠ c) with
  | _ :: ':' :: _ => true
  | _ => false

/-- `strncmp(a, b, n) == 0` on C strings. -/
def strncmpEq (a b : List Char) (n : Nat) : Bool := a.take n == b.take n

/-- `getopt`'s `'?'`. -/
def questionMark : Int := '?'.toNat

/-- `return optchr;` for the `char optchr`: its byte, read as a signed `char` (as on x86 and
    most ABIs), so a byte from `0x80` on is negative and `0xFF` is `-1`, the value that ends the
    calls. -/
def charValue (c : Char) : Int :=
  let b := c.toNat % 0x100
  if b < 0x80 then b else (b : Int) - 0x100

/-- An ASCII option character is returned as its code. -/
theorem charValue_of_lt {c : Char} (h : c.toNat < 0x80) : charValue c = c.toNat := by
  simp [charValue, Nat.mod_eq_of_lt (show c.toNat < 0x100 by omega), h]

/-! ## `getopt` -/

/-- `optind`, `current` and `optarg`. -/
structure GetoptState where
  optind : Nat
  current : List Char
  optarg : Option (List Char)
deriving DecidableEq, Repr

/-- The globals before the first call: `optind = 1`, `current = ""`, `optarg = NULL`. -/
def GetoptState.init : GetoptState := ⟨1, [], none⟩

/-- `getopt` from `optchr = *(current++)` on, where `current` pointed at `optchr :: rest`. -/
def getoptNextChar (argv : List CStr) (optstr : CStr) (s : GetoptState) (optchr : Char)
    (rest : List Char) : Int × GetoptState :=
  let s := { s with current := rest }
  if optchr = ':' then (questionMark, s) else
  match strchr optstr.chars optchr with
  | none => (questionMark, s)
  | some (_ :: ':' :: _) =>
    match rest with
    | _ :: _ => (charValue optchr,
      { s with optarg := some rest, current := [], optind := s.optind + 1 })
    | [] =>
      if argv.length ≤ s.optind + 1 then (questionMark, { s with optind := s.optind + 1 })
      else (charValue optchr,
        { s with optarg := some (argAt argv (s.optind + 1)), current := [],
                 optind := s.optind + 2 })
  | some _ =>
    (charValue optchr,
      { s with optarg := none, optind := if rest = [] then s.optind + 1 else s.optind })

/-- `getopt`: one call. Between arguments it looks at `argv[optind]`: past the end, an argument
    not starting with `-`, and `-` itself end the options; `--` ends them and is consumed. -/
def getopt (argv : List CStr) (optstr : CStr) (s : GetoptState) : Int × GetoptState :=
  match s.current with
  | c :: rest => getoptNextChar argv optstr s c rest
  | [] =>
    if argv.length ≤ s.optind then (-1, s) else
    match argAt argv s.optind with
    | ['-', '-'] => (-1, { s with optind := s.optind + 1 })
    | '-' :: c :: rest => getoptNextChar argv optstr s c rest
    | _ => (-1, s)

/-! ## `getopt_long` -/

/-- `struct option`: `name` is NULL in the entry that ends the array; `flag` is not read by
    `getopt_long.c`. -/
structure LongOption where
  name : Option CStr
  hasArg : Int
  val : Int
deriving DecidableEq

/-- The search loop of `getopt_long` from entry `i` on: the entry it stops at, with its index,
    or `none` when it runs off the end of the array. It stops at an entry whose name is NULL or
    agrees with `ptr` on its first `len` characters and ends there. -/
def findLongOpt (ptr : List Char) (len : Nat) : List LongOption → Nat → Option (Nat × LongOption)
  | [], _ => none
  | o :: os, i =>
    match o.name with
    | none => some (i, o)
    | some name =>
      if strncmpEq name.chars ptr len && charAt name.chars len == '\x00' then some (i, o)
      else findLongOpt ptr len os (i + 1)

/-- `getopt_long` past the `--` of `argv[optind]`, where `ptr` is the rest of the argument: the
    name is looked up in `longopts`, and `none` stands for a search that reads past its end. -/
def getoptLongName (argv : List CStr) (longopts : List LongOption) (s : GetoptState)
    (ptr : List Char) : Option (Int × GetoptState) :=
  let s := { s with optarg := none }
  let len := (ptr.takeWhile (· ≠ '=')).length
  match findLongOpt ptr len longopts 0 with
  | none => none
  | some (_, o) =>
    match o.name with
    | none => some (questionMark, s)
    | some _ =>
      if charAt ptr len = '=' then
        if o.hasArg = 0 then some (questionMark, s)
        else some (o.val, { s with optarg := some (ptr.drop (len + 1)), optind := s.optind + 1 })
      else if o.hasArg ≠ 0 then
        if argv.length ≤ s.optind + 1 then some (questionMark, { s with optind := s.optind + 1 })
        else some (o.val,
          { s with optarg := some (argAt argv (s.optind + 1)), optind := s.optind + 2 })
      else some (o.val, { s with optind := s.optind + 1 })

/-- `getopt_long`: one call. An argument `--name` or `--name=value` is looked up in `longopts`;
    anything else goes to `getopt`. -/
def getoptLong (argv : List CStr) (optstr : CStr) (longopts : List LongOption)
    (s : GetoptState) : Option (Int × GetoptState) :=
  let arg := argAt argv s.optind
  if argv.length ≤ s.optind ∨ charAt arg 0 ≠ '-' ∨ charAt arg 1 ≠ '-' ∨ charAt arg 2 = '\x00' then
    some (getopt argv optstr s)
  else getoptLongName argv longopts s (arg.drop 2)

/-- Calls of `getopt_long` until it returns `-1`, at most `fuel` of them: the return values with
    `optarg` after each, and the state after the `-1`. `none` when the fuel runs out first or a
    call reads past `longopts`. -/
def collectOpts (argv : List CStr) (optstr : CStr) (longopts : List LongOption) :
    Nat → GetoptState → Option (List (Int × Option (List Char)) × GetoptState)
  | 0, _ => none
  | fuel + 1, s =>
    match getoptLong argv optstr longopts s with
    | none => none
    | some (r, s') =>
      if r = -1 then some ([], s')
      else (collectOpts argv optstr longopts fuel s').map fun (rs, s'') =>
        ((r, s'.optarg) :: rs, s'')

/-! ## C strings -/

@[simp] theorem charAt_nil (i : Nat) : charAt [] i = '\x00' := rfl
@[simp] theorem charAt_cons_zero (a : Char) (s : List Char) : charAt (a :: s) 0 = a := rfl
@[simp] theorem charAt_cons_succ (a : Char) (s : List Char) (i : Nat) :
    charAt (a :: s) (i + 1) = charAt s i := rfl

theorem charAt_eq_nul_iff {s : List Char} (hs : '\x00' ∉ s) {i : Nat} :
    charAt s i = '\x00' ↔ s.length ≤ i := by
  induction s generalizing i with
  | nil => simp
  | cons a s ih =>
    cases i with
    | zero =>
      simp only [charAt_cons_zero, List.length_cons]
      exact ⟨fun h => absurd (h ▸ List.mem_cons_self ..) hs, by omega⟩
    | succ i => simp [ih (fun h => hs (List.mem_cons_of_mem _ h))]

theorem argAt_nul_free (argv : List CStr) (i : Nat) : '\x00' ∉ argAt argv i := by
  unfold argAt
  cases argv.get? i with
  | none => simp
  | some a => exact a.nul_free

/-- The arguments from `argv[i]` on, as a list of their characters. -/
theorem args_eq_cons {argv : List CStr} {i : Nat} {a : List Char} {rest : List (List Char)}
    (h : (argv.drop i).map CStr.chars = a :: rest) :
    i < argv.length ∧ argAt argv i = a ∧ (argv.drop (i + 1)).map CStr.chars = rest := by
  induction argv generalizing i with
  | nil => simp at h
  | cons x xs ih =>
    cases i with
    | zero => simp_all [argAt]
    | succ i => simpa [argAt] using ih h

theorem args_eq_nil {argv : List CStr} {i : Nat} (h : (argv.drop i).map CStr.chars = []) :
    argv.length ≤ i := by
  simpa using h

/-- The character after the name in `ptr` is `=` exactly when `ptr` holds one. -/
theorem charAt_takeWhile_eq_iff (ptr : List Char) :
    charAt ptr (ptr.takeWhile (· ≠ '=')).length = '=' ↔ '=' ∈ ptr := by
  induction ptr with
  | nil => decide
  | cons a ptr ih => by_cases ha : a = '=' <;> simp_all [List.takeWhile_cons, Ne.symm]

/-- The test of the search loop of `getopt_long` on a name: the name is the part of `ptr` before
    its first `=`. -/
theorem nameMatch_iff {name ptr : List Char} (hn : '\x00' ∉ name) :
    (strncmpEq name ptr (ptr.takeWhile (· ≠ '=')).length &&
        charAt name (ptr.takeWhile (· ≠ '=')).length == '\x00') = true ↔
      name = ptr.takeWhile (· ≠ '=') := by
  have hkey : ptr.take (ptr.takeWhile (· ≠ '=')).length = ptr.takeWhile (· ≠ '=') :=
    (List.prefix_iff_eq_take.mp (List.takeWhile_prefix _)).symm
  rw [Bool.and_eq_true, strncmpEq, beq_iff_eq, beq_iff_eq, charAt_eq_nul_iff hn, hkey]
  constructor
  · rintro ⟨h, hle⟩
    rwa [List.take_of_length_le hle] at h
  · rintro rfl
    simp

theorem strchr_eq_dropWhile {l : List Char} {c : Char} (h : c ∈ l) :
    strchr l c = some (l.dropWhile (· ≠ c)) := by
  induction l with
  | nil => simp at h
  | cons x xs ih =>
    by_cases hx : x = c
    · simp [strchr, hx]
    · simp [strchr, hx, ih ((List.mem_cons.mp h).resolve_left (Ne.symm hx))]

theorem strchr_eq_none {l : List Char} {c : Char} (h : c ∉ l) : strchr l c = none := by
  induction l with
  | nil => rfl
  | cons x xs ih =>
    have hx : x ≠ c := fun hx => h (hx ▸ List.mem_cons_self ..)
    simp [strchr, hx, ih (fun hm => h (List.mem_cons_of_mem _ hm))]

/-! ## One call -/

section Calls

variable {argv : List CStr} {optstr : CStr} {longopts : List LongOption} {s : GetoptState}

theorem getopt_of_current {c : Char} {rest : List Char} (h : s.current = c :: rest) :
    getopt argv optstr s = getoptNextChar argv optstr s c rest := by
  simp [getopt, h]

/-- Every argument but `--` followed by a name goes to `getopt`. -/
theorem getoptLong_of_not_long (h : ∀ c name, argAt argv s.optind ≠ '-' :: '-' :: c :: name) :
    getoptLong argv optstr longopts s = some (getopt argv optstr s) := by
  rw [getoptLong, if_pos]
  match ha : argAt argv s.optind, h with
  | [], _ => simp
  | [_], _ => simp
  | [_, _], _ => simp
  | a :: b :: c :: name, h =>
    by_cases hab : a = '-' ∧ b = '-'
    · exact absurd (by rw [hab.1, hab.2]) (h c name)
    · simp only [charAt_cons_zero, charAt_cons_succ]
      tauto

theorem lt_of_argAt_ne_nil {argv : List CStr} {i : Nat} (h : argAt argv i ≠ []) :
    i < argv.length := by
  by_contra hle
  simp [argAt, List.getElem?_eq_none (Nat.le_of_not_lt hle)] at h

/-- `--name` or `--name=value` goes to the search of `longopts`. -/
theorem getoptLong_of_long {name : List Char} (hne : name ≠ [])
    (h : argAt argv s.optind = '-' :: '-' :: name) :
    getoptLong argv optstr longopts s = getoptLongName argv longopts s name := by
  obtain ⟨c, name, rfl⟩ := List.exists_cons_of_ne_nil hne
  have hlt := lt_of_argAt_ne_nil (h ▸ List.cons_ne_nil _ _)
  have hc : c ≠ '\x00' := fun hc => argAt_nul_free argv s.optind (by simp [h, hc])
  simp [getoptLong, h, hc, Nat.not_le.mpr hlt]

/-! Between arguments (`current` empty), `getopt` looks at `argv[optind]`. -/

/-- An argument that starts no option ends the options and is left in place. -/
theorem getopt_stop (hcur : s.current = []) (h : ∀ c rest, argAt argv s.optind ≠ '-' :: c :: rest) :
    getopt argv optstr s = (-1, s) := by
  simp only [getopt, hcur]
  split_ifs
  · rfl
  · split <;> simp_all

/-- `--` ends the options and is consumed. -/
theorem getopt_dashdash (hcur : s.current = []) (h : argAt argv s.optind = ['-', '-']) :
    getopt argv optstr s = (-1, { s with optind := s.optind + 1 }) := by
  have hlt := lt_of_argAt_ne_nil (h ▸ List.cons_ne_nil _ _)
  simp [getopt, hcur, h, Nat.not_le.mpr hlt]

/-- A cluster `-c…` starts at its first character. -/
theorem getopt_cluster {c : Char} {cs : List Char} (hcur : s.current = [])
    (h : argAt argv s.optind = '-' :: c :: cs) (hc : c ≠ '-') :
    getopt argv optstr s = getoptNextChar argv optstr s c cs := by
  have hlt := lt_of_argAt_ne_nil (h ▸ List.cons_ne_nil _ _)
  simp [getopt, hcur, h, hc, Nat.not_le.mpr hlt]

/-! After `--`, once the search has stopped at an entry with a name. -/

section Found

variable {ptr : List Char} {j : Nat} {o : LongOption} {n : CStr}
  (hf : findLongOpt ptr (ptr.takeWhile (· ≠ '=')).length longopts 0 = some (j, o))
  (hn : o.name = some n)
include hf hn

/-- `--name=value` for an option with an argument. -/
theorem getoptLongName_value (heq : '=' ∈ ptr) (harg : o.hasArg ≠ 0) :
    getoptLongName argv longopts s ptr = some (o.val, { s with
      optarg := some (ptr.drop ((ptr.takeWhile (· ≠ '=')).length + 1)),
      optind := s.optind + 1 }) := by
  simp only [getoptLongName, hf, hn, (charAt_takeWhile_eq_iff ptr).mpr heq, harg, if_true, if_false]

/-- `--name` for an option with an argument, which is the next one. -/
theorem getoptLongName_next (heq : '=' ∉ ptr) (harg : o.hasArg ≠ 0)
    (hlt : s.optind + 1 < argv.length) :
    getoptLongName argv longopts s ptr = some (o.val, { s with
      optarg := some (argAt argv (s.optind + 1)), optind := s.optind + 2 }) := by
  simp only [getoptLongName, hf, hn, mt (charAt_takeWhile_eq_iff ptr).mp heq, harg,
    Nat.not_le.mpr hlt, if_true, if_false, ne_eq, not_false_eq_true]

/-- `--name` for an option without an argument. -/
theorem getoptLongName_flag (heq : '=' ∉ ptr) (harg : o.hasArg = 0) :
    getoptLongName argv longopts s ptr =
      some (o.val, { s with optarg := none, optind := s.optind + 1 }) := by
  simp only [getoptLongName, hf, hn, mt (charAt_takeWhile_eq_iff ptr).mp heq, harg, if_true,
    if_false, ne_eq, not_true_eq_false]

end Found

/-- An unknown option character: `getopt` returns `?` and only moves `current` past it. -/
theorem getoptNextChar_unknown {c : Char} {cs : List Char} (h : c = ':' ∨ c ∉ optstr.chars) :
    getoptNextChar argv optstr s c cs = (questionMark, { s with current := cs }) := by
  rcases h with h | h
  · simp [getoptNextChar, h]
  · by_cases hc : c = ':'
    · simp [getoptNextChar, hc]
    · simp [getoptNextChar, hc, strchr_eq_none h]

/-- A known option that takes no argument: `getopt` returns it and moves past it. -/
theorem getoptNextChar_noArg {c : Char} {cs : List Char} (hc : c ≠ ':') (hmem : c ∈ optstr.chars)
    (ht : takesArg optstr.chars c = false) :
    getoptNextChar argv optstr s c cs = (charValue c, { s with
      current := cs, optarg := none, optind := if cs = [] then s.optind + 1 else s.optind }) := by
  simp only [getoptNextChar, if_neg hc, strchr_eq_dropWhile hmem]
  unfold takesArg at ht
  split <;> simp_all

/-- A known option with its argument in the rest of its token. -/
theorem getoptNextChar_attached {c : Char} {cs : List Char} (hc : c ≠ ':') (hmem : c ∈ optstr.chars)
    (ht : takesArg optstr.chars c = true) (hcs : cs ≠ []) :
    getoptNextChar argv optstr s c cs =
      (charValue c, { s with current := [], optarg := some cs, optind := s.optind + 1 }) := by
  simp only [getoptNextChar, if_neg hc, strchr_eq_dropWhile hmem]
  unfold takesArg at ht
  split at ht <;> simp_all
  split <;> simp_all

/-- A known option that ends its token and takes the next argument. -/
theorem getoptNextChar_detached {c : Char} (hc : c ≠ ':') (hmem : c ∈ optstr.chars)
    (ht : takesArg optstr.chars c = true) (hlt : s.optind + 1 < argv.length) :
    getoptNextChar argv optstr s c [] = (charValue c, { s with
      current := [], optarg := some (argAt argv (s.optind + 1)), optind := s.optind + 2 }) := by
  simp only [getoptNextChar, if_neg hc, strchr_eq_dropWhile hmem]
  unfold takesArg at ht
  split at ht <;> simp_all [Nat.not_le.mpr hlt]

/-- A known option that ends its argument and misses the next one: `?`. -/
theorem getoptNextChar_missing {c : Char} (hc : c ≠ ':') (hmem : c ∈ optstr.chars)
    (ht : takesArg optstr.chars c = true) (hle : argv.length ≤ s.optind + 1) :
    getoptNextChar argv optstr s c [] =
      (questionMark, { s with current := [], optind := s.optind + 1 }) := by
  simp only [getoptNextChar, if_neg hc, strchr_eq_dropWhile hmem]
  unfold takesArg at ht
  split at ht <;> simp_all

/-- A call that returns `-1` ends the calls. -/
theorem collectOpts_stop {s' : GetoptState} {n : Nat}
    (h : getoptLong argv optstr longopts s = some (-1, s')) :
    collectOpts argv optstr longopts (n + 1) s = some ([], s') := by
  simp [collectOpts, h]

end Calls

/-- A call that returns something other than `-1` and leaves the state as it was is made again
    and again: no number of calls reaches `-1`. -/
theorem collectOpts_of_fixpoint {argv : List CStr} {optstr : CStr} {longopts : List LongOption}
    {s : GetoptState} {r : Int} (h : getoptLong argv optstr longopts s = some (r, s))
    (hr : r ≠ -1) : ∀ n, collectOpts argv optstr longopts n s = none
  | 0 => rfl
  | n + 1 => by simp [collectOpts, h, hr, collectOpts_of_fixpoint h hr n]

/-! ## Runs of calls -/

/-- The calls from `s` begin with calls that return the options `ps`, none of them `-1`, and
    reach `s'`: whatever the calls from `s'` give comes after `ps`. -/
def Calls (argv : List CStr) (optstr : CStr) (longopts : List LongOption) (s : GetoptState)
    (ps : List (Int × Option (List Char))) (s' : GetoptState) : Prop :=
  ∀ n, collectOpts argv optstr longopts (ps.length + n) s =
    (collectOpts argv optstr longopts n s').map fun p => (ps ++ p.1, p.2)

namespace Calls

variable {argv : List CStr} {optstr : CStr} {longopts : List LongOption}
  {s s₁ s₂ : GetoptState} {ps qs : List (Int × Option (List Char))}

/-- One call that returns an option. -/
theorem single {r : Int} {a : Option (List Char)}
    (h : getoptLong argv optstr longopts s = some (r, s₁)) (hr : r ≠ -1) (ha : s₁.optarg = a) :
    Calls argv optstr longopts s [(r, a)] s₁ := fun n => by
  rw [List.length_singleton, Nat.add_comm]
  simp [collectOpts, h, hr, ha]

theorem trans (h₁ : Calls argv optstr longopts s ps s₁) (h₂ : Calls argv optstr longopts s₁ qs s₂) :
    Calls argv optstr longopts s (ps ++ qs) s₂ := fun n => by
  rw [List.length_append, Nat.add_assoc, h₁, h₂, Option.map_map]
  simp [Function.comp_def]

/-- Calls, then calls that give `qs` and end with `-1`: `collectOpts` with just enough fuel gives
    both. -/
theorem collectOpts_append {s₃ : GetoptState} (h : Calls argv optstr longopts s ps s₁)
    (hrest : collectOpts argv optstr longopts (qs.length + 1) s₁ = some (qs, s₃)) :
    collectOpts argv optstr longopts ((ps ++ qs).length + 1) s = some (ps ++ qs, s₃) := by
  rw [List.length_append, Nat.add_assoc, h, hrest]
  rfl

end Calls

end Tar2Sqfs
