import Tar2Sqfs.Getopt.Basic

set_option autoImplicit false

/-! # Path separators

`compat/path_sep.c` walks a C string with `skip_path_seps`, which should pass over the separators
at its start, and `next_path_sep`, which should stop at the next separator. Both test characters
with the macro `__is_path_sep(c)`, defined as `c == '/' && __is_windows_path_sep(c)`.

For Windows the file defines `__is_windows_path_sep(arg)` as `({arg == '\\'})`, a statement
expression whose one statement lacks its `;`, so the file does not compile there. The model is the
other build, where `__is_windows_path_sep(arg)` is `false`: `__is_path_sep` never holds, so
`skip_path_seps` returns its argument (`skipPathSeps_eq_self`) and `next_path_sep` the end of the
string (`nextPathSep_eq_nil`), separators or not.

A returned pointer into the string is modelled as the characters from it to the terminator. -/

namespace Tar2Sqfs

/-- `__is_windows_path_sep(arg)` outside Windows: `false`. -/
def isWindowsPathSep (_ : Char) : Bool := false

/-- `__is_path_sep(c)`, as defined. -/
def isPathSep (c : Char) : Bool := c == '/' && isWindowsPathSep c

/-- `skip_path_seps(in)`: the string from its first character that is not a separator. -/
def skipPathSeps : List Char → List Char
  | [] => []
  | c :: cs => if isPathSep c then skipPathSeps cs else c :: cs

/-- `next_path_sep(in)`: the string from its first separator, or its end. -/
def nextPathSep : List Char → List Char
  | [] => []
  | c :: cs => if isPathSep c then c :: cs else nextPathSep cs

/-- No character passes the separator test. -/
@[simp] theorem isPathSep_eq_false (c : Char) : isPathSep c = false := by
  simp [isPathSep, isWindowsPathSep]

/-- `skip_path_seps` returns its argument, however many `/` it starts with. -/
theorem skipPathSeps_eq_self : ∀ s : List Char, skipPathSeps s = s
  | [] => rfl
  | _ :: _ => by simp [skipPathSeps]

/-- `next_path_sep` returns the end of the string, whatever `/` it holds. -/
theorem nextPathSep_eq_nil : ∀ s : List Char, nextPathSep s = []
  | [] => rfl
  | _ :: cs => by simp [nextPathSep, nextPathSep_eq_nil cs]

/-- `//usr/bin` keeps its leading separators. -/
example : skipPathSeps "//usr/bin".toList = "//usr/bin".toList := by decide

end Tar2Sqfs
