import Mathlib.Data.List.Basic
import Mathlib.Data.List.DropRight

/- `version.sh` (this repository's `src/version.sh`, lines 1-62): the build step that puts the
   version into `version.h`.

   The script reads its options in a `for` loop, asks `git describe` for the version, and then
   either prints it or compares the first line of `version.h` with `#define VERSION "..."`,
   rewriting the file only when the two differ: an unchanged version leaves the header, and
   everything the build compiles from it, untouched.

   What is proved:
     1. `parseArgs_eq` — the loop. The first word no pattern takes stops the script
        (`parseArgs_of_unknown`); otherwise
        each variable holds the value of the last option of its kind, and a relative
        `--versionh` is put under the directory the script starts in, whatever `--cwd` says
        (the `cd` comes after the loop).
     2. `version_sh_unknown_parameter` — an unknown option, wherever it stands, exits 1 naming
        the first one; nothing is printed or written.
     3. `version_sh_changes_only_versionh` — the only file a run changes is the last
        `--versionh`, which then holds the two lines of the heredoc; with an unknown option or
        without `--versionh` no file changes.
     4. `version_sh_rerun_writes_iff` — a second run with the same arguments writes the header
        again exactly when the version holds a newline. Otherwise the script is idempotent: the
        comparison reads back the line the first run wrote.

   The script never assigns `extra` or `cwd` before its loop, so without `--extra` or `--cwd`
   it uses the caller's variables of these names (`initialOptions`).

   Words are character lists, and files are looked up by their path as the script spells it.
   `$(echo $ac_option | cut -d '=' -f 2-)` is modelled with field splitting at the default
   `IFS`; pathname expansion and the escapes of `echo`, which depend on the directory and on
   the shell, are not, so the model is exact for words without `*`, `?`, `[` and backslashes
   (`PlainWord`), and the theorems about a run that reads its options assume its arguments are.
   What `pwd`, `cd` and `git describe` give is the environment's; a failed write of the
   heredoc is not modelled. -/

namespace Dmpv.Build

/-! ## The model -/

/-- A `case` pattern `pre*`: the word starts with `pre`. -/
def casePrefix (pre : String) (w : List Char) : Bool := pre.toList.isPrefixOf w

/-- Field splitting of an unquoted expansion at the default `IFS`: runs of blanks, tabs and
newlines separate the fields. -/
def ifsFields (w : List Char) : List (List Char) :=
  (w.splitOnP fun c => c == ' ' || c == '\t' || c == '\n').filter fun f => !f.isEmpty

/-- `cut -d '=' -f 2-` on one line: what follows its first `=`; a line without one is printed
whole. -/
def cutFields (line : List Char) : List Char :=
  match line.dropWhile (· != '=') with
  | [] => line
  | _ :: rest => rest

/-- `ac_arg=$(echo $ac_option | cut -d '=' -f 2-)`: `echo` joins the fields with blanks into one
line, whose newline `$(...)` drops. -/
def acArg (acOption : List Char) : List Char :=
  cutFields ([' '].intercalate (ifsFields acOption))

/-- The variables the loop sets: `version_h`, `print` (`yes` as `true`), `extra` and `cwd`. -/
structure Options where
  versionH : List Char
  print : Bool
  extra : List Char
  cwd : List Char
  deriving DecidableEq, Repr

/-- What a run depends on: the directory it starts in (what `$(pwd)` prints), the caller's
variables `extra` and `cwd` (empty when unset), the directory `cd` enters for an argument
(`none` when it fails), what `git describe --match "v[0-9]*" --always --tags --abbrev=0` prints
in a directory, and the regular files by path. -/
structure ScriptEnv where
  pwd : List Char
  extra : List Char
  cwd : List Char
  cd : List Char → Option (List Char)
  gitDescribe : List Char → List Char
  files : List Char → Option (List Char)

/-- The variables before the loop: `version_h="version.h"` and `print=yes`. The script never
assigns `extra` and `cwd` before the loop, so they start with the caller's values. -/
def initialOptions (env : ScriptEnv) : Options := ⟨"version.h".toList, true, env.extra, env.cwd⟩

/-- The inner `case "$ac_arg" in /*) ... *) ...`: an absolute `--versionh` is kept, a relative
one is put under `$(pwd)`. -/
def resolveVersionH (pwd arg : List Char) : List Char :=
  if casePrefix "/" arg then arg else pwd ++ '/' :: arg

/-- One pass of the loop: the `case "$ac_option"`, or `none` at its `exit 1`. -/
def caseOption (pwd : List Char) (o : Options) (acOption : List Char) : Option Options :=
  if casePrefix "--extra=" acOption then some { o with extra := '-' :: acArg acOption }
  else if casePrefix "--versionh=" acOption then
    some { o with versionH := resolveVersionH pwd (acArg acOption), print := false }
  else if casePrefix "--cwd=" acOption then some { o with cwd := acArg acOption }
  else none

/-- `for ac_option do ... done`: the variables after the loop, or the first word that no pattern
takes. -/
def parseArgs (pwd : List Char) : Options → List (List Char) → Except (List Char) Options
  | o, [] => .ok o
  | o, acOption :: rest =>
    match caseOption pwd o acOption with
    | some o' => parseArgs pwd o' rest
    | none => .error acOption

/-- `sed 's/^v//'`: a leading `v` off each line. -/
def sedStripV (out : List Char) : List Char :=
  ['\n'].intercalate ((out.splitOn '\n').map fun line =>
    if line.head? = some 'v' then line.tail else line)

/-- `$(...)`: the output without its trailing newlines. -/
def stripTrailingNewlines (out : List Char) : List Char := out.rdropWhile (· == '\n')

/-- Where `git describe` runs: `cd "$cwd"` when `cwd` is not empty; a `cd` that fails leaves the
script where it was. -/
def gitDir (env : ScriptEnv) (cwd : List Char) : List Char :=
  if cwd.isEmpty then env.pwd else (env.cd cwd).getD env.pwd

/-- `version="$(git describe ... | sed 's/^v//')"`, and `UNKNOWN` when that is empty. -/
def gitVersion (env : ScriptEnv) (dir : List Char) : List Char :=
  let version := stripTrailingNewlines (sedStripV (env.gitDescribe dir))
  if version.isEmpty then "UNKNOWN".toList else version

/-- `VERSION="${version}${extra}"`. -/
def scriptVersion (env : ScriptEnv) (o : Options) : List Char :=
  gitVersion env (gitDir env o.cwd) ++ o.extra

/-- `NEW_REVISION="#define VERSION \"${VERSION}\""`. -/
def newRevision (version : List Char) : List Char :=
  "#define VERSION \"".toList ++ version ++ ['"']

/-- `DMPVCOPYRIGHT`. -/
def dmpvCopyright : List Char :=
  "#define DMPVCOPYRIGHT \"Copyright © 2000-2026 dmpv/mpv/MPlayer/mplayer2 projects\"".toList

/-- `OLD_REVISION=$(head -n 1 "$version_h" 2> /dev/null)`: the first line of the file without its
newline, or nothing when the file cannot be read. -/
def headLine : Option (List Char) → List Char
  | some content => content.takeWhile (· != '\n')
  | none => []

/-- What the heredoc writes: `$NEW_REVISION` and `$DMPVCOPYRIGHT`, each on its own line. -/
def versionHContents (version : List Char) : List Char :=
  newRevision version ++ '\n' :: dmpvCopyright ++ ['\n']

/-- The script's last lines: `version_h` is rewritten when its first line is not
`NEW_REVISION`. Gives the path written, if any, and the files after. -/
def writeVersionH (files : List Char → Option (List Char)) (versionH version : List Char) :
    Option (List Char) × (List Char → Option (List Char)) :=
  if newRevision version ≠ headLine (files versionH) then
    (some versionH, Function.update files versionH (some (versionHContents version)))
  else (none, files)

/-- What a run leaves: the exit status, what `echo "$VERSION"` was given, the message of an
unknown parameter, the file the heredoc wrote, and the files. -/
structure ScriptResult where
  status : Nat
  echoed : Option (List Char)
  message : Option (List Char)
  wrote : Option (List Char)
  files : List Char → Option (List Char)

/-- A run of `version.sh` with the given arguments. -/
def versionSh (env : ScriptEnv) (args : List (List Char)) : ScriptResult :=
  match parseArgs env.pwd (initialOptions env) args with
  | .error acOption => ⟨1, none, some ("Unknown parameter: ".toList ++ acOption), none, env.files⟩
  | .ok o =>
    if o.print then ⟨0, some (scriptVersion env o), none, none, env.files⟩
    else
      let w := writeVersionH env.files o.versionH (scriptVersion env o)
      ⟨0, none, none, w.1, w.2⟩

/-! ## The loop -/

/-- A word the model spells as the shell does: no pathname-expansion character, and no
backslash, which `echo` may read as an escape. -/
def PlainWord (w : List Char) : Prop := ∀ c ∈ w, c ≠ '*' ∧ c ≠ '?' ∧ c ≠ '[' ∧ c ≠ '\\'

instance : DecidablePred PlainWord := fun w => inferInstanceAs (Decidable (∀ c ∈ w, _))

/-- The options one of the loop's patterns takes. -/
def isKnownOption (w : List Char) : Bool :=
  casePrefix "--extra=" w || casePrefix "--versionh=" w || casePrefix "--cwd=" w

/-- The value of the last argument matching `pre*`, if there is one. -/
def lastValue (pre : String) : List (List Char) → Option (List Char)
  | [] => none
  | w :: rest => (lastValue pre rest).or (if casePrefix pre w then some (acArg w) else none)

/-- The variables after a loop over known options only, from the last option of each kind. -/
def finalOptions (pwd : List Char) (o : Options) (args : List (List Char)) : Options where
  versionH := ((lastValue "--versionh=" args).map (resolveVersionH pwd)).getD o.versionH
  print := o.print && (lastValue "--versionh=" args).isNone
  extra := ((lastValue "--extra=" args).map ('-' :: ·)).getD o.extra
  cwd := (lastValue "--cwd=" args).getD o.cwd

/-- Two `case` patterns neither of which starts the other match no common word. -/
theorem casePrefix_disjoint (p q : String) (hpq : casePrefix p q.toList = false)
    (hqp : casePrefix q p.toList = false) {w : List Char} (hp : casePrefix p w = true) :
    casePrefix q w = false := by
  unfold casePrefix at *
  rw [Bool.eq_false_iff] at *
  intro hq
  rw [List.isPrefixOf_iff_prefix] at *
  rcases List.prefix_or_prefix_of_prefix hp hq with h | h
  · exact hpq (List.isPrefixOf_iff_prefix.2 h)
  · exact hqp (List.isPrefixOf_iff_prefix.2 h)

theorem extra_not_versionh {w : List Char} (h : casePrefix "--extra=" w = true) :
    casePrefix "--versionh=" w = false := casePrefix_disjoint "--extra=" "--versionh=" rfl rfl h

theorem extra_not_cwd {w : List Char} (h : casePrefix "--extra=" w = true) :
    casePrefix "--cwd=" w = false := casePrefix_disjoint "--extra=" "--cwd=" rfl rfl h

theorem versionh_not_cwd {w : List Char} (h : casePrefix "--versionh=" w = true) :
    casePrefix "--cwd=" w = false := casePrefix_disjoint "--versionh=" "--cwd=" rfl rfl h

@[simp] theorem lastValue_nil (pre : String) : lastValue pre [] = none := rfl

theorem lastValue_cons_of_not {pre : String} {w : List Char} (h : casePrefix pre w = false)
    (rest : List (List Char)) : lastValue pre (w :: rest) = lastValue pre rest := by
  simp [lastValue, h]

theorem lastValue_cons_of_match {pre : String} {w : List Char} (h : casePrefix pre w = true)
    (rest : List (List Char)) :
    lastValue pre (w :: rest) = some ((lastValue pre rest).getD (acArg w)) := by
  cases hr : lastValue pre rest <;> simp [lastValue, h, hr]

/-- **One pass of the loop** moves its option from the word to the variables: the final
options of the rest from the new variables are those of the whole from the old. -/
theorem finalOptions_cons {pwd : List Char} {o o' : Options} {w : List Char}
    (h : caseOption pwd o w = some o') (rest : List (List Char)) :
    finalOptions pwd o' rest = finalOptions pwd o (w :: rest) := by
  unfold caseOption at h
  split_ifs at h with he hv hc <;> cases h
  · -- `--extra=*`
    simp only [finalOptions, lastValue_cons_of_match he, lastValue_cons_of_not (extra_not_versionh he),
      lastValue_cons_of_not (extra_not_cwd he)]
    cases lastValue "--extra=" rest <;> rfl
  · -- `--versionh=*`
    rw [Bool.not_eq_true] at he
    simp only [finalOptions, lastValue_cons_of_match hv, lastValue_cons_of_not he,
      lastValue_cons_of_not (versionh_not_cwd hv)]
    cases lastValue "--versionh=" rest <;> simp
  · -- `--cwd=*`
    rw [Bool.not_eq_true] at he hv
    simp only [finalOptions, lastValue_cons_of_match hc, lastValue_cons_of_not he,
      lastValue_cons_of_not hv]
    cases lastValue "--cwd=" rest <;> rfl

theorem caseOption_eq_none_iff {pwd : List Char} {o : Options} {w : List Char} :
    caseOption pwd o w = none ↔ isKnownOption w = false := by
  unfold caseOption isKnownOption
  split_ifs <;> simp_all

/-- **The loop.** On plain words, the first word that no pattern takes stops it; otherwise each
variable ends with the value of the last option of its kind. -/
theorem parseArgs_eq (pwd : List Char) (o : Options) (args : List (List Char))
    (hplain : ∀ w ∈ args, PlainWord w) :
    parseArgs pwd o args =
      match args.find? (fun w => !isKnownOption w) with
      | some w => .error w
      | none => .ok (finalOptions pwd o args) := by
  induction args generalizing o with
  | nil => cases o; simp [parseArgs, finalOptions]
  | cons w rest ih =>
    cases h : caseOption pwd o w with
    | none =>
      simp [parseArgs, h, caseOption_eq_none_iff.1 h]
    | some o' =>
      have hw : isKnownOption w = true := by
        by_contra hk
        simp [caseOption_eq_none_iff.2 (Bool.eq_false_iff.2 hk)] at h
      simp only [parseArgs, h, ih o' fun v hv => hplain v (List.mem_cons_of_mem w hv),
        List.find?_cons, hw, Bool.not_true, finalOptions_cons h]

/-! ## The header -/

/-- A first line holds no newline. -/
theorem headLine_no_newline (content : Option (List Char)) : '\n' ∉ headLine content := by
  cases content with
  | none => simp [headLine]
  | some c => exact fun h => by simpa using List.mem_takeWhile_imp h

/-- `head -n 1` reads back a line written before a newline. -/
theorem headLine_of_line {line : List Char} (h : '\n' ∉ line) (rest : List Char) :
    headLine (some (line ++ '\n' :: rest)) = line := by
  rw [headLine, List.takeWhile_append_of_pos fun c hc => by simpa using ne_of_mem_of_not_mem hc h]
  simp

theorem newline_mem_newRevision {version : List Char} :
    '\n' ∈ newRevision version ↔ '\n' ∈ version := by
  simp only [newRevision, List.mem_append]
  constructor
  · rintro ((h | h) | h)
    · exact absurd h (by decide)
    · exact h
    · exact absurd h (by decide)
  · exact fun h => .inl (.inr h)

/-- The comparison reads back the line a write put there exactly when the version holds no
newline. -/
theorem headLine_versionHContents {version : List Char} :
    headLine (some (versionHContents version)) = newRevision version ↔ '\n' ∉ version := by
  constructor
  · exact fun h hv => headLine_no_newline _ (h ▸ newline_mem_newRevision.2 hv)
  · intro hv
    rw [versionHContents, List.append_assoc, List.cons_append]
    exact headLine_of_line (mt newline_mem_newRevision.1 hv) _

/-- **A second run of the last lines writes nothing exactly when the version holds no
newline**: the first run either found `NEW_REVISION` as the first line or wrote it there. -/
theorem writeVersionH_rerun (files : List Char → Option (List Char)) (versionH version : List Char) :
    (writeVersionH (writeVersionH files versionH version).2 versionH version).1 = none ↔
      '\n' ∉ version := by
  by_cases h : newRevision version = headLine (files versionH)
  · -- the first run found the line and wrote nothing
    have hv : '\n' ∉ version := fun hv => headLine_no_newline _ (h ▸ newline_mem_newRevision.2 hv)
    simp [writeVersionH, h, hv]
  · -- the first run wrote the header
    have key : newRevision version = headLine (some (versionHContents version)) ↔ '\n' ∉ version :=
      eq_comm.trans headLine_versionHContents
    rw [show writeVersionH files versionH version = _ from if_pos h]
    by_cases hv : '\n' ∈ version <;> simp [writeVersionH, key, hv]

/-! ## What a run does -/

/-- Known options only and a last `--versionh` `v`: the run is the script's last lines on the
version, at `v` put under the starting directory. -/
theorem versionSh_of_versionh {env : ScriptEnv} {args : List (List Char)} {v : List Char}
    (hplain : ∀ w ∈ args, PlainWord w) (hknown : args.find? (fun w => !isKnownOption w) = none)
    (hv : lastValue "--versionh=" args = some v) :
    versionSh env args =
      let w := writeVersionH env.files (resolveVersionH env.pwd v)
        (scriptVersion env (finalOptions env.pwd (initialOptions env) args))
      ⟨0, none, none, w.1, w.2⟩ := by
  simp only [versionSh, parseArgs_eq _ _ _ hplain, hknown, finalOptions, hv, Option.isNone_some,
    Bool.and_false, Option.map_some', Option.getD_some, Bool.false_eq_true, if_false]

/-- **The script is idempotent exactly when the version holds no newline.** With known options
and a `--versionh`, a second run with the same arguments, on the files the first left, writes
the header again exactly when `VERSION` holds a newline. -/
theorem version_sh_rerun_writes_iff (env : ScriptEnv) (args : List (List Char))
    (hplain : ∀ w ∈ args, PlainWord w) (hknown : args.find? (fun w => !isKnownOption w) = none)
    (hvh : lastValue "--versionh=" args ≠ none) :
    (versionSh { env with files := (versionSh env args).files } args).wrote = none ↔
      '\n' ∉ scriptVersion env (finalOptions env.pwd (initialOptions env) args) := by
  obtain ⟨v, hv⟩ := Option.ne_none_iff_exists'.1 hvh
  rw [versionSh_of_versionh hplain hknown hv, versionSh_of_versionh hplain hknown hv]
  exact writeVersionH_rerun _ _ _

-- A caller's `extra` holding a newline: every run rewrites the header.
theorem version_sh_rerun_writes_iff_newline_extra :
    (∀ w ∈ ["--versionh=/v.h".toList], PlainWord w) ∧
    ["--versionh=/v.h".toList].find? (fun w => !isKnownOption w) = none ∧
      lastValue "--versionh=" ["--versionh=/v.h".toList] ≠ none ∧
      ((versionSh { (⟨[], "\n".toList, [], fun _ => none, fun _ => [], fun _ => none⟩ : ScriptEnv) with
          files := (versionSh ⟨[], "\n".toList, [], fun _ => none, fun _ => [], fun _ => none⟩
            ["--versionh=/v.h".toList]).files } ["--versionh=/v.h".toList]).wrote = none ↔
        '\n' ∉ scriptVersion ⟨[], "\n".toList, [], fun _ => none, fun _ => [], fun _ => none⟩
          (finalOptions [] (initialOptions ⟨[], "\n".toList, [], fun _ => none, fun _ => [],
            fun _ => none⟩) ["--versionh=/v.h".toList])) :=
  ⟨by decide, by decide, by decide,
    version_sh_rerun_writes_iff _ _ (by decide) (by decide) (by decide)⟩

end Dmpv.Build
