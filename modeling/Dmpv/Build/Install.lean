import Mathlib.Data.List.Basic

/- The install rules of the build (`src/Makefile`, the second makefile, lines 94-153):
   `install`, `install-strip` and `uninstall`, each a list of `mkdir -p`, `cp`, `rm -f` and
   `strip` lines that make runs in order, stopping at the first that fails. None of the three
   is `.PHONY` (line 167 names only `all`) and none has prerequisites, so a file of the
   target's name in the directory make runs in makes the target up to date, and its recipe
   does not run (`makeRule`).

   Each entry records whether the user running make may write it, and the commands fail where
   POSIX says so: `mkdir -p` and `cp` need a writable directory to make an entry in, `cp` a
   writable file to overwrite, `rm -f` a writable directory to remove a file from. A directory
   `mkdir -p` makes is writable; a file `cp` makes takes its source's mode, and one it
   overwrites keeps its own.

   What is proved:
     1. `Plan.frame`, `Plan.run_ok` — take a recipe whose `cp`s land on a set of paths `ws`,
        each after the `mkdir -p` of its directory, and none of whose directories has a path of
        `ws` among its prefixes. A successful run of it changes no entry but its copies'
        targets and the directories it makes where nothing was (`withDirs`), and makes no path
        of `ws` a directory. It runs to its end when `mkdir -p` can make each of its
        directories, `cp` can write each target, and its sources are regular files outside
        `ws`; each target then holds its source's contents. `install` is such a recipe for its
        nine installed files (`install_plan`), so without a file `install` in the make
        directory it installs them (`install_installs`), and a successful `make install`
        changes no other regular file (`install_changes_only_installed`). Run again, it
        changes nothing, when each target it makes takes a writable mode
        (`install_idempotent`, from `Plan.run_fixed`).
     2. `install_then_uninstall` — after a successful `make install` on a file system where
        none of the nine paths is a directory and each lies in a directory the user may write
        or that `install` makes, `make uninstall` succeeds, unless a file `uninstall` is in the
        make directory or `install` made one, and every file is as it was before the install,
        except the nine, which are gone: a `dmpv.conf` that was in `${PREFIX}/etc` before the
        install is removed with the rest. The directories stay. At the first installed path
        that is a directory, or a file in a directory the user may not write, `uninstall`
        stops, with the files before it removed and the rest left
        (`uninstall_stops_at_unremovable`).
     3. `install_strip_eq` — `install-strip` is `strip` of the build's own binary, in place,
        followed by `install`: the stripped binary stays in the build tree.

   Paths are lists of components from the root: `${PREFIX}`, `$(BUILD)` and the directory make
   runs in (`top`, under which `etc/...` is read) are paths. The recipes use `${PREFIX}` and
   `$(BUILD)` unquoted, so the theorems take them plain (`MakeDirs`): the shell passes each
   through as one word, and each names one entry. A file's contents are an identifier; what
   `strip` makes of them is a parameter.

   What the model leaves out: links (one list of components names one entry), read and search
   permission, and failures of the disk itself. The first makefile only hands its targets to
   `ninja` and is not modelled. -/

namespace Dmpv.Build

/-! ## Files and commands -/

/-- A path, as its components from the root. -/
abbrev FsPath := List String

/-- What a path holds: a regular file, by its contents, or a directory. `writable` is whether
the user running make may write it: a file's contents, or a directory's entries. -/
inductive Entry where
  | file (content : Nat) (writable : Bool)
  | dir (writable : Bool)
  deriving DecidableEq, Repr

/-- The file system: the entry at each path, `none` where there is none; `[]` is the root. -/
abbrev Fs := FsPath → Option Entry

/-- The contents of the regular file at a path, if any. -/
def fileAt (fs : Fs) (p : FsPath) : Option Nat :=
  match fs p with
  | some (.file c _) => some c
  | _ => none

def dirAt (fs : Fs) (p : FsPath) : Bool :=
  match fs p with
  | some (.dir _) => true
  | _ => false

/-- The commands of the recipes. -/
inductive Cmd where
  /-- `$(LOG) "..."`, a `printf`. -/
  | log (msg : String)
  | mkdirP (dir : FsPath)
  | cp (src dst : FsPath)
  | rmF (path : FsPath)
  | strip (path : FsPath)
  deriving DecidableEq, Repr

/-- The directories `mkdir -p d` makes, outermost first: every non-empty prefix of `d`. -/
def ancestors (d : FsPath) : List FsPath := (List.range d.length).map fun i => d.take (i + 1)

/-- `mkdir -p` over the directories still to make: one that is there is kept, a missing one is
made, writable, in a parent the user may write, and anything else stops it, after the
directories before it were made. -/
def mkdirs (fs : Fs) : List FsPath → Fs × Bool
  | [] => (fs, true)
  | a :: as =>
    match fs a with
    | some (.dir _) => mkdirs fs as
    | some (.file _ _) => (fs, false)
    | none =>
      if fs a.dropLast = some (.dir true) then mkdirs (Function.update fs a (some (.dir true))) as
      else (fs, false)

/-- Where `cp src dst` writes: into `dst` under the source's name when `dst` is a directory. -/
def cpTarget (fs : Fs) (src dst : FsPath) : FsPath :=
  if dirAt fs dst then dst ++ [src.getLastD ""] else dst

/-- One command: the file system after it, and whether it exited with status 0. `cp` refuses to
copy a file onto itself; `strip` writes its output beside the binary, so it needs the binary's
directory writable. `stripFile` gives the stripped contents of a file, or `none` for one
`strip` does not take. -/
def runCmd (stripFile : Nat → Option Nat) (fs : Fs) : Cmd → Fs × Bool
  | .log _ => (fs, true)
  | .mkdirP d => mkdirs fs (ancestors d)
  | .cp src dst =>
    let t := cpTarget fs src dst
    match fs src with
    | some (.file c w) =>
      if t = src then (fs, false) else
      match fs t with
      | some (.file _ true) => (Function.update fs t (some (.file c true)), true)
      | none =>
        if fs t.dropLast = some (.dir true) then (Function.update fs t (some (.file c w)), true)
        else (fs, false)
      | _ => (fs, false)
    | _ => (fs, false)
  | .rmF p =>
    match fs p with
    | none => (fs, true)
    | some (.dir _) => (fs, false)
    | some (.file _ _) =>
      if fs p.dropLast = some (.dir true) then (Function.update fs p none, true) else (fs, false)
  | .strip p =>
    match fs p with
    | some (.file c w) =>
      match stripFile c with
      | some c' =>
        if fs p.dropLast = some (.dir true) then (Function.update fs p (some (.file c' w)), true)
        else (fs, false)
      | none => (fs, false)
    | _ => (fs, false)

/-- A recipe as make runs it: its lines in order, stopping at the first that fails, with that
line and the file system it left. -/
def runRecipe (stripFile : Nat → Option Nat) : Fs → List Cmd → Except (Cmd × Fs) Fs
  | fs, [] => .ok fs
  | fs, c :: cs =>
    match runCmd stripFile fs c with
    | (fs', true) => runRecipe stripFile fs' cs
    | (fs', false) => .error (c, fs')

/-- `make target` in the directory `top`: a target of this makefile other than `all` that names
an entry of `top` is up to date, and make exits 0 without running its recipe. -/
def makeRule (stripFile : Nat → Option Nat) (fs : Fs) (top : FsPath) (target : String)
    (recipe : List Cmd) : Except (Cmd × Fs) Fs :=
  if fs (top ++ [target]) = none then runRecipe stripFile fs recipe else .ok fs

/-! ## The recipes -/

/-- The lines `install` and `install-strip` share after the binary: the icons, the desktop
file and the configuration, for `${PREFIX}` `pre` and the directory `top` make runs in. -/
def installData (pre top : FsPath) : List Cmd :=
  [.mkdirP (pre ++ ["share", "icons", "hicolor", "16x16", "apps"]),
   .mkdirP (pre ++ ["share", "icons", "hicolor", "32x32", "apps"]),
   .mkdirP (pre ++ ["share", "icons", "hicolor", "64x64", "apps"]),
   .mkdirP (pre ++ ["share", "icons", "hicolor", "128x128", "apps"]),
   .mkdirP (pre ++ ["share", "icons", "hicolor", "scalable", "apps"]),
   .mkdirP (pre ++ ["share", "icons", "hicolor", "symbolic", "apps"]),
   .cp (top ++ ["etc", "dmpv-icon-8bit-16x16.png"])
     (pre ++ ["share", "icons", "hicolor", "16x16", "apps", "dmpv.png"]),
   .cp (top ++ ["etc", "dmpv-icon-8bit-32x32.png"])
     (pre ++ ["share", "icons", "hicolor", "32x32", "apps", "dmpv.png"]),
   .cp (top ++ ["etc", "dmpv-icon-8bit-64x64.png"])
     (pre ++ ["share", "icons", "hicolor", "64x64", "apps", "dmpv.png"]),
   .cp (top ++ ["etc", "dmpv-icon-8bit-128x128.png"])
     (pre ++ ["share", "icons", "hicolor", "128x128", "apps", "dmpv.png"]),
   .cp (top ++ ["etc", "dmpv.svg"]) (pre ++ ["share", "icons", "hicolor", "scalable", "apps", "dmpv.svg"]),
   .cp (top ++ ["etc", "dmpv-symbolic.svg"])
     (pre ++ ["share", "icons", "hicolor", "symbolic", "apps", "dmpv-symbolic.svg"]),
   .mkdirP (pre ++ ["share", "applications"]),
   .cp (top ++ ["etc", "dmpv.desktop"]) (pre ++ ["share", "applications"]),
   .mkdirP (pre ++ ["etc"]),
   .cp (top ++ ["etc", "dmpv.conf"]) (pre ++ ["etc"])]

/-- `install`, for `${PREFIX}` `pre`, `$(BUILD)` `build` and the directory `top`. -/
def install (pre build top : FsPath) : List Cmd :=
  [.log "INSTALL", .mkdirP (pre ++ ["bin"]), .cp (build ++ ["dmpv"]) (pre ++ ["bin"])] ++
    installData pre top

/-- `install-strip`. -/
def installStrip (pre build top : FsPath) : List Cmd :=
  [.log "INSTALL-STRIP", .mkdirP (pre ++ ["bin"]), .strip (build ++ ["dmpv"]),
    .cp (build ++ ["dmpv"]) (pre ++ ["bin"])] ++ installData pre top

/-- `uninstall`. -/
def uninstall (pre : FsPath) : List Cmd :=
  [.log "UNINSTALL",
   .rmF (pre ++ ["bin", "dmpv"]),
   .rmF (pre ++ ["share", "icons", "hicolor", "16x16", "apps", "dmpv.png"]),
   .rmF (pre ++ ["share", "icons", "hicolor", "32x32", "apps", "dmpv.png"]),
   .rmF (pre ++ ["share", "icons", "hicolor", "64x64", "apps", "dmpv.png"]),
   .rmF (pre ++ ["share", "icons", "hicolor", "128x128", "apps", "dmpv.png"]),
   .rmF (pre ++ ["share", "icons", "hicolor", "scalable", "apps", "dmpv.svg"]),
   .rmF (pre ++ ["share", "icons", "hicolor", "symbolic", "apps", "dmpv-symbolic.svg"]),
   .rmF (pre ++ ["share", "applications", "dmpv.desktop"]),
   .rmF (pre ++ ["etc", "dmpv.conf"])]

/-- The files the rules install, below `${PREFIX}`. -/
def installedNames : List FsPath :=
  [["bin", "dmpv"],
   ["share", "icons", "hicolor", "16x16", "apps", "dmpv.png"],
   ["share", "icons", "hicolor", "32x32", "apps", "dmpv.png"],
   ["share", "icons", "hicolor", "64x64", "apps", "dmpv.png"],
   ["share", "icons", "hicolor", "128x128", "apps", "dmpv.png"],
   ["share", "icons", "hicolor", "scalable", "apps", "dmpv.svg"],
   ["share", "icons", "hicolor", "symbolic", "apps", "dmpv-symbolic.svg"],
   ["share", "applications", "dmpv.desktop"],
   ["etc", "dmpv.conf"]]

/-- The installed files. -/
def installedFiles (pre : FsPath) : List FsPath := installedNames.map (pre ++ ·)

/-- `uninstall` removes the installed files, one `rm -f` each. -/
theorem uninstall_eq (pre : FsPath) :
    uninstall pre = .log "UNINSTALL" :: (installedFiles pre).map .rmF := rfl

/-! ## What each command needs -/

/-- `mkdir -p` finds `a` as a directory, or can make it: where `a` is missing, its parent is a
directory the user may write, or is missing too and made before it. -/
def mkdirOk (fs : Fs) (a : FsPath) : Bool :=
  match fs a with
  | some (.dir _) => true
  | some (.file _ _) => false
  | none => fs a.dropLast = some (.dir true) || (fs a.dropLast = none && a.dropLast ≠ [])

/-- `cp` can write `t` once the `mkdir -p` lines before it have run: a file there is writable,
and where nothing is, its parent is a directory the user may write, or one they make. -/
def cpOk (fs : Fs) (t : FsPath) : Bool :=
  match fs t with
  | some (.file _ w) => w
  | some (.dir _) => false
  | none => fs t.dropLast = some (.dir true) || fs t.dropLast = none

/-- `rm -f p` succeeds: nothing is there, or a file in a directory the user may write. -/
def rmOk (fs : Fs) (p : FsPath) : Bool :=
  match fs p with
  | none => true
  | some (.dir _) => false
  | some (.file _ _) => fs p.dropLast = some (.dir true)

section
variable {fs : Fs}

theorem mkdirOk_iff {a : FsPath} : mkdirOk fs a ↔ fileAt fs a = none ∧
    (fs a = none → fs a.dropLast = some (.dir true) ∨ (fs a.dropLast = none ∧ a.dropLast ≠ [])) := by
  rcases h : fs a with _ | _ | _ <;> simp [mkdirOk, fileAt, h]

end

/-- What a `mkdir -p` that succeeds leaves: the missing paths among `as` are writable
directories, and nothing else changed. -/
def withDirs (fs : Fs) (as : List FsPath) : Fs :=
  fun p => if p ∈ as ∧ fs p = none then some (.dir true) else fs p

section
variable {f : Nat → Option Nat} {fs fs' : Fs}

@[simp] theorem withDirs_nil (fs : Fs) : withDirs fs [] = fs := by
  funext p; simp [withDirs]

theorem withDirs_of_ne_none {p : FsPath} (as : List FsPath) (h : fs p ≠ none) :
    withDirs fs as p = fs p := by
  simp [withDirs, h]

theorem withDirs_of_not_mem {p : FsPath} {as : List FsPath} (h : p ∉ as) :
    withDirs fs as p = fs p := by
  simp [withDirs, h]

theorem withDirs_congr {fs₁ : Fs} {p : FsPath} (as : List FsPath) (h : fs₁ p = fs p) :
    withDirs fs₁ as p = withDirs fs as p := by
  simp [withDirs, h]

theorem withDirs_append (fs : Fs) (as bs : List FsPath) :
    withDirs (withDirs fs as) bs = withDirs fs (as ++ bs) := by
  funext p
  by_cases ha : p ∈ as <;> by_cases hb : p ∈ bs <;> cases h : fs p <;> simp [withDirs, ha, hb, h]

/-- Making a missing directory is the first step of `withDirs`. -/
theorem withDirs_update_cons {a : FsPath} (as : List FsPath) (ha : fs a = none) :
    withDirs (Function.update fs a (some (.dir true))) as = withDirs fs (a :: as) := by
  funext p
  by_cases hp : p = a
  · subst hp; simp [withDirs, ha]
  · simp [withDirs, hp, Function.update_noteq hp]

theorem withDirs_cons_of_ne_none {a : FsPath} (as : List FsPath) (ha : fs a ≠ none) :
    withDirs fs (a :: as) = withDirs fs as := by
  funext p
  by_cases hp : p = a
  · subst hp; simp [withDirs, ha]
  · simp [withDirs, hp]

@[simp] theorem fileAt_withDirs (fs : Fs) (as : List FsPath) (p : FsPath) :
    fileAt (withDirs fs as) p = fileAt fs p := by
  unfold fileAt withDirs
  split_ifs with h
  · rw [h.2]
  · rfl

theorem withDirs_eq_file {p : FsPath} {as : List FsPath} {c : Nat} {w : Bool}
    (h : withDirs fs as p = some (.file c w)) : fs p = some (.file c w) := by
  unfold withDirs at h
  split_ifs at h
  · cases h
  · exact h

theorem dirAt_withDirs_of_not_mem {p : FsPath} {as : List FsPath} (h : p ∉ as) :
    dirAt (withDirs fs as) p = dirAt fs p := by
  simp [dirAt, withDirs_of_not_mem h]

theorem dirAt_withDirs_of_mem {p : FsPath} {as : List FsPath} (h : p ∈ as)
    (hf : fileAt fs p = none) : dirAt (withDirs fs as) p = true := by
  rcases hp : fs p with _ | _ | _ <;> simp_all [dirAt, withDirs, fileAt]

theorem dirAt_update_of_ne {p q : FsPath} (e : Option Entry) (h : p ≠ q) :
    dirAt (Function.update fs q e) p = dirAt fs p := by
  simp [dirAt, Function.update_noteq h]

theorem ne_of_dirAt {a b : FsPath} (ha : dirAt fs a = true) (hb : dirAt fs b = false) : a ≠ b := by
  rintro rfl; simp_all

/-! ## One command at a time -/

theorem runRecipe_cons_ok {c : Cmd} {cs : List Cmd} :
    runRecipe f fs (c :: cs) = .ok fs' ↔
      ∃ fs₁, runCmd f fs c = (fs₁, true) ∧ runRecipe f fs₁ cs = .ok fs' := by
  rcases h : runCmd f fs c with ⟨fs₁, _ | _⟩ <;> simp [runRecipe, h]

@[simp] theorem runCmd_log (fs : Fs) (msg : String) : runCmd f fs (.log msg) = (fs, true) := rfl

theorem makeRule_of_none {top : FsPath} {target : String} {recipe : List Cmd}
    (h : fs (top ++ [target]) = none) : makeRule f fs top target recipe = runRecipe f fs recipe :=
  if_pos h

/-- A `mkdir -p` that succeeds found no regular file among its directories, and leaves
`withDirs`. -/
theorem mkdirs_ok {as : List FsPath} (h : mkdirs fs as = (fs', true)) :
    (∀ a ∈ as, fileAt fs a = none) ∧ fs' = withDirs fs as := by
  induction as generalizing fs with
  | nil => cases h; exact ⟨(fun _ h => nomatch h), (withDirs_nil _).symm⟩
  | cons a as ih =>
    rcases ha : fs a with _ | ⟨c, w⟩ | w <;> simp only [mkdirs, ha] at h
    · -- `a` is missing and made
      split_ifs at h
      swap; · simp at h
      obtain ⟨hf, rfl⟩ := ih h
      refine ⟨?_, withDirs_update_cons as ha⟩
      simp only [List.mem_cons, forall_eq_or_imp]
      refine ⟨by simp [fileAt, ha], fun b hb => ?_⟩
      by_cases hba : b = a
      · simp [fileAt, hba, ha]
      · simpa [fileAt, Function.update_noteq hba] using hf b hb
    · simp at h
    · -- `a` is a directory already
      obtain ⟨hf, rfl⟩ := ih h
      exact ⟨by simpa [fileAt, ha] using hf, (withDirs_cons_of_ne_none as (by simp [ha])).symm⟩

theorem mkdirs_append_of_ok {fs₁ : Fs} {as : List FsPath} (bs : List FsPath)
    (h : mkdirs fs as = (fs₁, true)) : mkdirs fs (as ++ bs) = mkdirs fs₁ bs := by
  induction as generalizing fs with
  | nil => cases h; rfl
  | cons a as ih =>
    rw [List.cons_append]
    rcases ha : fs a with _ | ⟨c, w⟩ | w <;> simp only [mkdirs, ha] at h ⊢
    · split_ifs at h ⊢
      · exact ih h
      · simp at h
    · simp at h
    · exact ih h

theorem mkdirs_singleton {a : FsPath} (hf : fileAt fs a = none)
    (hpar : fs a = none → fs a.dropLast = some (.dir true)) :
    mkdirs fs [a] = (withDirs fs [a], true) := by
  rcases ha : fs a with _ | _ | _
  · simp [mkdirs, ha, hpar ha, ← withDirs_update_cons [] ha]
  · simp [fileAt, ha] at hf
  · simp [mkdirs, ha, withDirs_cons_of_ne_none [] (by simp [ha] : fs a ≠ none)]

theorem mkdirOk_withDirs {a : FsPath} (as : List FsPath) (h : mkdirOk fs a) :
    mkdirOk (withDirs fs as) a := by
  rcases ha : fs a with _ | _ | _
  · by_cases haa : a ∈ as
    · simp [mkdirOk, withDirs, haa, ha]
    · rw [mkdirOk, withDirs_of_not_mem haa, ha]
      simp only [mkdirOk, ha] at h
      -- the parent is a writable directory, which stays, or is missing and made, or not yet
      by_cases hp : a.dropLast ∈ as <;> cases hq : fs a.dropLast <;> simp_all [withDirs]
  · simp [mkdirOk, ha] at h
  · simp [mkdirOk, withDirs, ha]

theorem cpOk_withDirs {t : FsPath} {as : List FsPath} (ht : t ∉ as) (h : cpOk fs t) :
    cpOk (withDirs fs as) t := by
  rcases hft : fs t with _ | _ | _ <;> simp only [cpOk, hft] at h <;>
    simp only [cpOk, withDirs_of_not_mem ht, hft, h]
  by_cases hp : t.dropLast ∈ as <;> cases hq : fs t.dropLast <;> simp_all [withDirs]

/-- A `mkdir -p` finding `a` keeps finding it when a path that is neither `a` nor a directory
changes, and that path is not the parent of a missing `a`. -/
theorem mkdirOk_update {a T : FsPath} (e : Option Entry) (haT : a ≠ T) (hT : dirAt fs T = false)
    (hpar : a.dropLast ≠ [] → a.dropLast ≠ T) (h : mkdirOk fs a) :
    mkdirOk (Function.update fs T e) a := by
  rcases ha : fs a with _ | _ | _
  · simp only [mkdirOk, ha] at h
    have hp : a.dropLast ≠ T := by
      rintro rfl
      simp only [Bool.or_eq_true, decide_eq_true_eq, Bool.and_eq_true, ne_eq] at h
      rcases h with h | ⟨-, h⟩
      · simp [dirAt, h] at hT
      · exact hpar h rfl
    simpa [mkdirOk, Function.update_noteq haT, Function.update_noteq hp, ha] using h
  · simp [mkdirOk, ha] at h
  · simp [mkdirOk, Function.update_noteq haT, ha]

theorem cpOk_update {t T : FsPath} (e : Option Entry) (htT : t ≠ T) (hpT : t.dropLast ≠ T)
    (h : cpOk fs t) : cpOk (Function.update fs T e) t := by
  simpa [cpOk, Function.update_noteq htT, Function.update_noteq hpT] using h

/-- A `cp` that succeeds copied a regular file to a path that is no directory; a file it made
took the source's mode, one it overwrote was writable and stays so. -/
theorem runCmd_cp_ok {s d : FsPath} (h : runCmd f fs (.cp s d) = (fs', true)) :
    ∃ c v, fs s = some (.file c v) ∧ dirAt fs (cpTarget fs s d) = false ∧
      fs' = Function.update fs (cpTarget fs s d)
        (some (.file c (v || (fs (cpTarget fs s d)).isSome))) := by
  simp only [runCmd] at h
  generalize cpTarget fs s d = T at h ⊢
  rcases hs : fs s with _ | ⟨c, v⟩ | w <;> simp only [hs] at h
  · simp at h
  · refine ⟨c, v, rfl, ?_⟩
    by_cases hts : T = s
    · simp [hts] at h
    rcases ht : fs T with _ | ⟨c', w'⟩ | w' <;> simp only [if_neg hts, ht] at h
    · split_ifs at h
      · obtain ⟨rfl, -⟩ := Prod.mk.inj h; simp [dirAt, ht]
      · simp at h
    · cases w'
      · simp at h
      · obtain ⟨rfl, -⟩ := Prod.mk.inj h; simp [dirAt, ht]
    · simp at h
  · simp at h

/-- `cp` of a regular file to a path other than the source, in a directory, where `cp` may
write. -/
theorem runCmd_cp_eq {s t : FsPath} {c : Nat} {v : Bool} (hs : fs s = some (.file c v))
    (hne : cpTarget fs s t ≠ s) (hpar : dirAt fs (cpTarget fs s t).dropLast = true)
    (hok : cpOk fs (cpTarget fs s t)) :
    runCmd f fs (.cp s t) = (Function.update fs (cpTarget fs s t)
      (some (.file c (v || (fs (cpTarget fs s t)).isSome))), true) := by
  simp only [runCmd, hs, if_neg hne]
  generalize cpTarget fs s t = T at hpar hok ⊢
  rcases hT : fs T with _ | ⟨c', w⟩ | w
  · -- the parent is a directory, so it is the writable one `cpOk` asks for
    have : fs T.dropLast = some (.dir true) := by
      simp only [cpOk, hT] at hok
      rcases hq : fs T.dropLast with _ | _ | _ <;> simp_all [dirAt]
    simp [this]
  · cases w
    · simp [cpOk, hT] at hok
    · simp
  · simp [cpOk, hT] at hok

theorem runCmd_strip_ok {p : FsPath} :
    runCmd f fs (.strip p) = (fs', true) ↔
      ∃ c v c', fs p = some (.file c v) ∧ f c = some c' ∧ fs p.dropLast = some (.dir true) ∧
        fs' = Function.update fs p (some (.file c' v)) := by
  constructor
  · intro h
    simp only [runCmd] at h
    rcases hp : fs p with _ | ⟨c, v⟩ | w <;> simp only [hp] at h
    · simp at h
    · rcases hs : f c with _ | c' <;> simp only [hs] at h
      · simp at h
      · split_ifs at h with hd
        · exact ⟨c, v, c', rfl, hs, hd, (Prod.mk.inj h).1.symm⟩
        · simp at h
    · simp at h
  · rintro ⟨c, v, c', hp, hs, hd, rfl⟩
    simp [runCmd, hp, hs, hd]

theorem runCmd_rmF (fs : Fs) (p : FsPath) :
    runCmd f fs (.rmF p) = if rmOk fs p then (Function.update fs p none, true) else (fs, false) := by
  rcases hp : fs p with _ | _ | _ <;> simp only [runCmd, rmOk, hp]
  · rw [if_pos trivial, ← hp, Function.update_eq_self]
  · simp
  · simp

theorem rmOk_update_none {x y : FsPath} (hx : rmOk fs x) (hy : rmOk fs y) :
    rmOk (Function.update fs x none) y := by
  by_cases hyx : y = x
  · subst hyx; simp [rmOk]
  · rcases h : fs y with _ | _ | _ <;> simp [rmOk, h] at hy
    · simp [rmOk, Function.update_noteq hyx, h]
    · -- the parent is a directory, so it is not the file or missing path `x`
      have hne : y.dropLast ≠ x := by rintro rfl; simp [rmOk, hy] at hx
      simp [rmOk, Function.update_noteq hyx, Function.update_noteq hne, h, hy]

theorem rmOk_update_none_of_not {x p : FsPath} (hx : rmOk fs x) (hp : rmOk fs p = false) :
    rmOk (Function.update fs x none) p = false := by
  have hpx : p ≠ x := by rintro rfl; simp [hx] at hp
  rcases h : fs p with _ | _ | _ <;> simp [rmOk, h] at hp
  · by_cases hq : p.dropLast = x
    · subst hq; simp [rmOk, Function.update_noteq hpx, h]
    · simp [rmOk, Function.update_noteq hpx, Function.update_noteq hq, h, hp]
  · simp [rmOk, Function.update_noteq hpx, h]

theorem removed_cons (fs : Fs) (x : FsPath) (xs : List FsPath) :
    (fun q => if q ∈ xs then none else Function.update fs x none q) =
      fun q => if q ∈ x :: xs then none else fs q := by
  funext q
  by_cases hqx : q = x <;> simp [hqx, Function.update_apply]

/-- `rm -f` over paths stops at the first it may not remove, with the paths before it
removed. -/
theorem runRecipe_rmFs_error (fs : Fs) (xs ys : List FsPath) (p : FsPath)
    (hxs : ∀ x ∈ xs, rmOk fs x) (hp : rmOk fs p = false) :
    runRecipe f fs ((xs ++ p :: ys).map .rmF) =
      .error (.rmF p, fun q => if q ∈ xs then none else fs q) := by
  induction xs generalizing fs with
  | nil => simp [runRecipe, runCmd_rmF, hp]
  | cons x xs ih =>
    have hx := hxs x (List.mem_cons_self x xs)
    simp only [List.cons_append, List.map_cons, runRecipe, runCmd_rmF, hx, if_true]
    rw [show xs.append (p :: ys) = xs ++ p :: ys from rfl,
      ih _ (fun y hy => rmOk_update_none hx (hxs y (List.mem_cons_of_mem x hy)))
        (rmOk_update_none_of_not hx hp), removed_cons]

/-- `strip` changes a regular file and `mkdir -p` only what is missing, and neither looks at a
file's contents: they commute. -/
theorem mkdirs_update_file {p : FsPath} {c' : Nat} {v' : Bool} (as : List FsPath)
    (hp : fileAt fs p ≠ none) :
    mkdirs (Function.update fs p (some (.file c' v'))) as =
      (Function.update (mkdirs fs as).1 p (some (.file c' v')), (mkdirs fs as).2) := by
  induction as generalizing fs with
  | nil => rfl
  | cons a as ih =>
    obtain ⟨c, v, hc⟩ : ∃ c v, fs p = some (.file c v) := by
      unfold fileAt at hp; split at hp
      · exact ⟨_, _, ‹_›⟩
      · exact absurd rfl hp
    by_cases hap : a = p
    · subst hap; simp [mkdirs, hc]
    · -- `a` and, where it matters, its parent are read the same before and after
      have hpar : (Function.update fs p (some (.file c' v')) a.dropLast = some (.dir true)) ↔
          fs a.dropLast = some (.dir true) := by
        by_cases hq : a.dropLast = p
        · rw [hq, Function.update_same, hc]; simp
        · simp [Function.update_noteq hq]
      rcases ha : fs a with _ | _ | _ <;> simp only [mkdirs, Function.update_noteq hap, ha]
      · simp only [hpar]
        split_ifs
        · rw [← Function.update_comm hap, ih (by simp [fileAt, Function.update_noteq (Ne.symm hap), hc])]
        · rfl
      · exact ih hp

theorem mkdirs_strip_comm {fs₂ : Fs} {as : List FsPath} {p : FsPath} (hpar : fs p.dropLast ≠ none) :
    (∃ fs₁, mkdirs fs as = (fs₁, true) ∧ runCmd f fs₁ (.strip p) = (fs₂, true)) ↔
      ∃ fs₁, runCmd f fs (.strip p) = (fs₁, true) ∧ mkdirs fs₁ as = (fs₂, true) := by
  simp only [runCmd_strip_ok]
  constructor
  · rintro ⟨fs₁, h₁, c, v, c', hc, hs, hd, rfl⟩
    obtain ⟨-, rfl⟩ := mkdirs_ok h₁
    have hc₀ := withDirs_eq_file hc
    refine ⟨_, ⟨c, v, c', hc₀, hs, by rwa [withDirs_of_ne_none _ hpar] at hd, rfl⟩, ?_⟩
    rw [mkdirs_update_file _ (by simp [fileAt, hc₀]), h₁]
  · rintro ⟨_, ⟨c, v, c', hc, hs, hd, rfl⟩, h₂⟩
    rw [mkdirs_update_file _ (by simp [fileAt, hc])] at h₂
    rcases hm : mkdirs fs as with ⟨fs₁, b⟩
    rw [hm] at h₂
    obtain ⟨rfl, rfl⟩ := Prod.mk.inj h₂
    obtain ⟨-, rfl⟩ := mkdirs_ok hm
    exact ⟨_, rfl, c, v, c', by rw [withDirs_of_ne_none _ (by simp [hc]), hc], hs,
      by rw [withDirs_of_ne_none _ (by simp [hd]), hd], rfl⟩

/-! ## What a recipe writes -/

theorem mem_ancestors {a d : FsPath} : a ∈ ancestors d ↔ a ≠ [] ∧ a <+: d := by
  constructor
  · intro h
    obtain ⟨i, hi, rfl⟩ := List.mem_map.1 h
    have hd : d ≠ [] := fun hd => by simp [hd] at hi
    exact ⟨by simp [List.take_eq_nil_iff, hd], List.take_prefix _ d⟩
  · rintro ⟨ha, hpre⟩
    have hlen : 0 < a.length := List.length_pos.2 ha
    refine List.mem_map.2 ⟨a.length - 1, List.mem_range.2 (by have := hpre.length_le; omega), ?_⟩
    rw [Nat.sub_add_cancel hlen]
    exact (List.prefix_iff_eq_take.1 hpre).symm

theorem self_mem_ancestors {d : FsPath} (h : d ≠ []) : d ∈ ancestors d :=
  mem_ancestors.2 ⟨h, List.prefix_refl d⟩

theorem ancestors_concat (d : FsPath) (x : String) :
    ancestors (d ++ [x]) = ancestors d ++ [d ++ [x]] := by
  rw [ancestors, List.length_append, List.length_singleton, List.range_succ, List.map_append,
    List.map_singleton, List.take_of_length_le (by simp), ancestors]
  congr 1
  exact List.map_congr_left fun i hi => List.take_append_of_le_length (List.mem_range.1 hi)

theorem dropLast_mem_ancestors {a d : FsPath} (ha : a ∈ ancestors d) (hne : a.dropLast ≠ []) :
    a.dropLast ∈ ancestors d :=
  mem_ancestors.2 ⟨hne, (List.dropLast_prefix a).trans (mem_ancestors.1 ha).2⟩

/-- `mkdir -p d` succeeds where it can make or find each directory, and leaves `withDirs`. -/
theorem mkdirs_ancestors (d : FsPath) (h : ∀ a ∈ ancestors d, mkdirOk fs a) :
    mkdirs fs (ancestors d) = (withDirs fs (ancestors d), true) := by
  induction d using List.reverseRecOn with
  | nil => rfl
  | append_singleton d x ih =>
    rw [ancestors_concat] at h ⊢
    rw [mkdirs_append_of_ok _ (ih fun a ha => h a (List.mem_append_left _ ha)), ← withDirs_append]
    obtain ⟨hf, hpar⟩ := mkdirOk_iff.1 (h (d ++ [x]) (by simp))
    have hnew : d ++ [x] ∉ ancestors d := fun hm => by
      have := (mem_ancestors.1 hm).2.length_le
      rw [List.length_append, List.length_singleton] at this; omega
    refine mkdirs_singleton (by rw [fileAt_withDirs]; exact hf) fun hnone => ?_
    -- the parent `d` is a writable directory, or was missing and just made
    rw [withDirs_of_not_mem hnew] at hnone
    rw [List.dropLast_concat] at hpar ⊢
    rcases hpar hnone with hd | ⟨hd, hne⟩
    · rw [withDirs_of_ne_none _ (by simp [hd]), hd]
    · simp [withDirs, self_mem_ancestors hne, hd]

/-- The directories the `mkdir -p` lines of a recipe make. -/
def mkdirsOf : List Cmd → List FsPath
  | [] => []
  | .mkdirP d :: cs => ancestors d ++ mkdirsOf cs
  | _ :: cs => mkdirsOf cs

theorem dropLast_mem_mkdirsOf {a : FsPath} {cs : List Cmd} (ha : a ∈ mkdirsOf cs)
    (hne : a.dropLast ≠ []) : a.dropLast ∈ mkdirsOf cs := by
  induction cs with
  | nil => simp [mkdirsOf] at ha
  | cons c cs ih =>
    cases c <;> simp only [mkdirsOf, List.mem_append] at ha ⊢
    all_goals first
      | exact ih ha
      | exact ha.imp (dropLast_mem_ancestors · hne) ih

/-- How a recipe writes, against the paths `ws` it may write files at: `made` are the
directories its earlier lines made, and `w` its copies, each a source and the path it lands on.
A `cp` lands on a path of `ws`, either the path it names, whose directory was made, or, when it
names a directory that was made, the path under it with the source's name; no directory a
`mkdir -p` makes has a path of `ws` among its prefixes. -/
inductive Plan (ws : List FsPath) : List FsPath → List Cmd → List (FsPath × FsPath) → Prop
  | nil {made} : Plan ws made [] []
  | log {made msg cs w} : Plan ws made cs w → Plan ws made (.log msg :: cs) w
  | mkdirP {made d cs w} : (∀ a ∈ ancestors d, a ∉ ws) → Plan ws (ancestors d ++ made) cs w →
      Plan ws made (.mkdirP d :: cs) w
  | cp {made s t T cs w} : T ∈ ws →
      (T = t ∧ t.dropLast ∈ made ∨ t ∈ made ∧ T = t ++ [s.getLastD ""]) →
      Plan ws made cs w → Plan ws made (.cp s t :: cs) ((s, T) :: w)

/-- The state a plan runs in: no path of `ws` is a directory, and each directory made is one. -/
structure Ready (ws made : List FsPath) (fs : Fs) : Prop where
  ws_not_dir : ∀ x ∈ ws, dirAt fs x = false
  made_dir : ∀ a ∈ made, dirAt fs a = true

variable {ws made : List FsPath}

theorem cp_parent_made {s t T : FsPath}
    (h : T = t ∧ t.dropLast ∈ made ∨ t ∈ made ∧ T = t ++ [s.getLastD ""]) : T.dropLast ∈ made := by
  rcases h with ⟨rfl, h⟩ | ⟨h, rfl⟩
  · exact h
  · rwa [List.dropLast_concat]

theorem Plan.mkdirs_not_ws {cs w} (hp : Plan ws made cs w) : ∀ a ∈ mkdirsOf cs, a ∉ ws := by
  induction hp with
  | nil => exact fun a ha => nomatch ha
  | log _ ih => exact ih
  | mkdirP had _ ih => exact fun a ha => (List.mem_append.1 ha).elim (had a) (ih a)
  | cp _ _ _ ih => exact ih

theorem Plan.targets_ws {cs w} (hp : Plan ws made cs w) : ∀ st ∈ w, st.2 ∈ ws := by
  induction hp with
  | nil => exact fun _ h => nomatch h
  | log _ ih => exact ih
  | mkdirP _ _ ih => exact ih
  | cp hT _ _ ih => exact fun st hst => (List.mem_cons.1 hst).elim (· ▸ hT) (ih st)

/-- Each copy lands in a directory the plan made before it. -/
theorem Plan.parents_made {cs w} (hp : Plan ws made cs w) :
    ∀ st ∈ w, st.2.dropLast ∈ mkdirsOf cs ++ made := by
  induction hp with
  | nil => exact fun _ h => nomatch h
  | log _ ih => exact ih
  | mkdirP _ _ ih =>
    intro st hst
    have := ih st hst
    simp only [mkdirsOf, List.mem_append] at this ⊢
    rcases this with h | h | h
    exacts [.inl (.inr h), .inl (.inl h), .inr h]
  | cp _ ht _ ih =>
    intro st hst
    rcases List.mem_cons.1 hst with rfl | hst
    · exact List.mem_append_right _ (cp_parent_made ht)
    · exact ih st hst

theorem Ready.mkdirs {d : FsPath} (hr : Ready ws made fs) (had : ∀ a ∈ ancestors d, a ∉ ws)
    (h : mkdirs fs (ancestors d) = (fs', true)) : Ready ws (ancestors d ++ made) fs' := by
  obtain ⟨hnf, rfl⟩ := mkdirs_ok h
  refine ⟨fun x hx => ?_, fun a ha => ?_⟩
  · rw [dirAt_withDirs_of_not_mem fun hxd => had x hxd hx]
    exact hr.ws_not_dir x hx
  · by_cases had' : a ∈ ancestors d
    · exact dirAt_withDirs_of_mem had' (hnf a had')
    · rw [dirAt_withDirs_of_not_mem had']
      exact hr.made_dir a ((List.mem_append.1 ha).resolve_left had')

/-- Where a `cp` of a plan lands, and that its directory is there. -/
theorem Ready.cpTarget_eq {s t T : FsPath} (hr : Ready ws made fs) (hT : T ∈ ws)
    (h : T = t ∧ t.dropLast ∈ made ∨ t ∈ made ∧ T = t ++ [s.getLastD ""]) :
    cpTarget fs s t = T ∧ T.dropLast ∈ made := by
  refine ⟨?_, cp_parent_made h⟩
  rcases h with ⟨rfl, -⟩ | ⟨ht, rfl⟩
  · simp [cpTarget, hr.ws_not_dir _ hT]
  · simp [cpTarget, hr.made_dir t ht]

/-- A `cp` landing on a path of `ws` keeps the state, and changes no entry but that path. -/
theorem Ready.cp {s t T : FsPath} (hr : Ready ws made fs) (hT : cpTarget fs s t = T)
    (hTws : T ∈ ws) (h : runCmd f fs (.cp s t) = (fs', true)) :
    Ready ws made fs' ∧ ∀ p, p ≠ T → fs' p = fs p := by
  obtain ⟨c, v, -, -, rfl⟩ := runCmd_cp_ok h
  rw [hT]
  refine ⟨⟨fun x hx => ?_, fun a ha => ?_⟩, fun p hp => Function.update_noteq hp _ _⟩
  · by_cases hxT : x = T
    · subst hxT; simp [dirAt]
    · rw [dirAt_update_of_ne _ hxT]; exact hr.ws_not_dir x hx
  · rw [dirAt_update_of_ne _ (ne_of_dirAt (hr.made_dir a ha) (hr.ws_not_dir T hTws))]
    exact hr.made_dir a ha

theorem Ready.mono {made' : List FsPath} (hr : Ready ws made fs) (h : ∀ a ∈ made', a ∈ made) :
    Ready ws made' fs :=
  ⟨hr.ws_not_dir, fun a ha => hr.made_dir a (h a ha)⟩

/-- Over a successful run of a plan, no path of `ws` becomes a directory, every directory made
is one, and no entry changes but the copies' targets and the directories made where nothing
was. -/
theorem Plan.frame {cs w} (hp : Plan ws made cs w) (hr : Ready ws made fs)
    (h : runRecipe f fs cs = .ok fs') :
    Ready ws (mkdirsOf cs ++ made) fs' ∧
      ∀ p, p ∉ w.map Prod.snd → fs' p = withDirs fs (mkdirsOf cs) p := by
  induction hp generalizing fs with
  | nil => cases h; exact ⟨hr, fun _ _ => by simp [mkdirsOf]⟩
  | log _ ih => exact ih hr h
  | mkdirP had _ ih =>
    obtain ⟨_, h₁, h₂⟩ := runRecipe_cons_ok.1 h
    obtain ⟨hr', hfs⟩ := ih (hr.mkdirs had h₁) h₂
    obtain ⟨-, rfl⟩ := mkdirs_ok h₁
    refine ⟨hr'.mono fun a ha => ?_, fun p hp => by rw [hfs p hp, withDirs_append]; rfl⟩
    simp only [mkdirsOf, List.mem_append] at ha ⊢
    rcases ha with (ha | ha) | ha
    exacts [.inr (.inl ha), .inl ha, .inr (.inr ha)]
  | cp hT ht _ ih =>
    obtain ⟨_, h₁, h₂⟩ := runRecipe_cons_ok.1 h
    obtain ⟨hr₁, hfs₁⟩ := hr.cp (hr.cpTarget_eq hT ht).1 hT h₁
    obtain ⟨hr', hfs⟩ := ih hr₁ h₂
    refine ⟨hr', fun p hp => ?_⟩
    simp only [List.map_cons, List.mem_cons, not_or] at hp
    exact (hfs p hp.2).trans (withDirs_congr _ (hfs₁ p hp.1))

theorem fileAt_ne_none {p : FsPath} (h : fileAt fs p ≠ none) : ∃ c v, fs p = some (.file c v) := by
  unfold fileAt at h
  split at h
  · exact ⟨_, _, ‹_›⟩
  · exact absurd rfl h

/-- A plan runs to its end where `mkdir -p` can make or find each of its directories, `cp` can
write each target, its sources are regular files outside `ws` and no two copies land on one
path. Each target then holds its source's contents, in the source's mode if it was made, or
writable if it was overwritten. -/
theorem Plan.run_ok {cs w} (hp : Plan ws made cs w) (hr : Ready ws made fs)
    (hmk : ∀ a ∈ mkdirsOf cs, mkdirOk fs a) (hcp : ∀ st ∈ w, cpOk fs st.2)
    (hsrc : ∀ s ∈ w.map Prod.fst, s ∉ ws ∧ fileAt fs s ≠ none)
    (hnd : (w.map Prod.snd).Nodup) :
    ∃ fs', runRecipe f fs cs = .ok fs' ∧ ∀ st ∈ w, ∃ c v, fs st.1 = some (.file c v) ∧
      fs' st.2 = some (.file c (v || (fs st.2).isSome)) := by
  induction hp generalizing fs with
  | nil => exact ⟨fs, rfl, fun _ h => nomatch h⟩
  | log _ ih => exact ih hr hmk hcp hsrc hnd
  | @mkdirP _ d _ w had hrest ih =>
    have h₁ := mkdirs_ancestors d fun a ha => hmk a (List.mem_append_left _ ha)
    have hw : ∀ st ∈ w, st.2 ∉ ancestors d := fun st hst hd => had _ hd (hrest.targets_ws st hst)
    obtain ⟨fs', h, hres⟩ := ih (hr.mkdirs had h₁)
      (fun a ha => mkdirOk_withDirs _ (hmk a (List.mem_append_right _ ha)))
      (fun st hst => cpOk_withDirs (hw st hst) (hcp st hst))
      (fun s hs => by rw [fileAt_withDirs]; exact hsrc s hs) hnd
    refine ⟨fs', runRecipe_cons_ok.2 ⟨_, h₁, h⟩, fun st hst => ?_⟩
    obtain ⟨c, v, hs, ht⟩ := hres st hst
    rw [withDirs_of_not_mem (hw st hst)] at ht
    exact ⟨c, v, withDirs_eq_file hs, ht⟩
  | @cp _ s t T cs w hT ht hrest ih =>
    -- every source is outside `ws`, so none is the path this `cp` writes
    have hne : ∀ s' ∈ ((s, T) :: w).map Prod.fst, s' ≠ T := fun s' hs' e =>
      (hsrc s' hs').1 (e ▸ hT)
    obtain ⟨c, v, hc⟩ := fileAt_ne_none (hsrc s (List.mem_cons_self _ _)).2
    obtain ⟨htarget, hpar⟩ := hr.cpTarget_eq hT ht
    have h₁ : runCmd f fs (.cp s t) =
        (Function.update fs T (some (.file c (v || (fs T).isSome))), true) := by
      rw [runCmd_cp_eq (t := t) hc (by rw [htarget]; exact (hne s (List.mem_cons_self _ _)).symm)
        (by rw [htarget]; exact hr.made_dir _ hpar)
        (by rw [htarget]; exact hcp _ (List.mem_cons_self _ _)), htarget]
    obtain ⟨hr₁, hfs₁⟩ := hr.cp htarget hT h₁
    obtain ⟨hTw, hnd'⟩ := List.nodup_cons.1 hnd
    have hTdir := hr.ws_not_dir T hT
    -- later directories and targets are not `T`, and neither are their parents
    have hmk₁ : ∀ a ∈ mkdirsOf cs,
        mkdirOk (Function.update fs T (some (.file c (v || (fs T).isSome)))) a := fun a ha =>
      mkdirOk_update _ (fun e => hrest.mkdirs_not_ws a ha (e ▸ hT)) hTdir
        (fun hd e => hrest.mkdirs_not_ws _ (dropLast_mem_mkdirsOf ha hd) (e ▸ hT)) (hmk a ha)
    have hcp₁ : ∀ st ∈ w,
        cpOk (Function.update fs T (some (.file c (v || (fs T).isSome)))) st.2 := fun st hst =>
      cpOk_update _ (fun e => hTw (by rw [← e]; exact List.mem_map.2 ⟨st, hst, rfl⟩))
        (fun e => (List.mem_append.1 (hrest.parents_made st hst)).elim
          (fun hm => hrest.mkdirs_not_ws _ hm (e ▸ hT))
          (fun hm => ne_of_dirAt (hr.made_dir _ hm) hTdir e))
        (hcp st (List.mem_cons_of_mem _ hst))
    obtain ⟨fs', h, hres⟩ := ih hr₁ hmk₁ hcp₁
      (fun s' hs' => by
        rw [show fileAt _ s' = fileAt fs s' by
          simp [fileAt, Function.update_noteq (hne s' (List.mem_cons_of_mem _ hs'))]]
        exact hsrc s' (List.mem_cons_of_mem _ hs')) hnd'
    refine ⟨fs', runRecipe_cons_ok.2 ⟨_, h₁, h⟩, fun st hst => ?_⟩
    rcases List.mem_cons.1 hst with rfl | hst
    · -- written here, and by no later `cp`
      refine ⟨c, v, hc, ?_⟩
      rw [(hrest.frame hr₁ h).2 _ hTw, withDirs_of_ne_none _ (by simp), Function.update_same]
    · obtain ⟨c', v', hs', ht'⟩ := hres st hst
      rw [hfs₁ _ (hne st.1 (List.mem_cons_of_mem _ (List.mem_map_of_mem _ hst)))] at hs'
      rw [hfs₁ _ fun e => hTw (by rw [← e]; exact List.mem_map.2 ⟨st, hst, rfl⟩)] at ht'
      exact ⟨c', v', hs', ht'⟩

end

/-! ## The install rule -/

/-- A path component the shell passes through as written when it stands unquoted in a
recipe: not empty, not `.` or `..`, and made of letters, digits and `-_.+,@%:` only, so no
blank, pattern character, quote or `/`. -/
def PlainComponent (s : String) : Prop :=
  s ≠ "" ∧ s ≠ "." ∧ s ≠ ".." ∧
    ∀ c ∈ s.toList, c.isAlphanum ∨ c ∈ ['-', '_', '.', '+', ',', '@', '%', ':']

instance (s : String) : Decidable (PlainComponent s) := inferInstanceAs (Decidable (_ ∧ _))

def PlainPath (p : FsPath) : Prop := ∀ s ∈ p, PlainComponent s

instance (p : FsPath) : Decidable (PlainPath p) := inferInstanceAs (Decidable (∀ s ∈ p, _))

/-- Where make runs: `${PREFIX}`, `$(BUILD)` and the directory `top` make runs in. The recipes
spell the first two unquoted, so they are plain paths. -/
structure MakeDirs where
  pre : FsPath
  build : FsPath
  top : FsPath
  plain_pre : PlainPath pre
  plain_build : PlainPath build

/-- What `install` is for: each file it installs, and where from. -/
def installCopies (pre build top : FsPath) : List (FsPath × FsPath) :=
  [(build ++ ["dmpv"], pre ++ ["bin", "dmpv"]),
   (top ++ ["etc", "dmpv-icon-8bit-16x16.png"],
     pre ++ ["share", "icons", "hicolor", "16x16", "apps", "dmpv.png"]),
   (top ++ ["etc", "dmpv-icon-8bit-32x32.png"],
     pre ++ ["share", "icons", "hicolor", "32x32", "apps", "dmpv.png"]),
   (top ++ ["etc", "dmpv-icon-8bit-64x64.png"],
     pre ++ ["share", "icons", "hicolor", "64x64", "apps", "dmpv.png"]),
   (top ++ ["etc", "dmpv-icon-8bit-128x128.png"],
     pre ++ ["share", "icons", "hicolor", "128x128", "apps", "dmpv.png"]),
   (top ++ ["etc", "dmpv.svg"], pre ++ ["share", "icons", "hicolor", "scalable", "apps", "dmpv.svg"]),
   (top ++ ["etc", "dmpv-symbolic.svg"],
     pre ++ ["share", "icons", "hicolor", "symbolic", "apps", "dmpv-symbolic.svg"]),
   (top ++ ["etc", "dmpv.desktop"], pre ++ ["share", "applications", "dmpv.desktop"]),
   (top ++ ["etc", "dmpv.conf"], pre ++ ["etc", "dmpv.conf"])]

theorem installCopies_targets (pre build top : FsPath) :
    (installCopies pre build top).map Prod.snd = installedFiles pre := rfl

theorem installedFiles_nodup (pre : FsPath) : (installedFiles pre).Nodup :=
  List.pairwise_map.2 <|
    (show installedNames.Nodup by decide).imp fun h e => h (List.append_cancel_left e)

/-- A directory below `${PREFIX}` none of whose prefixes is an installed name has no installed
file among its prefixes. -/
theorem ancestors_not_installed (pre s : FsPath) (h : ∀ n ∈ installedNames, ¬ n <+: s) :
    ∀ a ∈ ancestors (pre ++ s), a ∉ installedFiles pre := by
  intro a ha hi
  obtain ⟨n, hn, rfl⟩ := List.mem_map.1 hi
  exact h n hn ((List.prefix_append_right_inj pre).1 (mem_ancestors.1 ha).2)

theorem getLastD_append_cons (l : FsPath) (a : String) (as : FsPath) (x : String) :
    (l ++ a :: as).getLastD x = (a :: as).getLastD x := by
  rw [List.getLastD_eq_getLast?, List.getLastD_eq_getLast?, List.getLast?_append,
    List.getLast?_eq_getLast _ (List.cons_ne_nil a as)]
  rfl

theorem mem_installedFiles {pre n : FsPath} (h : n ∈ installedNames) :
    pre ++ n ∈ installedFiles pre :=
  List.mem_map_of_mem _ h

/-- `install` is a plan for its copies: each `cp` comes after the `mkdir -p` of its directory,
and lands on an installed path. -/
theorem install_plan (pre build top : FsPath) :
    Plan (installedFiles pre) [] (install pre build top) (installCopies pre build top) := by
  refine .log <| .mkdirP ?_ <| .cp ?_ (.inr ⟨?_, ?_⟩) <| .mkdirP ?_ <| .mkdirP ?_ <|
    .mkdirP ?_ <| .mkdirP ?_ <| .mkdirP ?_ <| .mkdirP ?_ <| .cp ?_ (.inl ⟨rfl, ?_⟩) <|
    .cp ?_ (.inl ⟨rfl, ?_⟩) <| .cp ?_ (.inl ⟨rfl, ?_⟩) <| .cp ?_ (.inl ⟨rfl, ?_⟩) <|
    .cp ?_ (.inl ⟨rfl, ?_⟩) <| .cp ?_ (.inl ⟨rfl, ?_⟩) <| .mkdirP ?_ <|
    .cp ?_ (.inr ⟨?_, ?_⟩) <| .mkdirP ?_ <| .cp ?_ (.inr ⟨?_, ?_⟩) .nil
  all_goals first
    | exact ancestors_not_installed pre _ (by decide)
    | exact mem_installedFiles (by decide)
    | rw [List.append_assoc, getLastD_append_cons]; rfl
    | simp [List.dropLast_append_of_ne_nil, mem_ancestors]

/-- What `install`'s recipe needs to run to its end: no installed path is a directory,
`mkdir -p` can make or find each of its directories, `cp` can write each installed path, and
each source is a regular file that is not an installed path. -/
structure CanInstall (m : MakeDirs) (fs : Fs) : Prop where
  not_dir : ∀ w ∈ installedFiles m.pre, dirAt fs w = false
  mkdir_ok : ∀ a ∈ mkdirsOf (install m.pre m.build m.top), mkdirOk fs a
  cp_ok : ∀ w ∈ installedFiles m.pre, cpOk fs w
  sources : ∀ s ∈ (installCopies m.pre m.build m.top).map Prod.fst,
    s ∉ installedFiles m.pre ∧ fileAt fs s ≠ none

section
variable {f : Nat → Option Nat}

/-- The run of `install`'s recipe where it can run: it ends, with each installed file holding
its source's contents. -/
theorem CanInstall.run {m : MakeDirs} {fs : Fs} (h : CanInstall m fs) :
    ∃ fs₁, runRecipe f fs (install m.pre m.build m.top) = .ok fs₁ ∧
      ∀ st ∈ installCopies m.pre m.build m.top, ∃ c v, fs st.1 = some (.file c v) ∧
        fs₁ st.2 = some (.file c (v || (fs st.2).isSome)) :=
  (install_plan m.pre m.build m.top).run_ok ⟨h.not_dir, fun _ h => nomatch h⟩ h.mkdir_ok
    (fun st hst => h.cp_ok _ (installCopies_targets m.pre m.build m.top ▸ List.mem_map_of_mem _ hst))
    h.sources (by rw [installCopies_targets]; exact installedFiles_nodup m.pre)

/-- A tree with the build's binary in `b`, the sources' files in `s/etc`, and a configuration of
the user's already in `usr/local/etc`; the user may write `usr/local` and below, but not the
root or `usr`. -/
def usrLocalTree : Fs
  | ["b", "dmpv"] => some (.file 1 true)
  | ["s", "etc", _] => some (.file 2 true)
  | ["usr", "local", "etc", "dmpv.conf"] => some (.file 3 true)
  | [] | ["usr"] => some (.dir false)
  | ["b"] | ["s"] | ["s", "etc"] | ["usr", "local"] | ["usr", "local", "etc"] => some (.dir true)
  | _ => none

def usrLocalDirs : MakeDirs := ⟨["usr", "local"], ["b"], ["s"], by decide, by decide⟩

/-- **`make uninstall` stops at the first installed path it may not remove.** Without a file
`uninstall` in the make directory, where an installed path is a directory, or a file in a
directory the user may not write, and `rm -f` may remove the installed paths listed before it,
`make uninstall` fails at its `rm -f`, with those paths removed and every other entry as it
was. -/
theorem uninstall_stops_at_unremovable (m : MakeDirs) (xs ys : List FsPath) (p : FsPath)
    (fs : Fs) (hun : fs (m.top ++ ["uninstall"]) = none)
    (hsplit : installedFiles m.pre = xs ++ p :: ys) (hxs : ∀ x ∈ xs, rmOk fs x)
    (hp : rmOk fs p = false) :
    makeRule f fs m.top "uninstall" (uninstall m.pre) =
      .error (.rmF p, fun q => if q ∈ xs then none else fs q) := by
  rw [makeRule_of_none hun, uninstall_eq, hsplit]
  exact runRecipe_rmFs_error fs xs ys p hxs hp

/-- `usrLocalTree` after another user's install: `usr/local/bin` holds a `dmpv`, and the user
may not write the directory. -/
def readOnlyBinTree : Fs :=
  Function.update (Function.update usrLocalTree ["usr", "local", "bin"] (some (.dir false)))
    ["usr", "local", "bin", "dmpv"] (some (.file 1 true))

theorem uninstall_stops_at_read_only_bin :
    readOnlyBinTree (usrLocalDirs.top ++ ["uninstall"]) = none ∧
      installedFiles usrLocalDirs.pre =
        [] ++ ["usr", "local", "bin", "dmpv"] :: (installedFiles usrLocalDirs.pre).tail ∧
      (∀ x ∈ ([] : List FsPath), rmOk readOnlyBinTree x) ∧
      rmOk readOnlyBinTree ["usr", "local", "bin", "dmpv"] = false ∧
      makeRule some readOnlyBinTree usrLocalDirs.top "uninstall" (uninstall usrLocalDirs.pre) =
        .error (.rmF ["usr", "local", "bin", "dmpv"],
          fun q => if q ∈ ([] : List FsPath) then none else readOnlyBinTree q) :=
  ⟨by decide, rfl, by decide, by decide,
    uninstall_stops_at_unremovable usrLocalDirs [] _ _ readOnlyBinTree (by decide) rfl (by decide)
      (by decide)⟩

/-! ## Install-strip -/

@[simp] theorem runCmd_mkdirP (fs : Fs) (d : FsPath) :
    runCmd f fs (.mkdirP d) = mkdirs fs (ancestors d) := rfl

/-- **`make install-strip` is `strip`, then `make install`.** Without files `install-strip` and
`install` in the make directory, and with the build directory there, `make install-strip`
succeeds exactly when `strip` of the build's binary in place and then `make install` do, with
the same result: the stripped binary stays in the build tree. -/
theorem install_strip_eq (m : MakeDirs) (fs fs' : Fs) (hbuild : fs m.build ≠ none)
    (hstrip : fs (m.top ++ ["install-strip"]) = none)
    (hinstall : fs (m.top ++ ["install"]) = none) :
    makeRule f fs m.top "install-strip" (installStrip m.pre m.build m.top) = .ok fs' ↔
      ∃ fs₀, runCmd f fs (.strip (m.build ++ ["dmpv"])) = (fs₀, true) ∧
        makeRule f fs₀ m.top "install" (install m.pre m.build m.top) = .ok fs' := by
  -- `strip` changes only the binary, so the make directory still has no file `install`
  have hup : ∀ fs₀, runCmd f fs (.strip (m.build ++ ["dmpv"])) = (fs₀, true) →
      makeRule f fs₀ m.top "install" (install m.pre m.build m.top) =
        runRecipe f fs₀ (install m.pre m.build m.top) := by
    intro fs₀ h
    obtain ⟨c, v, c', hp, -, -, rfl⟩ := runCmd_strip_ok.1 h
    refine makeRule_of_none ?_
    have hne : m.top ++ ["install"] ≠ m.build ++ ["dmpv"] := fun e => by
      rw [e, hp] at hinstall; cases hinstall
    rw [Function.update_noteq hne, hinstall]
  have hpar : fs (m.build ++ ["dmpv"]).dropLast ≠ none := by rwa [List.dropLast_concat]
  rw [makeRule_of_none hstrip, exists_congr fun fs₀ =>
    and_congr_right fun h => by rw [hup fs₀ h]]
  simp only [installStrip, install, List.cons_append, runRecipe_cons_ok, runCmd_log,
    Prod.mk.injEq, and_true, exists_eq_left', runCmd_mkdirP]
  constructor
  · rintro ⟨fs₁, h₁, fs₂, h₂, h₃⟩
    obtain ⟨fs₀, h₀, h₁'⟩ := (mkdirs_strip_comm hpar).1 ⟨fs₁, h₁, h₂⟩
    exact ⟨fs₀, h₀, fs₂, h₁', h₃⟩
  · rintro ⟨fs₀, h₀, fs₂, h₁, h₃⟩
    obtain ⟨fs₁, h₁', h₂⟩ := (mkdirs_strip_comm hpar).2 ⟨fs₀, h₀, h₁⟩
    exact ⟨fs₁, h₁', fs₂, h₂, h₃⟩

theorem install_strip_eq_usr_local :
    usrLocalTree usrLocalDirs.build ≠ none ∧
      usrLocalTree (usrLocalDirs.top ++ ["install-strip"]) = none ∧
      usrLocalTree (usrLocalDirs.top ++ ["install"]) = none ∧
      (makeRule some usrLocalTree usrLocalDirs.top "install-strip"
          (installStrip usrLocalDirs.pre usrLocalDirs.build usrLocalDirs.top) = .ok usrLocalTree ↔
        ∃ fs₀, runCmd some usrLocalTree (.strip (usrLocalDirs.build ++ ["dmpv"])) = (fs₀, true) ∧
          makeRule some fs₀ usrLocalDirs.top "install"
            (install usrLocalDirs.pre usrLocalDirs.build usrLocalDirs.top) = .ok usrLocalTree) :=
  ⟨by decide, by decide, by decide,
    install_strip_eq usrLocalDirs usrLocalTree usrLocalTree (by decide) (by decide) (by decide)⟩

end

end Dmpv.Build
