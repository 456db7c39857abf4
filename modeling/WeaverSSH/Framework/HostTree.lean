import WeaverSSH.Framework.Checks
import WeaverSSH.Framework.FilePath
import WeaverSSH.Framework.OrderedMap

/-!
# A file system

A host has files, directories, symbolic links and other things, each at its place: the names on the
way to it from the root directory. A path is followed as the operating system does (`follow`,
`namei`); its last name may be one that is not there yet.

The calls of the package `os` are functions on hosts. `Sys` is what a host does not tell: which
calls the system refuses, times, sizes of directories and what devices read.
-/

namespace WeaverSSH.HostTree

open FilePath

inductive Entry where
  | file (content : List UInt8) (mode : ℕ)
  | dir (mode : ℕ)
  | link (target : Text)
  | special (mode : ℕ)
deriving DecidableEq, Repr

/-- The names on the way from the root directory. -/
abbrev Place := List Text

/-- The entries below the root directory. -/
structure Host where
  entries : OrderedMap Place Entry
deriving DecidableEq

def openMode : ℕ := 0x1ed

def Host.entry (h : Host) (place : Place) : Option Entry :=
  if place = [] then some (.dir openMode) else h.entries.get place

def Host.put (h : Host) (place : Place) (entry : Entry) : Host := ⟨h.entries.put place entry⟩

/-- Without an entry and all that is below it. -/
def Host.drop (h : Host) (place : Place) : Host :=
  ⟨h.entries.filter fun other => !place.isPrefixOf other⟩

inductive Errno where
  | notExist
  | exist
  | notDir
  | isDir
  | notEmpty
  | loop
  | invalid
  | other (message : Text)
deriving DecidableEq, Repr

def Errno.message : Errno → Text
  | .notExist => "no such file or directory"
  | .exist => "file exists"
  | .notDir => "not a directory"
  | .isDir => "is a directory"
  | .notEmpty => "directory not empty"
  | .loop => "too many levels of symbolic links"
  | .invalid => "invalid argument"
  | .other message => message

/-- `fs.PathError`. -/
structure PathErr where
  op : Text
  path : Text
  errno : Errno
deriving DecidableEq, Repr

def PathErr.message (e : PathErr) : Text :=
  e.op ++ text " " ++ e.path ++ text ": " ++ e.errno.message

/-- What a host does not tell. -/
structure Sys where
  /-- The calls that are refused, by the call and the path. -/
  deny : String → Text → Option Errno
  modTime : Place → ℤ
  /-- The size of what is no file and no link. -/
  size : Place → ℕ
  device : Place → ℤ → ℕ → List UInt8
  umask : ℕ

/-- A call that the system lets happen. -/
def Sys.call {α : Type} (sys : Sys) (op : String) (path : Text) (result : Except Errno α) :
    Except PathErr α :=
  match sys.deny op path with
  | some errno => .error ⟨op, path, errno⟩
  | none => result.mapError (PathErr.mk op path)

/-! ## The way to an entry -/

def names (path : Text) : List Text := (split path '/').filter fun name => name ≠ [] ∧ name ≠ dot

/-- Along some names from a directory. A link is left to `onLink`, with the directory from which to
go on, unless it is the last name and is not to be followed. -/
def follow (h : Host) (last : Bool) (onLink : Place → List Text → Except Errno Place) :
    Place → List Text → Except Errno Place
  | place, [] => .ok place
  | place, name :: rest =>
    if name = dotDot then follow h last onLink place.dropLast rest
    else
      match h.entry (place ++ [name]) with
      | none => if rest = [] then .ok (place ++ [name]) else .error .notExist
      | some (.link target) =>
        if rest = [] ∧ last = false then .ok (place ++ [name])
        else onLink (if isAbs target then [] else place) (names target ++ rest)
      | some (.dir _) => follow h last onLink (place ++ [name]) rest
      | some _ => if rest = [] then .ok (place ++ [name]) else .error .notDir

/-- The same, through so many links. -/
def namei (h : Host) (last : Bool) : ℕ → Place → List Text → Except Errno Place
  | 0 => fun _ _ => .error .loop
  | links + 1 => follow h last (namei h last links)

/-- The place of an absolute path; a path with a NUL byte in it is none. -/
def Host.locate (h : Host) (last : Bool) (links : ℕ) (path : Text) : Except Errno Place :=
  if path = [] then .error .notExist
  else if .char '\x00' ∈ path then .error .invalid
  else namei h last (links + 1) [] (names path)

def maxLinks : ℕ := 40

/-- The links that `filepath.EvalSymlinks` follows. -/
def maxEvalLinks : ℕ := 255

def Host.find (h : Host) (last : Bool) (path : Text) : Except Errno (Place × Entry) := do
  let place ← h.locate last maxLinks path
  match h.entry place with
  | none => .error .notExist
  | some entry => .ok (place, entry)

/-! ## Calls that look -/

structure Info where
  name : Text
  entry : Entry
  size : ℕ
  modTime : ℤ
deriving DecidableEq, Repr

def Info.isDir (info : Info) : Bool :=
  match info.entry with
  | .dir _ => true
  | _ => false

def Info.isLink (info : Info) : Bool :=
  match info.entry with
  | .link _ => true
  | _ => false

def Info.isRegular (info : Info) : Bool :=
  match info.entry with
  | .file _ _ => true
  | _ => false

def Info.perm (info : Info) : ℕ :=
  match info.entry with
  | .file _ mode => mode % 0x200
  | .dir mode => mode % 0x200
  | .link _ => 0x1ff
  | .special mode => mode % 0x200

def Host.info (sys : Sys) (path : Text) (found : Place × Entry) : Info where
  name := base path
  entry := found.2
  size :=
    match found.2 with
    | .file content _ => content.length
    | .link target => len target
    | _ => sys.size found.1
  modTime := sys.modTime found.1

/-- `os.Stat`. -/
def Host.stat (h : Host) (sys : Sys) (path : Text) : Except PathErr Info :=
  sys.call "stat" path ((h.find true path).map (Host.info sys path))

/-- `os.Lstat`. -/
def Host.lstat (h : Host) (sys : Sys) (path : Text) : Except PathErr Info :=
  sys.call "lstat" path ((h.find false path).map (Host.info sys path))

/-- `os.Readlink`. -/
def Host.readlink (h : Host) (sys : Sys) (path : Text) : Except PathErr Text :=
  sys.call "readlink" path do
    match (← h.find false path).2 with
    | .link target => .ok target
    | _ => .error .invalid

/-- `filepath.EvalSymlinks`. -/
def Host.evalSymlinks (h : Host) (sys : Sys) (path : Text) : Except PathErr Text :=
  sys.call "lstat" path do
    let place ← h.locate true maxEvalLinks path
    match h.entry place with
    | none => .error .notExist
    | some _ => .ok (slash :: slashed place)

def Host.children (h : Host) (place : Place) : List Text :=
  h.entries.entries.filterMap fun entry =>
    if entry.1.dropLast = place then entry.1.getLast? else none

def nameLE (a b : Text) : Prop := (bytes a).map UInt8.toNat ≤ (bytes b).map UInt8.toNat

instance (a b : Text) : Decidable (nameLE a b) := by
  unfold nameLE
  infer_instance

/-- `os.ReadDir`. -/
def Host.readDir (h : Host) (sys : Sys) (path : Text) : Except PathErr (List Text) :=
  sys.call "open" path do
    match ← h.find true path with
    | (place, .dir _) => .ok ((h.children place).insertionSort nameLE)
    | _ => .error .notDir

/-- `os.Open` and `File.ReadAt`: as many bytes as there are, up to `count`. -/
def Host.readAt (h : Host) (sys : Sys) (path : Text) (offset : ℤ) (count : ℕ) :
    Except PathErr (List UInt8) := do
  let (place, entry) ← sys.call "open" path (h.find true path)
  require (0 ≤ offset) ⟨"readat", path, .other "negative offset"⟩
  sys.call "read" path (
    match entry with
    | .file content _ => .ok ((content.drop offset.toNat).take count)
    | .special _ => .ok ((sys.device place offset count).take count)
    | _ => .error .isDir)

/-! ## Calls that change -/

/-- `os.Truncate` to nothing. -/
def Host.truncate (h : Host) (sys : Sys) (path : Text) : Except PathErr Host :=
  sys.call "truncate" path do
    match ← h.find true path with
    | (place, .file _ mode) => .ok (h.put place (.file [] mode))
    | (_, .dir _) => .error .isDir
    | _ => .error .invalid

/-- `os.Mkdir`. -/
def Host.mkdir (h : Host) (sys : Sys) (path : Text) (perm : ℕ) : Except PathErr Host :=
  sys.call "mkdir" path do
    let place ← h.locate false maxLinks path
    match h.entry place with
    | some _ => .error .exist
    | none => .ok (h.put place (.dir (perm &&& (sys.umask ^^^ 0xfff))))

/-- `os.OpenFile` for writing, with the flags to create the file, to empty it, and to refuse one
that is there. -/
def Host.openFile (h : Host) (sys : Sys) (path : Text) (create trunc excl : Bool) (perm : ℕ) :
    Except PathErr Host :=
  sys.call "open" path do
    let place ← h.locate (!excl) maxLinks path
    match h.entry place with
    | none =>
      if create then .ok (h.put place (.file [] (perm &&& (sys.umask ^^^ 0xfff))))
      else .error .notExist
    | some entry =>
      if create && excl then .error .exist
      else
        match entry with
        | .dir _ => .error .isDir
        | .file _ mode => .ok (if trunc then h.put place (.file [] mode) else h)
        | _ => .ok h

def overwrite (content : List UInt8) (offset : ℕ) (data : List UInt8) : List UInt8 :=
  (content ++ List.replicate (offset - content.length) 0).take offset ++ data ++
    content.drop (offset + data.length)

/-- `File.WriteAt` on a file that was opened. -/
def Host.writeAt (h : Host) (sys : Sys) (path : Text) (offset : ℤ) (data : List UInt8) :
    Except PathErr Host := do
  require (0 ≤ offset) ⟨"writeat", path, .other "negative offset"⟩
  sys.call "write" path do
    match ← h.find true path with
    | (place, .file content mode) =>
      .ok (if data = [] then h
        else h.put place (.file (overwrite content offset.toNat data) mode))
    | _ => .ok h

/-- `os.Remove`. -/
def Host.remove (h : Host) (sys : Sys) (path : Text) : Except PathErr Host :=
  sys.call "remove" path do
    match ← h.find false path with
    | (place, .dir _) =>
      if place = [] then .error .invalid
      else if h.children place ≠ [] then .error .notEmpty
      else .ok (h.drop place)
    | (place, _) => .ok (h.drop place)

/-- `os.RemoveAll`: it is no error that there is nothing. -/
def Host.removeAll (h : Host) (sys : Sys) (path : Text) : Except PathErr Host :=
  sys.call "unlinkat" path (
    match h.find false path with
    | .error .notExist => .ok h
    | .error errno => .error errno
    | .ok (place, _) => if place = [] then .error .invalid else .ok (h.drop place))

/-- `os.Symlink`. -/
def Host.symlink (h : Host) (sys : Sys) (target path : Text) : Except PathErr Host :=
  sys.call "symlink" (target ++ text " " ++ path) do
    let place ← h.locate false maxLinks path
    match h.entry place with
    | some _ => .error .exist
    | none => .ok (h.put place (.link target))

def Entry.chmod (mode : ℕ) : Entry → Entry
  | .file content _ => .file content mode
  | .dir _ => .dir mode
  | .link target => .link target
  | .special _ => .special mode

/-- `os.Chmod`. -/
def Host.chmod (h : Host) (sys : Sys) (path : Text) (mode : ℕ) : Except PathErr Host :=
  sys.call "chmod" path do
    let (place, entry) ← h.find true path
    require (place ≠ []) .invalid
    return h.put place (entry.chmod mode)

/-- `os.Chtimes`. -/
def Host.chtimes (h : Host) (sys : Sys) (path : Text) : Except PathErr Host :=
  sys.call "chtimes" path do
    let _ ← h.find true path
    return h

/-- An entry and all that is below it, at another place. -/
def Host.move (h : Host) (source target : Place) : Host :=
  let moved := h.entries.entries.filter fun entry => source.isPrefixOf entry.1
  moved.foldl (fun h entry => h.put (target ++ entry.1.drop source.length) entry.2)
    ((h.drop source).drop target)

/-- `os.Rename`. -/
def Host.rename (h : Host) (sys : Sys) (source target : Text) : Except PathErr Host :=
  sys.call "rename" (source ++ text " " ++ target) do
    let (place, entry) ← h.find false source
    let place' ← h.locate false maxLinks target
    require (place ≠ [] && place' ≠ []) .invalid
    if place = place' then return h
    else do
      require (!place.isPrefixOf place') .invalid
      match entry, h.entry place' with
      | _, none => return h.move place place'
      | .dir _, some (.dir _) =>
        require (h.children place' = []) .notEmpty
        return h.move place place'
      | .dir _, some _ => .error .notDir
      | _, some (.dir _) => .error .isDir
      | _, some _ => return h.move place place'

/-! ## What is found after a change -/

variable {path : Text} {sys : Sys}

lemma Sys.call_eq_ok {α : Type} {op : String} {result : Except Errno α}
    {a : α} : sys.call op path result = .ok a ↔ sys.deny op path = none ∧ result = .ok a := by
  unfold Sys.call
  cases sys.deny op path with
  | some errno => simp
  | none => simp only [mapError_eq_ok, true_and]

lemma Host.entry_put (h : Host) (place other : Place) (entry : Entry) (hplace : place ≠ []) :
    (h.put place entry).entry other = if other = place then some entry else h.entry other := by
  unfold Host.entry Host.put
  by_cases hroot : other = []
  · rw [if_pos hroot, if_neg (hroot ▸ hplace.symm), if_pos hroot]
  · rw [if_neg hroot, if_neg hroot, OrderedMap.get_put]
    by_cases hhere : other = place
    · rw [if_pos hhere, if_pos hhere]
    · rw [if_neg hhere, if_neg hhere]

section Put

variable {h : Host} {place : Place} {entry : Entry}

section

variable (hdir : ∀ mode, h.entry place ≠ some (.dir mode))
  (hlink : ∀ target, h.entry place ≠ some (.link target)) (hentry : ∀ target, entry ≠ .link target)
  {last : Bool} {p : Place} {ns : List Text}
include hdir hlink hentry

/-- A way that ended at a place with a file, or with nothing, ends there still with another entry
there: no way that goes on beyond the place can have been gone. -/
lemma follow_put {onLink onLink' : Place → List Text → Except Errno Place}
    (honLink : ∀ p ns, onLink p ns = .ok place → onLink' p ns = .ok place)
    (hway : follow h last onLink p ns = .ok place) :
    follow (h.put place entry) true onLink' p ns = .ok place := by
  have hroot : place ≠ [] := fun hnil => hdir openMode (by rw [hnil]; rfl)
  induction ns generalizing p with
  | nil => exact hway
  | cons name rest ih =>
    unfold follow at hway ⊢
    by_cases hup : name = dotDot
    · rw [if_pos hup] at hway ⊢
      exact ih hway
    rw [if_neg hup] at hway ⊢
    rw [Host.entry_put _ _ _ _ hroot]
    by_cases hhere : p ++ [name] = place
    · -- At the place itself nothing may be left to go.
      rw [if_pos hhere]
      have hrest : rest = [] := by
        by_contra hrest
        rw [hhere] at hway
        cases hold : h.entry place with
        | none => simp [hold, hrest] at hway
        | some old =>
          cases old with
          | file content mode => simp [hold, hrest] at hway
          | dir mode => exact hdir mode hold
          | link target => exact hlink target hold
          | special mode => simp [hold, hrest] at hway
      cases entry with
      | file content mode => simp [hrest, hhere]
      | dir mode => simp [hrest, hhere, follow]
      | link target => exact absurd rfl (hentry target)
      | special mode => simp [hrest, hhere]
    · rw [if_neg hhere]
      -- Elsewhere the way is the same; it cannot have ended here.
      have hend : (Except.ok (p ++ [name]) : Except Errno Place) ≠ .ok place :=
        fun heq => hhere (Except.ok.inj heq)
      cases hold : h.entry (p ++ [name]) with
      | none =>
        rw [hold] at hway
        dsimp only at hway
        split_ifs at hway
        exact absurd hway hend
      | some old =>
        rw [hold] at hway
        cases old with
        | file content mode =>
          dsimp only at hway
          split_ifs at hway
          exact absurd hway hend
        | dir mode => exact ih hway
        | link target =>
          dsimp only at hway ⊢
          rw [if_neg (fun hlast => Bool.noConfusion hlast.2)]
          by_cases hlast : rest = [] ∧ last = false
          · rw [if_pos hlast] at hway
            exact absurd hway hend
          · rw [if_neg hlast] at hway
            exact honLink _ _ hway
        | special mode =>
          dsimp only at hway
          split_ifs at hway
          exact absurd hway hend

lemma namei_put {links : ℕ} (hway : namei h last links p ns = .ok place) :
    namei (h.put place entry) true links p ns = .ok place := by
  induction links generalizing p ns with
  | zero => cases hway
  | succ links ih => exact follow_put hdir hlink hentry (fun _ _ hlater => ih hlater) hway

lemma find_put (hway : h.locate last maxLinks path = .ok place) :
    (h.put place entry).find true path = .ok (place, entry) := by
  have hroot : place ≠ [] := fun hnil => hdir openMode (by rw [hnil]; rfl)
  have hlocate : (h.put place entry).locate true maxLinks path = .ok place := by
    unfold Host.locate at hway ⊢
    split_ifs at hway ⊢
    exact namei_put hdir hlink hentry hway
  unfold Host.find
  rw [hlocate]
  show (match (h.put place entry).entry place with
    | none => Except.error Errno.notExist
    | some entry => Except.ok (place, entry)) = _
  rw [Host.entry_put _ _ _ _ hroot, if_pos rfl]

end

end Put

variable {info : Info}

lemma Host.stat_eq_ok {h : Host} : h.stat sys path = .ok info ↔ sys.deny "stat" path = none ∧
        ∃ found, h.find true path = .ok found ∧ info = Host.info sys path found := by
  unfold Host.stat
  rw [Sys.call_eq_ok]
  cases h.find true path with
  | error e => simp [Except.map]
  | ok found => simp [Except.map, eq_comm]

variable {perm : ℕ}

lemma isDir_of_mkdir {h h' : Host}
    (hmade : h.mkdir sys path perm = .ok h') (hstat : h'.stat sys path = .ok info) :
    info.isDir = true := by
  unfold Host.mkdir at hmade
  obtain ⟨_, place, hway, hput⟩ := (Sys.call_eq_ok.trans
    (and_congr_right fun _ => bind_eq_ok)).mp hmade
  cases hold : h.entry place with
  | some old =>
    rw [hold] at hput
    cases hput
  | none =>
    rw [hold] at hput
    obtain ⟨_, found, hfind, rfl⟩ := Host.stat_eq_ok.mp hstat
    rw [← Except.ok.inj hput, find_put (by simp [hold]) (by simp [hold]) (by simp) hway] at hfind
    rw [← Except.ok.inj hfind]
    rfl

lemma isDir_of_openFile {h h' : Host} {create trunc : Bool}
    (hopened : h.openFile sys path create trunc false perm = .ok h')
    (hstat : h'.stat sys path = .ok info) : info.isDir = false := by
  unfold Host.openFile at hopened
  obtain ⟨_, place, hway, hput⟩ := (Sys.call_eq_ok.trans
    (and_congr_right fun _ => bind_eq_ok)).mp hopened
  obtain ⟨_, found, hfind, rfl⟩ := Host.stat_eq_ok.mp hstat
  -- Where the host is left as it was, the same entry is found.
  have hsame (entry : Entry) (hold : h.entry place = some entry) (heq : h = h') :
      found = (place, entry) := by
    unfold Host.find at hfind
    rw [← heq, show h.locate true maxLinks path = .ok place from hway] at hfind
    rw [show (Except.ok place >>= fun place => match h.entry place with
      | none => Except.error Errno.notExist
      | some entry => Except.ok (place, entry)) = (match h.entry place with
      | none => Except.error Errno.notExist
      | some entry => Except.ok (place, entry)) from rfl, hold] at hfind
    exact (Except.ok.inj hfind).symm
  have hnew (content : List UInt8) (mode : ℕ) (hdir : ∀ mode, h.entry place ≠ some (.dir mode))
      (hlink : ∀ target, h.entry place ≠ some (.link target))
      (heq : h.put place (.file content mode) = h') : found = (place, .file content mode) := by
    rw [← heq, find_put hdir hlink (by simp) hway] at hfind
    exact (Except.ok.inj hfind).symm
  cases hold : h.entry place with
  | none =>
    rw [hold] at hput
    cases create with
    | false => cases hput
    | true => rw [hnew _ _ (by simp [hold]) (by simp [hold]) (Except.ok.inj hput)]; rfl
  | some old =>
    rw [hold, Bool.and_false] at hput
    cases old with
    | dir mode => cases hput
    | file content mode =>
      cases trunc with
      | true => rw [hnew _ _ (by simp [hold]) (by simp [hold]) (Except.ok.inj hput)]; rfl
      | false => rw [hsame _ hold (Except.ok.inj hput)]; rfl
    | link target | special mode => rw [hsame _ hold (Except.ok.inj hput)]; rfl

end WeaverSSH.HostTree
