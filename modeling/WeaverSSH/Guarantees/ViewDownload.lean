import WeaverSSH.Guarantees.References
import WeaverSSH.Guarantees.ViewInverse
import WeaverSSH.Vfs.Copy

/-!
# Copies out of the VFS stay below their destination

Whatever a server lists, an entry of a listing of the view has one plain name, or none where it
stands for the whole view.
-/

namespace WeaverSSH.Vfs

open FilePath Progress WeaverSSH.Action ViewConfig List

/-- What is made is the destination or lies below it, or is the directory that the destination is
in. -/
def LocalWrite.Confined (root : Text) (w : LocalWrite) : Prop :=
  Below root w.path ∨ ∃ p, SamePath root p ∧ w = .mkdirAll (dir p)

section

variable [Unicode] [PathMatch]

/-- The entries of a listing have plain names, but for one that stands for the whole view. -/
lemma ViewConfig.name_of_mem_listEntries {cfg : ViewConfig} {sourceParent viewParent : Text}
    {entries : List DirEntry} {out : List ViewEntry}
    (h : cfg.listEntries sourceParent viewParent entries = .ok out)
    {e : ViewEntry} (he : e ∈ out) : e.entry.name = [] ∨ Plain e.entry.name := by
  unfold listEntries at h
  simp only [checks_ok, mapError_eq_ok] at h
  obtain ⟨cfg', -, source, -, parent, -, projected, hprojected, rfl⟩ := h
  obtain ⟨source, -, hentry⟩ :=
    exists_of_mem_right (mapM_eq_ok.mp hprojected) (reduceOption_mem_iff.mp he)
  unfold projectEntry at hentry
  dsimp only at hentry
  simp only [bind_eq_ok] at hentry
  obtain ⟨⟨viewChild, hidden⟩, hvisible, hentry⟩ := hentry
  dsimp only at hentry
  split_ifs at hentry with helsewhere
  · cases hentry
  · obtain rfl := Option.some.inj (Except.ok.inj hentry)
    obtain ⟨hshown, -⟩ := not_or.mp helsewhere
    rw [Bool.not_eq_true] at hshown
    subst hshown
    cases hview : cfg'.normalize with
    | error err =>
      rw [visiblePath, hview] at hvisible
      cases hvisible
    | ok view =>
      obtain ⟨c, hc, -, rfl⟩ := (visiblePath_eq_ok hview).mp hvisible
      have hnames := (foldl_toView (normalize_proper hview) (names_of_cleanViewRel hc)).2
      change ∀ name ∈ Rename.applyAll view.renames (names c), ViewName name at hnames
      generalize Rename.applyAll view.renames (names c) = shown at hnames
      rcases eq_nil_or_concat' shown with rfl | ⟨parent, name, rfl⟩
      · exact .inl rfl
      · rw [splitViewRel_slashed (plain_of_viewName hnames)]
        exact .inr (hnames name mem_concat_self).plain

end

namespace Copier

variable {cp : Copier}

/-! ## What is made along a copy -/

lemma keeps_run {κ : Type} {P : κ → Prop} {t : Transfers} {fn : Action (Progress κ) CopyErr Unit}
    (h : Keeps (Only P) fn) : Keeps (Only P) (t.run fn) :=
  keeps_bind (keeps_ask _ _) fun _ => keeps_bind h fun _ => keeps_ask _ _

lemma fileFromVFS_confined {root sourceRel localPath : Text}
    (hdir : (LocalWrite.mkdirAll (dir localPath)).Confined root) (hpath : Below root localPath) :
    Keeps (Only (LocalWrite.Confined root)) (cp.fileFromVFS sourceRel localPath) := by
  refine keeps_run ?_
  refine keeps_bind (keeps_ask _ _) fun data => ?_
  refine keeps_bind (keeps_make hdir _ _) fun _ => ?_
  exact keeps_make (.inl hpath) _ _

lemma fileFromVFS_join {root sourceRel localDir name : Text} (hlocal : Below root localDir)
    (hname : name = [] ∨ Plain name) :
    Keeps (Only (LocalWrite.Confined root)) (cp.fileFromVFS sourceRel (join [localDir, name])) := by
  have hbelow : Below root (join [localDir, name]) :=
    hlocal.trans (below_join (hname.imp_right .inr) localDir)
  refine fileFromVFS_confined ?_ hbelow
  rcases hbelow.dir_join with hdir | hsame
  · exact .inl hdir
  · exact .inr ⟨_, hsame, rfl⟩

section

variable [Unicode] [PathMatch]

/-- **A directory**: what is made is below it, whatever the server lists. -/
lemma dirFromVFS_confined (depth : ℕ) {root sourceRel viewRel localDir : Text}
    (hlocal : Below root localDir) :
    Keeps (Only (LocalWrite.Confined root)) (cp.dirFromVFS depth sourceRel viewRel localDir) := by
  induction depth generalizing sourceRel viewRel localDir with
  | zero => exact keeps_fail _
  | succ depth ih =>
    unfold dirFromVFS
    refine keeps_bind (keeps_make (.inl hlocal) _ _) fun _ => ?_
    refine keeps_bind (keeps_ask _ _) fun entries => ?_
    refine keeps_reads_bind fun _ mapped hmapped => ?_
    refine keeps_forM fun e he => ?_
    have hname := name_of_mem_listEntries (mapError_eq_ok.mp hmapped) he
    refine keeps_ite (fun _ => ih ?_) fun _ => fileFromVFS_join hlocal hname
    exact hlocal.trans (below_join (hname.imp_right .inr) localDir)

end

/-! ## Whole copies -/

/-- What a copy is to become: the destination or, where that is a directory, the name of the source
in it. -/
def Destination [CharClasses] [Addresses] [Unicode] (env : Env) (src dst root : Text) : Prop :=
  root = dst ∨ ∃ viewRel, parsePath env src = .ok viewRel ∧ root = join [dst, base viewRel]

lemma base_slashed {segs : List Text} (h : ∀ seg ∈ segs, Plain seg) :
    base (slashed segs) = dot ∨ Plain (base (slashed segs)) := by
  rcases eq_nil_or_concat' segs with rfl | ⟨init, last, rfl⟩
  · exact .inl rfl
  · right
    have hne : init ++ [last] ≠ [] := append_ne_nil_of_right_ne_nil _ (cons_ne_nil _ _)
    have hnonempty : slashed (init ++ [last]) ≠ [] := fun hnil =>
      hne ((slashed_eq_nil fun seg hseg => (h seg hseg).1).mp hnil)
    have hall : (init ++ [last]).filter (· ≠ []) = init ++ [last] :=
      filter_eq_self.mpr fun seg hseg => decide_eq_true (h seg hseg).1
    have hbase : base (slashed (init ++ [last])) = last := by
      unfold base
      rw [if_neg hnonempty, split_slashed (fun seg hseg => (h seg hseg).2.2.2) hne, hall,
        getLast?_concat]
      rfl
    rw [hbase]
    exact h last mem_concat_self

section

variable [CharClasses] [Addresses] [Unicode]

lemma Destination.below {env : Env} {src dst root : Text} (h : Destination env src dst root) :
    Below dst root := by
  rcases h with rfl | ⟨viewRel, hpath, rfl⟩
  · exact Below.refl root
  · obtain ⟨segs, rfl, hsegs⟩ := parsePath_segments hpath
    exact below_join (.inr (base_slashed fun seg hseg => (hsegs seg hseg).plain)) dst

lemma wp_localJoinDir_bind {env : Env} {src dst viewRel : Text}
    (hpath : parsePath env src = .ok viewRel)
    {g : Text → Download Unit} {Q : Except CopyErr Unit → Progress LocalWrite → Prop}
    {s : Progress LocalWrite}
    (h : ∀ root, Destination env src dst root → wp (g root) Q ⟨s.asked + 1, s.made⟩) :
    wp (cp.localJoinDir dst viewRel >>= g) Q s := by
  refine h (if hasSuffix dst [slash] || cp.disk.stat s.asked dst =
    some true then join [dst, base viewRel] else dst) ?_
  split_ifs
  · exact .inr ⟨viewRel, hpath, rfl⟩
  · exact .inl rfl

variable [PathMatch]

/-- **Copies out of the VFS stay below their destination**, whatever the server answers. -/
theorem downloads_confined (cp : Copier) (env : Env) (depth : ℕ) (src dst : Text) :
    ∃ root, Destination env src dst root ∧ Below dst root ∧
      ∀ w ∈ (cp.fromVFS env depth src dst {}).2.made, w.Confined root := by
  suffices hwp : wp (cp.fromVFS env depth src dst)
      (fun _ s => ∃ root, Destination env src dst root ∧ ∀ w ∈ s.made, w.Confined root) {} by
    obtain ⟨root, hroot, hmade⟩ := hwp
    exact ⟨root, hroot, hroot.below, hmade⟩
  unfold fromVFS
  refine wp_reads_bind (fun resolved hresolved => ?_) fun _ _ => ⟨dst, .inl rfl, by simp⟩
  obtain ⟨viewRel, sourceRel⟩ := resolved
  have hpath : parsePath env src = .ok viewRel := by
    unfold resolveViewRef at hresolved
    simp only [bind_eq_ok, mapError_eq_ok, pure_eq_ok, Prod.mk.injEq] at hresolved
    obtain ⟨_, hpath, _, -, _, -, rfl, -⟩ := hresolved
    exact hpath
  refine wp_ask_bind (fun isDir => ?_) ⟨dst, .inl rfl, by simp⟩
  cases isDir with
  | true =>
    refine wp_demand_bind (fun _ => ?_) fun _ => ⟨dst, .inl rfl, by simp⟩
    refine wp_localJoinDir_bind hpath fun root hroot => ⟨root, hroot, ?_⟩
    exact only_of_keeps (dirFromVFS_confined depth (Below.refl root)) rfl
  | false =>
    refine wp_localJoinDir_bind hpath fun root hroot => ⟨root, hroot, ?_⟩
    refine only_of_keeps (fileFromVFS_confined (.inr ⟨root, ⟨rfl, rfl⟩, rfl⟩) (Below.refl root)) rfl

end

/-- A server with one directory, which lists the files it is given in it. -/
def listingClient (entries : List DirEntry) : Client where
  stat _ _ := some true
  list _ _ := some entries
  readFile _ _ := some []
  mkdirAll _ _ := true
  writeFile _ _ _ := true

/-- A disk on which everything can be made, and nothing is yet. -/
def emptyDisk : Disk where
  stat _ _ := none
  readDir _ _ := none
  readFile _ _ := none
  mkdirAll _ _ := true
  writeFile _ _ _ := true
  named := nofun

attribute [local instance] asciiCase asciiClasses noAddresses noGlobs

-- what is found elsewhere after dots are resolved is left out
example :
    (fromVFS ⟨listingClient [⟨"../g", false, 1⟩, ⟨"x/../f", false, 1⟩], emptyDisk, true,
      defaultView, {}⟩
      emptyEnv 2 "vfs://d" "out" {}).2.made =
    [.mkdirAll "out", .mkdirAll "out", .writeFile "out/f" []] := by
  decide +kernel

end Copier

end WeaverSSH.Vfs
