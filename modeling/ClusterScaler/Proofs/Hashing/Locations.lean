import ClusterScaler.Proofs.Hashing.Contents
import ClusterScaler.Proofs.Hashing.Separation

/-!
# Where mounts come from

What is mounted is a matter of remote paths and of what stands at the local ones, which are taken off
the paths that a walk goes by. A file system is visited with the entries of every directory by name, in
whatever order it lists them, and what a path leads to is then visited in this order as well
(`VisitedAs.locate_eq`). So where mounts hold the same, at whatever local paths and however listed, they
have the same sources and one files hash (`compute_eq_of_mountsAlike`).
-/

set_option autoImplicit false

namespace ClusterScaler

namespace FileStore

variable {s visited : FileStore} {c : Cursor} {links : Nat} {parts : List String} {p : FilePlace}
  {path : String} {t : FileTree}

/-- A file or a directory stands at a path, and not a link to one. -/
structure StandsAt (s : FileStore) (path : String) (t : FileTree) : Prop where
  located : ∃ names, s.locate false path = .ok ⟨names, some t⟩
  notLink : ∀ target, t ≠ .link target

/-- One file system is another one as it is visited: it holds the same from the root on, has the same
working directory, and lists entries by name. -/
structure VisitedAs (listed visited : FileStore) : Prop where
  same : (FileTree.dir listed.root).SameContent (.dir visited.root)
  home : visited.home = listed.home
  ordered : (FileTree.dir visited.root).Ordered

/-- The store with the entries of every directory by name. -/
def byName (s : FileStore) : FileStore where
  entries := FileTree.entriesByName s.entries
  above := s.above.map fun a => { a with others := FileTree.entriesByName a.others }

theorem root_byName (s : FileStore) : s.byName.root = FileTree.entriesByName s.root := by
  obtain ⟨entries, above⟩ := s
  unfold root byName
  dsimp only
  induction above with
  | nil => rfl
  | cons a below ih =>
    rw [List.map_cons, entriesAt, ih, entriesAt, FileTree.entriesByName_putEntry]
    rfl

/-- However a file system lists its directories, it can be visited. -/
theorem visitedAs_byName (s : FileStore) : s.VisitedAs s.byName := by
  refine ⟨?_, ?_, ?_⟩
  · rw [root_byName]
    exact (FileTree.sameContent_byName (.dir s.root)).symm
  · unfold home byName
    rw [List.map_map]
    rfl
  · rw [root_byName]
    exact FileTree.ordered_byName (.dir s.root)

/-- Of the directories on the way to the working directory, each is found in the one above it. So they
are those of the root that is visited. -/
theorem framesFrom_byName {es es' : FileTree.Entries} {below below' : List Ancestor}
    (hnames : below'.map (·.name) = below.map (·.name))
    (hroot : entriesAt es' below' = FileTree.entriesByName (entriesAt es below)) (name : String)
    (outer : List Frame) :
    framesFrom es' name (outer.map Frame.byName) below' =
      (framesFrom es name outer below).map Frame.byName := by
  induction below generalizing below' name outer with
  | nil =>
    obtain rfl := List.map_eq_nil_iff.mp hnames
    obtain rfl : es' = FileTree.entriesByName es := hroot
    rfl
  | cons a below ih =>
    obtain ⟨a', rest, rfl, ha, hrest⟩ := List.map_eq_cons_iff.mp hnames
    have hinner : entriesAt es' rest = FileTree.entriesByName (entriesAt es below) := by
      have hchild := congrArg (FileTree.child? · a.name) hroot
      rw [FileTree.child?_entriesByName, entriesAt, entriesAt, FileTree.child?_putEntry,
        FileTree.child?_putEntry, if_pos rfl, if_pos ha.symm] at hchild
      exact FileTree.dir.inj (Option.some.inj hchild)
    rw [framesFrom, framesFrom, ha, hroot]
    exact ih hrest hinner a.name (⟨name, entriesAt es (a :: below)⟩ :: outer)

theorem VisitedAs.cursor_eq (h : s.VisitedAs visited) : visited.cursor = s.cursor.byName := by
  have hroot : FileTree.dir visited.root = (FileTree.dir s.root).byName := by
    rw [← FileTree.byName_eq_self h.ordered, FileTree.byName_eq_iff]
    exact h.same.symm
  exact congrArg Cursor.mk (framesFrom_byName h.home (FileTree.dir.inj hroot) "" [])

/-- A path leads to the same place, however the directories are listed. -/
theorem VisitedAs.locate_eq (h : s.VisitedAs visited) (follow : Bool) (path : String) :
    visited.locate follow path = (s.locate follow path).map FilePlace.byName := by
  have hfrom : (if Path.isAbsolute path then visited.cursor.top else visited.cursor) =
      (if Path.isAbsolute path then s.cursor.top else s.cursor).byName := by
    rw [h.cursor_eq, Cursor.top_byName, apply_ite Cursor.byName]
  unfold locate
  split
  · rfl
  · split
    · rfl
    · rw [hfrom]
      exact walk_byName follow

/-- Unless a path leads to a link in the end, it does not matter whether that would be followed. -/
theorem walk_true_of_notLink (h : walk false links c parts = .ok p)
    (hlink : ∀ target, p.tree ≠ some (.link target)) : walk true links c parts = .ok p := by
  fun_induction walk false links c parts with
  | case1 => rwa [walk]
  | case2 links c part rest hidle ih => rw [walk, if_pos hidle, ih h]
  | case3 links c part rest hidle hup ih => rw [walk, if_neg hidle, if_pos hup, ih h]
  | case4 links c part rest hidle hup hchild hrest =>
    rw [walk, if_neg hidle, if_neg hup, hchild]
    exact (if_pos hrest).trans h
  | case5 => cases h
  | case6 links c part rest hidle hup es hchild ih =>
    rw [walk, if_neg hidle, if_neg hup, hchild]
    exact ih h
  | case7 links c part rest hidle hup content hchild hrest =>
    rw [walk, if_neg hidle, if_neg hup, hchild]
    exact (if_pos hrest).trans h
  | case8 => cases h
  | case9 links c part rest hidle hup target hchild hlast =>
    cases h
    exact absurd rfl (hlink target)
  | case10 => cases h
  | case11 c part rest hidle hup target hchild hlast links htarget ih =>
    rw [walk, if_neg hidle, if_neg hup, hchild]
    refine ((if_neg ?_).trans (if_neg htarget)).trans (ih h)
    simp
  | case12 => cases h

theorem locate_true_of_notLink (h : s.locate false path = .ok p)
    (hlink : ∀ target, p.tree ≠ some (.link target)) : s.locate true path = .ok p := by
  by_cases hempty : path.isEmpty
  · rw [locate, if_pos hempty] at h
    cases h
  by_cases hnul : path.toList.contains '\x00'
  · rw [locate, if_neg hempty, if_pos hnul] at h
    cases h
  rw [locate, if_neg hempty, if_neg hnul] at h ⊢
  exact walk_true_of_notLink h hlink

theorem StandsAt.get_eq (h : s.StandsAt path t) : s.get path = .ok t := by
  obtain ⟨names, hlocate⟩ := h.located
  unfold get
  rw [locate_true_of_notLink hlocate fun target heq => h.notLink target (Option.some.inj heq)]
  rfl

/-- What stands at a path is visited with its entries by name. -/
theorem StandsAt.byName (h : s.StandsAt path t) (hvisited : s.VisitedAs visited) :
    visited.StandsAt path t.byName := by
  obtain ⟨names, hlocate⟩ := h.located
  refine ⟨⟨names, ?_⟩, fun target htarget => ?_⟩
  · rw [hvisited.locate_eq, hlocate]
    rfl
  · cases t with
    | file content => cases htarget
    | link target => exact h.notLink target rfl
    | dir entries => cases htarget

end FileStore

namespace FilesHash

variable {files files' visited visited' : FileStore} {mounts mounts' : Table String String}
  {path path' : String} {t t' : FileTree}

/-- What is mounted of a tree: a file by itself, or the entries of a directory. -/
def ofTree : FileTree → MountSource
  | .file content => .file content
  | t => .tree (t.walk "")

theorem source_eq (h : files.StandsAt path t) : source files path = .ok (ofTree t) := by
  obtain ⟨names, hlocate⟩ := h.located
  unfold source
  rw [h.get_eq, hlocate]
  cases t with
  | file content => rfl
  | link target => exact absurd rfl (h.notLink target)
  | dir entries => rfl

/-- What is mounted, in either store, holds the same. -/
structure MountsAlike (files : FileStore) (mounts : Table String String) (files' : FileStore)
    (mounts' : Table String String) : Prop where
  remotes : mounts.keys = mounts'.keys
  sources : ∀ remote path path', mounts.get? remote = some path → mounts'.get? remote = some path' →
    ∃ t t', files.StandsAt path t ∧ files'.StandsAt path' t' ∧ t.SameContent t'

theorem source_eq_source (hvisited : files.VisitedAs visited)
    (hvisited' : files'.VisitedAs visited') (h : files.StandsAt path t)
    (h' : files'.StandsAt path' t') (hsame : t.SameContent t') :
    source visited path = .ok (ofTree t.byName) ∧
      source visited' path' = .ok (ofTree t.byName) := by
  refine ⟨source_eq (h.byName hvisited), ?_⟩
  rw [FileTree.byName_eq_iff.mpr hsame]
  exact source_eq (h'.byName hvisited')

/-- Mounts that hold the same have the same sources once they are visited. -/
theorem MountsAlike.exists_sources (h : MountsAlike files mounts files' mounts')
    (hvisited : files.VisitedAs visited) (hvisited' : files'.VisitedAs visited') :
    ∃ ss, FilesHash.sources visited mounts = .ok ss ∧
      FilesHash.sources visited' mounts' = .ok ss := by
  refine exists_mapM_eq_mapM h.remotes ?_
  rintro ⟨remote, path⟩ hm ⟨remote', path'⟩ hm' rfl
  obtain ⟨t, t', ht, ht', hsame⟩ := h.sources remote path path'
    (Table.get?_eq_some_iff.mpr hm) (Table.get?_eq_some_iff.mpr hm')
  exact ⟨_, source_eq_source hvisited hvisited' ht ht' hsame⟩

/-- The files hash is one of what is mounted where: neither the local paths, absolute or relative to
whatever working directory, nor the order in which directories are listed make a difference. -/
theorem compute_eq_of_mountsAlike (hvisited : files.VisitedAs visited)
    (hvisited' : files'.VisitedAs visited') (hmounts : MountsAlike files mounts files' mounts')
    (commands : List String) :
    ∃ hash, compute visited mounts commands = .ok hash ∧
      compute visited' mounts' commands = .ok hash := by
  obtain ⟨ss, hss, hss'⟩ := hmounts.exists_sources hvisited hvisited'
  exact ⟨_, compute_eq hss commands, compute_eq hss' commands⟩

/-- A tree with a link in it, and a way to list it. -/
def site : FileTree :=
  .dir [("main.py", .file "a".toUTF8),
    ("lib", .dir [("util.py", .file "b".toUTF8), ("now.py", .link "util.py")])]

/-- The same tree, listed the other way round. -/
def siteAgain : FileTree :=
  .dir [("lib", .dir [("now.py", .link "util.py"), ("util.py", .file "b".toUTF8)]),
    ("main.py", .file "a".toUTF8)]

/-- A working directory with that tree and a file. -/
def atHome : FileStore where
  entries := [("motd", .file "hi".toUTF8), ("app", site)]
  above := [{ name := "home" }, { name := "ops" }]

/-- A working directory beside both of them. -/
def inCheckout : FileStore where
  entries := []
  above := [{ name := "src" }, { name := "checkout" },
    { name := "conf", others := [("site", siteAgain), ("readme", .file "hi".toUTF8)] }]

/-- Mounts of the tree and the file. -/
def mountsHome : Table String String :=
  Table.ofList [("/srv/app", "app"), ("/etc/motd", "/home/ops/motd")]

/-- The mounts of them where they are beside the working directory. -/
def mountsCheckout : Table String String :=
  Table.ofList [("/etc/motd", "../site/../readme"), ("/srv/app", "/src/./checkout/site/")]

theorem standsAt_app : atHome.StandsAt "app" site := by
  refine ⟨⟨["home", "ops", "app"], ?_⟩, fun _ h => nomatch h⟩
  rw [FileStore.locate_relative rfl (by decide) (by decide +kernel),
    Path.pieces_of_notMem (by decide)]
  cbv

theorem standsAt_motd : atHome.StandsAt "/home/ops/motd" (.file "hi".toUTF8) := by
  have hpieces : Path.pieces "/home/ops/motd" = ["", "home", "ops", "motd"] := by
    rw [Path.pieces_eq]
    decide +kernel
  refine ⟨⟨["home", "ops", "motd"], ?_⟩, fun _ h => nomatch h⟩
  rw [FileStore.locate_absolute rfl (by decide) (by decide +kernel), hpieces]
  cbv

theorem standsAt_site : inCheckout.StandsAt "/src/./checkout/site/" siteAgain := by
  have hpieces : Path.pieces "/src/./checkout/site/" = ["", "src", ".", "checkout", "site", ""] := by
    rw [Path.pieces_eq]
    decide +kernel
  refine ⟨⟨["src", "checkout", "site"], ?_⟩, fun _ h => nomatch h⟩
  rw [FileStore.locate_absolute rfl (by decide) (by decide +kernel), hpieces]
  cbv

theorem standsAt_readme : inCheckout.StandsAt "../site/../readme" (.file "hi".toUTF8) := by
  have hpieces : Path.pieces "../site/../readme" = ["..", "site", "..", "readme"] := by
    rw [Path.pieces_eq]
    decide +kernel
  refine ⟨⟨["src", "checkout", "readme"], ?_⟩, fun _ h => nomatch h⟩
  rw [FileStore.locate_relative rfl (by decide) (by decide +kernel), hpieces]
  cbv

theorem sameContent_siteAgain : site.SameContent siteAgain :=
  FileTree.byName_eq_iff.mp (by cbv)

theorem mountsAlike_checkout : MountsAlike atHome mountsHome inCheckout mountsCheckout where
  remotes := by decide +kernel
  sources := by
    intro remote path path' hpath hpath'
    have hentries : mountsHome.entries =
        [("/etc/motd", "/home/ops/motd"), ("/srv/app", "app")] := by
      decide +kernel
    have hentries' : mountsCheckout.entries =
        [("/etc/motd", "../site/../readme"), ("/srv/app", "/src/./checkout/site/")] := by
      decide +kernel
    rw [Table.get?_eq_some_iff, hentries] at hpath
    rw [Table.get?_eq_some_iff, hentries'] at hpath'
    simp only [List.mem_cons, Prod.mk.injEq, List.not_mem_nil, or_false] at hpath hpath'
    rcases hpath with ⟨rfl, rfl⟩ | ⟨rfl, rfl⟩ <;> rcases hpath' with ⟨h, rfl⟩ | ⟨h, rfl⟩
    · exact ⟨_, _, standsAt_motd, standsAt_readme, fun _ => rfl⟩
    · exact absurd h (by decide)
    · exact absurd h (by decide)
    · exact ⟨_, _, standsAt_app, standsAt_site, sameContent_siteAgain⟩

/-- The two file systems list the tree differently and hold it at different paths, seen from different
working directories. The files hash is one. -/
theorem compute_eq_of_mountsAlike_checkout :
    atHome.VisitedAs atHome.byName ∧ inCheckout.VisitedAs inCheckout.byName ∧
      MountsAlike atHome mountsHome inCheckout mountsCheckout ∧
      ∃ hash, compute atHome.byName mountsHome ["make"] = .ok hash ∧
        compute inCheckout.byName mountsCheckout ["make"] = .ok hash := by
  have hvisited : atHome.VisitedAs atHome.byName := FileStore.visitedAs_byName atHome
  have hvisited' : inCheckout.VisitedAs inCheckout.byName :=
    FileStore.visitedAs_byName inCheckout
  exact ⟨hvisited, hvisited', mountsAlike_checkout,
    compute_eq_of_mountsAlike hvisited hvisited' mountsAlike_checkout ["make"]⟩

end FilesHash

end ClusterScaler
