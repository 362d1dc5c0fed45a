import ClusterScaler.Hashing.Files
import ClusterScaler.Proofs.Table.Reading

/-!
# What is mounted

A mount brings a single file, or the entries of a tree, parents first and each with its relative
path, wherever the walk of the tree starts (`relative_append`). Cut at these parts, the chunks of
mounts are those of one part after the other. A part is told from another one of the same kind by its
chunks, but not from one of another kind: an entry has as many chunks as its kind calls for, and none
of them says the kind.
-/

set_option autoImplicit false

namespace ClusterScaler

/-- What stands at an entry of a tree. -/
inductive TreeItem where
  | file (content : ByteArray)
  | dir
  | link (target : String)

namespace TreeItem

/-- The chunks of an item behind its path. -/
def chunks : TreeItem → List ByteArray
  | file content => [content]
  | dir => []
  | link target => [FilesHash.linkMark, target.toUTF8]

end TreeItem

namespace FileTree

mutual

/-- The entries of a tree at a relative path, its own first. -/
def walk (path : String) : FileTree → List (String × TreeItem)
  | .file content => [(path, .file content)]
  | .link target => [(path, .link target)]
  | .dir entries => (path, .dir) :: walkEntries path entries

/-- The entries of the trees in a directory. -/
def walkEntries (path : String) : List (String × FileTree) → List (String × TreeItem)
  | [] => []
  | (name, t) :: rest => walk (FilesHash.extend path name) t ++ walkEntries path rest

end

end FileTree

/-- What is mounted: a file by itself or the entries of a tree. -/
inductive MountSource where
  | file (content : ByteArray)
  | tree (entries : List (String × TreeItem))

/-- The sources of mounts with the paths they are mounted at. -/
abbrev MountSources := List (String × MountSource)

/-- A part of what is mounted. -/
inductive MountPart where
  | remote (path : String)
  | file (content : ByteArray)
  | entry (path : String) (item : TreeItem)

/-- What sort of part it is. -/
inductive MountPart.Kind where
  | remote
  | file
  | fileEntry
  | dirEntry
  | linkEntry
  deriving DecidableEq

namespace MountPart

/-- What sort of part it is. -/
def kind : MountPart → Kind
  | remote _ => .remote
  | file _ => .file
  | entry _ (.file _) => .fileEntry
  | entry _ .dir => .dirEntry
  | entry _ (.link _) => .linkEntry

/-- The chunks of a part. -/
def chunks : MountPart → List ByteArray
  | remote path => [path.toUTF8]
  | file content => [content]
  | entry path item => path.toUTF8 :: item.chunks

theorem chunks_append_ne_nil (part : MountPart) (rest : List ByteArray) :
    part.chunks ++ rest ≠ [] := by
  cases part <;> exact List.cons_ne_nil _ _

theorem toUTF8_injective {s t : String} (h : s.toUTF8 = t.toUTF8) : s = t :=
  String.toByteArray_inj.mp h

/-- Parts of one kind can be told apart by their chunks, whatever follows. -/
theorem chunks_inj {a b : MountPart} (hkind : a.kind = b.kind) {rest rest' : List ByteArray}
    (h : a.chunks ++ rest = b.chunks ++ rest') : a = b ∧ rest = rest' := by
  rcases a with p | c | ⟨p, (c | - | t)⟩ <;> rcases b with p' | c' | ⟨p', (c' | - | t')⟩
  -- parts of different kinds are none of one kind; of the others the chunks are compared in turn
  all_goals
    first
    | (cases hkind; done)
    | simp only [chunks, TreeItem.chunks, List.cons_append, List.nil_append, List.cons.injEq] at h
  case remote.remote => exact ⟨by rw [toUTF8_injective h.1], h.2⟩
  case file.file => exact ⟨by rw [h.1], h.2⟩
  case entry.file.entry.file => exact ⟨by rw [toUTF8_injective h.1, h.2.1], h.2.2⟩
  case entry.dir.entry.dir => exact ⟨by rw [toUTF8_injective h.1], h.2⟩
  case entry.link.entry.link =>
    exact ⟨by rw [toUTF8_injective h.1, toUTF8_injective h.2.2.1], h.2.2.2⟩

/-- Two rows of parts go alike up to where a part of one kind stands against one of another. -/
def PartAtKind (parts parts' : List MountPart) : Prop :=
  ∃ before part part' rest rest', parts = before ++ part :: rest ∧
    parts' = before ++ part' :: rest' ∧ part.kind ≠ part'.kind

theorem eq_or_partAtKind {parts parts' : List MountPart}
    (h : parts.flatMap chunks = parts'.flatMap chunks) :
    parts = parts' ∨ PartAtKind parts parts' := by
  induction parts generalizing parts' with
  | nil =>
    cases parts' with
    | nil => exact .inl rfl
    | cons part' parts' => exact absurd h.symm (chunks_append_ne_nil part' _)
  | cons part parts ih =>
    cases parts' with
    | nil => exact absurd h (chunks_append_ne_nil part _)
    | cons part' parts' =>
      by_cases hkind : part.kind = part'.kind
      · obtain ⟨rfl, hrest⟩ := chunks_inj hkind h
        rcases ih hrest with rfl | ⟨before, a, b, rest, rest', rfl, rfl, hab⟩
        · exact .inl rfl
        · exact .inr ⟨part :: before, a, b, rest, rest', rfl, rfl, hab⟩
      · exact .inr ⟨[], part, part', parts, parts', rfl, rfl, hkind⟩

end MountPart

namespace MountSource

/-- The parts of a source. -/
def parts : MountSource → List MountPart
  | file content => [.file content]
  | tree entries => entries.map fun e => .entry e.1 e.2

theorem kind_ne_remote {s : MountSource} {part : MountPart} (h : part ∈ s.parts) :
    part.kind ≠ .remote := by
  cases s with
  | file content =>
    obtain rfl := List.mem_singleton.mp h
    exact MountPart.Kind.noConfusion
  | tree entries =>
    obtain ⟨⟨path, item⟩, -, rfl⟩ := List.mem_map.mp h
    cases item <;> exact MountPart.Kind.noConfusion

theorem parts_injective {s s' : MountSource} (h : s.parts = s'.parts) : s = s' := by
  cases s with
  | file content =>
    cases s' with
    | file content' => 
      cases h
      rfl
    | tree entries' =>
      cases entries' with
      | nil => cases h
      | cons e entries' => cases h
  | tree entries =>
    cases s' with
    | file content' =>
      cases entries with
      | nil => cases h
      | cons e entries => cases h
    | tree entries' =>
      have hinj : ∀ e e' : String × TreeItem,
          MountPart.entry e.1 e.2 = .entry e'.1 e'.2 → e = e' := by
        rintro ⟨p, i⟩ ⟨p', i'⟩ heq
        cases heq
        rfl
      rw [(List.map_inj_right hinj).mp h]

end MountSource

namespace MountSources

/-- The parts of all sources. -/
def parts (ss : MountSources) : List MountPart :=
  ss.flatMap fun m => .remote m.1 :: m.2.parts

theorem parts_cons (remote : String) (s : MountSource) (ss : MountSources) :
    MountSources.parts ((remote, s) :: ss) = .remote remote :: (s.parts ++ ss.parts) := rfl

/-- The parts of a source reach up to the next mount. -/
theorem takeWhile_parts (s : MountSource) (ss : MountSources) :
    (s.parts ++ ss.parts).takeWhile (fun part => decide (part.kind ≠ .remote)) = s.parts := by
  rw [List.takeWhile_append_of_pos fun part hpart => decide_eq_true (s.kind_ne_remote hpart)]
  cases ss with
  | nil => exact List.append_nil _
  | cons m ss =>
    obtain ⟨remote, s'⟩ := m
    rw [parts_cons, List.takeWhile_cons_of_neg (by simp [MountPart.kind]), List.append_nil]

theorem parts_injective {ss ss' : MountSources} (h : ss.parts = ss'.parts) : ss = ss' := by
  induction ss generalizing ss' with
  | nil =>
    cases ss' with
    | nil => rfl
    | cons m' ss' => cases h
  | cons m ss ih =>
    cases ss' with
    | nil => cases h
    | cons m' ss' =>
      obtain ⟨remote, s⟩ := m
      obtain ⟨remote', s'⟩ := m'
      rw [parts_cons, parts_cons] at h
      obtain ⟨hremote, htail⟩ := List.cons.inj h
      cases hremote
      have hparts : s.parts = s'.parts := by
        rw [← takeWhile_parts s ss, htail, takeWhile_parts]
      rw [hparts] at htail
      rw [MountSource.parts_injective hparts, ih (List.append_cancel_left htail)]

end MountSources

namespace FilesHash

variable {files : FileStore}

/-- What is mounted from a path. A directory reached through a link is mounted with that link. -/
def source (files : FileStore) (path : String) : Except HashError MountSource :=
  match files.get path with
  | .ok (.dir entries) =>
    match files.locate false path with
    | .ok ⟨_, some (.link target)⟩ =>
      .ok (.tree (("", .link target) :: FileTree.walkEntries "" entries))
    | _ => .ok (.tree (("", .dir) :: FileTree.walkEntries "" entries))
  | .ok (.file content) => .ok (.file content)
  | .ok (.link _) => .error (.read path .notFound)
  | .error e => .error (.read path e)

/-- What is mounted by mounts. -/
def sources (files : FileStore) (mounts : Table String String) : Except HashError MountSources :=
  mounts.entries.mapM fun m => do return (m.1, ← source files m.2)

/-- The chunks of entries. -/
def walkChunks (entries : List (String × TreeItem)) : List ByteArray :=
  entries.flatMap fun e => (MountPart.entry e.1 e.2).chunks

/-- Whatever the root of a walk is, it is taken off the places below it. -/
theorem relative_append (root names : List String) :
    relative root (root ++ names) = names.foldl extend "" := by
  have hprefix : root.isPrefixOf (root ++ names) = true :=
    List.isPrefixOf_iff_prefix.mpr (List.prefix_append root names)
  unfold relative below
  rw [if_pos hprefix, List.drop_left]

mutual

theorem treeChunks_eq (root names : List String) (t : FileTree) :
    treeChunks root (root ++ names) t = walkChunks (t.walk (names.foldl extend "")) := by
  rw [← relative_append root]
  cases t with
  | file content => rfl
  | link target => rfl
  | dir entries =>
    rw [treeChunks, FileTree.walk, entryChunks_eq, relative_append]
    rfl

theorem entryChunks_eq (root names : List String) (entries : List (String × FileTree)) :
    entryChunks root (root ++ names) entries =
      walkChunks (FileTree.walkEntries (names.foldl extend "") entries) := by
  match entries with
  | [] => rfl
  | (name, t) :: rest =>
    rw [entryChunks, FileTree.walkEntries, List.append_assoc, treeChunks_eq, entryChunks_eq,
      List.foldl_concat]
    exact List.flatMap_append.symm

end

theorem pathChunks_eq (path : String) :
    pathChunks files path =
      (source files path).map fun s => s.parts.flatMap MountPart.chunks := by
  have htree : ∀ entries, (MountSource.tree entries).parts.flatMap MountPart.chunks =
      walkChunks entries := by
    intro entries
    rw [MountSource.parts, List.flatMap_map]
    rfl
  have hroot := relative_append (Path.pieces path) []
  have hentries := entryChunks_eq (Path.pieces path) []
  rw [List.append_nil] at hroot hentries
  unfold pathChunks source
  rcases files.get path with e | (content | target | entries)
  · rfl
  · rfl
  · rfl
  · dsimp only
    rw [hroot, hentries]
    rcases files.locate false path with e | ⟨names, (- | (content | target | inner))⟩
    all_goals
      dsimp only [Except.map]
      rw [htree]
      rfl

theorem map_fst_sources {mounts : Table String String} {ss : MountSources}
    (h : sources files mounts = .ok ss) : ss.map (·.1) = mounts.keys :=
  mapM_keys h

/-- Once the source of a mount could be read, so could its chunks. -/
theorem mountChunks_eq {m : String × String} {s : String × MountSource}
    (h : (do return (m.1, ← source files m.2) : Except HashError (String × MountSource)) = .ok s) :
    (do return m.1.toUTF8 :: (← pathChunks files m.2) : Except HashError (List ByteArray)) =
      .ok (s.1.toUTF8 :: s.2.parts.flatMap MountPart.chunks) := by
  obtain ⟨hremote, hsource⟩ := keyed_eq_ok_iff.mp h
  rw [pathChunks_eq, hsource, hremote]
  rfl

/-- Once the sources could be read, the chunks are those of their parts. -/
theorem chunks_eq {mounts : Table String String} {ss : MountSources}
    (h : sources files mounts = .ok ss) (commands : List String) :
    chunks files mounts commands =
      .ok (header (ss.map (·.1)) commands :: ss.parts.flatMap MountPart.chunks) := by
  have hchunks : mounts.entries.mapM
      (fun m => do return m.1.toUTF8 :: (← pathChunks files m.2)) =
        .ok (ss.map fun m => m.1.toUTF8 :: m.2.parts.flatMap MountPart.chunks) := by
    rw [mapM_eq_ok_iff, List.forall₂_map_right_iff]
    exact (mapM_eq_ok_iff.mp h).imp fun _ _ => mountChunks_eq
  have hparts : (ss.map fun m => m.1.toUTF8 :: m.2.parts.flatMap MountPart.chunks).flatten =
      ss.parts.flatMap MountPart.chunks := by
    rw [MountSources.parts, List.flatMap_assoc, List.flatMap_def]
    rfl
  unfold chunks
  rw [hchunks, ← map_fst_sources h, ← hparts]
  rfl

end FilesHash

end ClusterScaler
