import ClusterScaler.Proofs.Hashing.Frames
import ClusterScaler.Proofs.Hashing.Sources
import ClusterScaler.Proofs.Json.Printing
import ClusterScaler.Proofs.Table.Lookup
import Mathlib

/-!
# What a files hash tells apart

Two files hashes differ as soon as the remote paths or the commands differ, and also as soon as the
sources differ, unless the first difference between them is one of kind.
-/

set_option autoImplicit false

namespace ClusterScaler

namespace FilesHash

/-- The value that is printed into the first chunk. -/
def headerValue (remotes commands : List String) : Json :=
  .obj [("file_mounts", .arr (remotes.map .str)), ("init_commands", .arr (commands.map .str))]

/-- What the first chunk reads as. -/
def headerDocument (remotes commands : List String) : Document :=
  .obj [("file_mounts", .arr (remotes.map .str) true),
    ("init_commands", .arr (commands.map .str) true)] true

theorem canonical_strs (xs : List String) :
    (Json.ofList .str xs).canonical = .arr (xs.map .str) := by
  have hitems : Json.canonicalItems (xs.map .str) = xs.map .str := by
    induction xs with
    | nil => rfl
    | cons x xs ih =>
      rw [List.map_cons, Json.canonicalItems, ih]
      rfl
  rw [Json.ofList, Json.canonical, hitems]

theorem ofItems_strs (xs : List String) : Document.ofItems (xs.map .str) = xs.map .str := by
  induction xs with
  | nil => rfl
  | cons x xs ih => rw [List.map_cons, Document.ofItems, ih, Document.ofJson, List.map_cons]

theorem header_eq (remotes commands : List String) :
    header remotes commands = (headerValue remotes commands).compact.toUTF8 := by
  have horder : "file_mounts" < "init_commands" := by decide
  have hentries : ∀ a b : Json, (Table.ofList [("file_mounts", a), ("init_commands", b)]).entries =
      [("file_mounts", a), ("init_commands", b)] := fun _ _ =>
    Table.entries_ofList (List.pairwise_pair.mpr horder)
  unfold header Json.object
  rw [hentries, Json.canonical]
  simp only [Json.canonicalMembers, canonical_strs]
  rw [hentries]
  rfl

theorem read_headerValue (remotes commands : List String) :
    Document.read (headerValue remotes commands).compact =
      (headerDocument remotes commands, true) := by
  have hstrs : ∀ xs : List String, ∀ d, Json.Plain (d + 1) (.arr (xs.map .str)) := by
    intro xs d j hj
    obtain ⟨x, -, rfl⟩ := List.mem_map.mp hj
    simp [Json.Plain]
  have hplain : Json.Plain Document.maxDepth (headerValue remotes commands) := by
    intro m hm
    simp only [List.mem_cons, List.not_mem_nil, or_false] at hm
    rcases hm with rfl | rfl
    · exact hstrs remotes 125
    · exact hstrs commands 125
  rw [Json.read_compact hplain, headerValue, Document.ofJson]
  simp only [Document.ofMembers, Document.ofJson, ofItems_strs]
  rfl

/-- The first chunk tells remote paths and commands. -/
theorem header_inj {remotes remotes' commands commands' : List String} :
    header remotes commands = header remotes' commands' ↔
      remotes = remotes' ∧ commands = commands' := by
  constructor
  · intro h
    rw [header_eq, header_eq] at h
    have hread := read_headerValue remotes commands
    rw [String.toByteArray_inj.mp h, read_headerValue] at hread
    have hstr : ∀ x y : String, Document.str x = .str y → x = y := fun x y h => by
      cases h
      rfl
    simp only [headerDocument, Prod.mk.injEq, Document.obj.injEq, List.cons.injEq,
      Document.arr.injEq, List.map_inj_right hstr, true_and, and_true] at hread
    exact ⟨hread.1.symm, hread.2.symm⟩
  · rintro ⟨rfl, rfl⟩
    rfl

/-- The bytes that are digested for sources and commands. -/
def digested (ss : MountSources) (commands : List String) : ByteArray :=
  stream (header (ss.map (·.1)) commands :: ss.parts.flatMap MountPart.chunks)

/-- Every chunk has a length that is a number of 64 bits. -/
def Fits (ss : MountSources) (commands : List String) : Prop :=
  ∀ c ∈ header (ss.map (·.1)) commands :: ss.parts.flatMap MountPart.chunks, c.size < Nat.pow 2 64

theorem compute_eq {files : FileStore} {mounts : Table String String} {ss : MountSources}
    (h : sources files mounts = .ok ss) (commands : List String) :
    compute files mounts commands = .ok ⟨Sha256.hex (digested ss commands)⟩ := by
  unfold compute
  rw [chunks_eq h]
  rfl

theorem digested_inj {ss ss' : MountSources} {commands commands' : List String}
    (hfits : Fits ss commands) (hfits' : Fits ss' commands') :
    digested ss commands = digested ss' commands' ↔
      ss.map (·.1) = ss'.map (·.1) ∧ commands = commands' ∧
        ss.parts.flatMap MountPart.chunks = ss'.parts.flatMap MountPart.chunks := by
  constructor
  · intro h
    obtain ⟨hheader, hchunks⟩ := List.cons.inj (stream_injective hfits hfits' h)
    obtain ⟨hremotes, hcommands⟩ := header_inj.mp hheader
    exact ⟨hremotes, hcommands, hchunks⟩
  · rintro ⟨hremotes, rfl, hchunks⟩
    rw [digested, digested, hremotes, hchunks]

variable {files files' : FileStore} {mounts mounts' : Table String String}
  {commands commands' : List String} {ss ss' : MountSources}

/-- If the digest has no collision on the bytes at hand, two files hashes are the same exactly if
remote paths, commands and chunks are, and then the sources are the same up to a part of one kind
that stands against a part of another. -/
theorem same_hash_iff (hread : sources files mounts = .ok ss)
    (hread' : sources files' mounts' = .ok ss') (hfits : Fits ss commands)
    (hfits' : Fits ss' commands')
    (hcollision : Sha256.hex (digested ss commands) = Sha256.hex (digested ss' commands') →
      digested ss commands = digested ss' commands') :
    ∃ hash hash', compute files mounts commands = .ok hash ∧
      compute files' mounts' commands' = .ok hash' ∧
      (hash = hash' ↔ mounts.keys = mounts'.keys ∧ commands = commands' ∧
        ss.parts.flatMap MountPart.chunks = ss'.parts.flatMap MountPart.chunks) ∧
      (hash = hash' → ss = ss' ∨ MountPart.PartAtKind ss.parts ss'.parts) := by
  have hkeys : mounts.keys = ss.map (·.1) := (map_fst_sources hread).symm
  have hkeys' : mounts'.keys = ss'.map (·.1) := (map_fst_sources hread').symm
  have hsame : (⟨Sha256.hex (digested ss commands)⟩ : ConfigHash) =
      ⟨Sha256.hex (digested ss' commands')⟩ ↔ mounts.keys = mounts'.keys ∧ commands = commands' ∧
        ss.parts.flatMap MountPart.chunks = ss'.parts.flatMap MountPart.chunks := by
    rw [hkeys, hkeys', ← digested_inj hfits hfits', ConfigHash.mk.injEq]
    exact ⟨hcollision, congrArg Sha256.hex⟩
  refine ⟨_, _, compute_eq hread commands, compute_eq hread' commands', hsame, fun hhash => ?_⟩
  rcases MountPart.eq_or_partAtKind (hsame.mp hhash).2.2 with hparts | hkind
  · exact .inl (MountSources.parts_injective hparts)
  · exact .inr hkind

/-- Two trees: the file `a` that holds `b`, and the directories `a` and `b`. -/
def twoTrees : FileStore :=
  .ofEntries [("app", .dir [("a", .file "b".toUTF8)]),
    ("new", .dir [("a", .dir []), ("b", .dir [])])]

/-- One mount. -/
def oneMount (path : String) : Table String String := Table.ofList [("/srv/app", path)]

/-- What is mounted from the tree of a file. -/
def ofFile : MountSources := [("/srv/app", .tree [("", .dir), ("a", .file "b".toUTF8)])]

/-- What is mounted from the tree of directories. -/
def ofDirs : MountSources := [("/srv/app", .tree [("", .dir), ("a", .dir), ("b", .dir)])]

theorem sources_ofFile : sources twoTrees (oneMount "app") = .ok ofFile := by
  cbv

theorem sources_ofDirs : sources twoTrees (oneMount "new") = .ok ofDirs := by
  cbv

theorem ofFile_ne_ofDirs : ofFile ≠ ofDirs := by
  unfold ofFile ofDirs
  intro h
  cases h

theorem digested_ofFile : digested ofFile ["make"] = digested ofDirs ["make"] := by
  decide +kernel

/-- The two trees have one hash. They are the same up to `a`, a file there and a directory here. -/
theorem same_hash_iff_twoTrees :
    Fits ofFile ["make"] ∧ Fits ofDirs ["make"] ∧
      compute twoTrees (oneMount "app") ["make"] = compute twoTrees (oneMount "new") ["make"] ∧
      MountPart.PartAtKind ofFile.parts ofDirs.parts := by
  have hfits : Fits ofFile ["make"] := by
    unfold Fits
    decide +kernel
  have hfits' : Fits ofDirs ["make"] := by
    unfold Fits
    decide +kernel
  obtain ⟨hash, hash', hcompute, hcompute', hsame, hkind⟩ :=
    same_hash_iff sources_ofFile sources_ofDirs hfits hfits' fun _ => digested_ofFile
  have hhash : hash = hash' := hsame.mpr ⟨by decide +kernel, rfl, by decide +kernel⟩
  exact ⟨hfits, hfits', by rw [hcompute, hcompute', hhash],
    (hkind hhash).resolve_left ofFile_ne_ofDirs⟩

/-- To mount the tree of directories in place of the file leaves the files hash as it was. -/
theorem same_hash_twoTrees :
    ∃ ss ss' hash, sources twoTrees (oneMount "app") = .ok ss ∧
      sources twoTrees (oneMount "new") = .ok ss' ∧ ss ≠ ss' ∧
      compute twoTrees (oneMount "app") ["make"] = .ok hash ∧
      compute twoTrees (oneMount "new") ["make"] = .ok hash := by
  refine ⟨ofFile, ofDirs, _, sources_ofFile, sources_ofDirs, ofFile_ne_ofDirs,
    compute_eq sources_ofFile _, ?_⟩
  rw [digested_ofFile]
  exact compute_eq sources_ofDirs _

end FilesHash

end ClusterScaler
