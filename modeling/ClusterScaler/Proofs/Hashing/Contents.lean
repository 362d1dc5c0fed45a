import ClusterScaler.Proofs.Files.Names
import ClusterScaler.Proofs.Hashing.Sources
import ClusterScaler.Proofs.Table.Lists

/-!
# What a tree holds

A file system lists the entries of a directory in any order. What a tree holds is what stands at each
path of names, which says nothing of that order. If every directory lists its entries by name there is
no choice left, so trees that hold the same are brought into one and the same order (`byName_eq_iff`).
Whatever a path leads to, it leads to the ordered tree where every directory on the way is ordered
(`walk_byName`).
-/

set_option autoImplicit false

namespace ClusterScaler

namespace FileTree

/-- What a tree is itself. -/
def item : FileTree → TreeItem
  | .file content => .file content
  | .link target => .link target
  | .dir _ => .dir

/-- What stands at a path of names in a tree. -/
def at? : List String → FileTree → Option TreeItem
  | [], t => some t.item
  | name :: names, .dir es => (child? es name).bind (at? names)
  | _ :: _, _ => none

/-- Two trees hold the same: the same names, and the same file, link or directory under each. -/
def SameContent (t t' : FileTree) : Prop := ∀ names, t.at? names = t'.at? names

/-- Every directory lists its entries by name. -/
inductive Ordered : FileTree → Prop where
  | file (content : ByteArray) : Ordered (.file content)
  | link (target : String) : Ordered (.link target)
  | dir {es : Entries} (hsorted : es.Pairwise (fun e e' => e.1 < e'.1))
    (h : ∀ e ∈ es, Ordered e.2) : Ordered (.dir es)

mutual

/-- The tree with the entries of every directory by name. -/
def byName : FileTree → FileTree
  | .dir es => .dir (entriesByName es)
  | t => t

/-- The entries by name, those of every directory below as well. -/
def entriesByName : Entries → Entries
  | [] => []
  | (name, t) :: rest => putEntry name t.byName (entriesByName rest)

end

variable {es es' : Entries} {name : String} {t t' : FileTree}

theorem putEntry_eq_insertInto (name : String) (t : FileTree) (es : Entries) :
    putEntry name t es = Table.insertInto name t es := by
  induction es with
  | nil => rfl
  | cons e es ih =>
    obtain ⟨n, u⟩ := e
    unfold putEntry Table.insertInto
    by_cases hlt : name < n
    · rw [if_pos hlt, if_pos hlt]
    · rw [if_neg hlt, if_neg hlt]
      by_cases heq : name = n
      · subst heq
        simp
      · have hgt : n < name := by
          by_contra hnot
          exact heq (KeyOrder.eq_of_not_lt hlt hnot)
        simp [heq, hgt, ih]

theorem child?_cons (name' : String) : child? ((name', t) :: es) name =
    if name = name' then some t else child? es name := by
  unfold child?
  by_cases heq : name = name'
  · simp [heq]
  · simp [heq, Ne.symm heq]

/-- In order, the entry of a name is the one that is listed. -/
theorem child?_eq_some_iff (h : es.Pairwise (fun e e' => e.1 < e'.1)) :
    child? es name = some t ↔ (name, t) ∈ es := by
  induction es with
  | nil => simp [child?]
  | cons e es ih =>
    obtain ⟨n, u⟩ := e
    rw [List.pairwise_cons] at h
    rw [child?_cons, List.mem_cons]
    split
    · next heq =>
      subst heq
      have hnot : (name, t) ∉ es := fun hmem => String.lt_irrefl name (h.1 _ hmem)
      simp [hnot, eq_comm]
    · next hne => simp [hne, ih h.2]

theorem child?_entriesByName (es : Entries) (name : String) :
    child? (entriesByName es) name = (child? es name).map byName := by
  induction es with
  | nil => rfl
  | cons e es ih =>
    obtain ⟨n, u⟩ := e
    rw [entriesByName, child?_putEntry, child?_cons, ih]
    split <;> rfl

/-- To list entries by name changes nothing of what a tree holds. -/
theorem sameContent_byName (t : FileTree) : t.byName.SameContent t := by
  intro names
  induction names generalizing t with
  | nil => cases t <;> rfl
  | cons name names ih =>
    cases t with
    | file content => rfl
    | link target => rfl
    | dir es =>
      rw [byName, at?, at?, child?_entriesByName]
      cases child? es name with
      | none => rfl
      | some t => exact ih t

mutual

theorem ordered_byName (t : FileTree) : t.byName.Ordered := by
  cases t with
  | file content => exact .file content
  | link target => exact .link target
  | dir es =>
    obtain ⟨hsorted, hentries⟩ := ordered_entriesByName es
    exact .dir hsorted hentries

theorem ordered_entriesByName (es : Entries) :
    (entriesByName es).Pairwise (fun e e' => e.1 < e'.1) ∧
      ∀ e ∈ entriesByName es, e.2.Ordered := by
  match es with
  | [] => exact ⟨.nil, fun _ he => nomatch he⟩
  | (name, t) :: rest =>
    obtain ⟨hsorted, hentries⟩ := ordered_entriesByName rest
    rw [entriesByName, putEntry_eq_insertInto]
    refine ⟨Table.sorted_insertInto hsorted, fun e he => ?_⟩
    rcases Table.mem_insertInto he with rfl | he
    · exact ordered_byName t
    · exact hentries e he

end

theorem SameContent.symm (h : t.SameContent t') : t'.SameContent t := fun names => (h names).symm

/-- What stands under a name in one of two directories that hold the same stands in the other. -/
theorem SameContent.exists_child (h : (dir es).SameContent (dir es'))
    (ht : child? es name = some t) : ∃ t', child? es' name = some t' ∧ t.SameContent t' := by
  have hnames : ∀ names, (child? es' name).bind (at? names) = some t >>= at? names := by
    intro names
    have hsame := h (name :: names)
    rw [at?, at?, ht] at hsame
    exact hsame.symm
  cases ht' : child? es' name with
  | none =>
    have hitem := hnames []
    rw [ht'] at hitem
    cases hitem
  | some t' =>
    rw [ht'] at hnames
    exact ⟨t', rfl, fun names => (hnames names).symm⟩

/-- Trees that are in order and hold the same are the same. -/
theorem eq_of_sameContent (ht : t.Ordered) (ht' : t'.Ordered) (h : t.SameContent t') : t = t' := by
  induction ht generalizing t' with
  | file content =>
    have hitem := h []
    cases t' with
    | file content' =>
      cases hitem
      rfl
    | link target => cases hitem
    | dir es => cases hitem
  | link target =>
    have hitem := h []
    cases t' with
    | file content => cases hitem
    | link target' =>
      cases hitem
      rfl
    | dir es => cases hitem
  | @dir es hsorted _ ih =>
    cases ht' with
    | file content => cases h []
    | link target => cases h []
    | @dir es' hsorted' hentries' =>
      -- an entry of either directory is one of the other, by the hypothesis for the trees in `es`
      have hmem : ∀ e, e ∈ es ↔ e ∈ es' := by
        rintro ⟨name, u⟩
        constructor
        · intro hu
          obtain ⟨u', hu', hsame⟩ := h.exists_child ((child?_eq_some_iff hsorted).mpr hu)
          have hu' := (child?_eq_some_iff hsorted').mp hu'
          have heq : u = u' := ih _ hu (hentries' _ hu') hsame
          rwa [heq]
        · intro hu
          obtain ⟨u', hu', hsame⟩ := h.symm.exists_child ((child?_eq_some_iff hsorted').mpr hu)
          have hu' := (child?_eq_some_iff hsorted).mp hu'
          have heq : u' = u := ih _ hu' (hentries' _ hu) hsame.symm
          rwa [← heq]
      have hperm : es.Perm es' :=
        (List.perm_ext_iff_of_nodup (Table.nodup_entries ⟨es, hsorted⟩)
          (Table.nodup_entries ⟨es', hsorted'⟩)).mpr hmem
      rw [Table.eq_of_perm_of_sorted hperm hsorted hsorted']

/-- Trees hold the same exactly if they are the same by name. -/
theorem byName_eq_iff : t.byName = t'.byName ↔ t.SameContent t' := by
  have hsame : ∀ t : FileTree, t.byName.SameContent t := sameContent_byName
  constructor
  · intro h names
    rw [← hsame t, h, hsame t']
  · intro h
    refine eq_of_sameContent (ordered_byName t) (ordered_byName t') fun names => ?_
    rw [hsame t, h, hsame t']

theorem byName_eq_self (h : t.Ordered) : t.byName = t :=
  eq_of_sameContent (ordered_byName t) h (sameContent_byName t)

theorem entriesByName_putEntry (name : String) (t : FileTree) (es : Entries) :
    entriesByName (putEntry name t es) = putEntry name t.byName (entriesByName es) := by
  have hsame : (dir (putEntry name t es)).SameContent (dir ((name, t) :: es)) := by
    intro names
    cases names with
    | nil => rfl
    | cons name' names => rw [at?, at?, child?_putEntry, child?_cons]
  exact dir.inj (byName_eq_iff.mpr hsame)

end FileTree

/-- A place in the tree of entries by name. -/
def FilePlace.byName (p : FilePlace) : FilePlace := { p with tree := p.tree.map FileTree.byName }

namespace FileStore

/-- A directory on the way with its entries by name. -/
def Frame.byName (f : Frame) : Frame := { f with entries := FileTree.entriesByName f.entries }

/-- The position among directories with their entries by name. -/
def Cursor.byName (c : Cursor) : Cursor := ⟨c.frames.map Frame.byName⟩

variable {c : Cursor} {parts : List String} {links : Nat}

theorem Cursor.names_byName (c : Cursor) : c.byName.names = c.names := by
  unfold Cursor.names Cursor.byName
  rw [List.map_map]
  rfl

theorem Cursor.entries_byName (c : Cursor) :
    c.byName.entries = FileTree.entriesByName c.entries := by
  unfold Cursor.entries Cursor.byName
  cases c.frames <;> rfl

theorem Cursor.up_byName (c : Cursor) : c.byName.up = c.up.byName := by
  obtain ⟨frames⟩ := c
  rcases frames with - | ⟨f, - | ⟨g, rest⟩⟩ <;> rfl

theorem Cursor.top_byName (c : Cursor) : c.byName.top = c.top.byName := by
  unfold Cursor.top Cursor.byName
  rw [List.getLast?_map]
  cases c.frames.getLast? <;> rfl

theorem Cursor.child?_byName (c : Cursor) (name : String) :
    FileTree.child? c.byName.entries name =
      (FileTree.child? c.entries name).map FileTree.byName := by
  rw [c.entries_byName, FileTree.child?_entriesByName]

/-- A path leads to the same place, whatever the order of entries. -/
theorem walk_byName (follow : Bool) : walk follow links c.byName parts =
    (walk follow links c parts).map FilePlace.byName := by
  fun_induction walk follow links c parts with
  | case1 links c =>
    rw [walk, c.names_byName, c.entries_byName]
    rfl
  | case2 links c part rest hidle ih => rw [walk, if_pos hidle, ih]
  | case3 links c part rest hidle hup ih => rw [walk, if_neg hidle, if_pos hup, c.up_byName, ih]
  | case4 links c part rest hidle hup hchild hrest =>
    rw [walk, if_neg hidle, if_neg hup, c.child?_byName, hchild, c.names_byName]
    exact if_pos hrest
  | case5 links c part rest hidle hup hchild hrest =>
    rw [walk, if_neg hidle, if_neg hup, c.child?_byName, hchild]
    exact if_neg hrest
  | case6 links c part rest hidle hup es hchild ih =>
    rw [walk, if_neg hidle, if_neg hup, c.child?_byName, hchild]
    exact ih
  | case7 links c part rest hidle hup content hchild hrest =>
    rw [walk, if_neg hidle, if_neg hup, c.child?_byName, hchild, c.names_byName]
    exact if_pos hrest
  | case8 links c part rest hidle hup content hchild hrest =>
    rw [walk, if_neg hidle, if_neg hup, c.child?_byName, hchild]
    exact if_neg hrest
  | case9 links c part rest hidle hup target hchild hlast =>
    rw [walk, if_neg hidle, if_neg hup, c.child?_byName, hchild, c.names_byName]
    exact if_pos hlast
  | case10 c part rest hidle hup target hchild hlast links htarget =>
    rw [walk, if_neg hidle, if_neg hup, c.child?_byName, hchild]
    exact (if_neg hlast).trans (if_pos htarget)
  | case11 c part rest hidle hup target hchild hlast links htarget ih =>
    have hfrom : (if Path.isAbsolute target then c.byName.top else c.byName) =
        (if Path.isAbsolute target then c.top else c).byName := by
      rw [c.top_byName, apply_ite Cursor.byName]
    rw [walk, if_neg hidle, if_neg hup, c.child?_byName, hchild]
    refine ((if_neg hlast).trans (if_neg htarget)).trans ?_
    rw [hfrom]
    exact ih
  | case12 c part rest hidle hup target hchild hlast =>
    rw [walk, if_neg hidle, if_neg hup, c.child?_byName, hchild]
    exact if_neg hlast

end FileStore

end ClusterScaler
