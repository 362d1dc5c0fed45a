import ClusterScaler.Json.Basic
import ClusterScaler.Proofs.Table.Lists

/-!
# The order of members

Two values are the same up to the order of their members if one comes from the other by putting the
members of objects, at any depth, into another order. The canonical value is the same for all of them,
and is one of them (`reordered_iff_canonical_eq`).

A map from keys to values may keep its members in the order in which they were inserted, or by key. The
canonical value is rebuilt by inserting the members in the order of their keys, which gives the same
value in a map of either kind (`rebuild_eq_canonical`).
-/

set_option autoImplicit false

namespace ClusterScaler.Json

/-- Induction over a value, with the hypothesis for all items and all members. -/
@[elab_as_elim]
theorem induction {motive : Json → Prop} (null : motive .null) (bool : ∀ b, motive (.bool b))
    (num : ∀ n, motive (.num n)) (str : ∀ s, motive (.str s))
    (arr : ∀ items, (∀ j ∈ items, motive j) → motive (.arr items))
    (obj : ∀ members, (∀ m ∈ members, motive m.2) → motive (.obj members)) (j : Json) :
    motive j :=
  match j with
  | .null => null
  | .bool b => bool b
  | .num n => num n
  | .str s => str s
  | .arr items => arr items fun j _ => induction null bool num str arr obj j
  | .obj members => obj members fun m _ => induction null bool num str arr obj m.2
termination_by sizeOf j
decreasing_by
  · have := List.sizeOf_lt_of_mem ‹j ∈ items›
    rw [Json.arr.sizeOf_spec]
    omega
  · have hmember := List.sizeOf_lt_of_mem ‹m ∈ members›
    have hparts : sizeOf m = 1 + sizeOf m.1 + sizeOf m.2 := Prod.mk.sizeOf_spec m.1 m.2
    rw [Json.obj.sizeOf_spec]
    omega

/-- The members of objects, at any depth, are put into another order, time and again. -/
inductive Reordered : Json → Json → Prop where
  | refl (j : Json) : Reordered j j
  | trans {i j k : Json} (hij : Reordered i j) (hjk : Reordered j k) : Reordered i k
  | members {ms ms' : List (String × Json)} (h : ms.Perm ms') : Reordered (.obj ms) (.obj ms')
  | item (before after : List Json) {j j' : Json} (h : Reordered j j') :
    Reordered (.arr (before ++ j :: after)) (.arr (before ++ j' :: after))
  | member (before after : List (String × Json)) (key : String) {j j' : Json} (h : Reordered j j') :
    Reordered (.obj (before ++ (key, j) :: after)) (.obj (before ++ (key, j') :: after))

/-- No object, at any depth, has two members with one key. -/
inductive Distinct : Json → Prop where
  | null : Distinct .null
  | bool (b : Bool) : Distinct (.bool b)
  | num (n : JsonNumber) : Distinct (.num n)
  | str (s : String) : Distinct (.str s)
  | arr {items : List Json} (h : ∀ j ∈ items, Distinct j) : Distinct (.arr items)
  | obj {members : List (String × Json)} (hkeys : (members.map (·.1)).Nodup)
    (h : ∀ m ∈ members, Distinct m.2) : Distinct (.obj members)

@[simp]
theorem distinct_arr {items : List Json} : (arr items).Distinct ↔ ∀ j ∈ items, j.Distinct :=
  ⟨fun h => by cases h; assumption, .arr⟩

@[simp]
theorem distinct_obj {members : List (String × Json)} :
    (obj members).Distinct ↔ (members.map (·.1)).Nodup ∧ ∀ m ∈ members, m.2.Distinct :=
  ⟨fun h => by cases h; constructor <;> assumption, fun h => .obj h.1 h.2⟩

attribute [simp] Distinct.null Distinct.bool Distinct.num Distinct.str

/-- How a map keeps its members. -/
inductive MemberOrder where
  /-- In the order in which their keys were first inserted. -/
  | insertion
  /-- In the order of their keys. -/
  | key
  deriving DecidableEq

/-- Insert a member into a map. -/
def MemberOrder.insert (o : MemberOrder) (members : List (String × Json)) (m : String × Json) :
    List (String × Json) :=
  match o with
  | .insertion =>
    if m.1 ∈ members.map (·.1) then members.map (fun m' => if m'.1 = m.1 then m else m')
    else members ++ [m]
  | .key => Table.insertInto m.1 m.2 members

/-- Members in the order of their keys. -/
def sortMembers (members : List (String × Json)) : List (String × Json) :=
  members.mergeSort (fun a b => decide (a.1 ≤ b.1))

mutual

/-- A value with every map built anew, its members inserted in the order of their keys. -/
def rebuild (o : MemberOrder) : Json → Json
  | .arr items => .arr (rebuildItems o items)
  | .obj members => .obj ((sortMembers (rebuildMembers o members)).foldl o.insert [])
  | j => j

/-- `rebuild` on every item. -/
def rebuildItems (o : MemberOrder) : List Json → List Json
  | [] => []
  | j :: rest => j.rebuild o :: rebuildItems o rest

/-- `rebuild` on the value of every member. -/
def rebuildMembers (o : MemberOrder) : List (String × Json) → List (String × Json)
  | [] => []
  | (k, j) :: rest => (k, j.rebuild o) :: rebuildMembers o rest

end

variable {j j' : Json} {items items' : List Json} {members members' : List (String × Json)}
  {o : MemberOrder}

theorem canonicalItems_eq_map : canonicalItems items = items.map canonical := by
  induction items with
  | nil => rfl
  | cons j items ih => rw [canonicalItems, ih, List.map_cons]

theorem canonicalMembers_eq_map :
    canonicalMembers members = members.map (fun m => (m.1, m.2.canonical)) := by
  induction members with
  | nil => rfl
  | cons m members ih => rw [canonicalMembers, ih, List.map_cons]

theorem rebuildItems_eq_map : rebuildItems o items = items.map (rebuild o) := by
  induction items with
  | nil => rfl
  | cons j items ih => rw [rebuildItems, ih, List.map_cons]

theorem rebuildMembers_eq_map :
    rebuildMembers o members = members.map (fun m => (m.1, m.2.rebuild o)) := by
  induction members with
  | nil => rfl
  | cons m members ih => rw [rebuildMembers, ih, List.map_cons]

theorem canonical_arr : (arr items).canonical = .arr (items.map canonical) := by
  rw [canonical, canonicalItems_eq_map]

theorem canonical_obj : (obj members).canonical =
    .obj (Table.ofList (members.map fun m => (m.1, m.2.canonical))).entries := by
  rw [canonical, canonicalMembers_eq_map]

/-- Members that stand in the order of their keys stay there. -/
theorem canonical_obj_of_sorted (h : (members.map (·.1)).Pairwise (· < ·)) :
    (obj members).canonical = .obj (members.map fun m => (m.1, m.2.canonical)) := by
  have hsorted : (members.map fun m => (m.1, m.2.canonical)).Pairwise (fun a b => a.1 < b.1) :=
    List.pairwise_map.mpr (List.pairwise_map.mp h)
  rw [canonical_obj, Table.entries_ofList hsorted]

/-- The canonical value of a value in canonical form is the value. -/
theorem canonical_canonical (j : Json) : j.canonical.canonical = j.canonical := by
  induction j using induction with
  | null | bool | num | str => rfl
  | arr items ih =>
    rw [canonical_arr, canonical_arr, List.map_map]
    exact congrArg arr (List.map_congr_left ih)
  | obj members ih =>
    rw [canonical_obj, canonical_obj]
    generalize htable : Table.ofList (members.map fun m => (m.1, m.2.canonical)) = t
    have hsame : t.entries.map (fun m => (m.1, m.2.canonical)) = t.entries := by
      refine (List.map_congr_left fun e he => ?_).trans (List.map_id _)
      rw [← htable] at he
      obtain ⟨m, hm, rfl⟩ := List.mem_map.mp (Table.mem_of_mem_entries_ofList he)
      exact congrArg (Prod.mk m.1) (ih m hm)
    rw [hsame, Table.ofList_entries]

theorem keys_mapMembers (f : Json → Json) :
    (members.map fun m => (m.1, f m.2)).map (·.1) = members.map (·.1) := by
  rw [List.map_map]
  rfl

theorem Reordered.symm (h : j.Reordered j') : j'.Reordered j := by
  induction h with
  | refl j => exact .refl j
  | trans _ _ ihij ihjk => exact .trans ihjk ihij
  | members hperm => exact .members hperm.symm
  | item before after _ ih => exact .item before after ih
  | member before after key _ ih => exact .member before after key ih

theorem Reordered.distinct (h : j.Reordered j') (hj : j.Distinct) : j'.Distinct := by
  induction h with
  | refl => exact hj
  | trans _ _ ihij ihjk => exact ihjk (ihij hj)
  | members hperm =>
    rw [distinct_obj] at hj ⊢
    exact ⟨(hperm.map _).nodup_iff.mp hj.1, fun m hm => hj.2 m (hperm.mem_iff.mpr hm)⟩
  | item before after _ ih =>
    simp only [distinct_arr, List.forall_mem_append, List.forall_mem_cons] at hj ⊢
    exact ⟨hj.1, ih hj.2.1, hj.2.2⟩
  | member before after key _ ih =>
    simp only [distinct_obj, List.map_append, List.map_cons, List.forall_mem_append,
      List.forall_mem_cons] at hj ⊢
    exact ⟨hj.1, hj.2.1, ih hj.2.2.1, hj.2.2.2⟩

/-- Items that are put into another order one by one. -/
theorem reordered_mapItems {f : Json → Json} (h : ∀ j ∈ items, j.Reordered (f j)) :
    (arr items).Reordered (arr (items.map f)) := by
  have hafter : ∀ before, (arr (before ++ items)).Reordered (arr (before ++ items.map f)) := by
    induction items with
    | nil => exact fun _ => .refl _
    | cons j items ih =>
      intro before
      refine .trans (.item before items (h j List.mem_cons_self)) ?_
      simpa using ih (fun i hi => h i (List.mem_cons_of_mem _ hi)) (before ++ [f j])
  exact hafter []

theorem reordered_mapMembers {f : Json → Json} (h : ∀ m ∈ members, m.2.Reordered (f m.2)) :
    (obj members).Reordered (obj (members.map fun m => (m.1, f m.2))) := by
  have hafter : ∀ before, (obj (before ++ members)).Reordered
      (obj (before ++ members.map fun m => (m.1, f m.2))) := by
    induction members with
    | nil => exact fun _ => .refl _
    | cons m members ih =>
      intro before
      refine .trans (.member before members m.1 (h m List.mem_cons_self)) ?_
      simpa using ih (fun i hi => h i (List.mem_cons_of_mem _ hi)) (before ++ [(m.1, f m.2)])
  exact hafter []

/-- The canonical value is the same value, up to the order of members. -/
theorem reordered_canonical (h : j.Distinct) : j.Reordered j.canonical := by
  induction h with
  | null | bool | num | str => exact .refl _
  | arr _ ih =>
    rw [canonical_arr]
    exact reordered_mapItems ih
  | obj hkeys _ ih =>
    rw [canonical_obj]
    refine .trans (reordered_mapMembers ih) (.members (Table.entries_ofList_perm ?_).symm)
    rw [keys_mapMembers]
    exact hkeys

theorem canonical_eq_of_reordered (h : j.Reordered j') (hj : j.Distinct) :
    j.canonical = j'.canonical := by
  induction h with
  | refl => rfl
  | trans hij _ ihij ihjk => exact (ihij hj).trans (ihjk (hij.distinct hj))
  | members hperm =>
    rw [distinct_obj] at hj
    rw [canonical_obj, canonical_obj, Table.ofList_eq_of_perm (hperm.map _)]
    rw [keys_mapMembers]
    exact hj.1
  | item before after _ ih =>
    have hvalue := ih (distinct_arr.mp hj _ (by simp))
    simp only [canonical_arr, List.map_append, List.map_cons, hvalue]
  | member before after key _ ih =>
    have hvalue := ih ((distinct_obj.mp hj).2 (key, _) (by simp))
    simp only [canonical_obj, List.map_append, List.map_cons, hvalue]

/-- Two values are the same up to the order of members exactly if their canonical values are the
same. -/
theorem reordered_iff_canonical_eq (hj : j.Distinct) (hj' : j'.Distinct) :
    j.Reordered j' ↔ j.canonical = j'.canonical := by
  refine ⟨fun h => canonical_eq_of_reordered h hj, fun h => ?_⟩
  have hcanonical := reordered_canonical hj
  rw [h] at hcanonical
  exact hcanonical.trans (reordered_canonical hj').symm

theorem sortMembers_perm (members : List (String × Json)) : (sortMembers members).Perm members :=
  List.mergeSort_perm members _

theorem sorted_sortMembers (h : (members.map (·.1)).Nodup) :
    (sortMembers members).Pairwise (fun a b => a.1 < b.1) := by
  have hle : (sortMembers members).Pairwise (fun a b => decide (a.1 ≤ b.1) = true) := by
    refine List.pairwise_mergeSort ?_ ?_ members
    · intro a b c hab hbc
      simp only [decide_eq_true_eq] at hab hbc ⊢
      exact String.le_trans hab hbc
    · intro a b
      simpa using String.le_total a.1 b.1
  have hne : (sortMembers members).Pairwise (fun a b => a.1 ≠ b.1) := by
    have hnodup := ((sortMembers_perm members).map (·.1)).nodup_iff.mpr h
    rwa [List.Nodup, List.pairwise_map] at hnodup
  refine (hle.and hne).imp fun {a b} hab => ?_
  have hnotlt : ¬ b.1 < a.1 := String.not_lt.mpr (of_decide_eq_true hab.1)
  exact Decidable.byContradiction fun hlt => hab.2 (KeyOrder.eq_of_not_lt hlt hnotlt)

/-- Members that are inserted in the order of their keys are kept in that order. -/
theorem foldl_insert (o : MemberOrder) (h : (members' ++ members).Pairwise (fun a b => a.1 < b.1)) :
    members.foldl o.insert members' = members' ++ members := by
  induction members generalizing members' with
  | nil => simp
  | cons m members ih =>
    have hlt : ∀ e ∈ members', e.1 < m.1 :=
      fun e he => (List.pairwise_append.mp h).2.2 e he m List.mem_cons_self
    have hinsert : o.insert members' m = members' ++ [m] := by
      cases o with
      | key => exact Table.insertInto_of_lt hlt
      | insertion =>
        refine if_neg fun hmem => ?_
        obtain ⟨e, he, heq⟩ := List.mem_map.mp hmem
        have hself := hlt e he
        rw [heq] at hself
        exact String.lt_irrefl _ hself
    have hsplit : members' ++ m :: members = (members' ++ [m]) ++ members := by simp
    rw [List.foldl_cons, hinsert, hsplit, ih (hsplit ▸ h)]

/-- Whichever way maps keep their members, a value rebuilt in the order of keys is the canonical
value. -/
theorem rebuild_eq_canonical (o : MemberOrder) (h : j.Distinct) : j.rebuild o = j.canonical := by
  induction h with
  | null | bool | num | str => rfl
  | arr _ ih =>
    rw [canonical_arr, rebuild, rebuildItems_eq_map]
    exact congrArg Json.arr (List.map_congr_left ih)
  | @obj members hkeys _ ih =>
    have hvalues : rebuildMembers o members = members.map (fun m => (m.1, m.2.canonical)) := by
      rw [rebuildMembers_eq_map]
      exact List.map_congr_left fun m hm => congrArg (Prod.mk m.1) (ih m hm)
    rw [canonical_obj, rebuild, hvalues]
    generalize hms : members.map (fun m => (m.1, m.2.canonical)) = ms
    have hnodup : (ms.map (·.1)).Nodup := by
      rw [← hms, keys_mapMembers]
      exact hkeys
    have hsorted := sorted_sortMembers hnodup
    have hkept : (sortMembers ms).foldl o.insert [] = sortMembers ms := foldl_insert o hsorted
    rw [hkept]
    refine congrArg Json.obj (Table.eq_of_perm_of_sorted ?_ hsorted (Table.ofList ms).sorted)
    exact (sortMembers_perm ms).trans (Table.entries_ofList_perm hnodup).symm

end ClusterScaler.Json
