import ClusterScaler.Proofs.Provider.Answers

/-!
# Listed nodes

Which nodes a provider lists depends on tags that last: those of progress are asked for by no
filter. So the same nodes are listed while they are only tended to, and after a termination all but
those that are gone.
-/

set_option autoImplicit false

namespace ClusterScaler

/-- A filter that asks for no tags of progress. -/
def Tags.Lasting (filter : Tags) : Prop := ∀ key, Tags.IsProgress key → filter.get? key = none

/-- The tags that all nodes of a cluster have. -/
def Tags.ofCluster (name : String) : Tags := Table.ofList [(Tags.clusterName, name)]

/-- The tags that all nodes of a type in a cluster have. -/
def Tags.ofType (name nodeType : String) : Tags :=
  Table.ofList [(Tags.clusterName, name), (Tags.nodeType, nodeType)]

namespace Tags

theorem satisfies_iff {tags filter : Tags} :
    tags.satisfies filter = true ↔
      ∀ key value, filter.get? key = some value → tags.get? key = some value := by
  unfold satisfies
  rw [List.all_eq_true]
  constructor
  · intro h key value hkey
    exact eq_of_beq (h (key, value) (Table.get?_eq_some_iff.mp hkey))
  · intro h e he
    exact beq_iff_eq.mpr (h e.1 e.2 (Table.get?_eq_some_iff.mpr he))

/-- Tags that agree but for progress satisfy the same lasting filters. -/
theorem Lasting.satisfies_congr {filter tags tags' : Tags} (h : filter.Lasting)
    (htags : ∀ key, ¬ IsProgress key → tags'.get? key = tags.get? key) :
    tags'.satisfies filter = tags.satisfies filter := by
  have hkeys : ∀ key value, filter.get? key = some value → tags'.get? key = tags.get? key := by
    intro key value hkey
    refine htags key fun hprogress => ?_
    rw [h key hprogress] at hkey
    cases hkey
  rw [Bool.eq_iff_iff, satisfies_iff, satisfies_iff]
  constructor
  · intro hall key value hkey
    rw [← hkeys key value hkey]
    exact hall key value hkey
  · intro hall key value hkey
    rw [hkeys key value hkey]
    exact hall key value hkey

theorem ofCluster_get? (name key : String) :
    (ofCluster name).get? key = if key = clusterName then some name else none :=
  Table.get?_insert

theorem ofType_get? (name nodeType key : String) :
    (ofType name nodeType).get? key =
      if key = Tags.nodeType then some nodeType else if key = clusterName then some name else none := by
  refine Table.get?_insert.trans ?_
  split
  · rfl
  · exact Table.get?_insert

theorem satisfies_ofCluster_iff {tags : Tags} {name : String} :
    tags.satisfies (ofCluster name) = true ↔ tags.get? clusterName = some name := by
  rw [satisfies_iff]
  constructor
  · intro h
    exact h _ _ (by rw [ofCluster_get?, if_pos rfl])
  · intro h key value hkey
    rw [ofCluster_get?] at hkey
    split at hkey
    · next heq =>
      cases hkey
      rw [heq]
      exact h
    · cases hkey

theorem satisfies_ofType_iff {tags : Tags} {name nodeType : String} :
    tags.satisfies (ofType name nodeType) = true ↔
      tags.satisfies (ofCluster name) = true ∧ tags.get? Tags.nodeType = some nodeType := by
  rw [satisfies_ofCluster_iff, satisfies_iff]
  have hne : clusterName ≠ Tags.nodeType := by decide
  constructor
  · intro h
    exact ⟨h _ _ (by rw [ofType_get?, if_neg hne, if_pos rfl]),
      h _ _ (by rw [ofType_get?, if_pos rfl])⟩
  · rintro ⟨hname, htype⟩ key value hkey
    rw [ofType_get?] at hkey
    split at hkey
    · next heq =>
      cases hkey
      rw [heq]
      exact htype
    · split at hkey
      · next heq =>
        cases hkey
        rw [heq]
        exact hname
      · cases hkey

theorem lasting_ofCluster (name : String) : (ofCluster name).Lasting := by
  rintro key (rfl | rfl) <;> exact (ofCluster_get? name _).trans (if_neg (by decide))

theorem lasting_ofType (name nodeType : String) : (ofType name nodeType).Lasting := by
  rintro key (rfl | rfl) <;>
    exact (ofType_get? name nodeType _).trans ((if_neg (by decide)).trans (if_neg (by decide)))

end Tags

namespace InMemory

variable {p p' p'' : InMemory} {filter : Tags}

theorem mem_listNodes_iff {id : NodeId} :
    id ∈ p.listNodes filter ↔
      ∃ n, p.nodes.get? id = some n ∧ n.phase ≠ .terminated ∧ n.tags.satisfies filter = true := by
  refine (mem_nodesWhere_iff (f := fun _ n => n.phase != .terminated && n.tags.satisfies filter)).trans ?_
  simp

/-- Tending to nodes leaves the same ones to be listed. -/
theorem Tended.mem_listNodes_iff (h : p.Tended p') (hfilter : filter.Lasting) {id : NodeId} :
    id ∈ p'.listNodes filter ↔ id ∈ p.listNodes filter := by
  rw [InMemory.mem_listNodes_iff, InMemory.mem_listNodes_iff]
  constructor
  · rintro ⟨n', hn', hlive, htags⟩
    obtain ⟨n, hn, -⟩ := h.same id n' hn'
    obtain ⟨m, hm, hbecomes⟩ := h.onward id n hn
    obtain rfl := Option.some.inj (hm.symm.trans hn')
    exact ⟨n, hn, fun hdead => hlive (hbecomes.terminated hdead),
      hfilter.satisfies_congr hbecomes.tags ▸ htags⟩
  · rintro ⟨n, hn, hlive, htags⟩
    obtain ⟨n', hn', hbecomes⟩ := h.onward id n hn
    obtain ⟨m, hm, hdead⟩ := h.same id n' hn'
    obtain rfl := Option.some.inj (hm.symm.trans hn)
    exact ⟨n', hn', fun hphase => hlive (hdead hphase),
      (hfilter.satisfies_congr hbecomes.tags).symm ▸ htags⟩

/-- The nodes that are gone are terminated, and the others were tended to. -/
structure Spares (p : InMemory) (gone : List NodeId) (p' : InMemory) : Prop where
  onward : p.Onward p'
  same : ∀ id n', p'.nodes.get? id = some n' →
    ∃ n, p.nodes.get? id = some n ∧ (n'.phase = .terminated → n.phase = .terminated ∨ id ∈ gone)
  gone : ∀ id ∈ gone, ∀ n', p'.nodes.get? id = some n' → n'.phase = .terminated

theorem Tended.spares (h : p.Tended p') : p.Spares [] p' := by
  refine ⟨h.onward, ?_, fun id hid => absurd hid List.not_mem_nil⟩
  intro id n' hn'
  obtain ⟨n, hn, hdead⟩ := h.same id n' hn'
  exact ⟨n, hn, fun hphase => .inl (hdead hphase)⟩

theorem Tended.trans_spares {gone : List NodeId} (h : p.Tended p') (h' : p'.Spares gone p'') :
    p.Spares gone p'' := by
  refine ⟨h.onward.trans h'.onward, ?_, h'.gone⟩
  intro id n'' hn''
  obtain ⟨n', hn', hdead'⟩ := h'.same id n'' hn''
  obtain ⟨n, hn, hdead⟩ := h.same id n' hn'
  exact ⟨n, hn, fun hphase => (hdead' hphase).imp_left hdead⟩

theorem spares_foldl_terminateLive (ids : List NodeId) (p : InMemory) :
    p.Spares ids (ids.foldl terminateLive p) := by
  refine ⟨onward_foldl_terminateLive ids p, ?_, ?_⟩
  · intro id n' hn'
    rw [get?_foldl_terminateLive] at hn'
    split at hn'
    · next hid =>
      obtain ⟨n, hn, -⟩ := Option.map_eq_some_iff.mp hn'
      exact ⟨n, hn, fun _ => .inr hid⟩
    · exact ⟨n', hn', fun hphase => .inl hphase⟩
  · intro id hid n' hn'
    rw [get?_foldl_terminateLive, if_pos hid] at hn'
    obtain ⟨n, -, rfl⟩ := Option.map_eq_some_iff.mp hn'
    rfl

end InMemory

end ClusterScaler
