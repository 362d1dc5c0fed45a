import ClusterScaler.Proofs.Provider.Listing

/-!
# What operations do to the nodes in memory

Whatever is asked of the provider, its nodes change in one of three ways: there are new ones (`Adds`),
some are terminated (`Ends`), or each becomes what it may become without being terminated (`Alters`).
Here each part of an operation is described by one of them.
-/

set_option autoImplicit false

namespace ClusterScaler.InMemory

/-- Nodes and log are the same: only calls are counted and failures queued. -/
structure Same (p p' : InMemory) : Prop where
  nodes : p'.nodes = p.nodes
  made : p'.made = p.made
  log : p'.terminated = p.terminated

/-- There are new nodes, all of a kind, and everything else is the same. -/
structure Adds (p : InMemory) (new : List NodeId) (tags : Tags) (phase : Phase) (p' : InMemory) :
    Prop where
  distinct : new.Nodup
  unknown : ∀ id ∈ new, p.nodes.get? id = none
  added : ∀ id ∈ new, ∃ address, p'.nodes.get? id = some ⟨phase, tags, address⟩
  others : ∀ id, id ∉ new → p'.nodes.get? id = p.nodes.get? id
  log : p'.terminated = p.terminated

/-- The named nodes are terminated, and those that were not before are logged. -/
structure Ends (p : InMemory) (ids : List NodeId) (p' : InMemory) : Prop where
  made : p'.made = p.made
  nodes : ∀ id, p'.nodes.get? id =
    if id ∈ ids then (p.nodes.get? id).map (fun n => { n with phase := .terminated })
    else p.nodes.get? id
  log : ∃ gone, p'.terminated = p.terminated ++ gone ∧ gone.Nodup ∧
    ∀ id, id ∈ gone ↔ id ∈ ids ∧ id ∈ p.live

/-- Nodes change, but none is new and none is terminated. -/
structure Alters (p p' : InMemory) : Prop where
  nodes : ∀ id, ∃ change : Node → Node, p'.nodes.get? id = (p.nodes.get? id).map change ∧
    ∀ n, (change n).phase = .terminated ↔ n.phase = .terminated
  made : p'.made = p.made
  log : p'.terminated = p.terminated

variable {p p' : InMemory}

theorem Same.refl (p : InMemory) : p.Same p := ⟨rfl, rfl, rfl⟩

theorem Same.alters (h : p.Same p') : p.Alters p' :=
  ⟨fun _ => ⟨id, by rw [h.nodes, Option.map_id, id_eq], fun _ => Iff.rfl⟩, h.made, h.log⟩

/-- The identifiers of the next nodes. -/
def nextIds (p : InMemory) (count : Nat) : List NodeId := (List.range' (p.made + 1) count).map idOf

theorem mem_nextIds_iff {count : Nat} {id : NodeId} :
    id ∈ p.nextIds count ↔ ∃ k, p.made < k ∧ k ≤ p.made + count ∧ id = idOf k := by
  unfold nextIds
  simp only [List.mem_map, List.mem_range'_1]
  constructor
  · rintro ⟨k, hk, rfl⟩
    exact ⟨k, by omega, by omega, rfl⟩
  · rintro ⟨k, hlow, hhigh, rfl⟩
    exact ⟨k, by omega, rfl⟩

theorem made_addNodes (p : InMemory) (tags : Tags) (phase : Phase) (count : Nat) :
    (p.addNodes tags phase count).made = p.made + count ∧
      (p.addNodes tags phase count).terminated = p.terminated := by
  induction count generalizing p with
  | zero => exact ⟨rfl, rfl⟩
  | succ count ih =>
    obtain ⟨hmade, hlog⟩ := ih (p.addNode tags phase)
    refine ⟨?_, hlog⟩
    have hfirst : (p.addNode tags phase).made = p.made + 1 := rfl
    rw [addNodes, hmade, hfirst]
    omega

/-- Nodes are made with the next identifiers and with no others. -/
theorem get?_addNodes_iff (p : InMemory) (tags : Tags) (phase : Phase) (count : Nat) :
    (∀ id ∈ p.nextIds count, ∃ address,
        (p.addNodes tags phase count).nodes.get? id = some ⟨phase, tags, address⟩) ∧
      ∀ id, id ∉ p.nextIds count →
        (p.addNodes tags phase count).nodes.get? id = p.nodes.get? id := by
  induction count generalizing p with
  | zero => exact ⟨fun id hid => absurd hid List.not_mem_nil, fun id _ => rfl⟩
  | succ count ih =>
    obtain ⟨hnew, hold⟩ := ih (p.addNode tags phase)
    have hsplit : ∀ id, id ∈ p.nextIds (count + 1) ↔
        id = idOf (p.made + 1) ∨ id ∈ (p.addNode tags phase).nextIds count := by
      intro id
      rw [nextIds, List.range'_succ, List.map_cons, List.mem_cons]
      rfl
    have hfirst : idOf (p.made + 1) ∉ (p.addNode tags phase).nextIds count := by
      intro hmem
      obtain ⟨k, hlow, -, hid⟩ := mem_nextIds_iff.mp hmem
      have heq := idOf_injective hid
      have hmade : (p.addNode tags phase).made = p.made + 1 := rfl
      omega
    constructor
    · intro id hid
      rcases (hsplit id).mp hid with rfl | hlater
      · refine ⟨addressOf (p.made + 1), ?_⟩
        rw [addNodes, hold _ hfirst, get?_addNode, if_pos rfl]
      · exact hnew id hlater
    · intro id hid
      obtain ⟨hne, hlater⟩ := not_or.mp (mt (hsplit id).mpr hid)
      rw [addNodes, hold id hlater, get?_addNode, if_neg hne]

theorem adds_addNodes (h : p.Numbered) (tags : Tags) (phase : Phase) (count : Nat) :
    p.Adds (p.nextIds count) tags phase (p.addNodes tags phase count) := by
  obtain ⟨hnew, hold⟩ := get?_addNodes_iff p tags phase count
  refine ⟨?_, ?_, hnew, hold, (made_addNodes p tags phase count).2⟩
  · have hnumbers : (List.range' (p.made + 1) count).Nodup := List.nodup_range'
    rw [nextIds, List.Nodup, List.pairwise_map]
    exact hnumbers.imp fun hne hid => hne (idOf_injective hid)
  · intro id hid
    obtain ⟨k, hlow, -, rfl⟩ := mem_nextIds_iff.mp hid
    cases hfound : p.nodes.get? (idOf k) with
    | none => rfl
    | some n =>
      obtain ⟨k', hk', hsame⟩ := h _ n hfound
      have heq := idOf_injective hsame
      omega

theorem mem_live_iff {id : NodeId} :
    id ∈ p.live ↔ ∃ n, p.nodes.get? id = some n ∧ n.phase ≠ .terminated := by
  refine (mem_nodesWhere_iff (f := fun _ n => n.phase != .terminated)).trans ?_
  simp

/-- One node is terminated and logged if it is live, and nothing is done if it is not. -/
theorem terminateLive_cases (p : InMemory) (id : NodeId) :
    (id ∈ p.live ∧ (p.terminateLive id).terminated = p.terminated ++ [id]) ∨
      (id ∉ p.live ∧ p.terminateLive id = p) := by
  unfold terminateLive
  rw [mem_live_iff]
  cases hfound : p.nodes.get? id with
  | none =>
    refine .inr ⟨?_, rfl⟩
    rintro ⟨n, hn, -⟩
    cases hn
  | some n =>
    dsimp only
    split
    · next hphase =>
      refine .inr ⟨?_, rfl⟩
      rintro ⟨m, hm, hlive⟩
      exact hlive (Option.some.inj hm ▸ hphase)
    · next hphase => exact .inl ⟨⟨n, rfl, hphase⟩, rfl⟩

theorem mem_live_terminateLive_iff {id first : NodeId} :
    id ∈ (p.terminateLive first).live ↔ id ≠ first ∧ id ∈ p.live := by
  have hnodes := get?_foldl_terminateLive [first] p id
  simp only [List.foldl_cons, List.foldl_nil, List.mem_singleton] at hnodes
  rw [mem_live_iff, mem_live_iff, hnodes]
  split
  · next hid => simp [hid]
  · next hid => simp [hid]

/-- A node is logged when it is terminated, and only then. -/
theorem ends_foldl_terminateLive (ids : List NodeId) (p : InMemory) :
    p.Ends ids (ids.foldl terminateLive p) := by
  refine ⟨made_foldl_terminateLive ids p, get?_foldl_terminateLive ids p, ?_⟩
  induction ids generalizing p with
  | nil => exact ⟨[], (List.append_nil _).symm, List.nodup_nil, fun id => by simp⟩
  | cons first rest ih =>
    obtain ⟨gone, hlog, hnodup, hgone⟩ := ih (p.terminateLive first)
    simp only [mem_live_terminateLive_iff] at hgone
    rcases terminateLive_cases p first with ⟨hlive, hfirst⟩ | ⟨hdead, hfirst⟩
    · refine ⟨first :: gone, ?_, ?_, ?_⟩
      · rw [List.foldl_cons, hlog, hfirst, List.append_assoc, List.singleton_append]
      · exact List.nodup_cons.mpr ⟨fun hmem => ((hgone first).mp hmem).2.1 rfl, hnodup⟩
      · intro id
        rw [List.mem_cons, List.mem_cons, hgone]
        by_cases hid : id = first
        · simp [hid, hlive]
        · simp [hid]
    · refine ⟨gone, ?_, hnodup, ?_⟩
      · rw [List.foldl_cons, hlog, hfirst]
      · intro id
        rw [List.mem_cons, hgone]
        by_cases hid : id = first
        · simp [hid, hdead]
        · simp [hid]

/-- A node that is there is changed, without being terminated. -/
theorem get?_insert_change {node : NodeId} {n : Node} (change : Node → Node)
    (hfound : p.nodes.get? node = some n)
    (hphase : ∀ n, (change n).phase = .terminated ↔ n.phase = .terminated) (id : NodeId) :
    ∃ f : Node → Node, (p.nodes.insert node (change n)).get? id = (p.nodes.get? id).map f ∧
      ∀ n, (f n).phase = .terminated ↔ n.phase = .terminated := by
  by_cases hid : id = node
  · subst hid
    exact ⟨change, by rw [Table.get?_insert_self, hfound, Option.map_some], hphase⟩
  · exact ⟨fun n => n, by rw [Table.get?_insert_of_ne hid, Option.map_id'], fun _ => Iff.rfl⟩

/-- Giving tags to a node changes no phase. -/
theorem alters_setNodeTags (p : InMemory) (node : NodeId) (tags : Tags) :
    p.Alters (p.setNodeTags node tags).2 := by
  unfold setNodeTags find
  cases hfound : p.nodes.get? node with
  | none => exact (Same.refl p).alters
  | some n =>
    exact ⟨get?_insert_change (fun n => { n with tags := n.tags.overlay tags }) hfound
      fun _ => Iff.rfl, rfl, rfl⟩

theorem started_phase_iff (n : Node) : n.started.phase = .terminated ↔ n.phase = .terminated := by
  unfold Node.started
  split
  · next hphase => simp [hphase]
  · rfl

theorem alters_setRunning (p : InMemory) (node : NodeId) : p.Alters (p.setRunning node) := by
  unfold setRunning
  cases hfound : p.nodes.get? node with
  | none => exact (Same.refl p).alters
  | some n =>
    exact ⟨get?_insert_change Node.started hfound started_phase_iff, rfl, rfl⟩

theorem alters_runAllPending (p : InMemory) : p.Alters p.runAllPending :=
  ⟨fun _ => ⟨Node.started, Table.get?_mapValues, started_phase_iff⟩, rfl, rfl⟩

end ClusterScaler.InMemory
