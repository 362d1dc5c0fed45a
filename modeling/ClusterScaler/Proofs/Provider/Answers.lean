import ClusterScaler.Proofs.Provider.Nodes
import ClusterScaler.Simulation.Faults

/-!
# What an answer does to the nodes

A call reaches the provider, or fails before it does. Either way the nodes that there are stay
known under the tags they were made with; only their status and the files hash are rewritten. No
node comes back to life, and none waits again once it has run.
-/

set_option autoImplicit false

namespace ClusterScaler

namespace Table

variable {κ α : Type} [KeyOrder κ]

theorem get?_insertAll [DecidableEq κ] {t : Table κ α} {es : List (κ × α)} {k : κ}
    (hes : es.Pairwise (fun a b => a.1 < b.1)) :
    (t.insertAll es).get? k = (lookupIn k es).or (t.get? k) := by
  induction es generalizing t with
  | nil => rfl
  | cons e rest ih =>
    change ((t.insert e.1 e.2).insertAll rest).get? k = _
    rw [ih (List.pairwise_cons.mp hes).2, get?_insert]
    split
    · next hk =>
      obtain ⟨hself, hrest⟩ := lookupIn_cons_self hes
      rw [hk, hself, hrest]
      rfl
    · next hk => rw [lookupIn_cons_of_ne hes hk]

theorem get?_overlay [DecidableEq κ] {t top : Table κ α} {k : κ} :
    (t.overlay top).get? k = (top.get? k).or (t.get? k) :=
  get?_insertAll top.sorted

end Table

/-- A tag that is rewritten while a node is in use. -/
def Tags.IsProgress (key : String) : Prop := key = Tags.nodeStatus ∨ key = Tags.fileSync

instance : DecidablePred Tags.IsProgress := fun key =>
  inferInstanceAs (Decidable (key = Tags.nodeStatus ∨ key = Tags.fileSync))

/-- A request rewrites no tags but those of progress. -/
def Request.Tidy : Request → Prop
  | .setNodeTags _ tags => ∀ key, ¬ Tags.IsProgress key → tags.get? key = none
  | _ => True

/-- Whether a request terminates nodes. -/
def Request.terminates : Request → Bool
  | .terminateNode _ | .terminateNodes _ => true
  | _ => false

/-- Whether a request asks for new nodes. -/
def Request.createsNodes : Request → Bool
  | .createNodes .. => true
  | _ => false

namespace InMemory

/-- What may become of a node. -/
structure Node.Becomes (n n' : Node) : Prop where
  tags : ∀ key, ¬ Tags.IsProgress key → n'.tags.get? key = n.tags.get? key
  terminated : n.phase = .terminated → n'.phase = .terminated
  waits : n'.phase = .pending → n.phase = .pending

theorem Node.Becomes.refl (n : Node) : n.Becomes n := ⟨fun _ _ => rfl, id, id⟩

theorem Node.Becomes.trans {n n' n'' : Node} (h : n.Becomes n') (h' : n'.Becomes n'') :
    n.Becomes n'' :=
  ⟨fun key hkey => (h'.tags key hkey).trans (h.tags key hkey),
    fun hphase => h'.terminated (h.terminated hphase), fun hphase => h.waits (h'.waits hphase)⟩

/-- All nodes are still known, and have become what nodes may become. -/
def Onward (p p' : InMemory) : Prop :=
  ∀ id n, p.nodes.get? id = some n → ∃ n', p'.nodes.get? id = some n' ∧ n.Becomes n'

/-- Besides, there are no new nodes and none was terminated. -/
structure Tended (p p' : InMemory) : Prop where
  onward : p.Onward p'
  same : ∀ id n', p'.nodes.get? id = some n' →
    ∃ n, p.nodes.get? id = some n ∧ (n'.phase = .terminated → n.phase = .terminated)

variable {p p' p'' : InMemory}

theorem Onward.refl (p : InMemory) : p.Onward p := fun _ n hn => ⟨n, hn, .refl n⟩

theorem Onward.trans (h : p.Onward p') (h' : p'.Onward p'') : p.Onward p'' := by
  intro id n hn
  obtain ⟨n', hn', hbecomes⟩ := h id n hn
  obtain ⟨n'', hn'', hbecomes'⟩ := h' id n' hn'
  exact ⟨n'', hn'', hbecomes.trans hbecomes'⟩

theorem Onward.of_nodes (h : p'.nodes = p.nodes) : p.Onward p' := by
  intro id n hn
  rw [← h] at hn
  exact ⟨n, hn, .refl n⟩

theorem Tended.of_nodes (h : p'.nodes = p.nodes) : p.Tended p' := by
  refine ⟨.of_nodes h, ?_⟩
  intro id n hn
  rw [h] at hn
  exact ⟨n, hn, fun hphase => hphase⟩

theorem Tended.refl (p : InMemory) : p.Tended p := .of_nodes rfl

theorem Tended.trans (h : p.Tended p') (h' : p'.Tended p'') : p.Tended p'' := by
  refine ⟨h.onward.trans h'.onward, ?_⟩
  intro id n'' hn''
  obtain ⟨n', hn', hdead'⟩ := h'.same id n'' hn''
  obtain ⟨n, hn, hdead⟩ := h.same id n' hn'
  exact ⟨n, hn, fun hphase => hdead (hdead' hphase)⟩

theorem Numbered.of_nodes (h : p.Numbered) (hnodes : p'.nodes = p.nodes) (hmade : p'.made = p.made) :
    p'.Numbered := by
  intro id n hn
  rw [hnodes] at hn
  rw [hmade]
  exact h id n hn

theorem Numbered.of_tended (h : p.Numbered) (htended : p.Tended p') (hmade : p'.made = p.made) :
    p'.Numbered := by
  intro id n' hn'
  obtain ⟨n, hn, -⟩ := htended.same id n' hn'
  rw [hmade]
  exact h id n hn

/-- The answer to a request: the provider's own, or a failure on the way to it. -/
inductive Replies (p : InMemory) (r : Request) (reply : r.Reply) (p' : InMemory) : Prop where
  | answers (files : FileStore) (programs : Programs) (w : World) :
    World.answer ⟨.inMemory p, files, programs⟩ r = (reply, w) → w.backend = .inMemory p' →
      Replies p r reply p'
  | fails (e : ProviderError) : r.failed? e = some reply → p' = p → Replies p r reply p'

variable {r : Request} {reply : r.Reply}

/-- A request that is no change of nodes leaves the nodes as they are. -/
theorem Replies.nodes (h : p.Replies r reply p') (hcreates : r.createsNodes = false)
    (hterminates : r.terminates = false) (htags : ∀ node tags, r ≠ .setNodeTags node tags) :
    p'.nodes = p.nodes ∧ p'.made = p.made := by
  cases h with
  | fails e _ hsame =>
    rw [hsame]
    exact ⟨rfl, rfl⟩
  | answers files programs w hanswer hbackend =>
    have hw : (World.answer ⟨.inMemory p, files, programs⟩ r).2.backend = .inMemory p' := by
      rw [hanswer]
      exact hbackend
    cases r with
    | setNodeTags node tags => exact absurd rfl (htags node tags)
    | createNodes template tags count => cases hcreates
    | terminateNode node => cases hterminates
    | terminateNodes nodes => cases hterminates
    | run runner command => cases runner <;> cases hw <;> exact ⟨rfl, rfl⟩
    | sync runner source target => cases runner <;> cases hw <;> exact ⟨rfl, rfl⟩
    | listNodes filter => cases hw; exact ⟨rfl, rfl⟩
    | isRunning node => cases hw; exact ⟨rfl, rfl⟩
    | isTerminated node => cases hw; exact ⟨rfl, rfl⟩
    | nodeTags node => cases hw; exact ⟨rfl, rfl⟩
    | internalIp node => cases hw; exact ⟨rfl, rfl⟩
    | externalIp node => cases hw; exact ⟨rfl, rfl⟩
    | commandRunner node auth => cases hw; exact ⟨rfl, rfl⟩
    | pause d => cases hw; exact ⟨rfl, rfl⟩

theorem Replies.setNodeTags {node : NodeId} {tags : Tags} {reply : ProviderResult Unit}
    (h : p.Replies (.setNodeTags node tags) reply p') :
    p'.made = p.made ∧
      ((∃ n, p.nodes.get? node = some n ∧ reply = .ok () ∧
          p'.nodes = p.nodes.insert node { n with tags := n.tags.overlay tags }) ∨
        ((∃ e, reply = .error e) ∧ p'.nodes = p.nodes)) := by
  cases h with
  | fails e hreply hsame =>
    rw [hsame]
    exact ⟨rfl, .inr ⟨⟨e, (Option.some.inj hreply).symm⟩, rfl⟩⟩
  | answers files programs w hanswer hbackend =>
    unfold World.answer World.change InMemory.setNodeTags find at hanswer
    dsimp only at hanswer
    cases hfound : p.nodes.get? node with
    | none =>
      rw [hfound] at hanswer
      cases hanswer
      cases hbackend
      exact ⟨rfl, .inr ⟨⟨_, rfl⟩, rfl⟩⟩
    | some n =>
      rw [hfound] at hanswer
      cases hanswer
      cases hbackend
      exact ⟨rfl, .inl ⟨n, rfl, rfl, rfl⟩⟩

theorem Replies.createNodes {template : LaunchConfig} {tags : Tags} {count : Nat}
    {reply : ProviderResult Unit} (h : p.Replies (.createNodes template tags count) reply p') :
    (reply = .ok () ∧ ∃ (q : InMemory) (phase : Phase), q.nodes = p.nodes ∧ q.made = p.made ∧
        phase ≠ .terminated ∧ p' = q.addNodes tags phase count) ∨
      ((∃ e, reply = .error e) ∧ p'.nodes = p.nodes ∧ p'.made = p.made) := by
  cases h with
  | fails e hreply hsame =>
    rw [hsame]
    exact .inr ⟨⟨e, (Option.some.inj hreply).symm⟩, rfl, rfl⟩
  | answers files programs w hanswer hbackend =>
    unfold World.answer World.change finishCreate at hanswer
    dsimp only at hanswer
    cases hfailures : p.cancelCreate.createFailures with
    | nil =>
      rw [hfailures] at hanswer
      cases hanswer
      cases hbackend
      refine .inl ⟨rfl, p.cancelCreate, _, rfl, rfl, ?_, rfl⟩
      split <;> decide
    | cons e rest =>
      rw [hfailures] at hanswer
      cases hanswer
      cases hbackend
      exact .inr ⟨⟨e, rfl⟩, rfl, rfl⟩

theorem terminateNodes_cases (p : InMemory) (ids : List NodeId) :
    (∃ q : InMemory, q.nodes = p.nodes ∧ q.made = p.made ∧
        p.terminateNodes ids = (.ok (), ids.foldl terminateLive q)) ∨
      ∃ (e : ProviderError) (q : InMemory), q.nodes = p.nodes ∧ q.made = p.made ∧
        p.terminateNodes ids = (.error e, q) := by
  unfold InMemory.terminateNodes
  dsimp only
  cases p.terminateFailures with
  | nil =>
    exact .inl ⟨{ p with terminateCalls := p.terminateCalls + 1, terminateFailures := [] },
      rfl, rfl, rfl⟩
  | cons e rest =>
    exact .inr ⟨e, { p with terminateCalls := p.terminateCalls + 1, terminateFailures := rest },
      rfl, rfl, rfl⟩

theorem Replies.terminateNodes {ids : List NodeId} {reply : ProviderResult Unit}
    (h : p.Replies (.terminateNodes ids) reply p') :
    (reply = .ok () ∧ ∃ q : InMemory, q.nodes = p.nodes ∧ q.made = p.made ∧
        p' = ids.foldl terminateLive q) ∨
      ((∃ e, reply = .error e) ∧ p'.nodes = p.nodes ∧ p'.made = p.made) := by
  cases h with
  | fails e hreply hsame =>
    rw [hsame]
    exact .inr ⟨⟨e, (Option.some.inj hreply).symm⟩, rfl, rfl⟩
  | answers files programs w hanswer hbackend =>
    unfold World.answer World.change at hanswer
    dsimp only at hanswer
    rcases p.terminateNodes_cases ids with ⟨q, hnodes, hmade, hq⟩ | ⟨e, q, hnodes, hmade, hq⟩
    · rw [hq] at hanswer
      cases hanswer
      cases hbackend
      exact .inl ⟨rfl, q, hnodes, hmade, rfl⟩
    · rw [hq] at hanswer
      cases hanswer
      cases hbackend
      exact .inr ⟨⟨e, rfl⟩, hnodes, hmade⟩

theorem Replies.terminateNode {node : NodeId} {reply : ProviderResult Unit}
    (h : p.Replies (.terminateNode node) reply p') : p.Replies (.terminateNodes [node]) reply p' := by
  cases h with
  | fails e hreply hsame => exact .fails e hreply hsame
  | answers files programs w hanswer hbackend => exact .answers files programs w hanswer hbackend

theorem Replies.listNodes {filter : Tags} {ids : List NodeId}
    (h : p.Replies (.listNodes filter) (.ok ids) p') : ids = p.listNodes filter := by
  cases h with
  | fails e hreply _ => cases hreply
  | answers files programs w hanswer _ =>
    cases hanswer
    rfl

theorem Replies.nodeTags {node : NodeId} {tags : Tags}
    (h : p.Replies (.nodeTags node) (.ok tags) p') :
    ∃ n, p.nodes.get? node = some n ∧ n.tags = tags := by
  cases h with
  | fails e hreply _ => cases hreply
  | answers files programs w hanswer _ =>
    unfold World.answer World.query find at hanswer
    dsimp only at hanswer
    cases hfound : p.nodes.get? node with
    | none =>
      rw [hfound] at hanswer
      cases hanswer
    | some n =>
      rw [hfound] at hanswer
      cases hanswer
      exact ⟨n, rfl, rfl⟩

theorem Replies.isRunning {node : NodeId} {running : Bool}
    (h : p.Replies (.isRunning node) (.ok running) p') : running = p.isIn node .running := by
  cases h with
  | fails e hreply _ => cases hreply
  | answers files programs w hanswer _ =>
    cases hanswer
    rfl

/-- Writing tags of progress leaves no new nodes and terminates none. -/
theorem tended_insert {node : NodeId} {n : Node} {tags : Tags} (hn : p.nodes.get? node = some n)
    (htidy : ∀ key, ¬ Tags.IsProgress key → tags.get? key = none)
    (hnodes : p'.nodes = p.nodes.insert node { n with tags := n.tags.overlay tags }) :
    p.Tended p' := by
  refine ⟨?_, ?_⟩
  · intro id m hm
    rw [hnodes, Table.get?_insert]
    split
    · next hid =>
      rw [hid, hn] at hm
      cases hm
      refine ⟨_, rfl, ⟨fun key hkey => ?_, fun hphase => hphase, fun hphase => hphase⟩⟩
      dsimp only
      rw [Table.get?_overlay, htidy key hkey]
      rfl
    · exact ⟨m, hm, .refl m⟩
  · intro id m hm
    rw [hnodes, Table.get?_insert] at hm
    split at hm
    · next hid =>
      cases hm
      rw [hid]
      exact ⟨n, hn, fun hphase => hphase⟩
    · exact ⟨m, hm, fun hphase => hphase⟩

/-- A tidy request that neither creates nor terminates nodes leaves the same ones. -/
theorem Replies.tended (h : p.Replies r reply p') (htidy : r.Tidy)
    (hcreates : r.createsNodes = false) (hterminates : r.terminates = false) :
    p.Tended p' ∧ p'.made = p.made := by
  by_cases htags : ∃ node tags, r = .setNodeTags node tags
  · obtain ⟨node, tags, rfl⟩ := htags
    obtain ⟨hmade, ⟨n, hn, -, hnodes⟩ | ⟨-, hnodes⟩⟩ := h.setNodeTags
    · exact ⟨tended_insert hn htidy hnodes, hmade⟩
    · exact ⟨.of_nodes hnodes, hmade⟩
  · obtain ⟨hnodes, hmade⟩ :=
      h.nodes hcreates hterminates (fun node tags heq => htags ⟨node, tags, heq⟩)
    exact ⟨.of_nodes hnodes, hmade⟩

/-- A termination leaves the nodes that it does not name as they are. -/
theorem onward_foldl_terminateLive (ids : List NodeId) (p : InMemory) :
    p.Onward (ids.foldl terminateLive p) := by
  intro id n hn
  rw [get?_foldl_terminateLive, hn]
  split
  · exact ⟨_, rfl, ⟨fun _ _ => rfl, fun _ => rfl, fun hphase => nomatch hphase⟩⟩
  · exact ⟨n, rfl, .refl n⟩

theorem numbered_foldl_terminateLive (h : p.Numbered) (ids : List NodeId) :
    (ids.foldl terminateLive p).Numbered := by
  intro id n hn
  rw [made_foldl_terminateLive]
  rw [get?_foldl_terminateLive] at hn
  split at hn
  · obtain ⟨m, hm, -⟩ := Option.map_eq_some_iff.mp hn
    exact h id m hm
  · exact h id n hn

/-- Whatever is asked, all nodes are still known afterwards, and numbered. -/
theorem Replies.onward (h : p.Replies r reply p') (htidy : r.Tidy) (hnumbered : p.Numbered) :
    p.Onward p' ∧ p'.Numbered ∧ p.made ≤ p'.made := by
  have hterminated : ∀ {ids : List NodeId} {reply : ProviderResult Unit},
      p.Replies (.terminateNodes ids) reply p' → p.Onward p' ∧ p'.Numbered ∧ p.made ≤ p'.made := by
    intro ids reply h
    rcases h.terminateNodes with ⟨-, q, hnodes, hmade, rfl⟩ | ⟨-, hnodes, hmade⟩
    · refine ⟨(Onward.of_nodes hnodes).trans (onward_foldl_terminateLive ids q),
        numbered_foldl_terminateLive (hnumbered.of_nodes hnodes hmade) ids, ?_⟩
      rw [made_foldl_terminateLive]
      exact Nat.le_of_eq hmade.symm
    · exact ⟨.of_nodes hnodes, hnumbered.of_nodes hnodes hmade, Nat.le_of_eq hmade.symm⟩
  cases r with
  | createNodes template tags count =>
    rcases h.createNodes with ⟨-, q, phase, hnodes, hmade, -, rfl⟩ | ⟨-, hnodes, hmade⟩
    · have hq := hnumbered.of_nodes hnodes hmade
      refine ⟨(Onward.of_nodes hnodes).trans ?_, hq.addNodes tags phase count, ?_⟩
      · exact fun id n hn => ⟨n, get?_addNodes hq tags phase count hn, .refl n⟩
      · rw [← hmade]
        exact made_le_addNodes q tags phase count
    · exact ⟨.of_nodes hnodes, hnumbered.of_nodes hnodes hmade, Nat.le_of_eq hmade.symm⟩
  | terminateNode node => exact hterminated h.terminateNode
  | terminateNodes ids => exact hterminated h
  | _ =>
    obtain ⟨htended, hmade⟩ := h.tended htidy rfl rfl
    exact ⟨htended.onward, hnumbered.of_tended htended hmade, Nat.le_of_eq hmade.symm⟩

end InMemory

end ClusterScaler
