import ClusterScaler.Proofs.Labels.Hashes
import ClusterScaler.Proofs.Tick.Memory
import ClusterScaler.Proofs.Tick.Records

/-!
# Labels on nodes

As long as the hashes stay the same, a node that a loop has had made carries the launch hash of its
type: its launch order has given it that label, and updaters write other tags. So whenever a tick
reads such a node, its type is known and its launch hash is the right one.
-/

set_option autoImplicit false

namespace ClusterScaler

open Program InMemory

/-- What others do to the nodes: they write no tags, and the nodes that they put there are theirs. -/
structure Apart (others : NodeId → Prop) (p p' : InMemory) : Prop extends LeavesTags p p' where
  added : ∀ id n', p'.nodes.get? id = some n' → others id ∨ ∃ n, p.nodes.get? id = some n

/-- Every node is that of others, or an old one with the same tags but for those of progress. -/
def KeepsLabels (others : NodeId → Prop) (p p' : InMemory) : Prop :=
  ∀ id n', p'.nodes.get? id = some n' → others id ∨ ∃ n, p.nodes.get? id = some n ∧
    ∀ key, ¬ Tags.IsProgress key → n'.tags.get? key = n.tags.get? key

theorem Tags.Labelled.congr {hashes : Table String NodeTypeHashes} {tags tags' : Tags}
    (h : tags.Labelled hashes)
    (hkeys : ∀ key, ¬ Tags.IsProgress key → tags'.get? key = tags.get? key) :
    tags'.Labelled hashes := by
  obtain ⟨nodeType, hs, htype, hget, hlaunch⟩ := h
  exact ⟨nodeType, hs, (hkeys _ (by decide)).trans htype, hget, (hkeys _ (by decide)).trans hlaunch⟩

/-- A node with the label of its type is never one of unknown type or with another launch hash. -/
theorem ControlLoop.forcedReason_of_labelled {l : ControlLoop} {n : NodeRecord}
    (h : n.tags.Labelled l.hashes) (now : Nat) :
    l.forcedReason now n ≠ some .unknownType ∧ l.forcedReason now n ≠ some .launchDrift := by
  obtain ⟨nodeType, hs, htype, hget, hlaunch⟩ := h
  have hhashes : l.hashesFor? n = some hs := by
    unfold hashesFor? NodeRecord.nodeType?
    rw [htype]
    exact hget
  unfold forcedReason
  rw [hhashes, hlaunch]
  dsimp only
  rw [bne_self_eq_false, if_neg Bool.false_ne_true]
  split
  · exact ⟨nofun, nofun⟩
  · split
    · exact ⟨nofun, nofun⟩
    · split <;> exact ⟨nofun, nofun⟩

namespace KeepsLabels

variable {others : NodeId → Prop} {p p' : InMemory}

theorem of_tended (h : p.Tended p') : KeepsLabels others p p' := by
  intro id n' hn'
  obtain ⟨n, hn, -⟩ := h.same id n' hn'
  obtain ⟨n'', hn'', hbecomes⟩ := h.onward id n hn
  obtain rfl := Option.some.inj (hn'.symm.trans hn'')
  exact .inr ⟨n, hn, hbecomes.tags⟩

theorem of_apart (h : Apart others p p') : KeepsLabels others p p' := by
  intro id n' hn'
  refine (h.added id n' hn').imp_right ?_
  rintro ⟨n, hn⟩
  obtain ⟨n'', hn'', hbecomes, -⟩ := h.nodes id n hn
  obtain rfl := Option.some.inj (hn'.symm.trans hn'')
  exact ⟨n, hn, hbecomes.tags⟩

/-- Plain requests keep labels, since they write no tags and make no nodes. -/
theorem of_plain {r : Request} {reply : r.Reply} (hr : (Question.request r).Plain)
    (hreplies : p.Replies r reply p') : KeepsLabels others p p' := by
  rcases hr with hlooks | ⟨nodes, rfl⟩
  · obtain ⟨htidy, hcreates, hterminates, -⟩ := Request.of_looks hlooks
    exact .of_tended (hreplies.tended htidy hcreates hterminates).1
  · rcases hreplies.terminateNodes with ⟨-, q, hnodes, -, rfl⟩ | ⟨-, hnodes, -⟩
    · intro id n' hn'
      rw [get?_foldl_terminateLive, hnodes] at hn'
      split at hn'
      · obtain ⟨n, hn, rfl⟩ := Option.map_eq_some_iff.mp hn'
        exact .inr ⟨n, hn, fun _ _ => rfl⟩
      · exact .inr ⟨n', hn', fun _ _ => rfl⟩
    · exact .of_tended (.of_nodes hnodes)

end KeepsLabels

namespace Service

/-- Every node is that of others or labelled, and so is every node that a launch order may bring. -/
structure Labelled (hashes : Table String NodeTypeHashes) (others : NodeId → Prop) (s : Service) :
    Prop where
  sound : s.Sound
  nodes : ∀ id n, s.provider.nodes.get? id = some n → others id ∨ n.tags.Labelled hashes
  launches : ∀ rest ∈ s.launches, ∃ tags k, Owes tags k rest ∧ tags.Labelled hashes

namespace Labelled

variable {files : FileStore} {hashes : Table String NodeTypeHashes} {others : NodeId → Prop}
  {s s' : Service}

theorem keep (h : s.Labelled hashes others) (hsound : s'.Sound)
    (hnodes : KeepsLabels others s.provider s'.provider)
    (hlaunches : ∀ rest ∈ s'.launches, ∃ tags k, Owes tags k rest ∧ tags.Labelled hashes) :
    s'.Labelled hashes others := by
  refine ⟨hsound, ?_, hlaunches⟩
  intro id n' hn'
  rcases hnodes id n' hn' with hother | ⟨n, hn, hkeys⟩
  · exact .inl hother
  · exact (h.nodes id n hn).imp_right fun hlabelled => hlabelled.congr hkeys

/-- Whatever goes on beside a tick, nodes stay labelled, and new ones are. -/
theorem step (h : s.Labelled hashes others) (hstep : Step (Apart others) s s') :
    s'.Labelled hashes others := by
  have hsound : s'.Sound := h.sound.step (fun _ _ hp => hp.numbered) hstep
  cases hstep with
  | outside hp => exact h.keep hsound (.of_apart hp) h.launches
  | @launch r next rest reply p hperm hreplies =>
    -- what the order brings carries the tags that it owes
    obtain ⟨tags, k, howes, hlabelled⟩ := h.launches _ (hperm.mem_iff.mpr List.mem_cons_self)
    obtain ⟨⟨template, count, rfl, -⟩, hrest⟩ := howes.answered reply
    refine ⟨hsound, ?_, ?_⟩
    · intro id n hn
      rcases hreplies.createNodes with ⟨-, q, phase, hnodes, -, -, rfl⟩ | ⟨-, hnodes, -⟩
      · rcases get?_of_addNodes hn with hold | htags
        · rw [hnodes] at hold
          exact h.nodes id n hold
        · rw [htags]
          exact .inr hlabelled
      · have hold : s.provider.nodes.get? id = some n := hnodes ▸ hn
        exact h.nodes id n hold
    · intro rest' hmem
      rcases List.mem_cons.mp hmem with rfl | hmem
      · exact ⟨tags, _, hrest, hlabelled⟩
      · exact h.launches rest' (hperm.mem_iff.mpr (List.mem_cons_of_mem _ hmem))
  | @update u r next rest reply p hperm hreplies =>
    -- an updater writes no tags but those of progress
    obtain ⟨hprovider, hlaunches⟩ := provider_goOn { s with provider := p } u rest (next reply)
    refine h.keep hsound ?_ (by rw [hlaunches]; exact h.launches)
    rw [hprovider]
    exact .of_tended (h.sound.tended hperm hreplies).1
  | @timeout u rest updaters hperm =>
    obtain ⟨hprovider, hlaunches⟩ :=
      s.provider_goOn u updaters (u.conclude (.error (.timeout u.timeout)))
    refine h.keep hsound ?_ (by rw [hlaunches]; exact h.launches)
    rw [hprovider]
    exact .of_tended (.refl _)
  | panic hperm => exact h.keep hsound (.of_tended (.refl _)) h.launches

theorem steps (h : s.Labelled hashes others) (hsteps : Steps (Apart others) s s') :
    s'.Labelled hashes others := by
  induction hsteps with
  | refl => exact h
  | tail _ hstep ih => exact ih.step hstep

/-- Wherever all but the nodes of others are labelled, the answers of the service tell so. -/
theorem tells {q : Question} {reply : q.Reply} (h : s.Labelled hashes others)
    (hserved : q.ServedBy (Apart others) reply s s') :
    q.Tells (fun id tags => others id ∨ tags.Labelled hashes) reply := by
  unfold Question.Tells
  split
  · next id reply =>
    intro tags hanswer
    obtain ⟨m, p, hsteps, hreplies, -, -⟩ := hserved
    rw [hanswer] at hreplies
    obtain ⟨n, hn, rfl⟩ := hreplies.nodeTags
    exact (h.steps hsteps).nodes id n hn
  · trivial

/-- When a faithful question has been answered, nodes are labelled as before. -/
theorem served {q : Question} {reply : q.Reply} (h : s.Labelled hashes others)
    (hq : q.Faithful files hashes) (hserved : q.ServedBy (Apart others) reply s s') :
    s'.Labelled hashes others := by
  have hsound : s'.Sound :=
    ((hserved.mono fun _ _ hp => hp.toLeavesTags).since h.sound hq.plain).1.sound
  cases q with
  | request r =>
    obtain ⟨m, p, hsteps, hreplies, -, rfl⟩ := hserved
    have hm := h.steps hsteps
    exact hm.keep hsound (.of_plain hq.plain hreplies) hm.launches
  | awaitLaunch =>
    obtain ⟨m, rest, launches, hsteps, hperm, -, -, rfl⟩ := hserved
    have hm := h.steps hsteps
    exact hm.keep hsound (.of_tended (.refl _)) fun rest' hrest' =>
      hm.launches rest' (hperm.mem_iff.mpr (List.mem_cons_of_mem _ hrest'))
  | dispatch u =>
    cases hserved
    exact h.keep hsound (.of_tended (.refl _)) h.launches
  | abandon nodes =>
    cases hserved
    exact h.keep hsound (.of_tended (.refl _)) h.launches
  | launch o =>
    cases hserved
    refine h.keep hsound (.of_tended (.refl _)) ?_
    intro rest hrest
    rcases List.mem_cons.mp hrest with rfl | hrest
    · exact ⟨_, _, owes_routine hq.plain, (hq.order o rfl).2⟩
    · exact h.launches rest hrest

/-- After an exchange of faithful questions nodes are labelled as before, and all answers have told
so. -/
theorem follows {trace : List TickExchange} (h : s.Labelled hashes others)
    (hfaithful : ∀ x ∈ trace, x.op.question.Faithful files hashes)
    (hfollows : Follows (Service.protocol (Apart others)) s trace s') :
    s'.Labelled hashes others ∧ ∀ x ∈ trace,
      x.op.question.Tells (fun id tags => others id ∨ tags.Labelled hashes) x.reply := by
  induction hfollows with
  | nil s => exact ⟨h, fun x hx => absurd hx List.not_mem_nil⟩
  | cons hserved _ ih =>
    have hnext := h.served (hfaithful _ List.mem_cons_self) hserved
    obtain ⟨hlast, htells⟩ := ih hnext fun x hx => hfaithful x (List.mem_cons_of_mem _ hx)
    refine ⟨hlast, fun x hx => ?_⟩
    rcases List.mem_cons.mp hx with rfl | hx
    · exact h.tells hserved
    · exact htells x hx

end Labelled

end Service

end ClusterScaler
