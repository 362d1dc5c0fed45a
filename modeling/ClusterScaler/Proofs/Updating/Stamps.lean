import ClusterScaler.Proofs.Exclusion.Watch
import ClusterScaler.Proofs.Provider.Listing
import ClusterScaler.Proofs.Service.Launches

/-!
# The files hashes that updates leave

A node carries the files hash of the last update of it that succeeded, since the final write of an
update and its success are one step. Beside a tick, updaters neither appear nor get lost, and a node
without one keeps its files hash.
-/

set_option autoImplicit false

namespace ClusterScaler

open Program InMemory

/-- Nodes may be put there, set running and terminated, but no tags are written. -/
structure LeavesTags (p p' : InMemory) : Prop where
  nodes : ∀ id n, p.nodes.get? id = some n →
    ∃ n', p'.nodes.get? id = some n' ∧ n.Becomes n' ∧ n'.tags = n.tags
  numbered : p.Numbered → p'.Numbered

theorem LeavesTags.keepsNumbered (p p' : InMemory) (h : LeavesTags p p') (hp : p.Numbered) :
    p'.Numbered := h.numbered hp

/-- The nodes are still there, and all but some keep their files hash. -/
def KeepsStamps (except : NodeId → Prop) (p p' : InMemory) : Prop :=
  ∀ id n, p.nodes.get? id = some n → ∃ n', p'.nodes.get? id = some n' ∧ n.Becomes n' ∧
    (¬ except id → n'.tags.get? Tags.fileSync = n.tags.get? Tags.fileSync)

theorem KeepsStamps.of_nodes {except : NodeId → Prop} {p p' : InMemory}
    (h : p'.nodes = p.nodes) : KeepsStamps except p p' := by
  intro id n hn
  exact ⟨n, h.symm ▸ hn, .refl n, fun _ => rfl⟩

theorem KeepsStamps.mono {except except' : NodeId → Prop} {p p' : InMemory}
    (h : KeepsStamps except p p') (himp : ∀ id, except id → except' id) :
    KeepsStamps except' p p' := by
  intro id n hn
  obtain ⟨n', hn', hbecomes, hstamp⟩ := h id n hn
  exact ⟨n', hn', hbecomes, fun hnot => hstamp (fun hexcept => hnot (himp id hexcept))⟩

theorem KeepsStamps.trans {except : NodeId → Prop} {p p' p'' : InMemory}
    (h : KeepsStamps except p p') (h' : KeepsStamps except p' p'') : KeepsStamps except p p'' := by
  intro id n hn
  obtain ⟨n', hn', hbecomes, hstamp⟩ := h id n hn
  obtain ⟨n'', hn'', hbecomes', hstamp'⟩ := h' id n' hn'
  exact ⟨n'', hn'', hbecomes.trans hbecomes', fun hnot => (hstamp' hnot).trans (hstamp hnot)⟩

namespace Update

variable {u : Update} {r : Request} {next : r.Reply → Routine UpdateResult} {p p' : InMemory}
  {reply : r.Reply}

/-- An answer on the way of an update: its final tags are written and it has succeeded, or it goes on
and every node keeps its files hash. -/
theorem OnItsWay.stamps (h : u.OnItsWay (.ask r next)) (hreplies : p.Replies r reply p') :
    (∃ n, p.nodes.get? u.request.node = some n ∧
        p'.nodes = p.nodes.insert u.request.node { n with tags := n.tags.overlay u.finalTags } ∧
          next reply = .done (.ok ())) ∨
      (KeepsStamps (fun _ => False) p p' ∧ u.OnItsWay (next reply)) := by
  obtain ⟨hpermitted, hanswered⟩ := h.answered reply
  -- what is no write of tags changes no node
  have hsame : (∀ node tags, r ≠ .setNodeTags node tags) → u.OnItsWay (next reply) →
      KeepsStamps (fun _ => False) p p' ∧ u.OnItsWay (next reply) := by
    intro htags hrest
    rcases hpermitted with hminor | rfl
    · exact ⟨.of_nodes (hreplies.nodes hminor.creates hminor.terminates htags).1, hrest⟩
    · exact absurd rfl (htags _ _)
  cases r with
  | setNodeTags node tags =>
    rcases hreplies.setNodeTags.2 with ⟨n, hn, rfl, hnodes⟩ | ⟨⟨e, rfl⟩, hnodes⟩
    · rcases hanswered with ⟨hcompletes, hdone⟩ | ⟨hcompletes, hrest⟩
      · left
        have htags : tags = u.finalTags := by simpa [completes] using hcompletes
        have hnode : node = u.request.node := by
          rcases hpermitted with hminor | hfinal
          · exact (hminor.tags node tags rfl).1
          · exact (Request.setNodeTags.inj hfinal).1
        subst htags hnode
        exact ⟨n, hn, hnodes, hdone⟩
      · right
        refine ⟨?_, hrest⟩
        have hminor : u.Minor (.setNodeTags node tags) := by
          refine hpermitted.resolve_right fun hfinal => ?_
          rw [(Request.setNodeTags.inj hfinal).2] at hcompletes
          simp [completes] at hcompletes
        intro id m hm
        rw [hnodes, Table.get?_insert]
        split
        · next hid =>
          subst hid
          obtain rfl := Option.some.inj (hn.symm.trans hm)
          have hkeys := (hminor.tags id tags rfl).2
          have hoverlay : ∀ key, key ≠ Tags.nodeStatus →
              (n.tags.overlay tags).get? key = n.tags.get? key := by
            intro key hkey
            rw [Table.get?_overlay, hkeys key hkey]
            rfl
          exact ⟨_, rfl, ⟨fun key hkey => hoverlay key (fun heq => hkey (.inl heq)), fun h => h,
            fun h => h⟩, fun _ => hoverlay _ (by decide)⟩
        · exact ⟨m, hm, .refl m, fun _ => rfl⟩
    · right
      rcases hanswered with ⟨hcompletes, -⟩ | ⟨-, hrest⟩
      · cases hcompletes
      · exact ⟨.of_nodes hnodes, hrest⟩
  | _ =>
    right
    refine hsame (fun _ _ heq => by cases heq) (hanswered.resolve_left fun hdone => ?_).2
    cases hdone.1

end Update

namespace Service

/-- How many updaters of each node are under way: those at work, and those whose ends nobody has taken
note of yet. -/
def flights (s : Service) : Flights := fun n =>
  s.updaters.countP (fun x => x.update.request.node = n) + Flights.ends s.ends n

/-- The files hash that the last successful update of a node brought. -/
def latest (s : Service) (n : NodeId) : Option ConfigHash :=
  ((s.successes.filter (·.1 = n)).getLast?).map (·.2)

/-- Every node that was brought up to date carries the hash of the last time. -/
def Stamped (s : Service) : Prop :=
  ∀ n h, s.latest n = some h →
    ∃ x, s.provider.nodes.get? n = some x ∧ x.tags.get? Tags.fileSync = some h.hex

variable {s s' s'' : Service}

theorem flights_pos {x : Updater} (h : x ∈ s.updaters) : 0 < s.flights x.update.request.node :=
  Nat.add_pos_left (List.countP_pos_iff.mpr ⟨x, h, decide_eq_true rfl⟩) _

theorem flights_goOn (s : Service) (u : Update) (others : List Updater)
    (rest : Routine UpdateResult) (n : NodeId) :
    (s.goOn u others rest).flights n =
      (if u.request.node = n then 1 else 0) +
        others.countP (fun x => x.update.request.node = n) + Flights.ends s.ends n := by
  cases rest with
  | done result =>
    unfold goOn flights Flights.ends
    simp only [List.countP_append, List.countP_singleton, decide_eq_true_eq]
    omega
  | ask r next =>
    unfold goOn flights
    simp only [List.countP_cons, decide_eq_true_eq]
    omega

theorem flights_perm {x : Updater} {others : List Updater} (h : s.updaters.Perm (x :: others))
    (n : NodeId) :
    s.flights n = (if x.update.request.node = n then 1 else 0) +
      others.countP (fun x => x.update.request.node = n) + Flights.ends s.ends n := by
  unfold flights
  rw [h.countP_eq, List.countP_cons]
  simp only [decide_eq_true_eq]
  omega

/-- What went on beside a tick: no updater appeared or got lost, nodes without one keep their files
hash, and all keep the hash of their last update. -/
structure WentOn (s s' : Service) : Prop where
  sound : s'.Sound
  flights : s'.flights = s.flights
  nodes : KeepsStamps (fun id => s.flights id ≠ 0) s.provider s'.provider
  stamped : s.Stamped → s'.Stamped

theorem WentOn.refl (h : s.Sound) : s.WentOn s := ⟨h, rfl, .of_nodes rfl, fun h => h⟩

theorem WentOn.trans (h : s.WentOn s') (h' : s'.WentOn s'') : s.WentOn s'' := by
  refine ⟨h'.sound, h'.flights.trans h.flights, h.nodes.trans ?_, fun hs => h'.stamped (h.stamped hs)⟩
  rw [← h.flights]
  exact h'.nodes

theorem Stamped.of_keeps (h : s.Stamped) (hsuccesses : s'.successes = s.successes)
    (hnodes : KeepsStamps (fun _ => False) s.provider s'.provider) : s'.Stamped := by
  intro n hash hlatest
  unfold latest at hlatest
  rw [hsuccesses] at hlatest
  obtain ⟨x, hx, hstamp⟩ := h n hash hlatest
  obtain ⟨x', hx', -, hsame⟩ := hnodes n x hx
  exact ⟨x', hx', (hsame (fun hfalse => hfalse)).trans hstamp⟩

/-- Where no files hash is written, things just went on. -/
theorem WentOn.of_keeps (hsound : s'.Sound) (hflights : s'.flights = s.flights)
    (hsuccesses : s'.successes = s.successes)
    (hnodes : KeepsStamps (fun _ => False) s.provider s'.provider) : s.WentOn s' :=
  ⟨hsound, hflights, hnodes.mono (fun _ hfalse => hfalse.elim), fun h => h.of_keeps hsuccesses hnodes⟩

theorem successes_goOn {u : Update} {others : List Updater} {rest : Routine UpdateResult}
    (h : u.OnItsWay rest) : (s.goOn u others rest).successes = s.successes := by
  cases rest with
  | ask r next => rfl
  | done result =>
    have hfailed : result.isOk = false := h
    have hnone : (if result.isOk then [(u.request.node, u.request.targetHash)] else []) = [] :=
      if_neg (by simp [hfailed])
    exact (congrArg (s.successes ++ ·) hnone).trans (List.append_nil _)

theorem wentOn_step (h : s.Sound) (hstep : Step LeavesTags s s') : s.WentOn s' := by
  have hsound := h.step LeavesTags.keepsNumbered hstep
  cases hstep with
  | outside hp =>
    refine .of_keeps hsound rfl rfl fun id n hn => ?_
    obtain ⟨n', hn', hbecomes, htags⟩ := hp.nodes id n hn
    exact ⟨n', hn', hbecomes, fun _ => congrArg (fun tags : Tags => tags.get? Tags.fileSync) htags⟩
  | launch hperm hreplies =>
    obtain ⟨tags, k, howes⟩ := h.launches _ (hperm.mem_iff.mpr List.mem_cons_self)
    obtain ⟨template, count, rfl, -⟩ := howes.1
    refine .of_keeps hsound rfl rfl fun id n hn => ?_
    rcases hreplies.createNodes with ⟨-, q, phase, hnodes, hmade, -, rfl⟩ | ⟨-, hnodes, -⟩
    · have hq : q.nodes.get? id = some n := hnodes.symm ▸ hn
      exact ⟨n, get?_addNodes (h.numbered.of_nodes hnodes hmade) _ _ _ hq, .refl n, fun _ => rfl⟩
    · exact ⟨n, hnodes.symm ▸ hn, .refl n, fun _ => rfl⟩
  | @update u r next others reply p hperm hreplies =>
    have hway : u.OnItsWay (.ask r next) :=
      h.updaters ⟨u, .ask r next⟩ (hperm.mem_iff.mpr List.mem_cons_self)
    have hflights : (goOn { s with provider := p } u others (next reply)).flights = s.flights := by
      funext n
      rw [flights_goOn, flights_perm hperm]
    have hprovider := (provider_goOn { s with provider := p } u others (next reply)).1
    rcases hway.stamps hreplies with ⟨n, hn, hnodes, hdone⟩ | ⟨hnodes, hrest⟩
    · rw [hdone] at hsound hflights ⊢
      have hbusy : s.flights u.request.node ≠ 0 :=
        Nat.ne_of_gt (flights_pos (hperm.mem_iff.mpr List.mem_cons_self))
      refine ⟨hsound, hflights, ?_, ?_⟩
      · intro id m hm
        obtain ⟨m', hm', hbecomes⟩ := (h.tended hperm hreplies).1.onward id m hm
        refine ⟨m', hm', hbecomes, fun hidle => ?_⟩
        have hother : id ≠ u.request.node := fun hid => hidle (hid ▸ hbusy)
        rw [hnodes, Table.get?_insert_of_ne hother, hm] at hm'
        rw [Option.some.inj hm']
      · -- the hash is written for the node that is now known to have it
        intro hstamped m hash hlatest
        have hsuccesses : (goOn { s with provider := p } u others
            (.done (.ok ()))).successes = s.successes ++ [(u.request.node, u.request.targetHash)] := rfl
        unfold latest at hlatest
        rw [hsuccesses, List.filter_append] at hlatest
        change ∃ x, p.nodes.get? m = some x ∧ x.tags.get? Tags.fileSync = some hash.hex
        rw [hnodes, Table.get?_insert]
        by_cases hm : u.request.node = m
        · rw [List.filter_cons_of_pos (by simpa using hm), List.filter_nil,
            List.getLast?_append_of_ne_nil _ (List.cons_ne_nil _ _)] at hlatest
          cases hlatest
          rw [if_pos hm.symm]
          refine ⟨_, rfl, ?_⟩
          rw [Table.get?_overlay, Update.finalTags_get?_fileSync]
          rfl
        · rw [List.filter_cons_of_neg (by simpa using hm), List.filter_nil,
            List.append_nil] at hlatest
          rw [if_neg (fun heq => hm heq.symm)]
          exact hstamped m hash hlatest
    · refine .of_keeps hsound hflights (successes_goOn hrest) ?_
      rw [hprovider]
      exact hnodes
  | @timeout u rest others hperm =>
    have hprovider := (s.provider_goOn u others (u.conclude (.error (.timeout u.timeout)))).1
    refine .of_keeps hsound ?_ (successes_goOn (Update.onItsWay_conclude _))
      (.of_nodes (by rw [hprovider]))
    funext n
    rw [flights_goOn, flights_perm hperm]
  | @panic x others hperm =>
    refine .of_keeps hsound ?_ rfl (.of_nodes rfl)
    funext n
    rw [flights_perm hperm]
    unfold flights Flights.ends
    simp only [List.countP_append, List.countP_singleton, decide_eq_true_eq]
    omega

theorem wentOn_steps (h : s.Sound) (hsteps : Steps LeavesTags s s') : s.WentOn s' := by
  induction hsteps with
  | refl => exact .refl h
  | tail _ hstep ih => exact ih.trans (wentOn_step ih.sound hstep)

/-- What has happened since: what is at work keeps to its work, nodes without an updater keep their
files hash, and all keep the hash of their last update. -/
structure Since (s s' : Service) : Prop where
  sound : s'.Sound
  nodes : KeepsStamps (fun id => s.flights id ≠ 0) s.provider s'.provider
  stamped : s.Stamped → s'.Stamped

theorem Since.refl (h : s.Sound) : s.Since s := ⟨h, .of_nodes rfl, fun h => h⟩

theorem Since.onward (h : s.Since s') : s.provider.Onward s'.provider := by
  intro id n hn
  obtain ⟨n', hn', hbecomes, -⟩ := h.nodes id n hn
  exact ⟨n', hn', hbecomes⟩

theorem WentOn.since (h : s.WentOn s') (hsound : s''.Sound)
    (hsuccesses : s''.successes = s'.successes)
    (hnodes : KeepsStamps (fun _ => False) s'.provider s''.provider) : s.Since s'' :=
  ⟨hsound, h.nodes.trans (hnodes.mono fun _ hfalse => hfalse.elim),
    fun hstamped => (h.stamped hstamped).of_keeps hsuccesses hnodes⟩

theorem flights_drop (s : Service) (nodes : List NodeId) :
    (s.drop nodes).flights = s.flights.stop nodes := by
  funext n
  unfold drop flights Flights.stop Flights.ends
  dsimp only
  rw [List.countP_filter, List.countP_filter]
  split
  · next hn =>
    have hnone : ∀ m, (decide (m = n) && !nodes.contains m) = false := by
      intro m
      by_cases hm : m = n
      · subst hm
        simp [hn]
      · simp [hm]
    simp only [hnone]
    simp
  · next hn =>
    have hsame : ∀ m, (decide (m = n) && !nodes.contains m) = decide (m = n) := by
      intro m
      by_cases hm : m = n
      · subst hm
        simp [hn]
      · simp [hm]
    simp only [hsame]

end Service

/-- A question of a tick by which no tags are written and no empty batch is ordered. -/
def Question.Plain : Question → Prop
  | .request r => r.looks = true ∨ ∃ nodes, r = .terminateNodes nodes
  | .launch o => 0 < o.batch
  | .dispatch _ | .abandon _ | .awaitLaunch => True

/-- A plain request writes no tags. -/
theorem keepsStamps_of_plain {r : Request} {reply : r.Reply} {p p' : InMemory}
    (hr : (Question.request r).Plain) (hreplies : p.Replies r reply p') (hp : p.Numbered) :
    KeepsStamps (fun _ => False) p p' ∧ p'.Numbered := by
  rcases hr with hlooks | ⟨nodes, rfl⟩
  · obtain ⟨htidy, hcreates, hterminates, htags⟩ := Request.of_looks hlooks
    exact ⟨.of_nodes (hreplies.nodes hcreates hterminates htags).1, (hreplies.onward htidy hp).2.1⟩
  · refine ⟨?_, (hreplies.onward trivial hp).2.1⟩
    rcases hreplies.terminateNodes with ⟨-, q, hnodes, -, rfl⟩ | ⟨-, hnodes, -⟩
    · intro id n hn
      rw [get?_foldl_terminateLive, hnodes, hn]
      split
      · exact ⟨_, rfl, ⟨fun _ _ => rfl, fun _ => rfl, fun hphase => by cases hphase⟩, fun _ => rfl⟩
      · exact ⟨n, rfl, .refl n, fun _ => rfl⟩
    · exact .of_nodes hnodes

open Service in
/-- What has happened when a plain question is answered, and how the updaters under way moved. -/
theorem Question.ServedBy.since {q : Question} {reply : q.Reply} {s s' : Service} (h : s.Sound)
    (hq : q.Plain) (hserved : q.ServedBy LeavesTags reply s s') :
    s.Since s' ∧ q.Moves reply s.flights s'.flights := by
  have hends : ∀ (m : Service) n, s.WentOn m →
      m.updaters.countP (fun x => x.update.request.node = n) + Flights.ends [] n +
        Flights.ends m.ends n = s.flights n := by
    intro m n hm
    rw [← hm.flights]
    rfl
  cases q with
  | request r =>
    obtain ⟨m, p, hsteps, hreplies, hended, rfl⟩ := hserved
    have hm := wentOn_steps h hsteps
    obtain ⟨hkeeps, hnumbered⟩ := keepsStamps_of_plain hq hreplies hm.sound.numbered
    refine ⟨hm.since ⟨hnumbered, hm.sound.updaters, hm.sound.launches⟩ rfl hkeeps, fun n => ?_⟩
    rw [hended]
    exact hends m n hm
  | awaitLaunch =>
    obtain ⟨m, rest, others, hsteps, hperm, -, hended, rfl⟩ := hserved
    have hm := wentOn_steps h hsteps
    have hlaunches : ∀ rest ∈ others, ∃ tags k, Owes tags k rest := fun rest hrest =>
      hm.sound.launches rest (hperm.mem_iff.mpr (List.mem_cons_of_mem _ hrest))
    refine ⟨hm.since ⟨hm.sound.numbered, hm.sound.updaters, hlaunches⟩ rfl (.of_nodes rfl),
      fun n => ?_⟩
    rw [hended]
    exact hends m n hm
  | dispatch u =>
    cases hserved
    refine ⟨⟨⟨h.numbered, ?_, h.launches⟩, .of_nodes rfl, fun h => h⟩, ?_⟩
    · intro x hx
      rcases List.mem_cons.mp hx with rfl | hx
      · exact Update.onItsWay_routine
      · exact h.updaters x hx
    · funext n
      unfold flights Flights.start
      dsimp only
      rw [List.countP_cons]
      by_cases hn : n = u.request.node
      · simp only [hn, decide_true, if_true]
        omega
      · have hother : ¬ u.request.node = n := fun heq => hn heq.symm
        simp only [hn, hother, decide_false, Bool.false_eq_true, if_false]
        omega
  | abandon nodes =>
    cases hserved
    refine ⟨⟨⟨h.numbered, ?_, h.launches⟩, .of_nodes rfl, fun h => h⟩, s.flights_drop nodes⟩
    exact fun x hx => h.updaters x (List.mem_filter.mp hx).1
  | launch o =>
    cases hserved
    refine ⟨⟨⟨h.numbered, h.updaters, ?_⟩, .of_nodes rfl, fun h => h⟩, rfl⟩
    intro rest hrest
    rcases List.mem_cons.mp hrest with rfl | hrest
    · exact ⟨_, _, owes_routine hq⟩
    · exact h.launches rest hrest

end ClusterScaler
