import ClusterScaler.Proofs.Provider.Listing
import ClusterScaler.Proofs.Service.Accounts
import ClusterScaler.Proofs.Tick.Midway

/-!
# What a tick knows of the nodes

While a tick reads the nodes of its cluster, they start to run and are brought up to date, but none
comes or goes. So what it has read is still true when it plans, but for the tags of progress, and
once it has asked for its terminations, the nodes that it takes to be removed are terminated and
no others.
-/

set_option autoImplicit false

namespace ClusterScaler

open Program TickM InMemory

/-- A node was read, and has become what nodes may become since. -/
structure NodeRecord.ReadAt (n : NodeRecord) (p p' : InMemory) : Prop where
  tags : ∃ x, p.nodes.get? n.id = some x ∧
    ∀ key, ¬ Tags.IsProgress key → n.tags.get? key = x.tags.get? key
  running : n.running = true → ∃ x', p'.nodes.get? n.id = some x' ∧ x'.phase ≠ .pending

theorem NodeRecord.ReadAt.before {n : NodeRecord} {p p' p'' : InMemory} (hp : p.Tended p')
    (h : n.ReadAt p' p'') : n.ReadAt p p'' := by
  refine ⟨?_, h.running⟩
  obtain ⟨x', hx', htags⟩ := h.tags
  obtain ⟨x, hx, -⟩ := hp.same n.id x' hx'
  obtain ⟨y, hy, hbecomes⟩ := hp.onward n.id x hx
  obtain rfl := Option.some.inj (hy.symm.trans hx')
  exact ⟨x, hx, fun key hkey => (htags key hkey).trans (hbecomes.tags key hkey)⟩

theorem NodeRecord.ReadAt.after {n : NodeRecord} {p p' p'' : InMemory} (h : n.ReadAt p p')
    (hp : p'.Onward p'') : n.ReadAt p p'' := by
  refine ⟨h.tags, fun hrunning => ?_⟩
  obtain ⟨x', hx', hphase⟩ := h.running hrunning
  obtain ⟨x'', hx'', hbecomes⟩ := hp n.id x' hx'
  exact ⟨x'', hx'', fun hpending => hphase (hbecomes.waits hpending)⟩

/-- Without launch orders under way, nodes are only tended to. -/
structure Service.Quiet (p : InMemory) (s : Service) : Prop where
  sound : s.Sound
  launches : s.launches = []
  tended : p.Tended s.provider

namespace Service.Quiet

variable {p : InMemory} {s s' : Service}

theorem rebase (h : Quiet p s) : Quiet s.provider s := ⟨h.sound, h.launches, .refl _⟩

theorem after {q : InMemory} (hq : q.Tended p) (h : Quiet p s) : Quiet q s :=
  ⟨h.sound, h.launches, hq.trans h.tended⟩

theorem step (h : Quiet p s) (hstep : Step tending s s') : Quiet p s' := by
  have hsound := h.sound.step numbered_of_tending hstep
  cases hstep with
  | outside hp => exact ⟨hsound, h.launches, h.tended.trans hp.1⟩
  | launch hperm hreplies =>
    rw [h.launches] at hperm
    exact absurd hperm.length_eq (by simp)
  | @update u r next others reply p hperm hreplies =>
    obtain ⟨hprovider, hlaunches⟩ :=
      provider_goOn { s with provider := p } u others (next reply)
    refine ⟨hsound, hlaunches.trans h.launches, ?_⟩
    rw [hprovider]
    exact h.tended.trans (h.sound.tended hperm hreplies).1
  | @timeout u rest others hperm =>
    obtain ⟨hprovider, hlaunches⟩ :=
      s.provider_goOn u others (u.conclude (.error (.timeout u.timeout)))
    refine ⟨hsound, hlaunches.trans h.launches, ?_⟩
    rw [hprovider]
    exact h.tended
  | panic hperm => exact ⟨hsound, h.launches, h.tended⟩

theorem steps (h : Quiet p s) (hsteps : Steps tending s s') : Quiet p s' := by
  induction hsteps with
  | refl => exact h
  | tail _ hstep ih => exact ih.step hstep

/-- A look at the nodes is answered from nodes that were tended to, and leaves them so. -/
theorem look (h : Quiet p s) {r : Request} {d : Delivered r.Reply} (hr : r.looks = true)
    (hserved : (Question.request r).ServedBy tending d s s') :
    ∃ q, p.Tended q ∧ q.Replies r d.answer s'.provider ∧ q.Tended s'.provider ∧ Quiet p s' := by
  obtain ⟨m, p', hsteps, hreplies, -, rfl⟩ := hserved
  have hm := h.steps hsteps
  obtain ⟨htidy, hcreates, hterminates, -⟩ := Request.of_looks hr
  obtain ⟨htended, hmade⟩ := hreplies.tended htidy hcreates hterminates
  exact ⟨m.provider, hm.tended, hreplies, htended,
    ⟨hm.sound.numbered.of_tended htended hmade, hm.sound.updaters, hm.sound.launches⟩, hm.launches,
    hm.tended.trans htended⟩

end Service.Quiet

/-- The answers of a service that is only tended to, as far as they are allowed. -/
abbrev attended (allows : (a : TickAsk) → a.Reply → Prop) : Protocol TickAsk TickAsk.Reply Service :=
  (Service.protocol tending).restrict allows

/-- Only answers without a failure are allowed. -/
def Smooth (allows : (a : TickAsk) → a.Reply → Prop) : Prop :=
  ∀ a r, allows a r → a.question.Succeeded r

namespace Tick

variable {allows : (a : TickAsk) → a.Reply → Prop} {l : ControlLoop} {p : InMemory} {s : Service}

theorem request_quiet {r : Request} (hr : r.looks = true) (h : Service.Quiet p s) :
    (request r).Meets (attended allows) (fun a _ s' => Service.Quiet p s' ∧
      (∃ q, p.Tended q ∧ q.Replies r a s'.provider ∧ q.Tended s'.provider) ∧
        (Smooth allows → r.Succeeded a)) l s := by
  rw [meets_request]
  refine ⟨trivial, ?_⟩
  rintro d s' ⟨hserved, hallowed⟩
  obtain ⟨q, htended, hreplies, hafter, hquiet⟩ := h.look hr hserved
  exact ⟨hquiet, ⟨q, htended, hreplies, hafter⟩, fun hsmooth => hsmooth _ _ hallowed⟩

theorem pause_quiet (d : Duration) (h : Service.Quiet p s) :
    (pause d).Meets (attended allows) (fun _ _ s' => Service.Quiet p s') l s :=
  (request_quiet (r := .pause d) rfl h).mono (fun _ _ _ hr => hr.1)

theorem retrying_quiet {α : Type} {call : TickM (ProviderResult α)}
    (accepts : ProviderResult α → Service → Prop)
    (hcall : ∀ l s, Service.Quiet p s →
      call.Meets (attended allows) (fun r _ s' => Service.Quiet p s' ∧ accepts r s') l s)
    (h : Service.Quiet p s) :
    (retrying call).Meets (attended allows) (fun r _ s' => Service.Quiet p s' ∧ accepts r s') l s := by
  have hattempt : ∀ l s, Service.Quiet p s → call.Meets (attended allows) (fun r _ s' =>
      (Service.Quiet p s' ∧ accepts r s') ∧ (r.isOk = false → Service.Quiet p s')) l s :=
    fun l s h => (hcall l s h).mono (fun _ _ _ hr => ⟨hr, fun _ => hr.1⟩)
  exact meets_retrying hattempt (fun d _ _ h => pause_quiet d h) h

/-- A node that is read is one that there was. -/
theorem readNode_quiet (id : NodeId) (h : Service.Quiet p s) :
    (readNode id).Meets (attended allows) (fun node _ s' => Service.Quiet p s' ∧
      (∀ n, node = some n → n.id = id ∧ n.ReadAt p s'.provider) ∧
        (Smooth allows → node.isSome = true)) l s := by
  unfold readNode
  rw [TickM.meets_bind]
  refine (retrying_quiet
    (fun tags s' => (∃ q, p.Tended q ∧ q.Replies (.nodeTags id) tags s'.provider ∧
      q.Tended s'.provider) ∧ (Smooth allows → Request.Succeeded (.nodeTags id) tags))
    (fun _ _ h => request_quiet (r := .nodeTags id) rfl h) h).mono ?_
  rintro tags l' s' ⟨hquiet, ⟨q, htended, hreplies, -⟩, hsucceeds⟩
  cases tags with
  | error e => exact ⟨hquiet, fun n hn => (nomatch hn), fun hsmooth => nomatch hsucceeds hsmooth⟩
  | ok tags =>
    dsimp only
    rw [TickM.meets_bind]
    refine (retrying_quiet
      (fun running s'' => (∃ q, p.Tended q ∧
        q.Replies (.isRunning id) running s''.provider ∧ q.Tended s''.provider) ∧
          (Smooth allows → Request.Succeeded (.isRunning id) running))
      (fun _ _ h => request_quiet (r := .isRunning id) rfl h) hquiet).mono ?_
    rintro running l'' s'' ⟨hquiet', ⟨q', -, hreplies', hafter⟩, hsucceeds'⟩
    cases running with
    | error e => exact ⟨hquiet', fun n hn => (nomatch hn), fun hsmooth => nomatch hsucceeds' hsmooth⟩
    | ok running =>
      refine ⟨hquiet', ?_, fun _ => rfl⟩
      rintro n hn
      cases hn
      refine ⟨rfl, ?_, ?_⟩
      · obtain ⟨x', hx', rfl⟩ := hreplies.nodeTags
        obtain ⟨x, hx, -⟩ := htended.same id x' hx'
        obtain ⟨y, hy, hbecomes⟩ := htended.onward id x hx
        obtain rfl := Option.some.inj (hy.symm.trans hx')
        exact ⟨x, hx, hbecomes.tags⟩
      · intro hrunning
        have hphase : q'.isIn id .running = true := hreplies'.isRunning.symm.trans hrunning
        unfold InMemory.isIn at hphase
        split at hphase
        · next x hx =>
          obtain ⟨x', hx', hbecomes⟩ := hafter.onward id x hx
          refine ⟨x', hx', fun hpending => ?_⟩
          rw [hbecomes.waits hpending] at hphase
          cases hphase
        · cases hphase

/-- The nodes that are read are among those to be read, and all of them if no call fails. -/
theorem readNodes_quiet (ids seen : List NodeId) (h : Service.Quiet p s) :
    (readNodes seen ids).Meets (attended allows) (fun result _ s' => Service.Quiet p s' ∧
      ∀ nodes, result = .ok nodes →
        (∀ n ∈ nodes, n.id ∈ ids ∧ n.ReadAt p s'.provider) ∧
          (Smooth allows → ∀ id ∈ ids, id ∈ nodes.map (·.id))) l s := by
  induction ids generalizing seen l p s with
  | nil =>
    refine ⟨h, ?_⟩
    rintro nodes hnodes
    cases hnodes
    exact ⟨fun n hn => absurd hn List.not_mem_nil, fun _ id hid => absurd hid List.not_mem_nil⟩
  | cons id rest ih =>
    unfold readNodes
    split
    · exact ⟨h, fun nodes hnodes => by cases hnodes⟩
    · rw [TickM.meets_bind]
      refine (readNode_quiet id h).mono ?_
      rintro node l' s' ⟨hquiet, hnode, hsome⟩
      rw [TickM.meets_bind]
      -- the other nodes are read from what the provider has come to
      refine (ih (id :: seen) hquiet.rebase).mono ?_
      rintro result l'' s'' ⟨hquiet', hresult⟩
      have hwhole : Service.Quiet p s'' := hquiet'.after hquiet.tended
      cases result with
      | error e => exact ⟨hwhole, fun nodes hnodes => by cases hnodes⟩
      | ok others =>
        refine ⟨hwhole, ?_⟩
        rintro nodes hnodes
        cases hnodes
        obtain ⟨hothers, hall⟩ := hresult others rfl
        refine ⟨?_, ?_⟩
        · intro n hn
          rcases List.mem_append.mp hn with hn | hn
          · obtain ⟨hid, hread⟩ := hnode n (Option.mem_toList.mp hn)
            exact ⟨hid ▸ List.mem_cons_self, hread.after hquiet'.tended.onward⟩
          · obtain ⟨hid, hread⟩ := hothers n hn
            exact ⟨List.mem_cons_of_mem _ hid, hread.before hquiet.tended⟩
        · intro hsmooth id' hid'
          rw [List.map_append]
          rcases List.mem_cons.mp hid' with rfl | hid'
          · obtain ⟨n, rfl⟩ := Option.isSome_iff_exists.mp (hsome hsmooth)
            exact List.mem_append_left _ (List.mem_singleton.mpr (hnode n rfl).1.symm)
          · exact List.mem_append_right _ (hall hsmooth id' hid')

/-- Reading the nodes of the cluster tells about nodes that there were, and about all of them if no
call fails. -/
theorem reconcile_quiet (h : Service.Quiet p s) :
    reconcile.Meets (attended allows) (fun result _ s' => Service.Quiet p s' ∧
      ∀ nodes, result = .ok nodes →
        (∀ n ∈ nodes, n.id ∈ p.listNodes (.ofCluster l.config.clusterName) ∧
          n.ReadAt p s'.provider) ∧
            (Smooth allows → ∀ id ∈ p.listNodes (.ofCluster l.config.clusterName),
              id ∈ nodes.map (·.id))) l s := by
  unfold reconcile
  rw [TickM.meets_bind, meets_get, TickM.meets_bind]
  refine (retrying_quiet
    (fun ids s' => ∃ q, p.Tended q ∧
      q.Replies (.listNodes (.ofCluster l.config.clusterName)) ids s'.provider)
    (fun _ _ h => (request_quiet (r := .listNodes (.ofCluster _)) rfl h).mono ?_) h).mono ?_
  · rintro ids _ s' ⟨hquiet, ⟨q, htended, hreplies, -⟩, -⟩
    exact ⟨hquiet, q, htended, hreplies⟩
  rintro ids l' s' ⟨hquiet, q, htended, hreplies⟩
  cases ids with
  | error e => exact ⟨hquiet, fun nodes hnodes => nomatch hnodes⟩
  | ok ids =>
    have hlisted : ∀ id, id ∈ ids ↔ id ∈ p.listNodes (.ofCluster l.config.clusterName) := by
      intro id
      rw [hreplies.listNodes]
      exact htended.mem_listNodes_iff (Tags.lasting_ofCluster _)
    refine (readNodes_quiet ids [] hquiet.rebase).mono ?_
    rintro result l'' s'' ⟨hquiet', hresult⟩
    refine ⟨hquiet'.after hquiet.tended, fun nodes hnodes => ?_⟩
    obtain ⟨hread, hall⟩ := hresult nodes hnodes
    refine ⟨fun n hn => ?_, fun hsmooth id hid => hall hsmooth id ((hlisted id).mpr hid)⟩
    exact ⟨(hlisted n.id).mp (hread n hn).1, (hread n hn).2.before hquiet.tended⟩

/-- The nodes that a tick takes to be removed are terminated and no others; they are all that were
to be if no call fails. -/
theorem terminate_quiet {doomed : List NodeId} (sum : TickSummary) (h : Service.Quiet p s) :
    (terminate doomed sum).Meets (attended allows) (fun r _ s' => s'.Sound ∧ s'.launches = [] ∧
      p.Spares r.1 s'.provider ∧ (Smooth allows → r.1 = doomed)) l s := by
  unfold terminate
  split
  · next hempty =>
    exact ⟨h.sound, h.launches, h.tended.spares, fun _ => (List.isEmpty_iff.mp hempty).symm⟩
  · rw [TickM.meets_bind, meets_modify, TickM.meets_bind]
    have hattempt : ∀ l s, Service.Quiet p s →
        (request (.terminateNodes doomed)).Meets (attended allows) (fun result _ s' =>
          ((∀ u, result = .ok u → s'.Sound ∧ s'.launches = [] ∧ p.Spares doomed s'.provider) ∧
            (∀ e, result = .error e → Service.Quiet p s') ∧
              (Smooth allows → result.isOk = true)) ∧
            (result.isOk = false → Service.Quiet p s')) l s := by
      intro l s h
      refine (meets_request (r := .terminateNodes doomed)).mpr ⟨trivial, ?_⟩
      rintro d s' ⟨⟨m, p', hsteps, hreplies, -, rfl⟩, hallowed⟩
      have hm := h.steps hsteps
      have hsound := (hreplies.onward trivial hm.sound.numbered).2.1
      have hsucceeds : Smooth allows → d.answer.isOk = true := fun hsmooth => hsmooth _ _ hallowed
      rcases hreplies.terminateNodes with ⟨hok, q, hnodes, -, rfl⟩ | ⟨⟨e, herror⟩, hnodes, -⟩
      · rw [hok] at hsucceeds ⊢
        have htended : p.Tended q := hm.tended.trans (.of_nodes hnodes)
        refine ⟨⟨fun _ _ => ⟨⟨hsound, hm.sound.updaters, hm.sound.launches⟩, hm.launches, ?_⟩,
          fun _ he => (nomatch he), hsucceeds⟩, fun hnot => nomatch hnot⟩
        exact htended.trans_spares (spares_foldl_terminateLive doomed q)
      · rw [herror] at hsucceeds ⊢
        have hquiet : Service.Quiet p { m with provider := p', ends := [] } :=
          ⟨⟨hsound, hm.sound.updaters, hm.sound.launches⟩, hm.launches,
            hm.tended.trans (.of_nodes hnodes)⟩
        exact ⟨⟨fun _ hu => (nomatch hu), fun _ _ => hquiet, hsucceeds⟩, fun _ => hquiet⟩
    refine (meets_retrying hattempt (fun d _ _ h => pause_quiet d h) h).mono ?_
    rintro result l' s' ⟨hok, herror, hsucceeds⟩
    cases result with
    | ok u =>
      obtain ⟨hsound, hlaunches, hspares⟩ := hok u rfl
      exact ⟨hsound, hlaunches, hspares, fun _ => rfl⟩
    | error e =>
      have hquiet := herror e rfl
      exact ⟨hquiet.sound, hquiet.launches, hquiet.tended.spares,
        fun hsmooth => nomatch hsucceeds hsmooth⟩

/-- What a tick knows of the nodes of its cluster when it comes to its launches. -/
structure Midway.Surveyed (m : Midway) (cluster : String) (p : InMemory) (s : Service) : Prop where
  sound : s.Sound
  launches : s.launches = []
  read : ∀ n ∈ m.nodes, n.id ∈ p.listNodes (.ofCluster cluster) ∧ n.ReadAt p s.provider
  spares : p.Spares m.removed s.provider

namespace Midway.Surveyed

variable {m : Midway} {cluster : String} {filter : Tags} {id : NodeId}

/-- A record satisfies the lasting filters that its node satisfied at first. -/
theorem satisfies_iff (h : m.Surveyed cluster p s) (hfilter : filter.Lasting) {n : NodeRecord}
    (hn : n ∈ m.nodes) {x : Node} (hx : p.nodes.get? n.id = some x) :
    n.tags.satisfies filter = x.tags.satisfies filter := by
  obtain ⟨y, hy, htags⟩ := (h.read n hn).2.tags
  obtain rfl := Option.some.inj (hy.symm.trans hx)
  exact hfilter.satisfies_congr htags

/-- What is live was live at first, was not removed, and is recorded as it is. -/
theorem of_mem_listNodes (h : m.Surveyed cluster p s) (hfilter : filter.Lasting)
    (hid : id ∈ s.provider.listNodes filter) :
    id ∈ p.listNodes filter ∧ id ∉ m.removed ∧
      ∀ n ∈ m.nodes, n.id = id → n.tags.satisfies filter = true := by
  obtain ⟨x', hx', hlive, htags⟩ := mem_listNodes_iff.mp hid
  obtain ⟨x, hx, -⟩ := h.spares.same id x' hx'
  obtain ⟨y, hy, hbecomes⟩ := h.spares.onward id x hx
  obtain rfl := Option.some.inj (hy.symm.trans hx')
  have hsatisfies : x.tags.satisfies filter = true :=
    hfilter.satisfies_congr hbecomes.tags ▸ htags
  refine ⟨mem_listNodes_iff.mpr ⟨x, hx, fun hdead => hlive (hbecomes.terminated hdead), hsatisfies⟩,
    fun hremoved => hlive (h.spares.gone id hremoved _ hx'), ?_⟩
  rintro n hn rfl
  exact (h.satisfies_iff hfilter hn hx).trans hsatisfies

/-- The nodes of the cluster that are live are those that were read and not removed, if all were
read. -/
theorem mem_listNodes_iff (h : m.Surveyed cluster p s)
    (hall : ∀ id ∈ p.listNodes (.ofCluster cluster), id ∈ m.nodes.map (·.id))
    (hfilter : filter.Lasting)
    (hcluster : ∀ tags : Tags, tags.satisfies filter = true →
      tags.satisfies (.ofCluster cluster) = true) :
    id ∈ s.provider.listNodes filter ↔
      ∃ n ∈ m.nodes, n.id = id ∧ id ∉ m.removed ∧ n.tags.satisfies filter = true := by
  constructor
  · intro hid
    obtain ⟨hlisted, hkept, hrecorded⟩ := h.of_mem_listNodes hfilter hid
    obtain ⟨x, hx, hlive, htags⟩ := InMemory.mem_listNodes_iff.mp hlisted
    obtain ⟨n, hn, rfl⟩ := List.mem_map.mp
      (hall id (InMemory.mem_listNodes_iff.mpr ⟨x, hx, hlive, hcluster _ htags⟩))
    exact ⟨n, hn, rfl, hkept, hrecorded n hn rfl⟩
  · rintro ⟨n, hn, rfl, hkept, htags⟩
    obtain ⟨x, hx, hlive, -⟩ := InMemory.mem_listNodes_iff.mp (h.read n hn).1
    obtain ⟨x', hx', hbecomes⟩ := h.spares.onward n.id x hx
    obtain ⟨y, hy, hdead⟩ := h.spares.same n.id x' hx'
    obtain rfl := Option.some.inj (hy.symm.trans hx)
    refine InMemory.mem_listNodes_iff.mpr ⟨x', hx', fun hphase => ?_, ?_⟩
    · exact (hdead hphase).elim hlive hkept
    · rw [hfilter.satisfies_congr hbecomes.tags, ← h.satisfies_iff hfilter hn hx]
      exact htags

/-- What was read belongs to the cluster. -/
theorem satisfies_ofCluster (h : m.Surveyed cluster p s) {n : NodeRecord} (hn : n ∈ m.nodes) :
    n.tags.satisfies (.ofCluster cluster) = true := by
  obtain ⟨x, hx, -, htags⟩ := InMemory.mem_listNodes_iff.mp (h.read n hn).1
  exact (h.satisfies_iff (Tags.lasting_ofCluster cluster) hn hx).trans htags

end Midway.Surveyed

/-- When a tick comes to its launches, it has read nodes of the cluster, and has terminated those that
it takes to be removed. If no call fails, it has read all nodes and terminated all doomed ones. -/
theorem toLaunches_surveyed (files : FileStore) (now : Nat) (time : Duration)
    (h : Service.Quiet p s) :
    (toLaunches files now time).Meets (attended allows) (fun result _ s' =>
      ∀ m, result = .ok m →
        m.Surveyed (l.begun files now time).2.config.clusterName p s' ∧
          (Smooth allows → m.removed = m.plan.doomed ∧
            ∀ id ∈ p.listNodes (.ofCluster (l.begun files now time).2.config.clusterName),
              id ∈ m.nodes.map (·.id))) l s := by
  unfold toLaunches
  rw [TickM.meets_bind, meets_modify, TickM.meets_bind, meets_get, TickM.meets_bind]
  refine (meets_ask (q := .abandon _)).mpr ⟨trivial, ?_⟩
  rintro r s₁ ⟨rfl, -⟩
  rw [TickM.meets_bind, meets_get, TickM.meets_bind, meets_get, TickM.meets_bind, meets_set,
    TickM.meets_bind]
  have hdropped : Service.Quiet p
      (s.drop ((l.beginTick files).updaters.overdue time)) :=
    ⟨⟨h.sound.numbered, fun x hx => h.sound.updaters x (List.mem_of_mem_filter hx),
      h.sound.launches⟩, h.launches, h.tended⟩
  refine (reconcile_quiet hdropped).mono ?_
  rintro result l' s' ⟨hquiet, hresult⟩
  cases result with
  | error e => exact fun m hm => nomatch hm
  | ok nodes =>
    dsimp only
    obtain ⟨hread, hall⟩ := hresult nodes rfl
    rw [TickM.meets_bind, meets_modify, TickM.meets_bind, meets_get, TickM.meets_bind]
    refine (terminate_quiet _ hquiet.rebase).mono ?_
    rintro ⟨removed, sum⟩ l'' s'' ⟨hsound, hlaunches, hspares, hdoomed⟩ m hm
    cases hm
    refine ⟨⟨hsound, hlaunches, fun n hn => ⟨(hread n hn).1, (hread n hn).2.after hspares.onward⟩,
      hquiet.tended.trans_spares hspares⟩, fun hsmooth => ⟨hdoomed hsmooth, hall hsmooth⟩⟩

end Tick

end ClusterScaler
