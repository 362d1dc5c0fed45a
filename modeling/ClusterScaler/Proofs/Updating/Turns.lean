import ClusterScaler.Proofs.Planning.Orders
import ClusterScaler.Proofs.Tick.Memory
import ClusterScaler.Proofs.Updating.Courses

/-!
# What a tick makes of a node whose update failed

A tick that goes to the provider knows of every update that has failed. If it reads the node, it
plans to terminate it and sends no updater to it; if the node is not listed, it is gone. And an
updater that a tick sends out is due: the files hash that it brings is not the one that the last
successful update of its node brought. `Turn.kept` puts this together for one turn of a course.
-/

set_option autoImplicit false

namespace ClusterScaler

open Program TickM InMemory

/-- An update brings the files hash of its node's type, and not the one that the last successful
update of the node brought. -/
def Update.IsDue (u : Update) (hashes : Table String NodeTypeHashes) (s : Service) : Prop :=
  ∃ type x, hashes.get? u.request.nodeType = some type ∧ u.request.targetHash = type.files ∧
    s.provider.nodes.get? u.request.node = some x ∧
      x.tags.get? Tags.nodeType = some u.request.nodeType ∧
        ∀ hash, s.latest u.request.node = some hash → type.files ≠ hash

/-- Between ticks, what is held to be true of a node is true. If it is `out`, it is tainted or gone. -/
def Course.Kept (node : NodeId) (out : Prop) (c : Course) : Prop :=
  ∃ tainted gone : Prop, (out ↔ tainted ∨ gone) ∧
    NodeWatch.Holds { node, hashes := c.loop.hashes, tainted, gone } c.loop c.service

/-- What a tick may ask: it is in order wherever it may be cut short, and sends an updater to the node
only if that is due and the node is not `out`. -/
def retrials (node : NodeId) (out : Prop) : Protocol TickAsk TickAsk.Reply Service where
  permits s a := Course.Kept node out ⟨a.loop, s⟩ ∧
    ∀ u, a.question = .dispatch u → u.request.node = node → ¬ out ∧ u.IsDue a.loop.hashes s
  follows s a r s' := a.question.ServedBy LeavesTags r s s'

namespace NodeWatch

variable {w : NodeWatch} {out : Prop} {l : ControlLoop} {s s' : Service}

theorem Holds.kept (h : w.Holds l s) (hout : out ↔ w.tainted ∨ w.gone) :
    Course.Kept w.node out ⟨l, s⟩ := by
  refine ⟨w.tainted, w.gone, hout, h.sound, h.tracks, h.stamped, rfl, h.single, h.idle, ?_,
    h.tainted, h.gone, fun hfalse => hfalse.elim, fun n hn => absurd hn List.not_mem_nil⟩
  rintro (hclaim | hclaim | hclaim | hfalse)
  · exact h.owned (.inl hclaim)
  · exact h.owned (.inr (.inl hclaim))
  · exact h.owned (.inr (.inr (.inl hclaim)))
  · exact hfalse.elim

/-- Wherever what is held to be true is true, a plain question that does not concern updaters may be
asked. -/
theorem kept_plain (hout : out ↔ w.tainted ∨ w.gone) {q : Question} (hq : q.Plain)
    (hsent : ∀ u, q ≠ .dispatch u) (hstopped : ∀ nodes, q ≠ .abandon nodes) :
    q.Kept (retrials w.node out) w.Holds := fun _ _ h =>
  ⟨⟨h.kept hout, fun u hu => absurd hu (hsent u)⟩,
    fun _ _ hserved => h.asked hq hsent hstopped hserved⟩

theorem looksKept (hout : out ↔ w.tainted ∨ w.gone) : LooksKept (retrials w.node out) w.Holds :=
  fun _ hr => kept_plain hout (.inl hr) (fun _ heq => by cases heq) (fun _ heq => by cases heq)

section Reading

/-- An answer to a look at the nodes tells what they are like when it comes. -/
theorem request_holds (hout : out ↔ w.tainted ∨ w.gone) {r : Request} (hr : r.looks = true)
    (h : w.Holds l s) :
    (request r).Meets (retrials w.node out) (fun a l' s' => w.Holds l' s' ∧
      l'.config = l.config ∧ ∃ p : InMemory, p.nodes = s'.provider.nodes ∧ p.Replies r a s'.provider) l s := by
  obtain ⟨hpermits, hfollows⟩ := looksKept hout r hr l s h
  refine meets_request.mpr ⟨hpermits, fun d s' hserved => ⟨hfollows d s' hserved, rfl, ?_⟩⟩
  obtain ⟨m, p, -, hreplies, -, rfl⟩ := hserved
  refine ⟨m.provider, ?_, hreplies⟩
  obtain ⟨-, hcreates, hterminates, htags⟩ := Request.of_looks hr
  exact (hreplies.nodes hcreates hterminates htags).1.symm

theorem retrying_holds (hout : out ↔ w.tainted ∨ w.gone) {α : Type} {config : ClusterConfig}
    {call : TickM (ProviderResult α)} (accepts : ProviderResult α → Service → Prop)
    (hcall : ∀ l s, w.Holds l s → l.config = config → call.Meets (retrials w.node out)
      (fun r l' s' => (w.Holds l' s' ∧ l'.config = config) ∧ accepts r s') l s)
    (h : w.Holds l s) (hconfig : l.config = config) :
    (retrying call).Meets (retrials w.node out)
      (fun r l' s' => (w.Holds l' s' ∧ l'.config = config) ∧ accepts r s') l s := by
  have hattempt : ∀ l s, w.Holds l s ∧ l.config = config → call.Meets (retrials w.node out)
      (fun r l' s' => ((w.Holds l' s' ∧ l'.config = config) ∧ accepts r s') ∧
        (r.isOk = false → w.Holds l' s' ∧ l'.config = config)) l s := fun l s hinv =>
    (hcall l s hinv.1 hinv.2).mono (fun _ _ _ hr => ⟨hr, fun _ => hr.1⟩)
  refine meets_retrying hattempt (fun d l s hinv => ?_) ⟨h, hconfig⟩
  exact (request_holds hout (r := .pause d) rfl hinv.1).mono
    (fun _ _ _ hr => ⟨hr.1, hr.2.1.trans hinv.2⟩)

/-- A record is current when it has been read. -/
theorem readNode_holds (hout : out ↔ w.tainted ∨ w.gone) (id : NodeId) (h : w.Holds l s) :
    (Tick.readNode id).Meets (retrials w.node out) (fun node l' s' =>
      { w with records := node.toList ++ w.records }.Holds l' s' ∧
        ∀ n ∈ node, n.id = id) l s := by
  unfold Tick.readNode
  rw [TickM.meets_bind]
  refine (retrying_holds hout (fun tags s' => ∀ t, tags = .ok t →
      ∃ x, s'.provider.nodes.get? id = some x ∧ x.tags = t)
    (fun l s h hconfig => (request_holds hout (r := .nodeTags id) rfl h).mono ?_) h rfl).mono ?_
  · rintro tags l' s' ⟨h', hsame, p, hnodes, hreplies⟩
    refine ⟨⟨h', hsame.trans hconfig⟩, fun t ht => ?_⟩
    subst ht
    rw [← hnodes]
    exact hreplies.nodeTags
  rintro tags l' s' ⟨⟨h', -⟩, htags⟩
  cases tags with
  | error e => exact ⟨h', fun n hn => by cases hn⟩
  | ok tags =>
    obtain ⟨x, hx, rfl⟩ := htags tags rfl
    -- while it is found out whether the node runs, its record stays current
    have hread : { w with records := ⟨id, x.tags, false⟩ :: w.records }.Holds l' s' :=
      { h' with
        current := fun n hn hid => by
          rcases List.mem_cons.mp hn with rfl | hn
          · exact ⟨x, hx, fun _ _ => rfl, fun _ => rfl⟩
          · exact h'.current n hn hid }
    dsimp only
    rw [TickM.meets_bind]
    have hlooks := looksKept (w := { w with records := ⟨id, x.tags, false⟩ :: w.records }) hout
    refine (Tick.frame_retrying hlooks
      (fun _ _ h => Tick.frame_request (hlooks (.isRunning id) rfl) h) hread).mono ?_
    intro running l'' s'' h''
    cases running with
    | error e =>
      have hrest : w.Holds l'' s'' :=
        { h'' with current := fun n hn => h''.current n (List.mem_cons_of_mem _ hn) }
      exact ⟨hrest, fun n hn => by cases hn⟩
    | ok running =>
      have hnow : { w with records := ⟨id, x.tags, running⟩ :: w.records }.Holds l'' s'' :=
        { h'' with
          current := fun n hn hid => by
            rcases List.mem_cons.mp hn with rfl | hn
            · exact h''.current ⟨id, x.tags, false⟩ List.mem_cons_self hid
            · exact h''.current n (List.mem_cons_of_mem _ hn) hid }
      refine ⟨hnow, fun n hn => ?_⟩
      cases hn
      rfl

theorem Holds.fewer {records : List NodeRecord} (h : w.Holds l s) (hsub : records ⊆ w.records) :
    { w with records }.Holds l s :=
  { h with current := fun n hn => h.current n (hsub hn) }

/-- Records are current when all nodes have been read. -/
theorem readNodes_holds (hout : out ↔ w.tainted ∨ w.gone) (ids seen : List NodeId)
    (h : w.Holds l s) :
    (Tick.readNodes seen ids).Meets (retrials w.node out) (fun result l' s' => w.Holds l' s' ∧
      ∀ nodes, result = .ok nodes →
        { w with records := nodes ++ w.records }.Holds l' s' ∧ ∀ n ∈ nodes, n.id ∈ ids) l s := by
  induction ids generalizing w seen l s with
  | nil =>
    refine ⟨h, ?_⟩
    rintro nodes hnodes
    cases hnodes
    exact ⟨h, fun n hn => by cases hn⟩
  | cons id rest ih =>
    unfold Tick.readNodes
    split
    · exact ⟨h, fun nodes hnodes => by cases hnodes⟩
    · rw [TickM.meets_bind]
      refine (readNode_holds hout id h).mono ?_
      rintro node l' s' ⟨h', hid⟩
      rw [TickM.meets_bind]
      -- the others are read with the record of the node at hand
      refine (ih (w := { w with records := node.toList ++ w.records }) hout (id :: seen) h').mono ?_
      rintro result l'' s'' ⟨h'', hresult⟩
      have hbare : w.Holds l'' s'' := h''.fewer (List.subset_append_right _ _)
      cases result with
      | error e => exact ⟨hbare, fun nodes hnodes => by cases hnodes⟩
      | ok others =>
        refine ⟨hbare, ?_⟩
        rintro nodes hnodes
        cases hnodes
        obtain ⟨hall, hothers⟩ := hresult others rfl
        refine ⟨hall.fewer ?_, ?_⟩
        · intro n hn
          simp only [List.mem_append] at hn ⊢
          tauto
        · intro n hn
          rcases List.mem_append.mp hn with hn | hn
          · rw [hid n (Option.mem_toList.mp hn)]
            exact List.mem_cons_self
          · exact List.mem_cons_of_mem _ (hothers n hn)

/-- A listing tells which nodes of the cluster are not terminated when it is answered. -/
theorem listing_holds (hout : out ↔ w.tainted ∨ w.gone) (h : w.Holds l s) :
    Tick.listing.Meets (retrials w.node out) (fun ids l' s' => (w.Holds l' s' ∧
      l'.config = l.config) ∧ ∀ listed, ids = .ok listed →
        listed = s'.provider.listNodes (.ofCluster l.config.clusterName)) l s := by
  unfold Tick.listing
  rw [TickM.meets_bind, meets_get]
  refine retrying_holds hout (fun ids s' => ∀ listed, ids = .ok listed →
    listed = s'.provider.listNodes (.ofCluster l.config.clusterName)) (fun l' s' h' hconfig =>
      (request_holds hout (r := .listNodes (.ofCluster l.config.clusterName)) rfl h').mono ?_) h rfl
  rintro ids l'' s'' ⟨h'', hsame, p, hnodes, hreplies⟩
  refine ⟨⟨h'', hsame.trans hconfig⟩, fun listed hlisted => ?_⟩
  subst hlisted
  rw [hreplies.listNodes]
  unfold InMemory.listNodes
  rw [hnodes]

/-- A tainted node of the cluster that is not listed is gone. -/
theorem Holds.listing {ids : List NodeId} (h : w.Holds l s)
    (hids : ids = s.provider.listNodes (.ofCluster l.config.clusterName)) :
    { w with
        gone := w.gone ∨ (w.tainted ∧ w.node ∉ ids)
        listed := w.node ∈ ids }.Holds l s ∧ (w.gone → w.node ∉ ids) := by
  have hmem : w.node ∈ ids ↔ ∃ x, s.provider.nodes.get? w.node = some x ∧ x.phase ≠ .terminated ∧
      x.tags.get? Tags.clusterName = some l.config.clusterName := by
    rw [hids, mem_listNodes_iff]
    simp only [Tags.satisfies_ofCluster_iff]
  refine ⟨{ h with idle := ?_, owned := ?_, gone := ?_ }, ?_⟩
  · rintro (ht | hg | ⟨ht, -⟩)
    · exact h.idle (.inl ht)
    · exact h.idle (.inr hg)
    · exact h.idle (.inl ht)
  · rintro (hclaim | hclaim | hclaim | hlisted)
    · exact h.owned (.inl hclaim)
    · exact h.owned (.inr (.inl hclaim))
    · exact h.owned (.inr (.inr (.inl hclaim)))
    · obtain ⟨x, hx, -, hcluster⟩ := hmem.mp hlisted
      exact ⟨x, hx, hcluster⟩
  · rintro (hg | ⟨ht, hunlisted⟩)
    · exact h.gone hg
    · obtain ⟨x, hx, hcluster⟩ := h.owned (.inr (.inr (.inl ht)))
      refine ⟨x, hx, ?_⟩
      by_contra hlive
      exact hunlisted (hmem.mpr ⟨x, hx, hlive, hcluster⟩)
  · intro hg hlisted
    obtain ⟨x, hx, hphase⟩ := h.gone hg
    obtain ⟨y, hy, hlive, -⟩ := hmem.mp hlisted
    obtain rfl := Option.some.inj (hx.symm.trans hy)
    exact hlive hphase

/-- What is true once the nodes have been read. -/
theorem Holds.reading {files : FileStore} {now : Nat} {time : Duration} {before : ControlLoop}
    (hout : out ↔ w.tainted ∨ w.gone) (h : w.Holds (before.begun files now time).2 s)
    (r : Reading files now time before)
    (hfollows : Follows (Service.protocol LeavesTags) s r.trace s') :
    ∃ ids : List NodeId, (w.node ∈ ids → r.Lists w.node ∧ ¬ w.gone) ∧ (∀ n ∈ r.nodes, n.id ∈ ids) ∧
      { w with
          gone := w.gone ∨ (w.tainted ∧ w.node ∉ ids)
          listed := w.node ∈ ids
          records := r.nodes }.Holds r.loop s' := by
  obtain ⟨ids, loop, first, rest, hsplit, hlisting, hrest⟩ := r.exists_listing
  rw [hsplit, follows_append] at hfollows
  obtain ⟨m, hfirst, hlast⟩ := hfollows
  obtain ⟨⟨hm, hconfig⟩, hlisted⟩ := (listing_holds hout h).result hlisting
    (hfirst.mono fun _ _ _ _ hserved => hserved)
  rw [← hconfig] at hlisted
  obtain ⟨hknown, hgone⟩ := hm.listing (hlisted ids rfl)
  have hsplits : out ↔ w.tainted ∨ w.gone ∨ (w.tainted ∧ w.node ∉ ids) := by
    rw [hout]
    tauto
  obtain ⟨-, hread⟩ := (readNodes_holds hsplits ids [] hknown).result hrest
    (hlast.mono fun _ _ _ _ hserved => hserved)
  obtain ⟨hall, hmem⟩ := hread r.nodes rfl
  refine ⟨ids, fun hn => ⟨⟨ids, loop, first, rest, hsplit, hlisting, hrest, hn⟩, fun hg => hgone hg hn⟩,
    hmem, hall.fewer (List.subset_append_left _ _)⟩

end Reading

section Carrying

/-- A loop that takes note of the nodes that were read forgets the taint of the others. -/
theorem Holds.takeIn (h : w.Holds l s) (nodes : List NodeRecord) (now : Nat) :
    { w with tainted := w.tainted ∧ w.node ∈ nodes.map NodeRecord.id }.Holds (l.takeIn nodes now) s :=
  h.later (.refl h.sound) h.tracks ⟨rfl, rfl, rfl⟩
    (fun ht => ⟨ht.1, ControlLoop.mem_tainted_takeIn_iff.mpr ⟨h.tainted ht.1, ht.2⟩⟩) h.hashes

/-- When a tick removes nodes that are terminated, a tainted one among them is gone. -/
theorem Holds.removeAll {doomed : List NodeId} (hout : out ↔ w.tainted ∨ w.gone) (h : w.Holds l s)
    (hgone : ∀ id ∈ doomed, ∀ x, s.provider.nodes.get? id = some x → x.phase = .terminated) :
    ∃ tainted gone : Prop, (out ↔ tainted ∨ gone) ∧
      { w with tainted, gone }.Holds (l.removeAll doomed) s := by
  by_cases hdoomed : w.node ∈ doomed
  · have hfree : { w with tainted := False }.Holds (l.removeAll doomed) s :=
      h.later (.refl h.sound) h.tracks ⟨rfl, rfl, rfl⟩ (fun hfalse => hfalse.elim) h.hashes
    refine ⟨False, w.tainted ∨ w.gone, hout.trans (by tauto), { hfree with idle := ?_, gone := ?_ }⟩
    · exact fun hclaim => h.idle (hclaim.resolve_left fun hfalse => hfalse)
    · rintro (ht | hg)
      · obtain ⟨x, hx, -⟩ := h.owned (.inr (.inr (.inl ht)))
        exact ⟨x, hx, hgone _ hdoomed x hx⟩
      · exact h.gone hg
  · exact ⟨w.tainted, w.gone, hout, h.later (.refl h.sound) h.tracks ⟨rfl, rfl, rfl⟩
      (fun ht => ⟨ht, ControlLoop.mem_tainted_removeAll_iff.mpr ⟨h.tainted ht, hdoomed⟩⟩) h.hashes⟩

/-- After the terminations of a tick, a node that was out still is. -/
theorem terminate_holds (hout : out ↔ w.tainted ∨ w.gone) (doomed : List NodeId) (sum : TickSummary)
    (h : w.Holds l s) :
    (Tick.terminate doomed sum).Meets (retrials w.node out) (fun _ l' s' =>
      ∃ tainted gone : Prop, (out ↔ tainted ∨ gone) ∧ { w with tainted, gone }.Holds l' s') l s := by
  have hattempt : ∀ l s, w.Holds l s →
      (request (.terminateNodes doomed)).Meets (retrials w.node out) (fun r l' s' =>
        (w.Holds l' s' ∧ (r.isOk = true → ∀ id ∈ doomed, ∀ x,
          s'.provider.nodes.get? id = some x → x.phase = .terminated)) ∧
            (r.isOk = false → w.Holds l' s')) l s := by
    intro l s h
    obtain ⟨hpermits, hfollows⟩ := kept_plain hout (q := .request (.terminateNodes doomed))
      (.inr ⟨doomed, rfl⟩) (fun _ heq => by cases heq) (fun _ heq => by cases heq) l s h
    refine meets_request.mpr ⟨hpermits, fun d s' hserved => ?_⟩
    have h' := hfollows d s' hserved
    refine ⟨⟨h', ?_⟩, fun _ => h'⟩
    obtain ⟨m, p, -, hreplies, -, rfl⟩ := hserved
    intro hok id hid x hx
    rcases hreplies.terminateNodes with ⟨-, q, -, -, rfl⟩ | ⟨⟨e, herror⟩, -, -⟩
    · change (doomed.foldl terminateLive q).nodes.get? id = some x at hx
      rw [get?_foldl_terminateLive, if_pos hid] at hx
      obtain ⟨y, -, rfl⟩ := Option.map_eq_some_iff.mp hx
      rfl
    · rw [herror] at hok
      cases hok
  unfold Tick.terminate
  split
  · exact ⟨w.tainted, w.gone, hout, h⟩
  · rw [TickM.meets_bind, meets_modify, TickM.meets_bind]
    have hmarked : w.Holds (l.markAll .terminating doomed) s := h.like ⟨rfl, rfl, rfl⟩ rfl rfl rfl
    refine (meets_retrying hattempt
      (fun d _ _ h => Tick.frame_request (looksKept hout (.pause d) rfl) h) hmarked).mono ?_
    rintro result l' s' ⟨h', hgone⟩
    cases result with
    | ok u => exact h'.removeAll hout (hgone rfl)
    | error e => exact ⟨w.tainted, w.gone, hout, h'.like ⟨rfl, rfl, rfl⟩ rfl rfl rfl⟩

/-- An updater may be sent to a node whose files are behind if it is not out. -/
theorem sendingKept (hout : out ↔ w.tainted ∨ w.gone) {n : NodeRecord} {nodeType : String}
    {hashes : NodeTypeHashes} (hn : n ∈ w.records)
    (hspared : n.id = w.node → ¬ out ∧ w.listed ∧ w.merged) {l₀ : ControlLoop} {s₀ : Service}
    (h₀ : w.Holds l₀ s₀) (hbehind : l₀.behind? n = some (nodeType, hashes)) :
    SendingKept (retrials w.node out) w.Holds n nodeType hashes := by
  intro l s time head updaters h hdispatch
  dsimp only
  have hsent := h.sent hdispatch (fun hid => by
    obtain ⟨hnot, hlisted, hmerged⟩ := hspared hid
    exact ⟨fun hclaim => hnot (hout.mpr hclaim), hlisted, hmerged⟩)
  refine ⟨⟨hsent.kept hout, ?_⟩, fun r s' hserved => hsent.started (r := r) h.tracks hdispatch hserved⟩
  rintro u hu hid
  cases hu
  refine ⟨(hspared hid).1, ?_⟩
  obtain ⟨htype, hget, hfiles⟩ := ControlLoop.behind?_eq_some hbehind
  obtain ⟨x, hx, htags, hstamp⟩ := h.current n hn hid
  refine ⟨hashes, x, ?_, rfl, hx, ?_, ?_⟩
  · change l.hashes.get? nodeType = some hashes
    rw [h.hashes, ← h₀.hashes]
    exact hget
  · exact (htags _ (by decide)).symm.trans htype
  · rintro hash hlatest rfl
    -- the node carries the hash of its last update, and so does its record
    obtain ⟨y, hy, hcarries⟩ := h.stamped n.id _ hlatest
    obtain rfl := Option.some.inj (hx.symm.trans hy)
    exact hfiles ((hstamp (UpdaterPool.dispatch?_eq_some hdispatch).1).trans hcarries)

/-- Carrying a plan out sends no updater to a node that is out, and only such as are due. -/
theorem carryOut_holds (hout : out ↔ w.tainted ∨ w.gone) (hmerged : w.merged) {p : TickPlan}
    (hnodes : ∀ n ∈ w.records, n.id = w.node → w.listed ∧ (out → n.id ∈ p.doomed))
    (planner : ControlLoop) (now : Nat) (time : Duration) (sum : TickSummary) (h : w.Holds l s) :
    (Tick.carryOut planner now time w.records p sum).Meets (retrials w.node out)
      (fun _ l' s' => Course.Kept w.node out ⟨l', s'⟩) l s := by
  unfold Tick.carryOut
  rw [TickM.meets_bind]
  refine (terminate_holds hout p.doomed sum h).mono ?_
  rintro ⟨removed, sum'⟩ l' s' ⟨tainted, gone, hout', h'⟩
  dsimp only
  rw [TickM.meets_bind]
  have hawait := kept_plain (w := { w with tainted, gone }) hout' (q := .awaitLaunch) trivial
    (fun _ heq => by cases heq) (fun _ heq => by cases heq)
  refine (Tick.frame_launchUnlessTripped (fun _ o ho s hs => ?_) hawait
    (fun l s sum ended h => ?_) sum' h').mono ?_
  · exact kept_plain (w := { w with tainted, gone }) hout' (q := .launch o)
      (ControlLoop.batch_pos_of_mem_ordersFor ho) (fun _ heq => by cases heq)
      (fun _ heq => by cases heq) _ s hs
  · obtain ⟨launched, breaker, hmerge⟩ := ControlLoop.mergeLaunch_eq sum l ended
    rw [hmerge]
    exact h.like ⟨rfl, rfl, rfl⟩ rfl rfl rfl
  intro sum'' l'' s'' h''
  rw [TickM.meets_bind]
  refine (Tick.frame_dispatchAll (looksKept (w := { w with tainted, gone }) hout')
    (fun n hn l₀ s₀ nodeType hashes h₀ hbehind => ?_) time _ none sum'' h'').mono ?_
  · obtain ⟨hsurvives, hspared⟩ := List.mem_filter.mp hn
    have hread : n ∈ w.records := (List.mem_filter.mp hsurvives).1
    refine sendingKept (w := { w with tainted, gone }) hout' hread (fun hid => ?_) h₀ hbehind
    obtain ⟨hlisted, hdoomed⟩ := hnodes n hread hid
    exact ⟨fun hclaim => by simp [hdoomed hclaim] at hspared, hlisted, hmerged⟩
  intro _ last s₁ hlast
  have hpublished : ∀ survivors departed loads sum,
      { w with tainted, gone }.Holds (last.publish survivors departed loads now sum) s₁ :=
    fun _ _ _ _ => hlast.like ⟨rfl, rfl, rfl⟩ rfl rfl rfl
  exact (hpublished _ _ _ _).kept hout'

end Carrying

section Begun

variable {files : FileStore} {now : Nat} {time : Duration}

/-- A tick goes to the provider with every failed update merged. -/
theorem Holds.begun {failed : Prop} (h : w.Holds l s)
    (hfailed : failed → ∃ o ∈ l.finished ++ (l.updaters.collect time).1,
      o.node = w.node ∧ o.result.isOk = false) :
    Holds { node := w.node, hashes := (l.begun files now time).2.hashes
            tainted := w.tainted ∨ failed, gone := w.gone, merged := True }
      (l.begun files now time).2 (s.drop ((l.beginTick files).updaters.overdue time)) := by
  obtain ⟨hname, hupdaters, hfinished, htainted⟩ := ControlLoop.beginTick_same l files
  obtain ⟨loads, states, tainted, failures, hbegun⟩ := l.begun_eq files now time
  have hpool : (l.begun files now time).2.updaters = (l.updaters.collect time).2 := by
    rw [hbegun, hupdaters]
  have hnone : (l.begun files now time).2.finished = [] := by rw [hbegun]
  have hcluster : (l.begun files now time).2.config.clusterName = l.config.clusterName := by
    rw [hbegun]
    exact hname
  have htaints : (w.node ∈ l.tainted ∨ ∃ o ∈ l.finished ++ (l.updaters.collect time).1,
      o.node = w.node ∧ o.result.isOk = false) → w.node ∈ (l.begun files now time).2.tainted := by
    rw [← htainted, ← hfinished, ← hupdaters]
    exact ControlLoop.mem_tainted_mergeUpdates
  have hslot : (l.begun files now time).2.isUpdating w.node = true → l.isUpdating w.node = true := by
    unfold ControlLoop.isUpdating
    rw [hpool]
    exact UpdaterPool.isUpdating_of_collect
  have hfree : l.isUpdating w.node = false → (l.begun files now time).2.isUpdating w.node = false := by
    intro hidle
    by_contra hbusy
    rw [hslot (by simpa using hbusy)] at hidle
    cases hidle
  have hserved : (Question.abandon ((l.beginTick files).updaters.overdue time)).ServedBy LeavesTags ()
      s (s.drop ((l.beginTick files).updaters.overdue time)) := rfl
  obtain ⟨hsince, -⟩ := Question.ServedBy.since (q := .abandon _) h.sound trivial hserved
  refine ⟨hsince.sound, ?_, hsince.stamped h.stamped, rfl, ?_, ?_, ?_, ?_, ?_, fun _ => hnone, ?_⟩
  · rw [Service.flights_drop, hpool, hupdaters]
    exact h.tracks.collect
  · intro o ho
    rw [hnone] at ho
    cases ho
  · rintro ((ht | hf) | hg)
    · exact hfree (h.idle (.inl ht))
    · obtain ⟨o, ho, hnode, -⟩ := hfailed hf
      rcases List.mem_append.mp ho with ho | ho
      · exact hfree (h.single o ho hnode)
      · unfold ControlLoop.isUpdating
        rw [hpool, ← hnode]
        exact (UpdaterPool.isUpdating_of_mem_collect ho).2
    · exact hfree (h.idle (.inr hg))
  · intro hclaim
    refine (h.owned ?_).onward hsince.onward hcluster
    rcases hclaim with hbusy | ⟨o, ho, -⟩ | (ht | hf) | hfalse
    · exact .inl (hslot hbusy)
    · rw [hnone] at ho
      cases ho
    · exact .inr (.inr (.inl ht))
    · obtain ⟨o, ho, hnode, -⟩ := hfailed hf
      rcases List.mem_append.mp ho with ho | ho
      · exact .inr (.inl ⟨o, ho, hnode⟩)
      · exact .inl (hnode ▸ (UpdaterPool.isUpdating_of_mem_collect ho).1)
    · exact hfalse.elim
  · rintro (ht | hf)
    · exact htaints (.inl (h.tainted ht))
    · exact htaints (.inr (hfailed hf))
  · exact h.gone
  · exact fun n hn => by cases hn

variable {before : ControlLoop}

/-- When a tick plans, a node that is out is tainted and has to go, or it was not listed and is
gone. -/
theorem Holds.planning (hout : out ↔ w.tainted ∨ w.gone)
    (h : w.Holds (before.begun files now time).2 s) (r : Reading files now time before)
    (hread : r.Lists w.node → w.node ∈ r.nodes.map (·.id))
    (hfollows : Follows (Service.protocol LeavesTags) s r.trace s') :
    ∃ tainted gone listed : Prop, (out ↔ tainted ∨ gone) ∧
      (∀ n ∈ r.nodes, n.id = w.node → listed) ∧
        (out → w.node ∈ r.nodes.map (·.id) → w.node ∈ r.plan.doomed) ∧
          { w with tainted, gone, listed, records := r.nodes }.Holds r.planner s' := by
  obtain ⟨ids, hids, hnodes, hreading⟩ := h.reading hout r hfollows
  have hlisted : ∀ n ∈ r.nodes, n.id = w.node → w.node ∈ ids := fun n hn hid => hid ▸ hnodes n hn
  have hplanner := hreading.takeIn r.nodes now
  refine ⟨_, _, _, ?_, hlisted, ?_, hplanner⟩
  · rw [hout]
    constructor
    · rintro (ht | hg)
      · by_cases hmem : w.node ∈ ids
        · exact .inl ⟨ht, hread (hids hmem).1⟩
        · exact .inr (.inr ⟨ht, hmem⟩)
      · exact .inr (.inl hg)
    · rintro (⟨ht, -⟩ | hg | ⟨ht, -⟩)
      · exact .inl ht
      · exact .inr hg
      · exact .inl ht
  · intro hclaim hmem
    obtain ⟨n, hn, hid⟩ := List.mem_map.mp hmem
    -- a node that was listed is not gone, so it is out because it is tainted
    have ht : w.tainted := (hout.mp hclaim).resolve_right (hids (hlisted n hn hid)).2
    have hidle := hplanner.idle (.inl ⟨ht, hmem⟩)
    have htainted := hplanner.tainted ⟨ht, hmem⟩
    dsimp only at hidle htainted
    rw [← hid] at hidle htainted ⊢
    exact ControlLoop.mem_doomed_of_tainted hn hidle htainted

/-- After the nodes have been read, a tick sends no updater to a node that is out, and only such as are
due. -/
theorem Holds.afterReconcile (hout : out ↔ w.tainted ∨ w.gone) (hmerged : w.merged)
    (h : w.Holds (before.begun files now time).2 s) (r : Reading files now time before)
    (hread : r.Lists w.node → w.node ∈ r.nodes.map (·.id))
    (hfollows : Follows (Service.protocol LeavesTags) s r.trace s') (sum : TickSummary) :
    (Tick.afterReconcile now time r.nodes sum).Meets (retrials w.node out)
      (fun _ l' s' => Course.Kept w.node out ⟨l', s'⟩) r.loop s' := by
  obtain ⟨tainted, gone, listed, hout', hlisted, hdoomed, hplanner⟩ :=
    h.planning hout r hread hfollows
  rw [Tick.afterReconcile_eq, TickM.meets_bind, meets_modify, TickM.meets_bind, meets_get]
  refine carryOut_holds (w := { w with tainted, gone, listed, records := r.nodes }) hout' hmerged
    (fun n hn hid => ⟨hlisted n hn hid, fun hclaim => ?_⟩) _ now time sum hplanner
  rw [hid]
  exact hdoomed hclaim (List.mem_map.mpr ⟨n, hn, hid⟩)

end Begun

end NodeWatch

/-- What is left of a tick that keeps things in order leaves them in order. -/
theorem Tick.kept_standing {α : Type} {node : NodeId} {out : Prop} {s : Service}
    {left : Program TickAsk TickAsk.Reply (α × ControlLoop)}
    (h : left.Meets (retrials node out) (fun r s' => Course.Kept node out ⟨r.2, s'⟩) s) :
    Course.Kept node out ⟨standing left, s⟩ := by
  cases left with
  | done r => exact h
  | ask a next => exact h.1.1

end ClusterScaler
