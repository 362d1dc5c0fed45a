import ClusterScaler.Proofs.Clocks.Records
import ClusterScaler.Proofs.Tick.Standing
import ClusterScaler.Proofs.Updating.Retries

/-!
# The heartbeat clock of a node over a turn

Over a turn of a course every node stays known under the cluster that it is tagged for, and a node
that is terminated stays so. So a node that was listed once and is not listed any more is gone, and
so is one whose termination succeeded. Of any other node that was listed, a turn leaves the record
as it was, or starts its clock.
-/

set_option autoImplicit false

namespace ClusterScaler

open Program InMemory

/-- All that a tick asks is plain, and no tick renames the cluster. -/
theorem Standing.plain (name : String) :
    Standing (fun l => l.config.clusterName = name) Question.Plain where
  congr hl hconfig _ _ _ := (congrArg ClusterConfig.clusterName hconfig).trans hl
  failure hl := hl
  success hl := hl
  order _ ho := by
    rw [Question.Plain, (ControlLoop.launchOrder?_eq_some ho).2.2]
    exact Nat.le_max_right _ 1
  update _ _ _ _ := trivial
  looks hr := .inl hr
  terminate nodes := .inr ⟨nodes, rfl⟩
  abandon _ := trivial
  await := trivial

/-- A node is known to the provider, which has terminated it. -/
def Service.Gone (s : Service) (node : NodeId) : Prop :=
  ∃ x, s.provider.nodes.get? node = some x ∧ x.phase = .terminated

namespace Service

variable {s s' : Service} {node : NodeId}

theorem Gone.onward (h : s.Gone node) (honward : s.provider.Onward s'.provider) :
    s'.Gone node := by
  obtain ⟨x, hx, hphase⟩ := h
  obtain ⟨x', hx', hbecomes⟩ := honward node x hx
  exact ⟨x', hx', hbecomes.terminated hphase⟩

/-- While plain questions are answered, all nodes stay known. -/
theorem Sound.follows {trace : List TickExchange} (h : s.Sound)
    (hfollows : Follows (protocol LeavesTags) s trace s')
    (hplain : ∀ x ∈ trace, x.op.question.Plain) : s'.Sound ∧ s.provider.Onward s'.provider := by
  induction hfollows with
  | nil s => exact ⟨h, .refl _⟩
  | cons hstep _ ih =>
    obtain ⟨hsince, -⟩ := Question.ServedBy.since h (hplain _ List.mem_cons_self) hstep
    obtain ⟨hsound, honward⟩ :=
      ih hsince.sound (fun x hx => hplain x (List.mem_cons_of_mem _ hx))
    exact ⟨hsound, hsince.onward.trans honward⟩

/-- A node that is known is gone once it has been terminated. -/
theorem Owns.gone_of_reaped {l : ControlLoop} {q : Question} {reply : q.Reply} (h : s.Owns l node)
    (hsound : s.Sound) (hreaps : q.Reaps node reply) (hserved : q.ServedBy LeavesTags reply s s') :
    s'.Gone node := by
  unfold Question.Reaps at hreaps
  split at hreaps
  · next nodes d =>
    obtain ⟨hmem, hok⟩ := hreaps
    obtain ⟨m, p, hsteps, hreplies, -, rfl⟩ := hserved
    have hwent := wentOn_steps hsound hsteps
    have honward := (hwent.since hwent.sound rfl (.of_nodes rfl)).onward
    have hthere : m.Owns l node := h.onward honward rfl
    obtain ⟨x, hx, -⟩ := hthere
    rcases hreplies.terminateNodes with ⟨-, q, hnodes, -, rfl⟩ | ⟨⟨e, herror⟩, -, -⟩
    · refine ⟨{ x with phase := .terminated }, ?_, rfl⟩
      change (nodes.foldl terminateLive q).nodes.get? node = _
      rw [get?_foldl_terminateLive, if_pos hmem, hnodes, hx]
      rfl
    · rw [herror] at hok
      cases hok
  · exact hreaps.elim

end Service

theorem Course.Kept.sound {c : Course} {node : NodeId} {out : Prop} (h : c.Kept node out) :
    c.service.Sound := by
  obtain ⟨tainted, gone, -, hw⟩ := h
  exact hw.sound

namespace Turn

variable {c : Course} {node : NodeId} {out : Prop}

/-- A turn listed a node among those of the cluster. -/
def Lists (t : Turn c) (node : NodeId) : Prop :=
  ∃ ids loop first rest, t.trace = c.loop.firstExchange t.files t.time :: (first ++ rest) ∧
    Runs (Tick.listing.run (c.loop.begun t.files t.now t.time).2) first (.ok ids, loop) ∧
      node ∈ ids

/-- A turn starts the heartbeat clock of a node: the node has no load record, and the turn merges a
success for it or finds it ready. -/
def Seeds (t : Turn c) (node : NodeId) : Prop :=
  c.loop.loads.get? node = none ∧
    ((t.trace ≠ [] ∧ c.loop.MergesSuccess t.time node) ∨
      ∃ r, t.Reads r ∧ (r.loop.observe r.nodes).states.get? node = some .ready)

/-- A turn asks a question, whether or not it goes on to the answer. -/
def Asks (t : Turn c) (q : Question) : Prop :=
  (∃ x ∈ t.trace, x.op.question = q) ∨ Tick.Opens q t.left

theorem meets_plain (t : Turn c) :
    (tick t.files t.now t.time).Meets
      (Standing.protocol (fun l => l.config.clusterName = c.loop.config.clusterName) Question.Plain)
      (fun _ l _ => l.config.clusterName = c.loop.config.clusterName) c.loop () :=
  (Standing.plain c.loop.config.clusterName).tick t.files t.now t.time
    (c.loop.beginTick_same t.files).1

theorem plain (t : Turn c) {x : TickExchange} (hx : x ∈ t.trace) : x.op.question.Plain := by
  obtain ⟨asked, rest, htrace⟩ := List.append_of_mem hx
  have hbegins := t.begins
  rw [htrace] at hbegins
  exact (Program.Meets.permits t.meets_plain hbegins (follows_asking asked)).2

theorem clusterName_after (t : Turn c) :
    t.after.loop.config.clusterName = c.loop.config.clusterName := by
  have hleft := Program.Meets.left t.meets_plain t.begins (follows_asking t.trace)
  unfold after Tick.standing
  cases hrest : t.left with
  | done r =>
    rw [hrest] at hleft
    exact hleft
  | ask a next =>
    rw [hrest] at hleft
    exact hleft.1.1

/-- At every moment of a turn, all nodes that there were are known, and those that there are stay
known. -/
theorem onward_between (t : Turn c) (h : c.service.Sound) {asked rest : List TickExchange}
    {m : Service} (htrace : t.trace = asked ++ rest)
    (hasked : Follows (Service.protocol LeavesTags) c.service asked m)
    (hrest : Follows (Service.protocol LeavesTags) m rest t.answered) :
    m.Sound ∧ c.service.provider.Onward m.provider ∧
      m.provider.Onward t.after.service.provider := by
  have hplain : ∀ x ∈ asked ++ rest, x.op.question.Plain := fun x hx => t.plain (htrace ▸ hx)
  obtain ⟨hsound, honward⟩ := h.follows hasked fun x hx => hplain x (List.mem_append_left _ hx)
  obtain ⟨hanswered, hlater⟩ :=
    hsound.follows hrest fun x hx => hplain x (List.mem_append_right _ hx)
  have hwent := Service.wentOn_steps hanswered t.beside
  exact ⟨hsound, honward, hlater.trans (hwent.since hwent.sound rfl (.of_nodes rfl)).onward⟩

theorem onward (t : Turn c) (h : c.service.Sound) :
    c.service.provider.Onward t.after.service.provider :=
  (t.onward_between h (List.nil_append _).symm (.nil _) t.follows).2.2

/-- A turn that lists nodes lists those of the cluster that are not terminated at the time. -/
theorem exists_listed (t : Turn c) (h : c.Kept node out) {ids : List NodeId} {loop : ControlLoop}
    {first rest : List TickExchange}
    (htrace : t.trace = c.loop.firstExchange t.files t.time :: (first ++ rest))
    (hlisting : Runs (Tick.listing.run (c.loop.begun t.files t.now t.time).2) first
      (.ok ids, loop)) :
    ∃ m : Service, c.service.provider.Onward m.provider ∧
      m.provider.Onward t.after.service.provider ∧
        ∀ id, id ∈ ids ↔ ∃ x, m.provider.nodes.get? id = some x ∧ x.phase ≠ .terminated ∧
          x.tags.get? Tags.clusterName = some c.loop.config.clusterName := by
  have hfollows := t.follows
  rw [htrace, ← List.cons_append] at hfollows
  obtain ⟨m, hfirst, hlast⟩ := follows_append.mp hfollows
  obtain ⟨-, hbefore, hafter⟩ := t.onward_between h.sound htrace hfirst hlast
  obtain ⟨w, -, -, hout, hw⟩ := h.opened t
  obtain ⟨-, hlisted⟩ := (NodeWatch.listing_holds hout hw).result hlisting
    ((t.follows_opened hfirst).mono fun _ _ _ _ hserved => hserved)
  have hcluster : (c.loop.begun t.files t.now t.time).2.config.clusterName =
      c.loop.config.clusterName := by
    obtain ⟨_, _, _, _, hbegun⟩ := c.loop.begun_eq t.files t.now t.time
    rw [hbegun]
    exact (c.loop.beginTick_same t.files).1
  refine ⟨m, hbefore, hafter, fun id => ?_⟩
  rw [hlisted ids rfl, mem_listNodes_iff, hcluster]
  simp only [Tags.satisfies_ofCluster_iff]

/-- A reading tells what its turn lists. -/
theorem Reads.lists_iff {t : Turn c} {r : Reading t.files t.now t.time c.loop} (hr : t.Reads r) :
    t.Lists node ↔ r.Lists node := by
  obtain ⟨rest, htrace⟩ := hr
  constructor
  · rintro ⟨ids, loop, first, others, htrace', hlisting, hmem⟩
    obtain ⟨ids', loop', first', read, hsplit, hlisting', hread⟩ := r.exists_listing
    rw [htrace, hsplit, List.append_assoc] at htrace'
    obtain ⟨rfl, hsame⟩ := hlisting'.unique hlisting (List.cons.inj htrace').2
    cases hsame
    exact ⟨ids, loop, first', read, hsplit, hlisting, hread, hmem⟩
  · rintro ⟨ids, loop, first, read, hsplit, hlisting, -, hmem⟩
    refine ⟨ids, loop, first, read ++ rest, ?_, hlisting, hmem⟩
    rw [htrace, hsplit, List.append_assoc]

/-- A node that is listed is one of the cluster. -/
theorem Lists.owns {t : Turn c} (hlists : t.Lists node) (h : c.Kept node out) :
    t.after.service.Owns t.after.loop node := by
  obtain ⟨ids, loop, first, rest, htrace, hlisting, hmem⟩ := hlists
  obtain ⟨m, -, hafter, hids⟩ := t.exists_listed h htrace hlisting
  obtain ⟨x, hx, -, hcluster⟩ := (hids node).mp hmem
  have howns : m.Owns c.loop node := ⟨x, hx, hcluster⟩
  exact howns.onward hafter t.clusterName_after

/-- A node of the cluster that a reading does not find listed is gone. -/
theorem gone_of_unlisted (t : Turn c) (h : c.Kept node out) (howns : c.service.Owns c.loop node)
    {r : Reading t.files t.now t.time c.loop} (hr : t.Reads r) (hunlisted : ¬ t.Lists node) :
    t.after.service.Gone node := by
  obtain ⟨rest, htrace⟩ := hr
  obtain ⟨ids, loop, first, read, hsplit, hlisting, -⟩ := r.exists_listing
  rw [hsplit, List.append_assoc] at htrace
  obtain ⟨m, hbefore, hafter, hids⟩ := t.exists_listed h htrace hlisting
  have hthere : m.Owns c.loop node := howns.onward hbefore rfl
  obtain ⟨x, hx, hcluster⟩ := hthere
  have hgone : m.Gone node := by
    refine ⟨x, hx, ?_⟩
    by_contra hlive
    exact hunlisted ⟨ids, loop, first, read ++ rest, htrace, hlisting,
      (hids node).mpr ⟨x, hx, hlive, hcluster⟩⟩
  exact hgone.onward hafter

/-- A node that is read was listed. -/
theorem Reads.lists {t : Turn c} {r : Reading t.files t.now t.time c.loop} (hr : t.Reads r)
    (hread : node ∈ r.nodes.map (·.id)) : t.Lists node := by
  obtain ⟨ids, loop, first, read, hsplit, hlisting, hreads⟩ := r.exists_listing
  have hsub := (readNodes_meets ids [] loop).result hreads (follows_unwatched read) r.nodes rfl
  exact hr.lists_iff.mpr ⟨ids, loop, first, read, hsplit, hlisting, hreads, hsub.1.subset hread⟩

/-- A node that was gone is not listed. -/
theorem Lists.not_gone {t : Turn c} (hlists : t.Lists node) (h : c.Kept node out) :
    ¬ c.service.Gone node := by
  intro hgone
  obtain ⟨ids, loop, first, rest, htrace, hlisting, hmem⟩ := hlists
  obtain ⟨m, hbefore, -, hids⟩ := t.exists_listed h htrace hlisting
  obtain ⟨x, hx, hphase⟩ := hgone.onward hbefore
  obtain ⟨y, hy, hlive, -⟩ := (hids node).mp hmem
  obtain rfl := Option.some.inj (hx.symm.trans hy)
  exact hlive hphase

/-- A node of the cluster whose termination succeeds is gone. -/
theorem gone_of_reaped (t : Turn c) (h : c.Kept node out)
    (hknown : c.service.Owns c.loop node ∨ t.Lists node) {x : TickExchange} (hx : x ∈ t.trace)
    (hreaps : x.op.question.Reaps node x.reply) : t.after.service.Gone node := by
  obtain ⟨asked, rest, htrace⟩ := List.append_of_mem hx
  have hbegins := t.begins
  have hfollows := t.follows
  rw [htrace] at hbegins hfollows
  obtain ⟨m, hasked, hlast⟩ := follows_append.mp hfollows
  obtain ⟨hsound, hbefore, -⟩ := t.onward_between h.sound htrace hasked hlast
  have howns : m.Owns c.loop node := by
    rcases hknown with howns | hlists
    · exact howns.onward hbefore rfl
    · -- nodes are terminated only once all of them have been read
      obtain ⟨nodes, hquestion⟩ := hreaps.exists_nodes
      obtain ⟨r, hprecedes⟩ := Tick.exists_precedes hbegins
        (by rw [hquestion]; rintro _ ⟨⟩; rfl) (by rw [hquestion]; exact fun _ heq => nomatch heq)
      obtain ⟨middle, hfirst, -⟩ := hbegins.split
      let t' : Turn c := ⟨t.files, t.now, t.time, asked, middle, m, m, hfirst, hasked, .refl⟩
      have hreads : t.Reads r := by
        obtain ⟨passed, hpassed⟩ := hprecedes
        refine ⟨passed ++ x :: rest, ?_⟩
        rw [htrace, hpassed, List.cons_append, List.append_assoc]
      have hlists' : t'.Lists node :=
        (Reads.lists_iff (t := t') hprecedes).mpr (hreads.lists_iff.mp hlists)
      exact (hlists'.owns h).onward (.refl _) t'.clusterName_after.symm
  rw [← List.singleton_append] at hlast
  obtain ⟨m', hserved, hlater⟩ := follows_append.mp hlast
  cases hserved with
  | cons hstep hnil =>
    cases hnil
    have hgone := howns.gone_of_reaped hsound hreaps hstep
    have hsplit : t.trace = (asked ++ [x]) ++ rest := by
      rw [htrace, List.append_assoc]
      rfl
    have hanswered := follows_append.mpr ⟨m, hasked, .cons hstep (.nil _)⟩
    exact hgone.onward (t.onward_between h.sound hsplit hanswered hlater).2.2

/-- A turn that has read the nodes starts the clock of one by merging or by finding it ready. -/
theorem Reads.seeds_iff {t : Turn c} {r : Reading t.files t.now t.time c.loop} (hr : t.Reads r) :
    t.Seeds node ↔ c.loop.loads.get? node = none ∧ (c.loop.MergesSuccess t.time node ∨
      (r.loop.observe r.nodes).states.get? node = some .ready) := by
  have hstarted : t.trace ≠ [] := by
    obtain ⟨rest, htrace⟩ := hr
    rw [htrace]
    exact List.cons_ne_nil _ _
  have hready : (∃ r', t.Reads r' ∧ (r'.loop.observe r'.nodes).states.get? node = some .ready) ↔
      (r.loop.observe r.nodes).states.get? node = some .ready := by
    constructor
    · rintro ⟨r', hr', hstate⟩
      obtain rfl : r' = r := Reading.Precedes.unique hr' hr
      exact hstate
    · exact fun hstate => ⟨r, hr, hstate⟩
  unfold Seeds
  rw [hready]
  simp only [hstarted, ne_eq, not_false_eq_true, true_and]

/-- A turn that reads a node whenever it reads at all, and does not terminate it, starts the clock of the
node or leaves its record as it was. -/
theorem loads_after (t : Turn c) (hread : ∀ r, t.Reads r → node ∈ r.nodes.map (·.id))
    (hspared : ∀ x ∈ t.trace, ¬ x.op.question.Reaps node x.reply) :
    (t.Seeds node → t.after.loop.loads.get? node = some (NodeLoad.seeded t.now)) ∧
      (¬ t.Seeds node → t.after.loop.loads.get? node = c.loop.loads.get? node) := by
  by_cases hreads : ∃ r, t.Reads r
  · obtain ⟨r, hr⟩ := hreads
    obtain ⟨hseeded, hkept⟩ := r.loads_planner (hread r hr)
    have hafter : t.after.loop.loads.get? node = _ := r.loads_standing t.begins hr hspared
    rw [hafter]
    exact ⟨fun h => hseeded (hr.seeds_iff.mp h), fun h => hkept (mt hr.seeds_iff.mpr h)⟩
  · push Not at hreads
    obtain ⟨hmerged, hunmerged⟩ :=
      @ControlLoop.get?_loads_begun node t.now t.time c.loop t.files
    rcases Tick.recalls_unless_read t.begins hreads with ⟨hstart, hstanding⟩ | ⟨hstarted, -, hloads⟩
    · have hafter : t.after.loop.loads.get? node = c.loop.loads.get? node := by
        unfold after
        rw [hstanding]
        exact c.loop.get?_loads_beginTick t.files
      refine ⟨fun hseeds => ?_, fun _ => hafter⟩
      rcases hseeds.2 with ⟨hstarted, -⟩ | ⟨r, hr, -⟩
      · exact absurd hstart hstarted
      · exact absurd hr (hreads r)
    · have hafter : t.after.loop.loads = _ := hloads
      rw [hafter]
      constructor
      · rintro ⟨hnone, ⟨-, hmerges⟩ | ⟨r, hr, -⟩⟩
        · rw [hmerged hmerges, hnone, Option.getD_none]
        · exact absurd hr (hreads r)
      · intro hseeds
        by_cases hmerges : c.loop.MergesSuccess t.time node
        · -- there was a record already
          obtain ⟨load, hload⟩ := Option.ne_none_iff_exists'.mp
            fun hnone => hseeds ⟨hnone, .inl ⟨hstarted, hmerges⟩⟩
          rw [hmerged hmerges, hload, Option.getD_some]
        · exact hunmerged hmerges

end Turn

end ClusterScaler
