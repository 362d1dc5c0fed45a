import ClusterScaler.Proofs.Clocks.Records
import ClusterScaler.Proofs.Labels.Terminations
import ClusterScaler.Proofs.Planning.Excess
import ClusterScaler.Proofs.Status.Counts

/-!
# What a published status tells

A status is put together at the end of a tick, from the nodes that were read, from the states that
several steps of the tick have noted, from the pool of updaters and from the totals. What these say of
each other is carried through a tick from its planning on (`Tick.Carried`), so that the status that is
published agrees with what the tick has asked and was answered, with its summary, and with the pool that
it leaves behind (`published_tells`).
-/

set_option autoImplicit false

namespace ClusterScaler

open Program TickM

namespace ControlLoop

variable {l : ControlLoop} {now : Nat} {nodes : List NodeRecord}

theorem get?_markAll (l : ControlLoop) (state : NodeState) (ids : List NodeId) (id : NodeId) :
    (l.markAll state ids).states.get? id =
      if id ∈ ids then some state else l.states.get? id := by
  have hfold : ∀ (ids : List NodeId) (t : Table NodeId NodeState),
      (ids.foldl (fun t id => t.insert id state) t).get? id =
        if id ∈ ids then some state else t.get? id := by
    intro ids
    induction ids with
    | nil => exact fun t => rfl
    | cons first rest ih =>
      intro t
      rw [List.foldl_cons, ih, Table.get?_insert]
      by_cases hrest : id ∈ rest
      · simp [hrest]
      · by_cases hid : id = first <;> simp [hrest, hid]
  exact hfold ids l.states

/-- Only nodes that were read have to go. -/
theorem mem_ids_of_mem_doomed {id : NodeId} (h : id ∈ (l.planTick now nodes).doomed) :
    id ∈ nodes.map (·.id) := by
  rcases List.mem_append.mp h with hforced | hexcess
  · obtain ⟨n, hn, rfl⟩ := List.mem_map.mp hforced
    exact List.mem_map_of_mem (List.mem_filter.mp hn).1
  · obtain ⟨⟨nodeType, target⟩, -, hid⟩ := List.mem_flatMap.mp hexcess
    obtain ⟨c, hc, rfl⟩ := List.mem_map.mp hid
    have hcandidate := (List.mem_filter.mp
      ((sortCandidates_perm _).mem_iff.mp (List.mem_of_mem_take hc))).1
    obtain ⟨e, he, -, rfl⟩ := mem_candidatesOf_iff.mp hcandidate
    obtain ⟨n, hn, rfl⟩ := List.mem_map.mp he
    exact List.mem_map_of_mem (List.mem_filter.mp hn).1

/-- A node is known in a state of one that stays, which is updating exactly if it has an updater in
flight. -/
def KnownToStay (l : ControlLoop) (id : NodeId) : Prop :=
  ∃ state, l.states.get? id = some state ∧ state ≠ .terminating ∧ state ≠ .removed ∧
    (state = .updating ↔ l.isUpdating id = true)

theorem KnownToStay.congr {l' : ControlLoop} {id : NodeId} (h : l.KnownToStay id)
    (hstate : l'.states.get? id = l.states.get? id) (hupdating : l'.isUpdating id = l.isUpdating id) :
    l'.KnownToStay id := by
  unfold KnownToStay
  rw [hstate, hupdating]
  exact h

/-- Once a node is observed it is known to stay. -/
theorem knownToStay_observe (hnodup : (nodes.map (·.id)).Nodup) {n : NodeRecord} (hn : n ∈ nodes) :
    (l.observe nodes).KnownToStay n.id := by
  refine ⟨l.observed n, states_observe hnodup hn, ?_⟩
  change _ ∧ _ ∧ (_ ↔ l.isUpdating n.id = true)
  unfold observed
  split
  · next h => simp [h]
  · next h => split <;> [skip; split] <;> simp [h]

end ControlLoop

namespace Tick

/-- What is carried through a tick from its termination up to the status: the balance of the counts, the
states of the nodes that were read, and what was asked. -/
structure Carried (earlier : ControlLoop) (nodes : List NodeRecord) (doomed removed : List NodeId)
    (sum : TickSummary) (l : ControlLoop) (asked : List TickExchange) : Prop where
  balances : sum.Balances earlier l
  stays : ∀ n ∈ nodes, n.id ∉ doomed → l.KnownToStay n.id
  /-- A node that was to go and did not is terminating. -/
  waits : ∀ id ∈ doomed, id ∉ removed → l.states.get? id = some .terminating
  idle : ∀ id ∈ doomed, l.isUpdating id = false
  within : ∀ id ∈ removed, id ∈ doomed
  only : ∀ x ∈ asked, x.op.question.terminated = [] ∨
    x.op.question = .request (.terminateNodes doomed)
  reaped : ∀ id, (∃ x ∈ asked, x.op.question.Reaps id x.reply) ↔ id ∈ removed

variable {earlier l l' : ControlLoop} {nodes : List NodeRecord} {doomed removed : List NodeId}
  {sum sum' : TickSummary} {asked : List TickExchange}

/-- Only what is counted and what the loop notes about nodes matters. -/
theorem Carried.congr (h : Carried earlier nodes doomed removed sum l asked)
    (hbalances : sum'.Balances earlier l') (hstates : l'.states = l.states)
    (hupdating : ∀ id, l'.isUpdating id = l.isUpdating id) :
    Carried earlier nodes doomed removed sum' l' asked := by
  refine ⟨hbalances, ?_, ?_, ?_, h.within, h.only, h.reaped⟩
  · exact fun n hn hspared => (h.stays n hn hspared).congr (by rw [hstates]) (hupdating n.id)
  · rw [hstates]
    exact h.waits
  · exact fun id hid => (hupdating id).trans (h.idle id hid)

theorem terminated_ne_nil_of_reaps {id : NodeId} {q : Question} {reply : q.Reply}
    (h : q.Reaps id reply) : q.terminated ≠ [] := by
  obtain ⟨ids, rfl⟩ := h.exists_nodes
  exact List.ne_nil_of_mem h.1

/-- An exchange that asks for no termination changes nothing that is carried. -/
theorem Carried.asks (h : Carried earlier nodes doomed removed sum l asked) {x : TickExchange}
    (hquiet : x.op.question.terminated = []) :
    Carried earlier nodes doomed removed sum l (asked ++ [x]) := by
  refine ⟨h.balances, h.stays, h.waits, h.idle, h.within, ?_, ?_⟩
  · intro y hy
    rcases List.mem_append.mp hy with hold | hnew
    · exact h.only y hold
    · rw [List.mem_singleton.mp hnew]
      exact .inl hquiet
  · intro id
    rw [← h.reaped id]
    constructor
    · rintro ⟨y, hy, hreaps⟩
      rcases List.mem_append.mp hy with hold | hnew
      · exact ⟨y, hold, hreaps⟩
      · obtain rfl := List.mem_singleton.mp hnew
        exact absurd hquiet (terminated_ne_nil_of_reaps hreaps)
    · rintro ⟨y, hy, hreaps⟩
      exact ⟨y, List.mem_append_left _ hy, hreaps⟩

/-- What a loop notes about nodes and what it counts does not depend on the answers that it takes in. -/
theorem Carried.hears (h : Carried earlier nodes doomed removed sum l asked) (q : Question)
    (reply : q.Reply) : Carried earlier nodes doomed removed sum (l.hear q reply) asked := by
  cases q with
  | request r => exact h.congr (h.balances.congr ⟨rfl, rfl, rfl⟩) rfl fun _ =>
      UpdaterPool.isUpdating_completeAll
  | awaitLaunch => exact h.congr (h.balances.congr ⟨rfl, rfl, rfl⟩) rfl fun _ =>
      UpdaterPool.isUpdating_completeAll
  | dispatch u => exact h
  | abandon nodes => exact h
  | launch order => exact h

/-- A question that asks for no termination keeps what is carried. -/
theorem kept_carried {q : Question} (hquiet : q.terminated = []) :
    q.Kept remembering (Carried earlier nodes doomed removed sum) := by
  intro l asked h
  refine ⟨trivial, ?_⟩
  rintro reply _ rfl
  exact (h.hears q reply).asks hquiet

theorem looksKept_carried :
    LooksKept remembering (Carried earlier nodes doomed removed sum) := by
  intro r hlooks
  refine kept_carried ?_
  by_contra hterminates
  obtain ⟨r', heq, hr'⟩ := Question.exists_request_of_terminated hterminates
  obtain rfl := Question.request.inj heq
  rw [(Request.of_looks hlooks).2.2.1] at hr'
  cases hr'

/-- Asking for the termination carries on: with all that were to go if it succeeds, and as before if it
fails. -/
theorem request_carried (h : Carried earlier nodes doomed [] sum l asked) :
    (request (.terminateNodes doomed)).Meets remembering (fun reply l' asked' =>
      Carried earlier nodes doomed (if reply.isOk then doomed else []) sum l' asked') l asked := by
  refine meets_request.mpr ⟨trivial, ?_⟩
  rintro d _ rfl
  have hheard := h.hears (.request (.terminateNodes doomed)) d
  have hsame : ∀ id, (∃ x ∈ asked ++ [(⟨⟨l, .request (.terminateNodes doomed)⟩, d⟩ : TickExchange)],
      x.op.question.Reaps id x.reply) ↔ id ∈ doomed ∧ d.answer.isOk = true := by
    intro id
    constructor
    · rintro ⟨x, hx, hreaps⟩
      rcases List.mem_append.mp hx with hold | hnew
      · exact absurd ((h.reaped id).mp ⟨x, hold, hreaps⟩) List.not_mem_nil
      · obtain rfl := List.mem_singleton.mp hnew
        exact hreaps
    · intro hreaps
      exact ⟨_, List.mem_append_right _ (List.mem_singleton_self _), hreaps⟩
  refine ⟨hheard.balances, hheard.stays, fun id hid _ => hheard.waits id hid List.not_mem_nil,
    hheard.idle, ?_, ?_, ?_⟩
  · intro id hid
    split at hid
    · exact hid
    · exact absurd hid List.not_mem_nil
  · intro x hx
    rcases List.mem_append.mp hx with hold | hnew
    · exact h.only x hold
    · rw [List.mem_singleton.mp hnew]
      exact .inr rfl
  · intro id
    rw [hsame]
    cases hok : d.answer.isOk with
    | true => simp
    | false => simp

/-- Before a termination nothing is asked. -/
theorem carried_nil (hbalances : sum.Balances earlier l)
    (hstays : ∀ n ∈ nodes, n.id ∉ doomed → l.KnownToStay n.id)
    (hwaits : ∀ id ∈ doomed, l.states.get? id = some .terminating)
    (hidle : ∀ id ∈ doomed, l.isUpdating id = false) :
    Carried earlier nodes doomed [] sum l [] where
  balances := hbalances
  stays := hstays
  waits id hid _ := hwaits id hid
  idle := hidle
  within id hid := absurd hid List.not_mem_nil
  only x hx := absurd hx List.not_mem_nil
  reaped := by simp

/-- After a termination that succeeds note is taken of the nodes that are gone. -/
theorem Carried.removeAll (h : Carried earlier nodes doomed doomed sum l asked) :
    Carried earlier nodes doomed doomed
      { sum with terminated := sum.terminated + doomed.length } (l.removeAll doomed) asked where
  balances := TickSummary.balances_removeAll doomed h.balances
  stays n hn hspared := by
    have hstate : (l.removeAll doomed).states.get? n.id = l.states.get? n.id :=
      (ControlLoop.get?_markAll l .removed doomed n.id).trans (if_neg hspared)
    exact (h.stays n hn hspared).congr hstate rfl
  waits id hid hleft := absurd hid hleft
  idle := h.idle
  within := h.within
  only := h.only
  reaped := h.reaped

/-- A termination carries on from the planning. -/
theorem terminate_carried (hbalances : sum.Balances earlier l)
    (hstays : ∀ n ∈ nodes, n.id ∉ doomed → l.KnownToStay n.id)
    (hidle : ∀ id ∈ doomed, l.isUpdating id = false) :
    (terminate doomed sum).Meets remembering
      (fun r l' asked => Carried earlier nodes doomed r.1 r.2 l' asked) l [] := by
  unfold terminate
  split
  · next hempty =>
    obtain rfl := List.isEmpty_iff.mp hempty
    exact carried_nil hbalances hstays (fun id hid => absurd hid List.not_mem_nil) hidle
  · have hmarked : Carried earlier nodes doomed [] sum (l.markAll .terminating doomed) [] := by
      refine carried_nil (hbalances.congr ⟨rfl, rfl, rfl⟩) ?_ ?_ hidle
      · intro n hn hspared
        refine (hstays n hn hspared).congr ?_ rfl
        rw [ControlLoop.get?_markAll, if_neg hspared]
      · intro id hid
        rw [ControlLoop.get?_markAll, if_pos hid]
    rw [TickM.meets_bind, meets_modify, TickM.meets_bind]
    have hcall : (retrying (request (.terminateNodes doomed))).Meets remembering
        (fun reply l' asked' =>
          Carried earlier nodes doomed (if reply.isOk then doomed else []) sum l' asked')
        (l.markAll .terminating doomed) [] := by
      refine meets_retrying
        (fun l' asked' (h : Carried earlier nodes doomed [] sum l' asked') => ?_)
        (fun d l' asked' h => frame_request (looksKept_carried (.pause d) rfl) h) hmarked
      refine (request_carried h).mono fun reply l'' asked'' h' => ⟨h', fun hfailed => ?_⟩
      rw [hfailed] at h'
      exact h'
    refine hcall.mono ?_
    rintro reply l' asked' h
    cases reply with
    | ok _ => exact h.removeAll
    | error e => exact h.congr (TickSummary.balances_countFailure h.balances) rfl fun _ => rfl

/-- An updater that is sent to a node that stays makes the node updating. -/
theorem Carried.sent (h : Carried earlier nodes doomed removed sum l asked) {u : Update}
    {time : Duration} {updaters : UpdaterPool} (hspared : u.request.node ∉ doomed)
    (hdispatch : l.updaters.dispatch? u time = some updaters) :
    Carried earlier nodes doomed removed sum (l.sent u updaters) asked := by
  have hupdating : ∀ id, (l.sent u updaters).isUpdating id =
      (decide (id = u.request.node) || l.isUpdating id) :=
    UpdaterPool.isUpdating_dispatch hdispatch
  have hother : ∀ id, id ≠ u.request.node → (l.sent u updaters).states.get? id = l.states.get? id :=
    fun id hid => Table.get?_insert_of_ne hid
  have hne : ∀ id ∈ doomed, id ≠ u.request.node := fun id hid heq => hspared (heq ▸ hid)
  refine ⟨h.balances.congr ⟨rfl, rfl, rfl⟩, ?_, ?_, ?_, h.within, h.only, h.reaped⟩
  · intro n hn hstays
    by_cases hid : n.id = u.request.node
    · refine ⟨.updating, hid ▸ Table.get?_insert_self, by decide, by decide, ?_⟩
      simp [hupdating, hid]
    · refine (h.stays n hn hstays).congr (hother n.id hid) ?_
      rw [hupdating, decide_eq_false hid, Bool.false_or]
  · intro id hid hleft
    rw [hother id (hne id hid)]
    exact h.waits id hid hleft
  · intro id hid
    rw [hupdating, decide_eq_false (hne id hid), Bool.false_or]
    exact h.idle id hid

theorem launchUnlessTripped_carried {deficits : List (String × Nat)}
    (h : Carried earlier nodes doomed removed sum l asked) :
    (launchUnlessTripped deficits sum).Meets remembering
      (Carried earlier nodes doomed removed) l asked := by
  refine counting_launchUnlessTripped (fun _ o _ asked' h' => ⟨trivial, ?_⟩)
    (fun _ => kept_carried rfl) ?_ (fun l asked sum h => h.congr
      ⟨h.balances.launched, h.balances.terminated, h.balances.failures⟩ rfl fun _ => rfl) h
  · rintro reply _ rfl
    exact h'.asks rfl
  · intro l' asked' sum' ended h'
    obtain ⟨launched, breaker, hmerged⟩ := ControlLoop.mergeLaunch_eq sum' l' ended
    refine h'.congr (TickSummary.balances_mergeLaunch ended h'.balances) ?_ fun id => ?_
    · rw [hmerged]
    · rw [hmerged]
      rfl

theorem dispatchAll_carried {updatable : List NodeRecord}
    (hspared : ∀ n ∈ updatable, n.id ∉ doomed) (time : Duration) (all : List NodeRecord)
    (h : Carried earlier nodes doomed removed sum l asked) :
    (dispatchAll time all none updatable sum).Meets remembering
      (Carried earlier nodes doomed removed) l asked := by
  have hlooks : ∀ sum, LooksKept remembering (Carried earlier nodes doomed removed sum) :=
    fun _ => looksKept_carried
  refine counting_dispatchAll hlooks ?_
    (fun l asked sum h => h.congr
      ⟨h.balances.launched, h.balances.terminated, h.balances.failures⟩ rfl fun _ => rfl)
    time all none sum h
  intro n hn _ _ _ nodeType hashes _ _ sum' l' asked' time' head updaters h' hdispatch
  refine ⟨trivial, ?_⟩
  rintro reply _ rfl
  exact (h'.sent (hspared n hn) hdispatch).asks rfl

/-- A plan is carried out up to the status, which is published from what was carried. -/
theorem carryOut_carried {p : TickPlan} (planner : ControlLoop) (now : Nat) (time : Duration)
    (hbalances : sum.Balances earlier l)
    (hstays : ∀ n ∈ nodes, n.id ∉ p.doomed → l.KnownToStay n.id)
    (hidle : ∀ id ∈ p.doomed, l.isUpdating id = false) :
    (carryOut planner now time nodes p sum).Meets remembering (fun summary after asked =>
      ∃ removed l', Carried earlier nodes p.doomed removed summary l' asked ∧
        summary.nodes = (nodes.filter (!removed.contains ·.id)).length ∧
        after = l'.publish (nodes.filter (!removed.contains ·.id))
          (nodes.filter (removed.contains ·.id)) planner.loads now summary) l [] := by
  unfold carryOut
  rw [TickM.meets_bind]
  refine (terminate_carried hbalances hstays hidle).mono ?_
  rintro ⟨removed, terminated⟩ l₁ asked₁ h₁
  dsimp only
  rw [TickM.meets_bind]
  refine (launchUnlessTripped_carried h₁).mono ?_
  intro launched l₂ asked₂ h₂
  rw [TickM.meets_bind]
  have hspared : ∀ n ∈ (nodes.filter (!removed.contains ·.id)).filter (!p.doomed.contains ·.id),
      n.id ∉ p.doomed := by
    intro n hn
    simpa using (List.mem_filter.mp hn).2
  refine (dispatchAll_carried hspared time _ h₂).mono ?_
  intro dispatched l₃ asked₃ h₃
  have hcounted : ({ dispatched with
      nodes := (nodes.filter (!removed.contains ·.id)).length, targets := p.targets } :
        TickSummary).Balances earlier l₃ :=
    ⟨h₃.balances.launched, h₃.balances.terminated, h₃.balances.failures⟩
  exact ⟨removed, l₃, h₃.congr hcounted rfl fun _ => rfl, rfl, rfl⟩

end Tick

namespace ControlLoop

variable {l : ControlLoop} {loads : LoadStore Float} {now : Nat} {nodes : List NodeRecord}
  {removed : List NodeId} {sum : TickSummary}

/-- The nodes that stay and those that are gone, as a status lists them. -/
def views (l : ControlLoop) (loads : LoadStore Float) (now : Nat) (nodes : List NodeRecord)
    (removed : List NodeId) : List NodeView :=
  (nodes.filter (!removed.contains ·.id)).map (l.viewOf loads now) ++
    (nodes.filter (removed.contains ·.id)).map departedView

theorem mem_views {v : NodeView} : v ∈ l.views loads now nodes removed ↔
    ∃ n ∈ nodes, (n.id ∉ removed ∧ v = l.viewOf loads now n) ∨
      (n.id ∈ removed ∧ v = departedView n) := by
  simp only [views, List.mem_append, List.mem_map, List.mem_filter, List.contains_eq_mem,
    Bool.not_eq_true', decide_eq_true_eq, decide_eq_false_iff_not]
  constructor
  · rintro (⟨n, ⟨hn, hleft⟩, rfl⟩ | ⟨n, ⟨hn, hgone⟩, rfl⟩)
    · exact ⟨n, hn, .inl ⟨hleft, rfl⟩⟩
    · exact ⟨n, hn, .inr ⟨hgone, rfl⟩⟩
  · rintro ⟨n, hn, ⟨hleft, rfl⟩ | ⟨hgone, rfl⟩⟩
    · exact .inl ⟨n, ⟨hn, hleft⟩, rfl⟩
    · exact .inr ⟨n, ⟨hn, hgone⟩, rfl⟩

/-- A node is listed once, if it was read once. -/
theorem nodup_views (hnodup : (nodes.map (·.id)).Nodup) :
    ((l.views loads now nodes removed).map (·.id)).Nodup := by
  have hids : (l.views loads now nodes removed).map (·.id) =
      (nodes.filter (!removed.contains ·.id) ++ nodes.filter (removed.contains ·.id)).map (·.id) := by
    simp only [views, List.map_append, List.map_map]
    rfl
  have hperm : (nodes.filter (!removed.contains ·.id) ++ nodes.filter (removed.contains ·.id)).Perm
      nodes :=
    List.perm_append_comm.trans (List.filter_append_perm (removed.contains ·.id) nodes)
  rw [hids, (hperm.map _).nodup_iff]
  exact hnodup

/-- The nodes of a type that are listed and not gone are those of the type that stay. -/
theorem countP_views (hstay : ∀ n ∈ nodes, n.id ∉ removed → (l.viewOf loads now n).state ≠ .removed)
    (nodeType : String) :
    ((l.views loads now nodes removed).countP fun v => v.nodeType = nodeType ∧ v.state ≠ .removed) =
      (nodes.filter (!removed.contains ·.id)).countP (·.shownType = nodeType) := by
  have hgone : ((nodes.filter (removed.contains ·.id)).map departedView).countP
      (fun v => v.nodeType = nodeType ∧ v.state ≠ .removed) = 0 := by
    rw [List.countP_eq_zero]
    intro v hv
    obtain ⟨n, -, rfl⟩ := List.mem_map.mp hv
    simp [departedView]
  rw [views, List.countP_append, hgone, Nat.add_zero, List.countP_map]
  refine List.countP_congr fun n hn => ?_
  obtain ⟨hn, hleft⟩ := List.mem_filter.mp hn
  have hstate := hstay n hn (by simpa using hleft)
  simp only [Function.comp_apply, decide_eq_true_eq, hstate, not_false_eq_true, ne_eq, and_true]
  rfl

end ControlLoop

namespace Tick

variable {earlier l : ControlLoop} {nodes : List NodeRecord} {doomed removed : List NodeId}
  {sum : TickSummary} {asked : List TickExchange} {loads : LoadStore Float} {now : Nat}

/-- How a node is shown that is not gone. -/
theorem Carried.shown (h : Carried earlier nodes doomed removed sum l asked) {n : NodeRecord}
    (hn : n ∈ nodes) (hleft : n.id ∉ removed) :
    (l.viewOf loads now n).state ≠ .removed ∧
      ((l.viewOf loads now n).state = .terminating ↔ n.id ∈ doomed) ∧
        ((l.viewOf loads now n).state = .updating ↔ l.isUpdating n.id = true) := by
  unfold ControlLoop.viewOf
  dsimp only
  by_cases hdoomed : n.id ∈ doomed
  · simp [h.waits n.id hdoomed hleft, hdoomed, h.idle n.id hdoomed]
  · obtain ⟨state, hstate, hwaits, hgone, hupdating⟩ := h.stays n hn hdoomed
    simp [hstate, hwaits, hgone, hupdating, hdoomed]

theorem Carried.shown_removed (h : Carried earlier nodes doomed removed sum l asked)
    (hread : ∀ id ∈ doomed, id ∈ nodes.map (·.id)) (id : NodeId) :
    (∃ v ∈ l.views loads now nodes removed, v.id = id ∧ v.state = .removed) ↔ id ∈ removed := by
  constructor
  · rintro ⟨v, hv, rfl, hstate⟩
    obtain ⟨n, hn, ⟨hleft, rfl⟩ | ⟨hgone, rfl⟩⟩ := ControlLoop.mem_views.mp hv
    · exact absurd hstate (h.shown hn hleft).1
    · exact hgone
  · intro hgone
    obtain ⟨n, hn, rfl⟩ := List.mem_map.mp (hread id (h.within id hgone))
    exact ⟨_, ControlLoop.mem_views.mpr ⟨n, hn, .inr ⟨hgone, rfl⟩⟩, rfl, rfl⟩

theorem Carried.shown_terminating (h : Carried earlier nodes doomed removed sum l asked)
    {v : NodeView} (hv : v ∈ l.views loads now nodes removed) :
    v.state = .terminating ↔ v.id ∈ doomed ∧ v.id ∉ removed := by
  obtain ⟨n, hn, ⟨hleft, rfl⟩ | ⟨hgone, rfl⟩⟩ := ControlLoop.mem_views.mp hv
  · exact (h.shown hn hleft).2.1.trans (and_iff_left hleft).symm
  · exact iff_of_false (fun hstate => nomatch hstate) fun hwaits => hwaits.2 hgone

theorem Carried.shown_updating (h : Carried earlier nodes doomed removed sum l asked)
    {v : NodeView} (hv : v ∈ l.views loads now nodes removed) :
    v.state = .updating ↔ l.isUpdating v.id = true := by
  obtain ⟨n, hn, ⟨hleft, rfl⟩ | ⟨hgone, rfl⟩⟩ := ControlLoop.mem_views.mp hv
  · exact (h.shown hn hleft).2.2
  · have hidle : l.isUpdating n.id = false := h.idle n.id (h.within n.id hgone)
    exact iff_of_false (fun hstate => nomatch hstate) (Bool.eq_false_iff.mp hidle)

end Tick

namespace Reading

variable {files : FileStore} {now : Nat} {time : Duration} {before : ControlLoop}

/-- Reading asks for no termination. -/
theorem terminated_eq_nil (r : Reading files now time before) :
    ∀ x ∈ r.trace, x.op.question.terminated = [] := by
  have hlooks : LooksKept (asking fun a : TickAsk => a.question.terminated = [])
      (fun _ (_ : Unit) => True) := by
    refine fun q hq _ _ _ => ⟨?_, fun _ _ _ => trivial⟩
    by_contra hterminates
    obtain ⟨_, ⟨⟩, hq'⟩ := Question.exists_request_of_terminated hterminates
    rw [(Request.of_looks hq).2.2.1] at hq'
    cases hq'
  intro x hx
  obtain ⟨_, hquiet⟩ := (Tick.frame_reconcile hlooks trivial).permitted r.runs
    (follows_asking r.trace) x hx
  exact hquiet

/-- Up to the planning nothing is counted. -/
theorem balances_planner (r : Reading files now time before) :
    (before.begun files now time).1.Balances before r.planner := by
  have hlooks : LooksKept unwatched
      fun l (_ : Unit) => (before.begun files now time).1.Balances before l :=
    fun _ _ _ _ h => ⟨trivial, fun _ _ _ => h.congr ⟨rfl, rfl, rfl⟩⟩
  have hloop := (Tick.frame_reconcile hlooks (TickSummary.balances_begun files now time before)).result
    r.runs (follows_unwatched r.trace)
  exact hloop.congr ⟨rfl, rfl, rfl⟩

/-- Every node that was read is known to stay when the tick plans. -/
theorem knownToStay_planner (r : Reading files now time before) {n : NodeRecord} (hn : n ∈ r.nodes) :
    r.planner.KnownToStay n.id :=
  (ControlLoop.knownToStay_observe r.nodup hn).congr rfl rfl

end Reading

/-- What a status tells that a tick publishes. The tick left `after` behind, and the one before it left
`earlier`; the tick has this summary, and it has asked and was answered what is in the trace. -/
structure ClusterStatus.Tells (status : ClusterStatus) (earlier after : ControlLoop)
    (summary : TickSummary) (trace : List TickExchange) : Prop where
  lastTick : status.lastTick = some summary
  distinct : (status.nodes.map (·.id)).Nodup
  /-- Terminations are asked for in one request, which may have to be repeated. -/
  request : ∃ doomed, ∀ x ∈ trace, x.op.question.terminated = [] ∨
    x.op.question = .request (.terminateNodes doomed)
  removed : ∀ id, (∃ v ∈ status.nodes, v.id = id ∧ v.state = .removed) ↔
    ∃ x ∈ trace, x.op.question.Reaps id x.reply
  terminating : ∀ v ∈ status.nodes, v.state = .terminating ↔
    (∃ x ∈ trace, v.id ∈ x.op.question.terminated) ∧ ¬ ∃ x ∈ trace, x.op.question.Reaps v.id x.reply
  updating : ∀ v ∈ status.nodes, v.state = .updating ↔ after.isUpdating v.id = true
  byType : ∀ nodeType,
    let shown := status.nodes.countP fun v => v.nodeType = nodeType ∧ v.state ≠ .removed
    status.nodesByType.get? nodeType = if shown = 0 then none else some shown
  sum : status.nodesByType.values.sum = summary.nodes
  launched : status.launchedTotal = after.launched ∧
    after.launched = earlier.launched + summary.launched
  terminated : status.terminatedTotal = after.terminated ∧
    after.terminated = earlier.terminated + summary.terminated
  failures : status.breaker.totalFailures = after.breaker.totalFailures ∧
    after.breaker.totalFailures = earlier.breaker.totalFailures + summary.providerFailures

namespace Passage

variable {files : FileStore} {now : Nat} {time : Duration} {before : ControlLoop}

/-- What a tick publishes, and from what. -/
theorem carried (p : Passage files now time before) :
    ∃ removed l, Tick.Carried before p.nodes p.plan.doomed removed p.summary l p.rest ∧
      p.summary.nodes = (p.nodes.filter (!removed.contains ·.id)).length ∧
      p.after = l.publish (p.nodes.filter (!removed.contains ·.id))
        (p.nodes.filter (removed.contains ·.id)) p.planner.loads now p.summary := by
  have hmeets : (Tick.afterReconcile now time p.nodes (before.begun files now time).1).Meets
      remembering (fun summary after asked =>
        ∃ removed l, Tick.Carried before p.nodes p.plan.doomed removed summary l asked ∧
          summary.nodes = (p.nodes.filter (!removed.contains ·.id)).length ∧
          after = l.publish (p.nodes.filter (!removed.contains ·.id))
            (p.nodes.filter (removed.contains ·.id)) p.planner.loads now summary) p.loop [] := by
    rw [Tick.afterReconcile_eq, TickM.meets_bind, meets_modify, TickM.meets_bind, meets_get]
    exact Tick.carryOut_carried p.planner now time p.balances_planner
      (fun n hn _ => p.knownToStay_planner hn) (fun id hid => ControlLoop.isUpdating_of_mem_doomed hid)
  exact hmeets.result p.passes (follows_remembering [] p.rest)

/-- A tick that has nodes to terminate asks for their termination. -/
theorem asks_doomed (p : Passage files now time before) (hsome : p.plan.doomed ≠ []) :
    ∃ x ∈ p.rest, x.op.question = .request (.terminateNodes p.plan.doomed) := by
  rcases (Tick.opens_afterReconcile p.toReading hsome _).asked p.passes.begins with hasked | hopens
  · exact hasked
  · obtain ⟨_, _, hends⟩ := hopens
    cases hends

/-- All that a tick has asked and was answered. -/
def exchanges (p : Passage files now time before) : List TickExchange :=
  before.firstExchange files time :: (p.trace ++ p.rest)

/-- Only after its reading does a tick ask for terminations. -/
theorem mem_rest (p : Passage files now time before) {x : TickExchange} (hx : x ∈ p.exchanges)
    (hterminates : x.op.question.terminated ≠ []) : x ∈ p.rest := by
  rcases List.mem_cons.mp hx with rfl | hx
  · exact absurd rfl hterminates
  · rcases List.mem_append.mp hx with hread | hrest
    · exact absurd (p.terminated_eq_nil x hread) hterminates
    · exact hrest

theorem mem_exchanges (p : Passage files now time before) {x : TickExchange} (hx : x ∈ p.rest) :
    x ∈ p.exchanges :=
  List.mem_cons_of_mem _ (List.mem_append_right _ hx)

variable {removed : List NodeId} {l : ControlLoop}

/-- The nodes of which the tick is told that they are terminated are those that it removes. -/
theorem reaped_iff (p : Passage files now time before)
    (h : Tick.Carried before p.nodes p.plan.doomed removed p.summary l p.rest) (id : NodeId) :
    (∃ x ∈ p.exchanges, x.op.question.Reaps id x.reply) ↔ id ∈ removed := by
  rw [← h.reaped id]
  constructor
  · rintro ⟨x, hx, hreaps⟩
    exact ⟨x, p.mem_rest hx (Tick.terminated_ne_nil_of_reaps hreaps), hreaps⟩
  · rintro ⟨x, hx, hreaps⟩
    exact ⟨x, p.mem_exchanges hx, hreaps⟩

/-- The nodes whose termination the tick asks for are those that have to go. -/
theorem terminated_iff (p : Passage files now time before)
    (h : Tick.Carried before p.nodes p.plan.doomed removed p.summary l p.rest) (id : NodeId) :
    (∃ x ∈ p.exchanges, id ∈ x.op.question.terminated) ↔ id ∈ p.plan.doomed := by
  constructor
  · rintro ⟨x, hx, hid⟩
    rcases h.only x (p.mem_rest hx (List.ne_nil_of_mem hid)) with hquiet | hrequest
    · rw [hquiet] at hid
      exact absurd hid List.not_mem_nil
    · rw [hrequest] at hid
      exact hid
  · intro hid
    obtain ⟨x, hx, hrequest⟩ := p.asks_doomed (List.ne_nil_of_mem hid)
    refine ⟨x, p.mem_exchanges hx, ?_⟩
    rw [hrequest]
    exact hid

/-- The status that a tick publishes tells what the tick has done. -/
theorem tells (p : Passage files now time before) :
    p.after.status.Tells before p.after p.summary p.exchanges := by
  obtain ⟨removed, l, h, hcounted, hafter⟩ := p.carried
  have hnodes : p.after.status.nodes = l.views p.planner.loads now p.nodes removed := by
    rw [hafter]
    rfl
  have hbyType : p.after.status.nodesByType =
      Table.tally NodeRecord.shownType (p.nodes.filter (!removed.contains ·.id)) := by
    rw [hafter]
    rfl
  constructor
  case lastTick =>
    rw [hafter]
    rfl
  case distinct =>
    rw [hnodes]
    exact ControlLoop.nodup_views p.nodup
  case request =>
    refine ⟨p.plan.doomed, fun x hx => ?_⟩
    by_cases hterminates : x.op.question.terminated = []
    · exact .inl hterminates
    · exact h.only x (p.mem_rest hx hterminates)
  case removed =>
    intro id
    rw [p.reaped_iff h, hnodes]
    exact h.shown_removed (fun _ => ControlLoop.mem_ids_of_mem_doomed) id
  case terminating =>
    intro v hv
    rw [hnodes] at hv
    rw [p.reaped_iff h, p.terminated_iff h]
    exact h.shown_terminating hv
  case updating =>
    intro v hv
    rw [hnodes] at hv
    rw [hafter]
    exact h.shown_updating hv
  case byType =>
    intro nodeType
    rw [hnodes, ControlLoop.countP_views fun n hn hleft => (h.shown hn hleft).1, hbyType,
      Table.get?_tally]
  case sum => rw [hbyType, Table.sum_tally, hcounted]
  case launched =>
    rw [hafter]
    exact ⟨rfl, h.balances.launched⟩
  case terminated =>
    rw [hafter]
    exact ⟨rfl, h.balances.terminated⟩
  case failures =>
    rw [hafter]
    exact ⟨rfl, h.balances.failures⟩

end Passage

/-- The status that is published at the end of a tick tells what the tick has done, and how the totals
have grown since the tick before, whatever has happened in between. -/
theorem published_tells {files : FileStore} {now : Nat} {time : Duration}
    {earlier before after : ControlLoop} {trace : List TickExchange} {summary : TickSummary}
    (hidle : Relation.ReflTransGen ControlLoop.Idles earlier before)
    (hruns : Runs ((tick files now time).run before) trace (.ok summary, after)) :
    after.status.Tells earlier after summary trace := by
  obtain ⟨p, rfl, rfl, rfl⟩ := exists_passage hruns
  have hsame := ControlLoop.totals_of_idles hidle
  have htells := p.tells
  exact { htells with
    launched := ⟨htells.launched.1, hsame.launched ▸ htells.launched.2⟩
    terminated := ⟨htells.terminated.1, hsame.terminated ▸ htells.terminated.2⟩
    failures := ⟨htells.failures.1, hsame.failures ▸ htells.failures.2⟩ }

/-- After a reset of the breaker a tick reads a node whose files are behind and one of no known type: it
publishes the one as updating and the other as removed. -/
theorem published_tells_afterReset :
    let earlier := ControlLoop.ofHeadType { maxWorkers := 1 }
    let before := earlier.obey .empty .resetBreaker
    ∃ trace summary after,
      Relation.ReflTransGen ControlLoop.Idles earlier before ∧
        Runs ((tick .empty 1000 ⟨0⟩).run before) trace (.ok summary, after) ∧
          after.status.nodes.map (fun v => (v.id, v.state)) =
            [(⟨"a"⟩, .updating), (⟨"b"⟩, .removed)] ∧
            after.status.Tells earlier after summary trace := by
  intro earlier before
  have hidle : Relation.ReflTransGen ControlLoop.Idles earlier before :=
    .single (.obey .empty earlier .resetBreaker)
  obtain ⟨p, -, -, -, hafter, -⟩ := Passage.exists_of_nodes .empty 1000 ⟨0⟩ before
    [.ofHeadType "a", ⟨⟨"b"⟩, ∅, true⟩] (by decide +kernel)
  refine ⟨p.exchanges, p.summary, p.after, hidle, p.runs_tick, ?_,
    published_tells hidle p.runs_tick⟩
  rw [hafter]
  decide +kernel

end ClusterScaler
