import ClusterScaler.Proofs.Provider.Operations

/-!
# The contract of the nodes in memory

A creation takes time, and other operations can come between its begin and its end. So a moment is the
provider together with the creations that wait, and any operation can come next. Every operation changes
the nodes in one of three ways (`Moment.operate_evolves`); each of them keeps the numbering of the nodes
and the log of the terminated ones (`Valid.operate`), and so does every sequence of operations
(`Valid.after`). `keeps_contract` says what is true at every moment that operations lead to, and what
every operation does there.
-/

set_option autoImplicit false

namespace ClusterScaler.InMemory

/-- What can be asked of a provider. A creation is asked for at one time and answered at another, and
may be given up before that. -/
inductive Operation where
  | beginCreate (tags : Tags) (count : Nat)
  /-- The creation that waits at a place is answered. -/
  | finishCreate (place : Nat)
  | cancelCreate (place : Nat)
  | terminate (ids : List NodeId)
  | setTags (id : NodeId) (tags : Tags)
  | setRunning (id : NodeId)
  | runAllPending
  | insert (tags : Tags) (running : Bool)
  | failCreates (n : Nat) (e : ProviderError)
  | failTerminates (n : Nat) (e : ProviderError)

/-- What an operation is answered with. -/
inductive Answer where
  | silent
  | replied (reply : ProviderResult Unit)
  | inserted (id : NodeId)

/-- A provider, and the creations that wait, with the tags and the number of the nodes to make. -/
structure Moment where
  provider : InMemory
  waiting : List (Tags × Nat) := []

namespace Moment

/-- The moment before all operations. -/
def first (options : Options) : Moment := ⟨{ options }, []⟩

/-- Carry out an operation. Where no creation waits at a place, none is answered or given up. -/
def operate (m : Moment) : Operation → Answer × Moment
  | .beginCreate tags count => (.silent, ⟨m.provider.beginCreate, m.waiting ++ [(tags, count)]⟩)
  | .finishCreate place =>
    match m.waiting[place]? with
    | some (tags, count) =>
      let (reply, p) := m.provider.finishCreate tags count
      (.replied reply, ⟨p, m.waiting.eraseIdx place⟩)
    | none => (.silent, m)
  | .cancelCreate place =>
    match m.waiting[place]? with
    | some _ => (.silent, ⟨m.provider.cancelCreate, m.waiting.eraseIdx place⟩)
    | none => (.silent, m)
  | .terminate ids =>
    let (reply, p) := m.provider.terminateNodes ids
    (.replied reply, { m with provider := p })
  | .setTags id tags =>
    let (reply, p) := m.provider.setNodeTags id tags
    (.replied reply, { m with provider := p })
  | .setRunning id => (.silent, { m with provider := m.provider.setRunning id })
  | .runAllPending => (.silent, { m with provider := m.provider.runAllPending })
  | .insert tags running =>
    let (id, p) := m.provider.insertNode tags running
    (.inserted id, { m with provider := p })
  | .failCreates n e => (.silent, { m with provider := m.provider.failCreates n e })
  | .failTerminates n e => (.silent, { m with provider := m.provider.failTerminates n e })

/-- The moment after operations. -/
def after (m : Moment) (operations : List Operation) : Moment :=
  operations.foldl (fun m o => (m.operate o).2) m

variable {m : Moment}

theorem after_append (past future : List Operation) :
    m.after (past ++ future) = (m.after past).after future := List.foldl_append

end Moment

variable {p p' q : InMemory}

theorem isIn_iff {id : NodeId} {phase : Phase} :
    p.isIn id phase = true ↔ ∃ n, p.nodes.get? id = some n ∧ n.phase = phase := by
  unfold isIn
  cases p.nodes.get? id <;> simp

theorem Same.trans_adds {new : List NodeId} {tags : Tags} {phase : Phase} (h : p.Same q)
    (h' : q.Adds new tags phase p') : p.Adds new tags phase p' :=
  ⟨h'.distinct, fun id hid => h.nodes ▸ h'.unknown id hid, h'.added,
    fun id hid => h.nodes ▸ h'.others id hid, h.log ▸ h'.log⟩

theorem Same.trans_ends {ids : List NodeId} (h : p.Same q) (h' : q.Ends ids p') : p.Ends ids p' := by
  have hlive : q.live = p.live := by rw [live, live, h.nodes]
  exact ⟨h'.made.trans h.made, fun id => h.nodes ▸ h'.nodes id, hlive ▸ h.log ▸ h'.log⟩

theorem same_cancelCreate (p : InMemory) : p.Same p.cancelCreate := ⟨rfl, rfl, rfl⟩

/-- A creation is answered with a failure and nothing else, or there are as many new nodes as were
asked for. -/
theorem finishCreate_cases (h : p.Numbered) (tags : Tags) (count : Nat) :
    (∃ e, (p.finishCreate tags count).1 = .error e ∧ p.Same (p.finishCreate tags count).2) ∨
      ((p.finishCreate tags count).1 = .ok () ∧
        p.Adds (p.nextIds count) tags (if p.options.autoRun then .running else .pending)
          (p.finishCreate tags count).2 ∧ (p.finishCreate tags count).2.made = p.made + count) := by
  unfold finishCreate
  dsimp only
  split
  · next e rest _ => exact .inl ⟨e, rfl, rfl, rfl, rfl⟩
  · have hfresh : p.cancelCreate.Numbered := h
    exact .inr ⟨rfl, (same_cancelCreate p).trans_adds (adds_addNodes hfresh tags _ count),
      (made_addNodes p.cancelCreate tags _ count).1⟩

/-- A termination is answered with a failure and nothing else, or the named nodes are terminated. -/
theorem terminateNodes_answers (p : InMemory) (ids : List NodeId) :
    (∃ e, (p.terminateNodes ids).1 = .error e ∧ p.Same (p.terminateNodes ids).2) ∨
      ((p.terminateNodes ids).1 = .ok () ∧ p.Ends ids (p.terminateNodes ids).2) := by
  unfold terminateNodes
  dsimp only
  split
  · next e rest _ => exact .inl ⟨e, rfl, rfl, rfl, rfl⟩
  · have hsame : p.Same { p with terminateCalls := p.terminateCalls + 1 } := ⟨rfl, rfl, rfl⟩
    exact .inr ⟨rfl, hsame.trans_ends (ends_foldl_terminateLive ids _)⟩

/-- The node that is inserted is the only new one. -/
theorem adds_insertNode (h : p.Numbered) (tags : Tags) (running : Bool) :
    p.Adds [(p.insertNode tags running).1] tags (if running then .running else .pending)
      (p.insertNode tags running).2 := adds_addNodes h tags _ 1

/-- What the log says about the nodes. -/
structure Logged (p : InMemory) : Prop where
  distinct : p.terminated.Nodup
  exactly : ∀ id, id ∈ p.terminated ↔ p.isIn id .terminated = true

theorem Logged.adds {new : List NodeId} {tags : Tags} {phase : Phase} (h : p.Logged)
    (hadds : p.Adds new tags phase p') (hphase : phase ≠ .terminated) : p'.Logged := by
  refine ⟨hadds.log ▸ h.distinct, fun id => ?_⟩
  rw [hadds.log, h.exactly, isIn_iff, isIn_iff]
  by_cases hid : id ∈ new
  · obtain ⟨address, hnew⟩ := hadds.added id hid
    rw [hadds.unknown id hid, hnew]
    simp [hphase]
  · rw [hadds.others id hid]

theorem Logged.ends {ids : List NodeId} (h : p.Logged) (hends : p.Ends ids p') : p'.Logged := by
  obtain ⟨gone, hlog, hnodup, hgone⟩ := hends.log
  constructor
  · rw [hlog, List.nodup_append]
    refine ⟨h.distinct, hnodup, ?_⟩
    rintro id hold _ hnew rfl
    obtain ⟨n, hn, hdead⟩ := isIn_iff.mp ((h.exactly id).mp hold)
    obtain ⟨n', hn', hlive⟩ := mem_live_iff.mp ((hgone id).mp hnew).2
    exact hlive (Option.some.inj (hn.symm.trans hn') ▸ hdead)
  · intro id
    rw [hlog, List.mem_append, h.exactly, hgone, isIn_iff, isIn_iff, mem_live_iff, hends.nodes]
    cases hfound : p.nodes.get? id with
    | none => split <;> simp
    | some n => by_cases hid : id ∈ ids <;> by_cases hdead : n.phase = .terminated <;> simp [hid, hdead]

theorem Logged.alters (h : p.Logged) (halters : p.Alters p') : p'.Logged := by
  refine ⟨halters.log ▸ h.distinct, fun id => ?_⟩
  obtain ⟨change, hchange, hphase⟩ := halters.nodes id
  rw [halters.log, h.exactly, isIn_iff, isIn_iff, hchange]
  cases p.nodes.get? id <;> simp [hphase]

/-- The three ways in which the nodes change. -/
inductive Evolves (p p' : InMemory) : Prop where
  | adds {count : Nat} {tags : Tags} {phase : Phase} (hphase : phase ≠ .terminated)
    (hmade : p'.made = p.made + count) (h : p.Adds (p.nextIds count) tags phase p')
  | ends {ids : List NodeId} (h : p.Ends ids p')
  | alters (h : p.Alters p')

theorem Evolves.numbered (h : p.Evolves p') (hnumbered : p.Numbered) : p'.Numbered := by
  intro id n hn
  cases h with
  | @adds count _ _ _ hmade hadds =>
    by_cases hnew : id ∈ p.nextIds count
    · obtain ⟨k, -, hhigh, rfl⟩ := mem_nextIds_iff.mp hnew
      exact ⟨k, by omega, rfl⟩
    · rw [hadds.others id hnew] at hn
      obtain ⟨k, hk, hid⟩ := hnumbered id n hn
      exact ⟨k, by omega, hid⟩
  | ends hends =>
    rw [hends.nodes] at hn
    rw [hends.made]
    split at hn
    · obtain ⟨n', hn', -⟩ := Option.map_eq_some_iff.mp hn
      exact hnumbered id n' hn'
    · exact hnumbered id n hn
  | alters halters =>
    obtain ⟨change, hchange, -⟩ := halters.nodes id
    rw [hchange] at hn
    obtain ⟨n', hn', -⟩ := Option.map_eq_some_iff.mp hn
    rw [halters.made]
    exact hnumbered id n' hn'

/-- Nodes stay known. -/
theorem Evolves.known {id : NodeId} (h : p.Evolves p') (hknown : (p.nodes.get? id).isSome) :
    (p'.nodes.get? id).isSome := by
  cases h with
  | adds _ _ hadds =>
    rw [hadds.others id]
    · exact hknown
    · intro hnew
      rw [hadds.unknown id hnew] at hknown
      cases hknown
  | ends hends =>
    rw [hends.nodes]
    split
    · rw [Option.isSome_map]
      exact hknown
    · exact hknown
  | alters halters =>
    obtain ⟨change, hchange, -⟩ := halters.nodes id
    rw [hchange, Option.isSome_map]
    exact hknown

/-- Where no number was handed out, no node became known. -/
theorem Evolves.known_iff {id : NodeId} (h : p.Evolves p') (hmade : p'.made = p.made) :
    (p'.nodes.get? id).isSome ↔ (p.nodes.get? id).isSome := by
  refine ⟨fun hknown => ?_, h.known⟩
  cases h with
  | @adds count _ _ _ hmore hadds =>
    have hnone : id ∉ p.nextIds count := by
      intro hnew
      obtain ⟨k, hlow, hhigh, -⟩ := mem_nextIds_iff.mp hnew
      omega
    exact hadds.others id hnone ▸ hknown
  | ends hends =>
    rw [hends.nodes] at hknown
    split at hknown
    · exact Option.isSome_map ▸ hknown
    · exact hknown
  | alters halters =>
    obtain ⟨change, hchange, -⟩ := halters.nodes id
    rw [hchange, Option.isSome_map] at hknown
    exact hknown

theorem Evolves.logged (h : p.Evolves p') (hlogged : p.Logged) : p'.Logged := by
  cases h with
  | adds hphase _ hadds => exact hlogged.adds hadds hphase
  | ends hends => exact hlogged.ends hends
  | alters halters => exact hlogged.alters halters

/-- The log only grows. -/
theorem Evolves.log (h : p.Evolves p') : p.terminated <+: p'.terminated := by
  cases h with
  | adds _ _ hadds => exact hadds.log ▸ List.prefix_rfl
  | ends hends =>
    obtain ⟨gone, hlog, -⟩ := hends.log
    exact ⟨gone, hlog.symm⟩
  | alters halters => exact halters.log ▸ List.prefix_rfl

theorem Same.evolves (h : p.Same p') : p.Evolves p' := .alters h.alters

namespace Moment

variable {m : Moment}

/-- What keeps identifiers apart and the log exact. -/
structure Valid (m : Moment) : Prop where
  numbered : m.provider.Numbered
  logged : m.provider.Logged

theorem valid_first (options : Options) : (first options).Valid := by
  refine ⟨fun id n hn => ?_, List.nodup_nil, fun id => ?_⟩
  · cases hn
  · rw [isIn_iff]
    constructor
    · exact fun hid => absurd hid List.not_mem_nil
    · rintro ⟨n, hn, -⟩
      cases hn

/-- An operation changes the nodes in one of three ways. -/
theorem operate_evolves (h : m.provider.Numbered) (o : Operation) :
    m.provider.Evolves (m.operate o).2.provider := by
  have hphase : ∀ running : Bool, (if running then Phase.running else .pending) ≠ .terminated := by
    decide
  cases o with
  | beginCreate tags count => exact Same.evolves ⟨rfl, rfl, rfl⟩
  | finishCreate place =>
    unfold operate
    dsimp only
    split
    · next tags count _ =>
      rcases finishCreate_cases h tags count with ⟨e, -, hsame⟩ | ⟨-, hadds, hmade⟩
      · exact hsame.evolves
      · exact .adds (hphase _) hmade hadds
    · exact (Same.refl _).evolves
  | cancelCreate place =>
    unfold operate
    dsimp only
    split
    · exact (same_cancelCreate _).evolves
    · exact (Same.refl _).evolves
  | terminate ids =>
    rcases terminateNodes_answers m.provider ids with ⟨e, -, hsame⟩ | ⟨-, hends⟩
    · exact hsame.evolves
    · exact .ends hends
  | setTags id tags => exact .alters (alters_setNodeTags _ id tags)
  | setRunning id => exact .alters (alters_setRunning _ id)
  | runAllPending => exact .alters (alters_runAllPending _)
  | insert tags running => exact .adds (hphase running) rfl (adds_insertNode h tags running)
  | failCreates n e => exact Same.evolves ⟨rfl, rfl, rfl⟩
  | failTerminates n e => exact Same.evolves ⟨rfl, rfl, rfl⟩

theorem Valid.operate (h : m.Valid) (o : Operation) : (m.operate o).2.Valid :=
  have hevolves := operate_evolves h.numbered o
  ⟨hevolves.numbered h.numbered, hevolves.logged h.logged⟩

theorem Valid.after (h : m.Valid) (operations : List Operation) : (m.after operations).Valid := by
  induction operations generalizing m with
  | nil => exact h
  | cons o rest ih => exact ih (h.operate o)

/-- Nodes stay known, and terminations stay logged. -/
theorem Valid.lasting (h : m.Valid) (operations : List Operation) :
    (∀ id, (m.provider.nodes.get? id).isSome →
        ((m.after operations).provider.nodes.get? id).isSome) ∧
      m.provider.terminated <+: (m.after operations).provider.terminated := by
  induction operations generalizing m with
  | nil => exact ⟨fun _ hknown => hknown, List.prefix_rfl⟩
  | cons o rest ih =>
    have hevolves := operate_evolves h.numbered o
    obtain ⟨hknown, hlog⟩ := ih (h.operate o)
    exact ⟨fun id hid => hknown id (hevolves.known hid), hevolves.log.trans hlog⟩

/-- An operation that neither answers a creation nor inserts a node hands out no number. -/
theorem made_operate {o : Operation} (hcreate : ∀ place, o ≠ .finishCreate place)
    (hinsert : ∀ tags running, o ≠ .insert tags running) :
    (m.operate o).2.provider.made = m.provider.made := by
  cases o with
  | finishCreate place => exact absurd rfl (hcreate place)
  | insert tags running => exact absurd rfl (hinsert tags running)
  | cancelCreate place =>
    unfold operate
    dsimp only
    split <;> rfl
  | terminate ids =>
    rcases terminateNodes_answers m.provider ids with ⟨e, -, hsame⟩ | ⟨-, hends⟩
    · exact hsame.made
    · exact hends.made
  | setTags id tags => exact (alters_setNodeTags m.provider id tags).made
  | setRunning id => exact (alters_setRunning m.provider id).made
  | beginCreate tags count => rfl
  | runAllPending => rfl
  | failCreates n e => rfl
  | failTerminates n e => rfl

/-- What holds at the moment that operations have led to from the start. -/
structure Contract (start : Moment) (past : List Operation) (m : Moment) : Prop where
  /-- No node runs and is terminated. -/
  phases : ∀ id, ¬ (m.provider.isIn id .running = true ∧ m.provider.isIn id .terminated = true)
  /-- A terminated node stays terminated, and is not listed any more. -/
  forGood : ∀ future id, m.provider.isIn id .terminated = true →
    (m.after future).provider.isIn id .terminated = true ∧
      ∀ filter, id ∉ (m.after future).provider.listNodes filter
  /-- Listed are the nodes that are not terminated and carry every tag of the filter. -/
  listed : ∀ filter id, id ∈ m.provider.listNodes filter ↔
    ∃ n, m.provider.nodes.get? id = some n ∧ n.phase ≠ .terminated ∧
      ∀ key value, filter.get? key = some value → n.tags.get? key = some value
  listedOnce : ∀ filter, (m.provider.listNodes filter).Nodup
  logged : m.provider.Logged
  /-- A creation that is answered has failed and added no node, or it has added as many as were asked
  for. Their identifiers were not known at any moment before. -/
  creations : ∀ place tags count, m.waiting[place]? = some (tags, count) →
    ∃ reply, (m.operate (.finishCreate place)).1 = .replied reply ∧
      (∀ e, reply = .error e → m.provider.Same (m.operate (.finishCreate place)).2.provider) ∧
      (reply = .ok () → ∃ new, new.length = count ∧
        m.provider.Adds new tags (if m.provider.options.autoRun then .running else .pending)
          (m.operate (.finishCreate place)).2.provider ∧
        ∀ earlier, earlier <+: past → ∀ id ∈ new, (start.after earlier).provider.nodes.get? id = none)
  insertions : ∀ tags running, ∃ id, (m.operate (.insert tags running)).1 = .inserted id ∧
    m.provider.Adds [id] tags (if running then .running else .pending)
      (m.operate (.insert tags running)).2.provider ∧
    ∀ earlier, earlier <+: past → (start.after earlier).provider.nodes.get? id = none
  /-- No other operation adds a node, and none takes one away. -/
  others : ∀ o, (∀ place, o ≠ .finishCreate place) → (∀ tags running, o ≠ .insert tags running) →
    ∀ id, ((m.operate o).2.provider.nodes.get? id).isSome ↔ (m.provider.nodes.get? id).isSome
  /-- A termination has failed and changed no node, or the named nodes are terminated. -/
  terminations : ∀ ids, ∃ reply, (m.operate (.terminate ids)).1 = .replied reply ∧
    (∀ e, reply = .error e → m.provider.Same (m.operate (.terminate ids)).2.provider) ∧
    (reply = .ok () → m.provider.Ends ids (m.operate (.terminate ids)).2.provider)

/-- What is not known at a moment was not known before. -/
theorem Valid.unknown_before (h : m.Valid) {past earlier : List Operation}
    (hearlier : earlier <+: past) {id : NodeId}
    (hunknown : (m.after past).provider.nodes.get? id = none) :
    (m.after earlier).provider.nodes.get? id = none := by
  obtain ⟨later, rfl⟩ := hearlier
  rw [after_append] at hunknown
  by_contra hknown
  have hsome := ((h.after earlier).lasting later).1 id (Option.isSome_iff_ne_none.mpr hknown)
  rw [hunknown] at hsome
  cases hsome

theorem Valid.creations (h : m.Valid) {place : Nat} {tags : Tags} {count : Nat}
    (hplace : m.waiting[place]? = some (tags, count)) :
    ∃ reply, (m.operate (.finishCreate place)).1 = .replied reply ∧
      (∀ e, reply = .error e → m.provider.Same (m.operate (.finishCreate place)).2.provider) ∧
      (reply = .ok () → m.provider.Adds (m.provider.nextIds count) tags
        (if m.provider.options.autoRun then .running else .pending)
        (m.operate (.finishCreate place)).2.provider) := by
  have hoperate : m.operate (.finishCreate place) =
      (.replied (m.provider.finishCreate tags count).1,
        ⟨(m.provider.finishCreate tags count).2, m.waiting.eraseIdx place⟩) := by
    unfold Moment.operate
    dsimp only
    rw [hplace]
  rw [hoperate]
  refine ⟨_, rfl, ?_⟩
  rcases finishCreate_cases h.numbered tags count with ⟨e, hreply, hsame⟩ | ⟨hreply, hadds, -⟩
  · rw [hreply]
    exact ⟨fun _ _ => hsame, fun hok => (nomatch hok)⟩
  · rw [hreply]
    exact ⟨fun _ herror => (nomatch herror), fun _ => hadds⟩

theorem terminations (m : Moment) (ids : List NodeId) :
    ∃ reply, (m.operate (.terminate ids)).1 = .replied reply ∧
      (∀ e, reply = .error e → m.provider.Same (m.operate (.terminate ids)).2.provider) ∧
      (reply = .ok () → m.provider.Ends ids (m.operate (.terminate ids)).2.provider) := by
  have hoperate : m.operate (.terminate ids) =
      (.replied (m.provider.terminateNodes ids).1,
        { m with provider := (m.provider.terminateNodes ids).2 }) := rfl
  rw [hoperate]
  refine ⟨_, rfl, ?_⟩
  rcases terminateNodes_answers m.provider ids with ⟨e, hreply, hsame⟩ | ⟨hreply, hends⟩
  · rw [hreply]
    exact ⟨fun _ _ => hsame, fun hok => (nomatch hok)⟩
  · rw [hreply]
    exact ⟨fun _ herror => (nomatch herror), fun _ => hends⟩

/-- A terminated node is not listed. -/
theorem notMem_listNodes_of_terminated {id : NodeId} (h : p.isIn id .terminated = true)
    (filter : Tags) : id ∉ p.listNodes filter := by
  intro hlisted
  obtain ⟨n, hn, hdead⟩ := isIn_iff.mp h
  obtain ⟨n', hn', hlive, -⟩ := mem_listNodes_iff.mp hlisted
  exact hlive (Option.some.inj (hn.symm.trans hn') ▸ hdead)

/-- Whatever the operations are, and however creations come between them, the provider keeps its
contract. -/
theorem keeps_contract (options : Options) (past : List Operation) :
    Contract (first options) past ((first options).after past) := by
  have hstart := valid_first options
  have hvalid := hstart.after past
  constructor
  case phases =>
    rintro id ⟨hrunning, hterminated⟩
    obtain ⟨n, hn, hphase⟩ := isIn_iff.mp hrunning
    obtain ⟨n', hn', hphase'⟩ := isIn_iff.mp hterminated
    rw [Option.some.inj (hn.symm.trans hn'), hphase'] at hphase
    cases hphase
  case forGood =>
    intro future id hterminated
    have hlogged := (hvalid.lasting future).2.subset ((hvalid.logged.exactly id).mpr hterminated)
    have hlater := ((hvalid.after future).logged.exactly id).mp hlogged
    exact ⟨hlater, notMem_listNodes_of_terminated hlater⟩
  case listed =>
    intro filter id
    rw [mem_listNodes_iff]
    simp only [Tags.satisfies_iff]
  case listedOnce => exact fun filter => nodup_nodesWhere
  case logged => exact hvalid.logged
  case creations =>
    intro place tags count hplace
    obtain ⟨reply, hreply, herror, hok⟩ := hvalid.creations hplace
    refine ⟨reply, hreply, herror, fun hdone => ⟨_, ?_, hok hdone, ?_⟩⟩
    · rw [nextIds, List.length_map, List.length_range']
    · intro earlier hearlier id hid
      exact hstart.unknown_before hearlier ((hok hdone).unknown id hid)
  case insertions =>
    intro tags running
    have hadds := adds_insertNode hvalid.numbered tags running
    refine ⟨_, rfl, hadds, fun earlier hearlier => ?_⟩
    exact hstart.unknown_before hearlier (hadds.unknown _ (List.mem_singleton_self _))
  case others =>
    intro o hcreate hinsert id
    exact (operate_evolves hvalid.numbered o).known_iff (made_operate hcreate hinsert)
  case terminations => exact terminations _

end Moment

end ClusterScaler.InMemory
