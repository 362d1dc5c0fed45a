import ClusterScaler.Proofs.Tick.Memory
import ClusterScaler.Proofs.Updating.Courses

/-!
# What updaters are told about the head node

A tick asks for the address of a running head node before it sends updaters to other nodes. The
trace of a tick tells what it has learned so far, so the protocol of this module keeps the trace.
So an updater knows the address whenever there is a head node that stays.
-/

set_option autoImplicit false

namespace ClusterScaler

open Program TickM

/-- What is put in front of a command to tell it where the head node is. -/
def Bootstrap.headExport (address : String) : String :=
  "export " ++ headAddressVariable ++ "=" ++ Shell.quote address ++ "; "

/-- The internal address of a node was asked for, and this was the answer. -/
def Told (asked : List TickExchange) (node : NodeId) (address : String) : Prop :=
  ∃ l ended, (⟨⟨l, .request (.internalIp node)⟩, ⟨.ok address, ended⟩⟩ : TickExchange) ∈ asked

theorem Told.append {asked : List TickExchange} {node : NodeId} {address : String}
    (h : Told asked node address) (more : List TickExchange) : Told (asked ++ more) node address :=
  let ⟨l, ended, hmem⟩ := h
  ⟨l, ended, List.mem_append_left more hmem⟩

namespace NodeRecord

/-- A node is of the head type. -/
def IsHead (n : NodeRecord) (c : ClusterConfig) : Prop := n.nodeType? = some c.headNodeType

instance (c : ClusterConfig) (n : NodeRecord) : Decidable (n.IsHead c) :=
  inferInstanceAs (Decidable (_ = _))

/-- A node is a running head node, and this is its address. -/
structure Leads (n : NodeRecord) (c : ClusterConfig) (asked : List TickExchange)
    (address : String) : Prop where
  head : n.IsHead c
  running : n.running = true
  told : Told asked n.id address

end NodeRecord

/-- Every command of a recipe is told where the head node is, one of the given nodes. -/
def UpdateRequest.KnowsHead (r : UpdateRequest) (c : ClusterConfig) (nodes : List NodeRecord)
    (asked : List TickExchange) : Prop :=
  ∃ n ∈ nodes, ∃ address, n.Leads c asked address ∧
    r.commands = (Bootstrap.recipe c r.nodeType).map (Bootstrap.headExport address ++ ·)

/-- The protocol that keeps what was asked and answered. If there is a head node among the given
nodes, an updater for another node may be sent out only if it knows where one is. -/
def leading (c : ClusterConfig) (nodes : List NodeRecord) :
    Protocol TickAsk TickAsk.Reply (List TickExchange) where
  permits asked a := a.loop.config = c ∧ ∀ u, a.question = .dispatch u →
    c.isHead u.request.nodeType = false → (∃ n ∈ nodes, n.IsHead c) →
      u.request.KnowsHead c nodes asked
  follows asked op r asked' := asked' = asked ++ [⟨op, r⟩]

theorem follows_leading {c : ClusterConfig} {nodes : List NodeRecord}
    (asked trace : List TickExchange) : Follows (leading c nodes) asked trace (asked ++ trace) := by
  induction trace generalizing asked with
  | nil =>
    rw [List.append_nil]
    exact .nil asked
  | cons x rest ih =>
    have hsplit : asked ++ x :: rest = (asked ++ [x]) ++ rest := by simp
    rw [hsplit]
    exact .cons rfl (ih (asked ++ [x]))

/-- What was found out about the head node is true of the given nodes. -/
def HeadAddress.Holds (c : ClusterConfig) (nodes : List NodeRecord) (asked : List TickExchange) :
    HeadAddress → Prop
  | .known address => ∃ n ∈ nodes, n.Leads c asked address
  | .pending => True
  | .absent => ∀ n ∈ nodes, ¬ n.IsHead c

theorem HeadAddress.Holds.append {c : ClusterConfig} {nodes : List NodeRecord}
    {asked : List TickExchange} {head : HeadAddress} (h : head.Holds c nodes asked)
    (more : List TickExchange) : head.Holds c nodes (asked ++ more) := by
  cases head with
  | known address =>
    obtain ⟨n, hn, hleads⟩ := h
    exact ⟨n, hn, hleads.head, hleads.running, hleads.told.append more⟩
  | pending => exact h
  | absent => exact h

/-- The address with which an updater is sent out goes with what is true of the head node: it is that
of a running head node, or there is none that stays. -/
def HeadAddress.Fits (c : ClusterConfig) (nodes : List NodeRecord) (asked : List TickExchange) :
    Option String → Prop
  | some address => ∃ n ∈ nodes, n.Leads c asked address
  | none => ∀ n ∈ nodes, ¬ n.IsHead c

namespace Tick

variable {c : ClusterConfig} {nodes : List NodeRecord} {l : ControlLoop}
  {asked : List TickExchange}

/-- Questions that send no updater out keep the configuration. -/
theorem kept_leading {q : Question} (hq : ∀ u, q ≠ .dispatch u) :
    q.Kept (leading c nodes) (fun l _ => l.config = c) := by
  intro l asked h
  refine ⟨⟨h, fun u hu => absurd hu (hq u)⟩, fun r asked' _ => ?_⟩
  cases q <;> exact h

theorem looksKept_leading : LooksKept (leading c nodes) (fun l _ => l.config = c) :=
  fun r _ => kept_leading (q := .request r) fun _ hu => nomatch hu

/-- What a tick finds out about the head node is true. -/
theorem headAddress_holds (h : l.config = c) :
    (headAddress nodes).Meets (leading c nodes)
      (fun head l' asked' => l'.config = c ∧ head.Holds c nodes asked') l asked := by
  unfold headAddress
  rw [TickM.meets_bind, meets_get]
  dsimp only
  rw [h]
  split
  · next hnone =>
    split
    · next hempty =>
      refine ⟨h, fun n hn hhead => ?_⟩
      have hmem : n ∈ nodes.filter (·.nodeType? = some c.headNodeType) :=
        List.mem_filter.mpr ⟨hn, decide_eq_true hhead⟩
      rw [List.isEmpty_iff.mp hempty] at hmem
      cases hmem
    · exact ⟨h, trivial⟩
  · next n hfound =>
    obtain ⟨hn, hhead⟩ := List.mem_filter.mp (List.mem_of_find?_eq_some hfound)
    have hrunning : n.running = true := List.find?_some (p := NodeRecord.running) hfound
    rw [TickM.meets_bind]
    -- an attempt that succeeds leaves its answer in the trace
    have hattempt : ∀ l' asked', l'.config = c → (request (.internalIp n.id)).Meets
        (leading c nodes) (fun r l'' asked'' => (l''.config = c ∧
          ∀ address, r = .ok address → Told asked'' n.id address) ∧
            (r.isOk = false → l''.config = c)) l' asked' := by
      intro l' asked' h'
      rw [meets_request]
      refine ⟨⟨h', fun u hu => nomatch hu⟩, ?_⟩
      rintro ⟨answer, ended⟩ asked'' rfl
      refine ⟨⟨h', ?_⟩, fun _ => h'⟩
      rintro address rfl
      exact ⟨l', ended, List.mem_append_right _ (List.mem_singleton_self _)⟩
    refine (meets_retrying hattempt
      (fun d l' asked' h' => frame_request (looksKept_leading (.pause d) rfl) h') h).mono ?_
    rintro answer l' asked' ⟨h', htold⟩
    cases answer with
    | error e => exact ⟨h', trivial⟩
    | ok address => exact ⟨h', n, hn, of_decide_eq_true hhead, hrunning, htold address rfl⟩

theorem knownHead_holds {head : Option HeadAddress} (h : l.config = c)
    (hhead : ∀ address ∈ head, address.Holds c nodes asked) :
    (knownHead nodes head).Meets (leading c nodes)
      (fun head l' asked' => l'.config = c ∧ head.Holds c nodes asked') l asked := by
  unfold knownHead
  cases head with
  | none => exact headAddress_holds h
  | some address => exact ⟨h, hhead address rfl⟩

/-- An updater may be sent to a head node, or with an address that fits. -/
theorem dispatch_leading {n : NodeRecord} {nodeType : String} {hashes : NodeTypeHashes}
    {head : Option String} {time : Duration} {sum : TickSummary} (h : l.config = c)
    (hfits : c.isHead nodeType = true ∨ HeadAddress.Fits c nodes asked head) :
    (dispatch time n nodeType hashes head sum).Meets (leading c nodes)
      (fun _ l' asked' => l'.config = c ∧ ∃ more, asked' = asked ++ more) l asked := by
  unfold dispatch
  rw [TickM.meets_bind, meets_get]
  dsimp only
  split
  · exact ⟨h, [], (List.append_nil asked).symm⟩
  · next updaters hdispatch =>
    rw [TickM.meets_bind, meets_set, TickM.meets_bind]
    refine (meets_ask (q := .dispatch _)).mpr ⟨⟨h, ?_⟩, ?_⟩
    · rintro u hu hother ⟨m, hm, hmhead⟩
      cases hu
      have hnone : c.isHead nodeType = false := hother
      rw [hnone] at hfits
      have hfits := hfits.resolve_left Bool.false_ne_true
      cases head with
      | none => exact absurd hmhead (hfits m hm)
      | some address =>
        obtain ⟨leader, hleader, hleads⟩ := hfits
        refine ⟨leader, hleader, address, hleads, ?_⟩
        rw [← h]
        rfl
    · intro r asked' hasked
      exact ⟨h, _, hasked⟩

/-- Updaters are sent out with an address that fits, to whatever nodes. -/
theorem dispatchAll_leading (time : Duration) (targets : List NodeRecord)
    (head : Option HeadAddress) (sum : TickSummary) (h : l.config = c)
    (hhead : ∀ address ∈ head, address.Holds c nodes asked) :
    (dispatchAll time nodes head targets sum).Meets (leading c nodes)
      (fun _ l' _ => l'.config = c) l asked := by
  induction targets generalizing head sum l asked with
  | nil => exact h
  | cons n rest ih =>
    unfold dispatchAll
    rw [TickM.meets_bind, meets_get]
    split
    · exact ih head sum h hhead
    · next nodeType hashes hbehind =>
      -- sending an updater with an address that fits leaves what is known about the head node true
      have hgo : ∀ (address : Option String) (head' : Option HeadAddress) (l' : ControlLoop)
          (asked' : List TickExchange), l'.config = c →
          (c.isHead nodeType = true ∨ HeadAddress.Fits c nodes asked' address) →
          (∀ a ∈ head', a.Holds c nodes asked') → (do
            let sum ← dispatch time n nodeType hashes address sum
            dispatchAll time nodes head' rest sum).Meets (leading c nodes)
              (fun _ l'' _ => l''.config = c) l' asked' := by
        intro address head' l' asked' h' hfits hhead'
        rw [TickM.meets_bind]
        refine (dispatch_leading h' hfits).mono ?_
        rintro sum' l'' _ ⟨h'', more, rfl⟩
        exact ih head' sum' h'' fun a ha => (hhead' a ha).append more
      split
      · next hishead => exact hgo none head l asked h (.inl (h ▸ hishead)) hhead
      · rw [TickM.meets_bind]
        refine (knownHead_holds h hhead).mono ?_
        rintro head' l' asked' ⟨h', hhead'⟩
        have hstill : ∀ a ∈ some head', a.Holds c nodes asked' := by
          intro a ha
          cases ha
          exact hhead'
        cases head' with
        | known address => exact hgo (some address) _ l' asked' h' (.inr hhead') hstill
        | pending => exact ih _ sum h' hstill
        | absent => exact hgo none _ l' asked' h' (.inr hhead') hstill

/-- What a tick does after it has read the nodes tells its updaters of the head nodes that stay. -/
theorem afterReconcile_leading (now : Nat) (time : Duration) (read : List NodeRecord)
    (sum : TickSummary) (l : ControlLoop) (asked : List TickExchange) :
    (afterReconcile now time read sum).Meets
      (leading l.config
        (read.filter (!((l.takeIn read now).planTick now read).doomed.contains ·.id)))
      (fun _ l' _ => l'.config = l.config) l asked := by
  rw [afterReconcile_eq, TickM.meets_bind, meets_modify, TickM.meets_bind, meets_get]
  generalize hplan : (l.takeIn read now).planTick now read = plan
  unfold carryOut
  have hstart : (l.takeIn read now).config = l.config := rfl
  rw [TickM.meets_bind]
  refine (frame_terminate looksKept_leading
    (kept_leading fun u hu => nomatch hu) (fun _ _ h => h) (fun _ _ h => h) (fun _ _ _ h => h)
    hstart).mono ?_
  rintro ⟨removed, sum'⟩ l' asked' ⟨hremoved, h'⟩
  dsimp only
  -- the nodes that stay are the same whether or not the termination succeeded
  have hstay : (read.filter (!removed.contains ·.id)).filter (!plan.doomed.contains ·.id) =
      read.filter (!plan.doomed.contains ·.id) := by
    rw [List.filter_filter]
    refine List.filter_congr fun n _ => ?_
    rcases hremoved with hnone | hall
    · dsimp only at hnone
      simp [hnone]
    · dsimp only at hall
      rw [hall, Bool.and_self]
  rw [TickM.meets_bind]
  have hawait : Question.awaitLaunch.Kept
      (leading l.config (read.filter (!plan.doomed.contains ·.id)))
      (fun l' _ => l'.config = l.config) :=
    kept_leading fun u hu => nomatch hu
  refine (frame_launchUnlessTripped ?_ hawait ?_ sum' h').mono ?_
  · intro _ o _ asked'' h''
    exact ⟨⟨h'', fun u hu => nomatch hu⟩, fun _ _ _ => h''⟩
  · intro l'' _ sum'' ended h''
    obtain ⟨launched, breaker, hmerged⟩ := ControlLoop.mergeLaunch_eq sum'' l'' ended
    rw [hmerged]
    exact h''
  intro sum'' l'' asked'' h''
  rw [hstay, TickM.meets_bind]
  exact (dispatchAll_leading time _ none sum'' h'' fun a ha => nomatch ha).mono fun _ _ _ h => h

end Tick

variable {files : FileStore} {now : Nat} {time : Duration} {before : ControlLoop}
  {asked rest : List TickExchange} {x : TickExchange} {u : Update}
  {left : Program TickAsk TickAsk.Reply (Except LoopError TickSummary × ControlLoop)}

/-- If a tick sends out an updater, it has read its nodes. If the updater is for a node of another than
the head type, and the tick found a head node that it does not plan to terminate, then every command
of the updater exports the address of such a node that runs. -/
theorem dispatched_knowing_head
    (hbegins : Begins ((tick files now time).run before) (asked ++ x :: rest) left)
    (hu : x.op.question = .dispatch u) :
    (∃ r : Reading files now time before, r.Precedes asked) ∧
      ∀ r : Reading files now time before, r.Precedes asked →
        r.planner.config.isHead u.request.nodeType = false →
          (∃ n ∈ r.nodes, n.IsHead r.planner.config ∧ n.id ∉ r.plan.doomed) →
            u.request.KnowsHead r.planner.config (r.nodes.filter (!r.plan.doomed.contains ·.id))
              asked := by
  refine ⟨Tick.exists_precedes_of_dispatch hbegins hu, ?_⟩
  rintro r ⟨passed, rfl⟩ hother ⟨n, hn, hhead, hspared⟩
  have hsplit : before.firstExchange files time :: (r.trace ++ passed) ++ x :: rest =
      before.firstExchange files time :: (r.trace ++ (passed ++ x :: rest)) := by simp
  rw [hsplit] at hbegins
  obtain ⟨left', hpassing, -⟩ := r.begins_passing hbegins
  have hpermits := Program.Meets.permits (Tick.afterReconcile_leading now time r.nodes
    (before.begun files now time).1 r.loop (before.firstExchange files time :: r.trace)) hpassing
    (follows_leading _ passed)
  have hstays : (!r.plan.doomed.contains n.id) = true := by simpa using hspared
  exact hpermits.2 u hu hother ⟨n, List.mem_filter.mpr ⟨hn, hstays⟩, hhead⟩

/-- A loop before its first tick, for a cluster with a head node and a worker, each set up by
`make`. -/
def ControlLoop.ofWorker : ControlLoop :=
  { ofHeadType { minWorkers := 1, maxWorkers := 1 } with
    config :=
      { clusterName := "c", headNodeType := "head", provider := .inMemory true
        nodeTypes := Table.ofList [("head", { minWorkers := 1, maxWorkers := 1 }),
          ("worker", { minWorkers := 1, maxWorkers := 1 })]
        setupCommands := ["make"] }
    hashes := Table.ofList [("head", ⟨⟨"launch"⟩, ⟨"files"⟩⟩), ("worker", ⟨⟨"launch"⟩, ⟨"files"⟩⟩)] }

/-- A running node that has been launched for a type and has no files yet. -/
def NodeRecord.launched (id nodeType : String) : NodeRecord :=
  ⟨⟨id⟩, .ofList [(Tags.nodeType, nodeType), (Tags.launchConfig, "launch")], true⟩

/-- An answer with which every launch fails and every node has one address, and all else succeeds. -/
def Question.failLaunch : (q : Question) → q.Reply
  | .request (.internalIp _) => ⟨.ok "10.0.0.7", []⟩
  | .awaitLaunch => ⟨.reported ⟨"head", 0, some (.permanent "quota")⟩, []⟩
  | q => q.succeed

/-- The commands that are sent to nodes of other types than the head type. -/
def workerCommands (c : ClusterConfig) (trace : List TickExchange) : List (List String) :=
  trace.filterMap fun x => x.op.question.update?.bind fun u =>
    if c.isHead u.request.nodeType then none else some u.request.commands

theorem exists_of_mem_workerCommands {c : ClusterConfig} {trace : List TickExchange}
    {commands : List String} (h : commands ∈ workerCommands c trace) :
    ∃ asked x rest u, trace = asked ++ x :: rest ∧ x.op.question = .dispatch u ∧
      c.isHead u.request.nodeType = false ∧ u.request.commands = commands := by
  obtain ⟨x, hx, hcommands⟩ := List.mem_filterMap.mp h
  obtain ⟨u, hu, hsent⟩ := Option.bind_eq_some_iff.mp hcommands
  obtain ⟨asked, rest, htrace⟩ := List.append_of_mem hx
  split at hsent
  · cases hsent
  · next hother =>
    exact ⟨asked, x, rest, u, htrace, Question.update?_eq_some_iff.mp hu,
      Bool.eq_false_iff.mpr hother, Option.some.inj hsent⟩

/-- What a tick of that loop does that reads these nodes and cannot launch any. -/
theorem Passage.exists_ofWorker (nodes : List NodeRecord) (hnodup : (nodes.map (·.id)).Nodup) :
    ∃ p : Passage .empty 0 ⟨0⟩ .ofWorker, p.nodes = nodes ∧
      p.planner = (ControlLoop.ofWorker.begun .empty 0 ⟨0⟩).2.takeIn nodes 0 ∧
        p.plan = ((ControlLoop.ofWorker.begun .empty 0 ⟨0⟩).2.takeIn nodes 0).planTick 0 nodes ∧
          p.rest = (((Tick.afterReconcile 0 ⟨0⟩ nodes
            (ControlLoop.ofWorker.begun .empty 0 ⟨0⟩).1).run
              (ControlLoop.ofWorker.begun .empty 0 ⟨0⟩).2).replay (·.question.failLaunch)).1 := by
  obtain ⟨r, rfl, hloop, -⟩ := Reading.exists_of_nodes .empty 0 ⟨0⟩ .ofWorker nodes hnodup
  obtain ⟨p, rfl, hrest⟩ := Passage.exists_of_reading r (·.question.failLaunch)
  rw [← hloop]
  exact ⟨p, rfl, rfl, rfl, hrest⟩

/-- A tick that finds a worker but no head node, and cannot launch one, sends the worker an updater
whose command does not export any address, although the target for the head type is one. -/
theorem dispatched_without_head_ofWorker :
    ∃ p : Passage .empty 0 ⟨0⟩ .ofWorker, countOf p.plan.targets "head" = 1 ∧
      ∃ x ∈ p.rest, ∃ u, x.op.question = .dispatch u ∧
        p.planner.config.isHead u.request.nodeType = false ∧ ∃ c ∈ u.request.commands,
          ∀ address command, c ≠ Bootstrap.headExport address ++ command := by
  obtain ⟨p, -, hplanner, hplan, hrest⟩ := Passage.exists_ofWorker [.launched "w" "worker"]
    (by decide)
  have hsent : ["make"] ∈ workerCommands p.planner.config p.rest := by
    rw [hrest, hplanner]
    decide +kernel
  obtain ⟨asked, x, rest, u, htrace, hu, hother, hcommands⟩ := exists_of_mem_workerCommands hsent
  refine ⟨p, ?_, x, htrace ▸ by simp, u, hu, hother, "make", by simp [hcommands], ?_⟩
  · rw [hplan]
    decide +kernel
  · intro address command heq
    have hchars := congrArg (fun s : String => s.toList.head?) heq
    simp [Bootstrap.headExport] at hchars

/-- With a head node that runs, the worker is told its address. -/
theorem dispatched_knowing_head_ofWorker :
    ∃ (p : Passage .empty 0 ⟨0⟩ .ofWorker) (asked rest : List TickExchange) (x : TickExchange)
        (u : Update),
      Begins ((tick .empty 0 ⟨0⟩).run .ofWorker) (asked ++ x :: rest)
          (.done (.ok p.summary, p.after)) ∧
        x.op.question = .dispatch u ∧ p.Precedes asked ∧
          p.planner.config.isHead u.request.nodeType = false ∧
            (∃ n ∈ p.nodes, n.IsHead p.planner.config ∧ n.id ∉ p.plan.doomed) ∧
              u.request.KnowsHead p.planner.config
                (p.nodes.filter (!p.plan.doomed.contains ·.id)) asked := by
  obtain ⟨p, hnodes, hplanner, hplan, hrest⟩ := Passage.exists_ofWorker
    [.launched "h" "head", .launched "w" "worker"] (by decide)
  have hsent : ["export FLEET_HEAD_IP=10.0.0.7; make"] ∈
      workerCommands p.planner.config p.rest := by
    rw [hrest, hplanner]
    decide +kernel
  obtain ⟨asked, x, rest, u, htrace, hu, hother, -⟩ := exists_of_mem_workerCommands hsent
  have hbegins : Begins ((tick .empty 0 ⟨0⟩).run .ofWorker)
      ((ControlLoop.ofWorker.firstExchange .empty ⟨0⟩ :: (p.trace ++ asked)) ++ x :: rest)
      (.done (.ok p.summary, p.after)) := by
    have hrun := p.runs_tick.begins
    rw [htrace, ← List.append_assoc] at hrun
    exact hrun
  have hprecedes : p.Precedes (ControlLoop.ofWorker.firstExchange .empty ⟨0⟩ :: (p.trace ++ asked)) :=
    ⟨asked, rfl⟩
  have hhead : ∃ n ∈ p.nodes, n.IsHead p.planner.config ∧ n.id ∉ p.plan.doomed := by
    rw [hnodes, hplan, hplanner]
    decide +kernel
  exact ⟨p, _, rest, x, u, hbegins, hu, hprecedes, hother, hhead,
    (dispatched_knowing_head hbegins hu).2 p.toReading hprecedes hother hhead⟩

end ClusterScaler
