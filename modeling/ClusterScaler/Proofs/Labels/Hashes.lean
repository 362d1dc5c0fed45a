import ClusterScaler.Proofs.Labels.Requests
import ClusterScaler.Proofs.Planning.Survivors
import ClusterScaler.Proofs.Tick.Hashes
import ClusterScaler.Proofs.Tick.Standing
import ClusterScaler.Proofs.Updating.Courses

/-!
# What a tick writes down as hashes

The hashes of a configuration are, type by type, the launch hash of the template that its nodes are
made from and the files hash of its mounts and its recipe. While a loop holds the hashes of its
configuration, what it sends out carries the hash of what it is sent out with, although one is
looked up and the other made anew.
-/

set_option autoImplicit false

namespace ClusterScaler

open Program

variable {files : FileStore} {config : ClusterConfig} {hashes : Table String NodeTypeHashes}

theorem hashesOf_eq_ok {name : String} {t : NodeTypeConfig} {h : NodeTypeHashes}
    (hok : hashesOf files config name t = .ok h) :
    h.launch = (LaunchConfig.mk name t.nodeConfig t.resources config.auth).hash ∧
      FilesHash.compute files (config.fileMountsFor name) (Bootstrap.recipe config name) =
        .ok h.files := by
  unfold hashesOf at hok
  cases hfiles : FilesHash.compute files (config.fileMountsFor name)
      (Bootstrap.recipe config name) with
  | error e =>
    rw [hfiles] at hok
    cases hok
  | ok filesHash =>
    rw [hfiles] at hok
    cases hok
    exact ⟨rfl, rfl⟩

theorem get?_hashesFor (hok : hashesFor files config = .ok hashes) {name : String}
    {h : NodeTypeHashes} (hget : hashes.get? name = some h) :
    ∃ t, config.nodeType? name = some t ∧ hashesOf files config name t = .ok h := by
  obtain ⟨hashed, hentries, rfl⟩ := hashesFor_eq_ok hok
  -- the types are in order, so none takes the place of another
  have hsorted : hashed.Pairwise (fun a b => a.1 < b.1) := by
    have hkeys := mapM_keys (f := fun e => hashesOf files config e.1 e.2) hentries
    rw [← List.pairwise_map (f := Prod.fst) (R := (· < ·)), hkeys, List.pairwise_map]
    exact config.nodeTypes.sorted
  rw [Table.get?_eq_some_iff, Table.entries_ofList hsorted] at hget
  obtain ⟨⟨name', t⟩, ht, hread⟩ := exists_of_mem_mapM hentries hget
  obtain ⟨hname, hhash⟩ := keyed_eq_ok_iff.mp hread
  obtain rfl : name' = name := hname
  exact ⟨t, Table.get?_eq_some_iff.mpr ht, hhash⟩

/-- Tags name a type and carry its launch hash. -/
def Tags.Labelled (hashes : Table String NodeTypeHashes) (tags : Tags) : Prop :=
  ∃ nodeType h, tags.get? Tags.nodeType = some nodeType ∧ hashes.get? nodeType = some h ∧
    tags.get? Tags.launchConfig = some h.launch.hex

/-- An update brings the files hash of the mounts that it copies and of the recipe that it runs, but
for the address of the head node. -/
def UpdateRequest.Faithful (files : FileStore) (r : UpdateRequest) : Prop :=
  ∃ recipe, FilesHash.compute files r.mounts recipe = .ok r.targetHash ∧
    (r.commands = recipe ∨ ∃ address, r.commands = Bootstrap.withHeadAddress recipe address)

/-- A question of a tick writes no tags by itself, and the hashes in what it sends out are true. -/
structure Question.Faithful (files : FileStore) (hashes : Table String NodeTypeHashes)
    (q : Question) : Prop where
  plain : q.Plain
  order : ∀ o, q = .launch o →
    o.tags.get? Tags.launchConfig = some o.template.hash.hex ∧ o.tags.Labelled hashes
  update : ∀ u, q = .dispatch u → u.request.Faithful files

namespace ControlLoop

variable {l : ControlLoop}

/-- An order for new nodes carries the launch hash of the template that they are made from. -/
theorem launchOrder?_faithful (h : hashesFor files l.config = .ok l.hashes) {nodeType : String}
    {count : Nat} {o : LaunchOrder} (ho : l.launchOrder? nodeType count = some o) :
    (Question.launch o).Faithful files l.hashes := by
  obtain ⟨hs, hget, htags⟩ := launchOrder?_tags ho
  obtain ⟨htype, -, hlaunch⟩ := l.launchTags_get? nodeType hs
  obtain ⟨t, ht, hok⟩ := get?_hashesFor h hget
  have htemplate : o.template = ⟨nodeType, t.nodeConfig, t.resources, l.config.auth⟩ := by
    unfold launchOrder? LaunchConfig.ofNodeType? at ho
    rw [ht, hget] at ho
    cases ho
    rfl
  have hbatch : o.batch = max l.config.tunables.maxLaunchBatch 1 := (launchOrder?_eq_some ho).2.2
  refine ⟨(Nat.le_max_right _ 1).trans_eq hbatch.symm, ?_, fun u hu => nomatch hu⟩
  rintro _ ⟨⟩
  rw [htags, htemplate, ← (hashesOf_eq_ok hok).1]
  exact ⟨hlaunch, nodeType, hs, htype, hget, hlaunch⟩

/-- An updater for a node that is behind brings the files hash of what it is sent out with. -/
theorem updateFor_faithful {l₀ : ControlLoop} (h : hashesFor files l.config = .ok l.hashes)
    (hsame : l₀.hashes = l.hashes) {n : NodeRecord} {nodeType : String} {hs : NodeTypeHashes}
    (hbehind : l₀.behind? n = some (nodeType, hs)) (head : Option String) :
    (Question.dispatch (l.updateFor n.id nodeType hs head)).Faithful files l.hashes := by
  obtain ⟨-, hget, -⟩ := behind?_eq_some hbehind
  rw [hsame] at hget
  obtain ⟨t, -, hok⟩ := get?_hashesFor h hget
  refine ⟨trivial, (fun o ho => nomatch ho), ?_⟩
  rintro _ ⟨⟩
  refine ⟨_, (hashesOf_eq_ok hok).2, ?_⟩
  -- only the address of the head node comes in front of the recipe
  cases head with
  | none => exact .inl rfl
  | some address => exact .inr ⟨address, rfl⟩

/-- Throughout a tick, a loop that holds the hashes of its configuration is faithful to them. -/
theorem standing_faithful (h : hashesFor files config = .ok hashes) :
    Standing (fun l => l.config = config ∧ l.hashes = hashes) (Question.Faithful files hashes) where
  congr hl hconfig hhashes _ _ := ⟨hconfig.trans hl.1, hhashes.trans hl.2⟩
  failure hl := hl
  success hl := hl
  order := by
    rintro l nodeType n o ⟨rfl, rfl⟩ ho
    exact launchOrder?_faithful h ho
  update := by
    rintro l l' n nodeType hs head ⟨-, hl⟩ hbehind ⟨rfl, rfl⟩
    exact updateFor_faithful h hl hbehind head
  looks hr := ⟨.inl hr, (fun _ ho => nomatch ho), fun _ hu => nomatch hu⟩
  terminate nodes := ⟨.inr ⟨nodes, rfl⟩, (fun _ ho => nomatch ho), fun _ hu => nomatch hu⟩
  abandon _ := ⟨trivial, (fun _ ho => nomatch ho), fun _ hu => nomatch hu⟩
  await := ⟨trivial, (fun _ ho => nomatch ho), fun _ hu => nomatch hu⟩

theorem hashesFor_obey (h : hashesFor files l.config = .ok l.hashes) (c : ControlCommand) :
    hashesFor files (l.obey files c).config = .ok (l.obey files c).hashes := by
  rcases obey_cases files l c with heq | ⟨-, heq⟩ | ⟨config, hashes, -, -, hhashes, heq⟩
  · rw [heq]
    exact h
  · rw [heq]
    exact h
  · rw [heq]
    exact hhashes

theorem hashesFor_beginTick (h : hashesFor files l.config = .ok l.hashes) :
    hashesFor files (l.beginTick files).config = .ok (l.beginTick files).hashes := by
  refine l.beginTick_induct files
    (motive := fun l' => hashesFor files l'.config = .ok l'.hashes) h ?_
  intro l' h' c _
  exact hashesFor_obey h' c

end ControlLoop

namespace Tick

variable {now : Nat} {time : Duration} {l : ControlLoop}

/-- Whatever a tick asks, it asks with the configuration and the hashes that it began with, and what
it sends out is faithful to them. -/
theorem faithful_of_asks (h : hashesFor files l.config = .ok l.hashes) {a : TickAsk}
    (hasks : Asks ((tick files now time).run l) a) :
    a.loop.config = (l.beginTick files).config ∧ a.loop.hashes = (l.beginTick files).hashes ∧
      a.question.Faithful files (l.beginTick files).hashes := by
  have hstanding := ControlLoop.standing_faithful (ControlLoop.hashesFor_beginTick h)
  obtain ⟨-, ⟨hconfig, hhashes⟩, hfaithful⟩ :=
    Meets.asks (hstanding.tick files now time ⟨rfl, rfl⟩) (fun _ _ _ => ⟨(), trivial⟩) hasks
  exact ⟨hconfig, hhashes, hfaithful⟩

/-- A tick, run to its end or cut short, leaves the configuration and the hashes that it began
with. -/
theorem configured_standing {trace : List TickExchange}
    {left : Program TickAsk TickAsk.Reply (Except LoopError TickSummary × ControlLoop)}
    (hbegins : Begins ((tick files now time).run l) trace left) :
    (standing left).config = (l.beginTick files).config ∧
      (standing left).hashes = (l.beginTick files).hashes := by
  have hleft := ((Standing.configured _ _).tick files now time ⟨rfl, rfl⟩).left hbegins
    (follows_asking trace)
  cases left with
  | done r => exact hleft
  | ask a next => exact hleft.1.1

end Tick

end ClusterScaler
