import ClusterScaler.Proofs.Config.Validation
import ClusterScaler.Proofs.Files.Names
import ClusterScaler.Proofs.Pool.Runs
import Mathlib.Data.List.Infix

/-!
# A pool that is opened anew from its file

A pool is saved after every change, and opened anew from what was saved, under whatever hosts are
configured then. As long as the writes go through, what is opened is what was there, merged with
the configuration. A host that is listed once, for its type, keeps its claim; one that is listed
twice, for another type or not at all loses it together with its generation. Once it is listed
again, it hands out the identifiers of its earlier nodes again.
-/

set_option autoImplicit false

namespace ClusterScaler

/-- A pool, and the files that it is saved in. -/
structure PoolLife where
  pool : HostPool
  files : FileStore

namespace PoolLife

variable {path : String} {s s' : PoolLife} {steps : List PoolStep}

/-- The last write went through: the file holds the text of the hosts. Their generations are
numbers of 64 bits, as the pool holds them. -/
structure Saved (path : String) (s : PoolLife) : Prop where
  text : ClusterConfig.readText s.files path = .ok s.pool.hosts.encode
  fits : s.pool.hosts.Fits

/-- A step whose write goes through. -/
inductive Step (path : String) : PoolLife → PoolStep → PoolLife → Prop
  | change {s s' : PoolLife} {c : PoolChange} {result : ProviderResult Unit}
    (run : c.run (Saver.toFile path) s.pool s.files = (result, s'.pool, s'.files))
    (saved : s'.Saved path) : Step path s (.change c) s'
  | reopen {s s' : PoolLife} {hosts : Table String (List String)}
    {externalIps : Table String String}
    (opened : HostPool.open hosts externalIps (some path) s.files = (.ok s'.pool, s'.files))
    (saved : s'.Saved path) : Step path s (.reopen hosts externalIps) s'

/-- Steps in turn, the writes of which go through. -/
inductive Steps (path : String) : PoolLife → List PoolStep → PoolLife → Prop
  | done (s : PoolLife) : Steps path s [] s
  | next {s t s' : PoolLife} {step : PoolStep} {rest : List PoolStep} (head : Step path s step t)
    (tail : Steps path t rest s') : Steps path s (step :: rest) s'

/-- What was saved is loaded. -/
theorem Saved.load (h : s.Saved path) : HostPool.load s.files path = .ok s.pool.hosts := by
  have hexists : s.files.exists path = true := by
    obtain ⟨bytes, hread, -⟩ := except_bind_eq_ok_iff.mp h.text
    obtain ⟨tree, hget, -⟩ := except_bind_eq_ok_iff.mp hread
    unfold FileStore.exists
    rw [hget]
    rfl
  unfold HostPool.load
  rw [hexists, h.text]
  dsimp only
  rw [HostTable.decode?_encode h.fits]
  rfl

/-- A pool whose last write went through to the file that it is to be saved in. -/
structure Intact (path : String) (s : PoolLife) : Prop where
  saved : s.Saved path
  path : s.pool.statePath = some path

theorem Step.intact {step : PoolStep} (hs : s.Intact path) (h : Step path s step s') :
    s'.pool = step.applied s.pool ∧ s'.Intact path := by
  cases h with
  | change hrun hsaved =>
    next c result =>
    have hpool : s'.pool = c.applied s.pool := by
      rw [← PoolChange.pool_run (Saver.toFile path) s.pool s.files c, hrun]
    refine ⟨hpool, hsaved, ?_⟩
    rw [hpool, PoolChange.statePath_applied, hs.path]
  | reopen hopened hsaved =>
    next hosts externalIps =>
    obtain ⟨saved, hload, -, hpool, -⟩ := HostPool.open_eq_ok hopened
    obtain rfl : s.pool.hosts = saved := Except.ok.inj (hs.saved.load.symm.trans (hload path rfl))
    refine ⟨?_, hsaved, by rw [hpool]⟩
    rw [hpool]
    unfold PoolStep.applied
    dsimp only
    rw [hs.path]

theorem Steps.intact (hs : s.Intact path) (h : Steps path s steps s') :
    s'.pool = steps.foldl PoolStep.applied s.pool ∧ s'.Intact path := by
  induction h with
  | done => exact ⟨rfl, hs⟩
  | next head tail ih =>
    obtain ⟨hpool, hnext⟩ := head.intact hs
    obtain ⟨hpool', hs'⟩ := ih hnext
    exact ⟨by rw [hpool', hpool]; rfl, hs'⟩

/-- Over all changes and all reopenings under whatever hosts, as long as the writes go through: the
pool is what the steps make of it. A host that is claimed keeps its record, and with it its node and
the tags of the node, exactly if it is listed once, and for its type; otherwise it is free without a
past or gone. And no identifier is handed out twice exactly if no host starts over. -/
theorem kept_and_unique_iff {hosts : Table String (List String)}
    {externalIps : Table String String} {files files' : FileStore} {p : HostPool}
    (hopen : HostPool.open hosts externalIps (some path) files = (.ok p, files'))
    (hunsaved : files.exists path = false) (hsaved : Saved path ⟨p, files'⟩)
    (hsteps : Steps path ⟨p, files'⟩ steps s) :
    s.pool = steps.foldl PoolStep.applied p ∧
      (∀ hosts externalIps s', Step path s (.reopen hosts externalIps) s' →
        ∀ address r, s.pool.hosts.get? address = some r → r.state = .running →
          (s'.pool.hosts.get? address = some r ↔
            HostPool.listings (HostPool.configuredHosts hosts) address = [r.nodeType]) ∧
          (HostPool.listings (HostPool.configuredHosts hosts) address ≠ [r.nodeType] →
            s'.pool.hosts.get? address =
              (HostPool.listings (HostPool.configuredHosts hosts) address).getLast?.map .fresh)) ∧
      ((PoolStep.handedOut p steps).Nodup ↔ ∀ address, ¬ PoolStep.StartsOver p steps address) := by
  obtain ⟨saved, -, -, hp, -⟩ := HostPool.open_eq_ok hopen
  have hstart : Intact path ⟨p, files'⟩ := ⟨hsaved, by rw [hp]⟩
  obtain ⟨hpool, hs⟩ := hsteps.intact hstart
  refine ⟨hpool, ?_, ?_⟩
  · intro hosts externalIps s' hstep address r hr hrunning
    have hmerge : s'.pool.hosts = HostPool.merge s.pool.hosts (HostPool.configuredHosts hosts) := by
      rw [(hstep.intact hs).1]
      rfl
    rw [hmerge]
    refine ⟨HostPool.get?_merge_eq_some_iff hr hrunning, ?_⟩
    intro hlisted
    refine HostPool.get?_merge_of_not_keeps ?_
    rintro ⟨r', hr', hlisted'⟩
    obtain rfl : r = r' := Option.some.inj (hr.symm.trans hr')
    exact hlisted hlisted'
  · refine PoolStep.nodup_handedOut_iff ?_
    intro address r hr
    rw [HostPool.open_unsaved hopen (by rintro _ ⟨⟩; exact hunsaved),
      HostPool.get?_merge_empty] at hr
    obtain ⟨nodeType, -, rfl⟩ := Option.map_eq_some_iff.mp hr
    rfl

/-- In the working directory there is room for a state file and for the file it is first written
to. -/
structure Room (path : String) (files : FileStore) : Prop where
  name : Path.IsName path
  temporary : Path.IsName (Path.withExtension path "tmp")
  apart : Path.withExtension path "tmp" ≠ path
  clear : files.Clear path
  temporaryClear : files.Clear (Path.withExtension path "tmp")

theorem Room.save {files : FileStore} (h : Room path files) (hosts : HostTable) :
    ∃ files', (Saver.toFile path).save hosts files = (.ok (), files') ∧
      ClusterConfig.readText files' path = .ok hosts.encode ∧ Room path files' := by
  have hwritten : FileTree.child?
      (files.put [Path.withExtension path "tmp"] (.file hosts.encode.toUTF8)).entries
      (Path.withExtension path "tmp") = some (.file hosts.encode.toUTF8) := by
    rw [FileStore.child?_put, if_pos rfl]
  have hclear : (files.put [Path.withExtension path "tmp"]
      (.file hosts.encode.toUTF8)).Clear path := by
    intro t ht
    rw [FileStore.child?_put, if_neg (Ne.symm h.apart)] at ht
    exact h.clear t ht
  generalize hmoved : FileStore.put
    { files.put [Path.withExtension path "tmp"] (.file hosts.encode.toUTF8) with
      entries := FileTree.removeAt [Path.withExtension path "tmp"]
        (files.put [Path.withExtension path "tmp"] (.file hosts.encode.toUTF8)).entries }
    [path] (.file hosts.encode.toUTF8) = files'
  have hentry : FileTree.child? files'.entries path = some (.file hosts.encode.toUTF8) := by
    rw [← hmoved, FileStore.child?_put, if_pos rfl]
  have hgone : FileTree.child? files'.entries (Path.withExtension path "tmp") = none := by
    rw [← hmoved, FileStore.child?_put, if_neg h.apart]
    exact FileTree.child?_removeAt.trans (if_pos rfl)
  refine ⟨files', ?_, ?_, ?_⟩
  · unfold Saver.toFile writeBeside
    dsimp only
    rw [FileStore.write_name h.temporary h.temporaryClear]
    dsimp only
    rw [FileStore.rename_name h.temporary h.name h.apart hwritten hclear, hmoved]
  · have htext : Text.strict? hosts.encode.toUTF8 = some hosts.encode :=
      dif_pos hosts.encode.isValidUTF8
    unfold ClusterConfig.readText
    rw [FileStore.read_name h.name hentry]
    dsimp only [bind, Except.bind]
    rw [htext]
  · refine ⟨h.name, h.temporary, h.apart, ?_, ?_⟩
    · intro t ht
      exact ⟨_, Option.some.inj (ht.symm.trans hentry)⟩
    · intro t ht
      rw [hgone] at ht
      cases ht

/-- Where there is room, the write of a step goes through. -/
theorem exists_step (hs : s.Intact path) (hroom : Room path s.files) (step : PoolStep)
    (hfits : (step.applied s.pool).hosts.Fits) : ∃ files',
      Step path s step ⟨step.applied s.pool, files'⟩ ∧ Room path files' := by
  obtain ⟨files', hsave, htext, hroom'⟩ := hroom.save (step.applied s.pool).hosts
  cases step with
  | change c =>
    cases hwrites : c.writes s.pool with
    | true =>
      have hrun : c.run (Saver.toFile path) s.pool s.files =
          (.ok (), c.applied s.pool, files') := by
        rw [PoolChange.run_of_writes hwrites]
        exact congrArg (fun saved => (saved.1, c.applied s.pool, saved.2)) hsave
      exact ⟨files', .change hrun ⟨htext, hfits⟩, hroom'⟩
    | false =>
      have hsame := PoolChange.applied_eq hwrites
      have hrun : c.run (Saver.toFile path) s.pool s.files =
          ((c.outcome s.pool).1, c.applied s.pool, s.files) := by
        rw [PoolChange.run_of_not_writes hwrites, hsame]
      have hkept : ClusterConfig.readText s.files path = .ok (c.applied s.pool).hosts.encode := by
        rw [hsame]
        exact hs.saved.text
      exact ⟨s.files, .change hrun ⟨hkept, hfits⟩, hroom⟩
  | reopen hosts externalIps =>
    refine ⟨files', .reopen ?_ ⟨htext, hfits⟩, hroom'⟩
    unfold HostPool.open
    dsimp only
    rw [hs.saved.load]
    dsimp only
    have hsaved : (Saver.ofPath? (some path)).save
        (HostPool.merge s.pool.hosts (HostPool.configuredHosts hosts)) s.files =
        (.ok (), files') := hsave
    rw [hsaved]
    unfold PoolStep.applied
    dsimp only
    rw [hs.path]

/-- Where there is room, a pool can be opened without anything saved. -/
theorem exists_open {files : FileStore} (hroom : Room path files)
    (hunsaved : files.exists path = false) (hosts : Table String (List String))
    (externalIps : Table String String) : ∃ files',
      HostPool.open hosts externalIps (some path) files =
        (.ok ⟨HostPool.merge ∅ (HostPool.configuredHosts hosts), externalIps, some path⟩, files') ∧
      Intact path
        ⟨⟨HostPool.merge ∅ (HostPool.configuredHosts hosts), externalIps, some path⟩, files'⟩ ∧
      Room path files' := by
  obtain ⟨files', hsave, htext, hroom'⟩ :=
    hroom.save (HostPool.merge ∅ (HostPool.configuredHosts hosts))
  have hfits : (HostPool.merge ∅ (HostPool.configuredHosts hosts)).Fits := by
    rintro ⟨address, r⟩ hmem
    have hr := Table.get?_eq_some_iff.mpr hmem
    rw [HostPool.get?_merge_empty] at hr
    obtain ⟨nodeType, -, rfl⟩ := Option.map_eq_some_iff.mp hr
    exact Nat.two_pow_pos 64
  refine ⟨files', ?_, ⟨⟨htext, hfits⟩, rfl⟩, hroom'⟩
  have hload : HostPool.load files path = .ok ∅ := by
    unfold HostPool.load
    rw [hunsaved]
    rfl
  have hsaved : (Saver.ofPath? (some path)).save
      (HostPool.merge ∅ (HostPool.configuredHosts hosts)) files = (.ok (), files') := hsave
  unfold HostPool.open
  dsimp only
  rw [hload]
  dsimp only
  rw [hsaved]

/-- Where there is room, the writes of all steps go through. -/
theorem exists_steps (hs : s.Intact path) (hroom : Room path s.files)
    (hfits : ∀ before ∈ steps.inits, (before.foldl PoolStep.applied s.pool).hosts.Fits) :
    ∃ files', Steps path s steps ⟨steps.foldl PoolStep.applied s.pool, files'⟩ ∧
      Room path files' := by
  induction steps generalizing s with
  | nil => exact ⟨s.files, .done s, hroom⟩
  | cons step rest ih =>
    have hfits' : ∀ before ∈ rest.inits,
        (before.foldl PoolStep.applied (step.applied s.pool)).hosts.Fits := by
      intro before hbefore
      refine hfits (step :: before) ?_
      rw [List.mem_inits] at hbefore ⊢
      exact List.cons_prefix_cons.mpr ⟨rfl, hbefore⟩
    obtain ⟨files, hstep, hroom'⟩ := exists_step hs hroom step (hfits' [] (by simp))
    obtain ⟨files', hrest, hroom''⟩ := ih (hstep.intact hs).2 hroom' hfits'
    exact ⟨files', .next hstep hrest, hroom''⟩

def headHosts (addresses : List String) : Table String (List String) :=
  Table.ofList [("head", addresses)]

/-- A configuration with one type, for which these hosts are listed. -/
def ofHosts (addresses : List String) : ClusterConfig where
  clusterName := "it"
  headNodeType := "head"
  provider := .pool (some "state.json") (headHosts addresses) ∅
  nodeTypes := Table.ofList [("head", { maxWorkers := 1 })]

theorem room_empty : Room "state.json" .empty := by
  have htemporary : Path.withExtension "state.json" "tmp" = "state.tmp" := by decide +kernel
  have hclear : ∀ name, FileStore.empty.Clear name := by
    rintro name t ⟨⟩
  refine ⟨?_, ?_, ?_, hclear _, hclear _⟩
  · constructor <;> decide +kernel
  · rw [htemporary]
    constructor <;> decide +kernel
  · rw [htemporary]
    decide +kernel

/-- The pool of one free host. -/
def oneFree : HostPool :=
  ⟨HostPool.merge ∅ (HostPool.configuredHosts (headHosts ["a"])), ∅, some "state.json"⟩

theorem exists_oneFree : ∃ files, HostPool.open (headHosts ["a"]) ∅ (some "state.json") .empty =
    (.ok oneFree, files) ∧ FileStore.empty.exists "state.json" = false ∧
      Intact "state.json" ⟨oneFree, files⟩ ∧ Room "state.json" files := by
  have hunsaved : FileStore.empty.exists "state.json" = false :=
    FileStore.exists_eq_false room_empty.name rfl
  obtain ⟨files, hopen, hintact, hroom⟩ := exists_open room_empty hunsaved (headHosts ["a"]) ∅
  exact ⟨files, hopen, hunsaved, hintact, hroom⟩

/-- With another host listed beside it, the claimed host keeps its claim. -/
theorem kept_and_unique_iff_listedOnce :
    ∃ files s s', HostPool.open (headHosts ["a"]) ∅ (some "state.json") .empty =
        (.ok oneFree, files) ∧
      FileStore.empty.exists "state.json" = false ∧ Saved "state.json" ⟨oneFree, files⟩ ∧
      Steps "state.json" ⟨oneFree, files⟩ [.change (.create "head" ∅ 1)] s ∧
      Step "state.json" s (.reopen (headHosts ["a", "b"]) ∅) s' ∧
      s.pool.hosts.get? "a" = some ⟨"head", .running, 1, ∅⟩ ∧
      s'.pool.hosts.get? "a" = some ⟨"head", .running, 1, ∅⟩ := by
  obtain ⟨files, hopen, hunsaved, hintact, hroom⟩ := exists_oneFree
  have hfits : ∀ before ∈ [PoolStep.change (.create "head" ∅ 1)].inits,
      (before.foldl PoolStep.applied oneFree).hosts.Fits := by
    unfold HostTable.Fits
    decide +kernel
  obtain ⟨files₁, hsteps, hroom₁⟩ := exists_steps hintact hroom hfits
  have hclaimed : (PoolStep.applied oneFree (.change (.create "head" ∅ 1))).hosts.get? "a" =
      some ⟨"head", .running, 1, ∅⟩ := by
    decide +kernel
  obtain ⟨files₂, hstep, -⟩ := exists_step (hsteps.intact hintact).2 hroom₁
    (.reopen (headHosts ["a", "b"]) ∅) (by unfold HostTable.Fits; dsimp only; decide +kernel)
  have hkept := (kept_and_unique_iff hopen hunsaved hintact.saved hsteps).2.1 _ _ _ hstep "a" _
    hclaimed rfl
  exact ⟨files, _, _, hopen, hunsaved, hintact.saved, hsteps, hstep, hclaimed,
    hkept.1.mpr (by decide +kernel)⟩

/-- A host is claimed, and the configuration is changed to one that lists it twice and is accepted.
When the pool is opened anew the host is free, though it is still listed for its type, and its next
claim is given the identifier of the first one. -/
theorem claim_lost_listedTwice :
    (ofHosts ["a"]).validate .empty = .ok () ∧ (ofHosts ["a", "a"]).validate .empty = .ok () ∧
      ∃ files s₁ s₂ s₃, HostPool.open (headHosts ["a"]) ∅ (some "state.json") .empty =
          (.ok oneFree, files) ∧
        Step "state.json" ⟨oneFree, files⟩ (.change (.create "head" ∅ 1)) s₁ ∧
        Step "state.json" s₁ (.reopen (headHosts ["a", "a"]) ∅) s₂ ∧
        Step "state.json" s₂ (.change (.create "head" ∅ 1)) s₃ ∧
        s₁.pool.listNodes ∅ = [⟨"a#1"⟩] ∧ s₂.pool.listNodes ∅ = [] ∧
        s₃.pool.listNodes ∅ = [⟨"a#1"⟩] := by
  obtain ⟨files, hopen, -, hintact, hroom⟩ := exists_oneFree
  obtain ⟨files₁, hfirst, hroom₁⟩ := exists_step hintact hroom (.change (.create "head" ∅ 1))
    (by unfold HostTable.Fits; dsimp only; decide +kernel)
  obtain ⟨files₂, hsecond, hroom₂⟩ := exists_step (hfirst.intact hintact).2 hroom₁
    (.reopen (headHosts ["a", "a"]) ∅) (by unfold HostTable.Fits; dsimp only; decide +kernel)
  obtain ⟨files₃, hthird, -⟩ := exists_step
    (hsecond.intact (hfirst.intact hintact).2).2 hroom₂
    (.change (.create "head" ∅ 1)) (by unfold HostTable.Fits; dsimp only; decide +kernel)
  refine ⟨rfl, rfl, files, _, _, _, hopen, hfirst, hsecond, hthird, ?_, ?_, ?_⟩
  all_goals
    dsimp only
    decide +kernel

end PoolLife

end ClusterScaler
