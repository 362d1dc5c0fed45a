import ClusterScaler.Proofs.Table.Lookup
import ClusterScaler.Proofs.Table.Reading
import ClusterScaler.Proofs.Tick.Begin
import ClusterScaler.Proofs.Tick.Success

/-!
# The hashes of a loop

A loop holds the hashes of its configuration: it starts with them, a new configuration comes with
its own, and nothing in between changes either. So every configured type has hashes, and missing
nodes of every configured type can be ordered.
-/

set_option autoImplicit false

namespace ClusterScaler

/-- The hashes of a configuration are those of its types. -/
theorem hashesFor_eq_ok {files : FileStore} {c : ClusterConfig}
    {hashes : Table String NodeTypeHashes} (h : hashesFor files c = .ok hashes) :
    ∃ hashed, c.nodeTypes.entries.mapM (fun e => do return (e.1, ← hashesOf files c e.1 e.2)) =
      .ok hashed ∧ hashes = Table.ofList hashed := by
  unfold hashesFor at h
  cases hentries : c.nodeTypes.entries.mapM
      (fun e => do return (e.1, ← hashesOf files c e.1 e.2)) with
  | error e =>
    have hfail : (Except.error e : Except HashError _) = .ok hashes := by
      rw [← h, hentries]
      rfl
    cases hfail
  | ok hashed =>
    have hok : (Except.ok (Table.ofList hashed) : Except HashError _) = .ok hashes := by
      rw [← h, hentries]
      rfl
    exact ⟨hashed, rfl, (Except.ok.inj hok).symm⟩

theorem isSome_hashesFor {files : FileStore} {c : ClusterConfig}
    {hashes : Table String NodeTypeHashes} (h : hashesFor files c = .ok hashes) (name : String) :
    (hashes.get? name).isSome ↔ (c.nodeTypes.get? name).isSome := by
  obtain ⟨hashed, hentries, rfl⟩ := hashesFor_eq_ok h
  rw [Table.isSome_get?_ofList, ← Table.mem_keys_iff,
    mapM_keys (f := fun e => hashesOf files c e.1 e.2) hentries]
  rfl

namespace ControlLoop

/-- A loop holds hashes for the types of its configuration. -/
def Hashed (l : ControlLoop) : Prop :=
  ∀ name, (l.hashes.get? name).isSome ↔ (l.config.nodeTypes.get? name).isSome

/-- A new loop has the hashes of its mounts, and a breaker with the limits of its configuration. -/
theorem new_eq_ok {files : FileStore} {config : ClusterConfig} {l : ControlLoop}
    (h : ControlLoop.new files config = .ok l) :
    hashesFor files config = .ok l.hashes ∧ l.config = config ∧ l.breaker = Breaker.new
      config.tunables.maxFailures config.tunables.failureWindowTicks ∧ l.ticks = 0 := by
  unfold ControlLoop.new at h
  cases hhashes : hashesFor files config with
  | error e =>
    rw [hhashes] at h
    cases h
  | ok hashes =>
    rw [hhashes] at h
    cases h
    exact ⟨rfl, rfl, rfl, rfl⟩

/-- A new loop has sent no updaters out. -/
theorem idle_of_new {files : FileStore} {config : ClusterConfig} {l : ControlLoop}
    (h : ControlLoop.new files config = .ok l) : l.updaters = {} ∧ l.finished = [] := by
  unfold ControlLoop.new at h
  cases hhashes : hashesFor files config with
  | error e =>
    rw [hhashes] at h
    cases h
  | ok hashes =>
    rw [hhashes] at h
    cases h
    exact ⟨rfl, rfl⟩

/-- A loop is new with its configuration, and has settings for its updaters. -/
def Fresh (files : FileStore) (config : ClusterConfig) (l : ControlLoop) : Prop :=
  ∃ l₀ retry pollInterval grace, ControlLoop.new files config = .ok l₀ ∧
    l = { l₀ with retry, pollInterval, updaters := { grace } }

theorem fresh_of_new {files : FileStore} {config : ClusterConfig} {l : ControlLoop}
    (h : ControlLoop.new files config = .ok l) : Fresh files config l := by
  refine ⟨l, l.retry, l.pollInterval, l.updaters.grace, h, ?_⟩
  have hidle : ({ grace := l.updaters.grace } : UpdaterPool) = l.updaters := by
    rw [(idle_of_new h).1]
  rw [hidle]

theorem Fresh.hashesFor {files : FileStore} {config : ClusterConfig} {l : ControlLoop}
    (h : Fresh files config l) :
    l.config = config ∧ hashesFor files config = .ok l.hashes := by
  obtain ⟨l₀, retry, pollInterval, grace, hnew, rfl⟩ := h
  obtain ⟨hhashes, hconfig, -, -⟩ := new_eq_ok hnew
  exact ⟨hconfig, hhashes⟩

variable {l l' : ControlLoop}

theorem Hashed.congr (h : l.Hashed) (hconfig : l'.config = l.config)
    (hhashes : l'.hashes = l.hashes) : l'.Hashed := by
  unfold Hashed
  rw [hconfig, hhashes]
  exact h

theorem hashed_ofHeadType (t : NodeTypeConfig) : (ofHeadType t).Hashed := by
  intro name
  change ((Table.ofList [("head", _)]).get? name).isSome ↔
    ((Table.ofList [("head", t)]).get? name).isSome
  rw [Table.isSome_get?_ofList, Table.isSome_get?_ofList]
  rfl

/-- A command brings new hashes with a new configuration, or changes neither. -/
theorem Hashed.obey (h : l.Hashed) (files : FileStore) (c : ControlCommand) :
    (l.obey files c).Hashed := by
  rcases obey_cases files l c with heq | ⟨-, heq⟩ | ⟨config, hashes, -, -, hhashes, heq⟩
  · rw [heq]
    exact h
  · rw [heq]
    exact h
  · rw [heq]
    exact isSome_hashesFor hhashes

theorem Hashed.beginTick (h : l.Hashed) (files : FileStore) : (l.beginTick files).Hashed := by
  refine l.beginTick_induct files (motive := Hashed) h ?_
  intro l' h' c _
  exact h'.obey files c

/-- A loop that holds the hashes of its configuration does so when it goes to the provider. -/
theorem Hashed.begun (h : l.Hashed) (files : FileStore) (now : Nat) (time : Duration) :
    (l.begun files now time).2.Hashed := by
  obtain ⟨_, _, _, _, hbegun⟩ := l.begun_eq files now time
  rw [hbegun]
  exact (h.beginTick files).congr rfl rfl

end ControlLoop

end ClusterScaler
