import ClusterScaler.Proofs.Shell.Words
import ClusterScaler.Proofs.Updating.Heads

/-!
# Recipes as a shell reads them

Every line of a recipe is put together with quoted texts, and a shell reads it as it was meant
(`lines_read_back`). The address of the head node is exported by the shell that reads the line. In a
recipe for a container the command is read by another shell, inside the container, which has the
environment of the container. So it is told the address only where the container has it anyway
(`address_seen_iff`).
-/

set_option autoImplicit false

namespace ClusterScaler

namespace Bootstrap

open Shell

variable {docker : DockerConfig} {command address line : String}
  {containers : String → Environment} {host : Environment}

theorem containerExec_eq : containerExec docker command = String.intercalate " "
    (["docker", "exec", docker.containerName, "/bin/sh", "-c", command].map quote) := by
  have hplain : quote "docker" = "docker" ∧ quote "exec" = "exec" ∧ quote "/bin/sh" = "/bin/sh" ∧
      quote "-c" = "-c" := by decide
  obtain ⟨hdocker, hexec, hshell, hoption⟩ := hplain
  simp only [List.map_cons, List.map_nil, hdocker, hexec, hshell, hoption]
  apply String.toList_injective
  simp [containerExec]

theorem words?_containerExec (hname : NulFree docker.containerName) (hcommand : NulFree command) :
    words? (containerExec docker command) =
      some ["docker", "exec", docker.containerName, "/bin/sh", "-c", command] := by
  rw [containerExec_eq, words?_intercalate]
  intro w hw
  simp only [List.mem_cons, List.not_mem_nil, or_false] at hw
  rcases hw with rfl | rfl | rfl | rfl | rfl | rfl
  · decide
  · decide
  · exact hname
  · decide
  · decide
  · exact hcommand

/-- The export in front of a line is a command of its own. -/
theorem firstCommand?_headExport (haddress : NulFree address) :
    firstCommand? (headExport address ++ line) =
      some (["export", headAddressVariable ++ "=" ++ address], some (' ' :: line.toList)) := by
  have hexport : quote "export" = "export" := by decide
  have htext : (headExport address ++ line).toList = (quote "export").toList ++ ' ' ::
      ((headAddressVariable ++ "=").toList ++ ((quote address).toList ++
        ';' :: ' ' :: line.toList)) := by
    rw [hexport]
    simp [headExport]
  have hplain : (headAddressVariable ++ "=").toList.all isPlain = true := by decide
  rw [firstCommand?, htext, command?_quote_space (by decide), command?_plain (by decide) hplain,
    command?_quote haddress, command?_semicolon (by simp), Option.getD_none, List.nil_append,
    Option.getD_some, Option.map_some, ← String.toList_append, String.ofList_toList]

theorem assignment?_headAddress :
    assignment? (headAddressVariable ++ "=" ++ address) = some (headAddressVariable, address) := by
  have htext : (headAddressVariable ++ "=" ++ address).toList =
      headAddressVariable.toList ++ '=' :: address.toList := by simp
  have hname : ∀ c ∈ headAddressVariable.toList, (c != '=') = true :=
    List.all_eq_true.mp (by decide)
  unfold assignment?
  rw [htext, List.dropWhile_append_of_pos hname, List.takeWhile_append_of_pos hname]
  simp

/-- The shell that reads a line exports the address and goes on with the line. -/
theorem next?_headExport (haddress : NulFree address) :
    State.next? containers ⟨host, (headExport address ++ line).toList⟩ =
      some ⟨host.insert headAddressVariable address, ' ' :: line.toList⟩ := by
  have hcommand : command? .bare none (headExport address ++ line).toList =
      some (["export", headAddressVariable ++ "=" ++ address], some (' ' :: line.toList)) :=
    firstCommand?_headExport haddress
  unfold State.next?
  rw [hcommand]
  change (assignment? (headAddressVariable ++ "=" ++ address)).map
    (fun v => State.mk (host.insert v.1 v.2) (' ' :: line.toList)) = _
  rw [assignment?_headAddress, Option.map_some]

/-- A shell that runs a command inside a container starts another one, which reads the command. -/
theorem next?_containerExec (hname : NulFree docker.containerName) (hcommand : NulFree command) :
    State.next? containers ⟨host, ' ' :: (containerExec docker command).toList⟩ =
      some ⟨containers docker.containerName, command.toList⟩ := by
  have hwords := words?_containerExec hname hcommand
  have hspace : ∀ cs, command? .bare none (' ' :: cs) =
      (command? .bare none cs).map (fun r => ([] ++ r.1, r.2)) := fun _ => rfl
  unfold State.next?
  rw [hspace]
  unfold words? firstCommand? at hwords
  split at hwords
  · next words hread =>
    rw [hread]
    cases hwords
    rfl
  · cases hwords

/-- A quoted text is one word, the text itself; in fact it adds exactly itself to whatever word it
stands in. The line that runs a command inside a container is run with the name of the container and
with the command, each one argument. What is put in front of a line exports exactly the address and
leaves the line as it is. -/
theorem lines_read_back {s : String} {commands lines : List String} (hs : NulFree s)
    (haddress : NulFree address) (hname : NulFree docker.containerName)
    (hcommands : ∀ c ∈ commands, NulFree c) :
    (words? (quote s) = some [s] ∧ ∀ word rest,
      command? .bare word ((quote s).toList ++ rest) =
        command? .bare (some (word.getD [] ++ s.toList)) rest) ∧
    (dockerize commands docker).tail.map words? = commands.map (fun c =>
      some ["docker", "exec", docker.containerName, "/bin/sh", "-c", c]) ∧
    withHeadAddress lines address = lines.map (headExport address ++ ·) ∧
    ∀ line containers host, State.next? containers ⟨host, (headExport address ++ line).toList⟩ =
      some ⟨host.insert headAddressVariable address, ' ' :: line.toList⟩ := by
  refine ⟨⟨?_, fun _ _ => command?_quote hs⟩, ?_, rfl, fun _ _ _ => next?_headExport haddress⟩
  · have hword : words? (String.intercalate " " ([s].map quote)) = some [s] :=
      words?_intercalate (by simpa using hs)
    simpa using hword
  · rw [dockerize, List.tail_cons, List.map_map]
    exact List.map_congr_left fun c hc => words?_containerExec hname (hcommands c hc)

/-- A text with quotes of both kinds, a line break and an expansion, and an empty container name. -/
theorem lines_read_back_ofQuotes :
    NulFree "it's \"$HOME\"\n" ∧ NulFree "" ∧ (∀ c ∈ ["echo 'a b'", ""], NulFree c) ∧
      words? (quote "it's \"$HOME\"\n") = some ["it's \"$HOME\"\n"] ∧
      (dockerize ["echo 'a b'", ""] ⟨"image", "", []⟩).tail.map words? =
        [some ["docker", "exec", "", "/bin/sh", "-c", "echo 'a b'"],
          some ["docker", "exec", "", "/bin/sh", "-c", ""]] ∧
      ∀ containers host,
        State.next? containers ⟨host, (headExport "it's \"$HOME\"\n" ++ "make").toList⟩ =
          some ⟨host.insert headAddressVariable "it's \"$HOME\"\n", ' ' :: "make".toList⟩ := by
  have hs : NulFree "it's \"$HOME\"\n" := by decide
  have hname : NulFree (DockerConfig.mk "image" "" []).containerName := by decide
  have hcommands : ∀ c ∈ ["echo 'a b'", ""], NulFree c := by decide
  obtain ⟨⟨hword, -⟩, hlines, -, hexport⟩ := @lines_read_back ⟨"image", "", []⟩ _ _ _ ["make"] hs
    hs hname hcommands
  exact ⟨hs, hname, hcommands, hword, hlines, hexport "make"⟩

/-- The commands that set a node up, as they are configured. -/
def setup (c : ClusterConfig) (t : NodeTypeConfig) : List String :=
  c.setupCommands ++ (t.setupCommands ++ t.startCommands)

theorem recipe_eq {c : ClusterConfig} {nodeType : String} {t : NodeTypeConfig}
    (htype : c.nodeType? nodeType = some t) :
    recipe c nodeType = match c.docker with
      | some docker => dockerize (setup c t) docker
      | none => setup c t := by
  unfold recipe
  rw [htype]
  rfl

/-- On the node itself the shell that exports the address reads the command. -/
theorem reads_headExport (haddress : NulFree address) (reader : State) :
    Reads containers command ⟨host, (headExport address ++ command).toList⟩ reader ↔
      reader = ⟨host.insert headAddressVariable address, ' ' :: command.toList⟩ := by
  have hnot : ¬ State.IsAt ⟨host, (headExport address ++ command).toList⟩ command := by
    apply not_isAt_of_length
    have hbegin : (headExport address ++ command).toList.dropWhile isBlank =
        (headExport address ++ command).toList := by
      simp [headExport, isBlank]
    rw [hbegin]
    simp [headExport]
    omega
  have hat : State.IsAt ⟨host.insert headAddressVariable address, ' ' :: command.toList⟩ command :=
    rfl
  rw [reads_iff_of_next hnot (next?_headExport haddress), reads_iff_of_isAt hat]

/-- Inside a container another shell reads the command, and it has the environment of the
container. -/
theorem reads_containerExec (haddress : NulFree address) (hname : NulFree docker.containerName)
    (hcommand : NulFree command) (reader : State) :
    Reads containers command ⟨host, (headExport address ++ containerExec docker command).toList⟩
        reader ↔ reader = ⟨containers docker.containerName, command.toList⟩ := by
  have hquoted := length_le_length_quote command
  have hnot : ¬ State.IsAt ⟨host, (headExport address ++ containerExec docker command).toList⟩
      command := by
    apply not_isAt_of_length
    have hbegin : (headExport address ++ containerExec docker command).toList.dropWhile isBlank =
        (headExport address ++ containerExec docker command).toList := by
      simp [headExport, isBlank]
    rw [hbegin]
    simp [headExport, containerExec]
    omega
  have hnot' : ¬ State.IsAt ⟨host.insert headAddressVariable address,
      ' ' :: (containerExec docker command).toList⟩ command := by
    apply not_isAt_of_length
    have hbegin : (' ' :: (containerExec docker command).toList).dropWhile isBlank =
        (containerExec docker command).toList := by
      simp [containerExec, isBlank]
    rw [hbegin]
    simp [containerExec]
    omega
  have hat : State.IsAt ⟨containers docker.containerName, command.toList⟩ command := rfl
  rw [reads_iff_of_next hnot (next?_headExport haddress),
    reads_iff_of_next hnot' (next?_containerExec hname hcommand), reads_iff_of_isAt hat]

/-- An updater for a node of another than the head type has one line for each command of the setup,
after a line that starts the container where there is one. If a shell on the node reads such a line,
exactly one shell comes to read the command. It has the address of the head node in its environment
exactly if there is no container, or if the container itself has the address in its own. -/
theorem address_seen_iff {l : ControlLoop} {nodeType : String} {t : NodeTypeConfig}
    (htype : l.config.nodeType? nodeType = some t)
    (hname : ∀ docker ∈ l.config.docker, NulFree docker.containerName)
    (hsetup : ∀ c ∈ setup l.config t, NulFree c) (haddress : NulFree address) (node : NodeId)
    (hashes : NodeTypeHashes) (containers : String → Environment) (host : Environment) :
    ∃ lines,
      (l.updateFor node nodeType hashes (some address)).request.commands =
        (l.config.docker.map fun docker => headExport address ++ containerStart docker).toList
          ++ lines ∧
      List.Forall₂ (fun command line => ∃ reader,
        (∀ s, Reads containers command ⟨host, line.toList⟩ s ↔ s = reader) ∧
        (reader.environment.get? headAddressVariable = some address ↔
          ∀ docker ∈ l.config.docker,
            (containers docker.containerName).get? headAddressVariable = some address))
        (setup l.config t) lines := by
  have hcommands : (l.updateFor node nodeType hashes (some address)).request.commands =
      (recipe l.config nodeType).map (headExport address ++ ·) := rfl
  rw [hcommands, recipe_eq htype]
  cases hdocker : l.config.docker with
  | none =>
    refine ⟨_, rfl, ?_⟩
    rw [List.forall₂_map_right_iff, List.forall₂_same]
    intro command _
    exact ⟨_, reads_headExport haddress, by simp⟩
  | some docker =>
    refine ⟨_, List.map_cons .., ?_⟩
    rw [List.map_map, List.forall₂_map_right_iff, List.forall₂_same]
    intro command hcommand
    have hname := hname docker hdocker
    exact ⟨_, reads_containerExec haddress hname (hsetup command hcommand), by simp⟩

/-- A loop whose cluster sets its nodes up by `make`, inside a container. -/
def ofContainer : ControlLoop :=
  { ControlLoop.ofWorker with
    config := { ControlLoop.ofWorker.config with docker := some ⟨"python:3.12", "app", []⟩ } }

/-- What an updater for a worker of that cluster runs, told that the head node is at `10.0.0.7`. -/
def ofContainerCommands : List String :=
  (ofContainer.updateFor ⟨"w"⟩ "worker" ⟨⟨"launch"⟩, ⟨"files"⟩⟩ (some "10.0.0.7")).request.commands

/-- A container without any variables: the shell inside it that reads `make` has no address, although
the cluster has a container and the worker is of another than the head type. -/
theorem address_unseen_ofContainer :
    ofContainer.config.docker.isSome = true ∧ ofContainer.config.isHead "worker" = false ∧
      ∃ line ∈ ofContainerCommands, ∃ reader,
        (∀ s, Reads (fun _ => ∅) "make" ⟨∅, line.toList⟩ s ↔ s = reader) ∧
          reader.environment.get? headAddressVariable = none := by
  refine ⟨rfl, rfl, headExport "10.0.0.7" ++ containerExec ⟨"python:3.12", "app", []⟩ "make", ?_,
    _, reads_containerExec (by decide) (by decide) (by decide), rfl⟩
  decide

theorem address_seen_iff_ofContainer :
    ofContainer.config.nodeType? "worker" = some { minWorkers := 1, maxWorkers := 1 } ∧
      (∀ docker ∈ ofContainer.config.docker, NulFree docker.containerName) ∧
      (∀ c ∈ ["make"], NulFree c) ∧ NulFree "10.0.0.7" ∧
      ∃ start line, ofContainerCommands = [start, line] ∧ ∃ reader,
        (∀ s, Reads (fun _ => ∅) "make" ⟨∅, line.toList⟩ s ↔ s = reader) ∧
          reader.environment.get? headAddressVariable ≠ some "10.0.0.7" := by
  have htype : ofContainer.config.nodeType? "worker" =
      some { minWorkers := 1, maxWorkers := 1 } := rfl
  have hname : ∀ docker ∈ ofContainer.config.docker, NulFree docker.containerName := by
    rintro docker ⟨⟩
    decide
  have hsetup : ∀ c ∈ setup ofContainer.config { minWorkers := 1, maxWorkers := 1 }, NulFree c := by
    decide
  have haddress : NulFree "10.0.0.7" := by decide
  obtain ⟨lines, hcommands, hlines⟩ := address_seen_iff htype hname hsetup haddress ⟨"w"⟩
    ⟨⟨"launch"⟩, ⟨"files"⟩⟩ (fun _ => ∅) ∅
  obtain ⟨line, _, ⟨reader, hreads, hseen⟩, hnone, rfl⟩ := List.forall₂_cons_left_iff.mp hlines
  rw [List.forall₂_nil_left_iff.mp hnone] at hcommands
  refine ⟨htype, hname, hsetup, haddress, _, line, hcommands, reader, hreads, fun hread => ?_⟩
  exact nomatch hseen.mp hread _ rfl

end Bootstrap

end ClusterScaler
