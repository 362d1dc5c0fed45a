import ClusterScaler.Config.Basic
import ClusterScaler.Shell

/-!
# Bootstrap recipes

The commands that set a node up. The recipe of a node type depends on the configuration alone; the
address of the head node, which is known only in a live cluster, is put in front afterwards.
-/

set_option autoImplicit false

namespace ClusterScaler.Bootstrap

/-- The environment variable that tells a node where the head node is. -/
def headAddressVariable : String := "FLEET_HEAD_IP"

/-- The command that starts the container. -/
def containerRun (docker : DockerConfig) : String :=
  "docker run -d --name " ++ Shell.quote docker.containerName ++ " --net=host"
    ++ String.join (docker.runOptions.map (" " ++ ·))
    ++ " " ++ Shell.quote docker.image ++ " sleep infinity"

/-- The command that starts the container unless it is running. -/
def containerStart (docker : DockerConfig) : String :=
  "docker inspect -f '\x7b\x7b.State.Running\x7d\x7d' " ++ Shell.quote docker.containerName
    ++ " 2>/dev/null | grep -q true || " ++ containerRun docker

/-- A command run inside the container. -/
def containerExec (docker : DockerConfig) (command : String) : String :=
  "docker exec " ++ Shell.quote docker.containerName ++ " /bin/sh -c " ++ Shell.quote command

/-- Start the container, then run every command inside it. -/
def dockerize (commands : List String) (docker : DockerConfig) : List String :=
  containerStart docker :: commands.map (containerExec docker)

/-- The commands of a node type: the global setup, its own setup, its start, inside the container
where there is one. -/
def recipe (config : ClusterConfig) (nodeType : String) : List String :=
  let own := match config.nodeType? nodeType with
    | some t => t.setupCommands ++ t.startCommands
    | none => []
  let commands := config.setupCommands ++ own
  match config.docker with
  | some docker => dockerize commands docker
  | none => commands

/-- Let every command know the address of the head node. -/
def withHeadAddress (commands : List String) (address : String) : List String :=
  commands.map
    (fun c => "export " ++ headAddressVariable ++ "=" ++ Shell.quote address ++ "; " ++ c)

end ClusterScaler.Bootstrap
