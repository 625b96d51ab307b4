import SpanMetrics.Host.Container
import SpanMetrics.Host.Distro

/-!
# Identity of the host

The host and the process that a message comes from. What cannot be found out is left empty; the
identity of a cloud instance is filled in by whoever knows it.
-/
namespace SpanMetrics.Host

structure Identity where
  hostname : String
  /-- Name given to the host in the settings. -/
  hostAlias : Option String
  systemName : String
  systemRelease : String
  pid : Int32
  distro : String
  ipAddresses : List String
  macAddresses : List String
  instanceId : Option String
  availabilityZone : Option String
  containerId : Option String
deriving DecidableEq, Repr, Inhabited

/-- The name of the host: the one in the environment, else the one that the system gives, else a
word that says that there is none. -/
def hostname (environment : Option String) (system : Except String String) : Logged String :=
  match environment.filter (· ≠ "") with
  | some name => return name
  | none => do
    match system with
    | .ok name => if name ≠ "" then return name
    | .error cause => Logged.say .warn ("Failed to get system hostname: " ++ cause)
    Logged.say .warn "Could not determine hostname, using 'unknown'"
    return "unknown"

/-- What a machine says about itself. -/
structure Machine where
  environmentHostname : Option String
  systemHostname : Except String String
  systemName : String
  systemRelease : String
  pid : Int32
  files : Distro.Root
  ipAddresses : List String
  macAddresses : List String

/-- The file that lists the control groups of the process, below the root. -/
def cgroupPath : String := "proc/self/cgroup"

/-- The identity of a machine. An empty alias is none. -/
def Identity.detect (m : Machine) (hostAlias : Option String) : Logged Identity := do
  let name ← Host.hostname m.environmentHostname m.systemHostname
  let container ← Container.ofFile ("/" ++ cgroupPath) (m.files cgroupPath)
  return {
    hostname := name
    hostAlias := hostAlias.filter (· ≠ "")
    systemName := m.systemName
    systemRelease := m.systemRelease
    pid := m.pid
    distro := Distro.detect m.files
    ipAddresses := m.ipAddresses
    macAddresses := m.macAddresses
    instanceId := none
    availabilityZone := none
    containerId := container }

end SpanMetrics.Host
