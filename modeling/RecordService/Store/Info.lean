import RecordService.Store.Basic

/-!
# Facts about the cluster

A node answers commands with short texts; a command that it does not know is answered with the
empty text.

* `Store.nodeNames`: the nodes.
* `Store.info`: the answers of one node, or of the first node that is up.
-/

namespace RecordService

/-- The answers of a node, in the order of the commands' texts. -/
structure InfoAnswer where
  node : String
  responses : List (String × String)
  deriving DecidableEq, Repr

/-- The version that `build` answers. -/
def buildVersion : String := "0.1.0"

namespace Store

/-- The names of the nodes. -/
def nodeNames (s : Store) : Except StoreError (List String) :=
  s.accessRead.map fun _ => s.settings.nodes

/-- The node that is to answer. -/
def target (s : Store) (node : Option String) : Except StoreError String :=
  match node with
  | some name =>
    if !s.settings.nodes.contains name then .error (.nodeNotFound name)
    else if !s.isUp name then .error (.unavailable ("node " ++ name ++ " unreachable"))
    else .ok name
  | none =>
    match s.settings.nodes.find? s.isUp with
    | some name => .ok name
    | none => .error (.unavailable "no cluster node reachable")

/-- The counts of a store. -/
def statistics (s : Store) (now : Instant) : List (String × Nat) :=
  [("objects", total (s.spaces.map fun e => (e.2.live now).length)),
    ("jobs", s.jobs.length),
    ("jobs_active", s.pool.active.length),
    ("jobs_queued", s.pool.queue.length),
    ("jobs_completed", s.pool.completed),
    ("job_workers", s.pool.workers)]

/-- The text of a count. -/
def countText (e : String × Nat) : String := e.1 ++ "=" ++ toString e.2

/-- The answer to a command about one namespace. -/
def spaceInfo (s : Store) (now : Instant) (ns : String) : String :=
  match s.space? ns with
  | some rs => countText ("objects", (rs.live now).length)
  | none => "type=unknown"

/-- The namespace that a command is about. -/
def commandSpace? (command : String) : Option String :=
  let head := "namespace/".toList
  if command.toList.take head.length = head then
    some (String.ofList (command.toList.drop head.length))
  else none

/-- The answer of a node to a command. -/
def respond (s : Store) (now : Instant) (node command : String) : String :=
  match command with
  | "build" => buildVersion
  | "node" => node
  | "status" => "ok"
  | "namespaces" => ";".intercalate (s.spaces.map (·.1))
  | "statistics" => ";".intercalate ((s.statistics now).map countText)
  | _ =>
    match commandSpace? command with
    | some ns => s.spaceInfo now ns
    | none => ""

/-- The answers of a node to commands. A fault that makes calls time out leaves them alone. -/
def info (s : Store) (now : Instant) (node : Option String) (commands : List String) :
    Except StoreError InfoAnswer :=
  (s.target node).bind fun name =>
    if s.fault = some .unavailable then .error (.unavailable "cluster unreachable")
    else .ok ⟨name, Ordered.ofEntries (commands.map fun c => (c, s.respond now name c))⟩

end Store
end RecordService
