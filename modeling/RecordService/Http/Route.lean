import RecordService.Http.Message
import RecordService.Text.Percent

/-!
# Routes

A path leads to a route or nowhere. Its parts are matched as they stand, with their escapes. The
last part must not be empty where it names something; a part before it may be.

* `Route.ofPath?`: the route of a path.
* `Route.methods`: what a route is served under.
-/

namespace RecordService.Http

/-- What a path leads to. The names in it still have their escapes. -/
inductive Route
  /-- A record, by the rest of the path. -/
  | record (tail : String)
  /-- Operations on a record, by the rest of the path. -/
  | operate (tail : String)
  /-- The records of a namespace or set. -/
  | scan (ns : String) (set : Option String)
  /-- Background tasks on a namespace or set. -/
  | execute (ns : String) (set : Option String)
  | taskStatus (task : String)
  /-- Questions to any node or to a named one. -/
  | info (node : Option String)
  | cluster
  deriving DecidableEq, Repr

namespace Route

/-- A route with the rest of a path, which must not be empty. -/
def tailed (route : String → Route) (rest : List String) : Option Route :=
  let tail := "/".intercalate rest
  if tail = "" then none else some (route tail)

/-- The route of the parts of a path. A task is named behind the fixed part `status`, whatever
namespaces there are. -/
def ofParts? : List String → Option Route
  | "v1" :: "kvs" :: rest => tailed record rest
  | "v1" :: "operate" :: rest => tailed operate rest
  | ["v1", "scan", ns] => if ns = "" then none else some (scan ns none)
  | ["v1", "scan", ns, set] => if set = "" then none else some (scan ns (some set))
  | ["v2", "execute", "scan", ns] => if ns = "" then none else some (execute ns none)
  | ["v2", "execute", "scan", "status", task] =>
    if task = "" then none else some (taskStatus task)
  | ["v2", "execute", "scan", ns, set] => if set = "" then none else some (execute ns (some set))
  | ["v1", "info"] => some (info none)
  | ["v1", "info", node] => if node = "" then none else some (info (some node))
  | ["v1", "cluster"] => some cluster
  | _ => none

/-- The route of a path. -/
def ofPath? (path : String) : Option Route :=
  match (Percent.splitAll '/' path.toList).map String.ofList with
  | "" :: parts => ofParts? parts
  | _ => none

/-- The methods that a route is served under. -/
def methods : Route → List Method
  | record _ => [.get, .head, .post, .put, .patch, .delete]
  | operate _ | execute .. | info _ => [.post]
  | scan .. | taskStatus _ | cluster => [.get, .head]

/-- The methods of a route as they are told to a request with another one. -/
def allow (route : Route) : String :=
  ",".intercalate ((Method.names.filter fun m => route.methods.contains m.2).map (·.1))

end Route
end RecordService.Http
