import RecordService.Gateway.Error
import RecordService.Store.Info

/-!
# The gateway

The gateway is a store with a task registry before it, and limits on scans. Each of its calls is
one operation that a client can ask for.

* `Gateway.getRecord`, `recordExists`, `createRecord`, `replaceRecord`, `updateRecord`,
  `deleteRecord`, `operate`: one record.
* `Gateway.scan`: a page of records.
* `Gateway.submit`, `taskStatus`: background tasks.
* `Gateway.info`, `nodeNames`: the cluster.
* `Gateway.settle`: background work comes to rest.
-/

namespace RecordService

/-- A gateway. -/
structure Gateway where
  store : Store
  scanLimits : ScanLimits
  tasks : TaskRegistry
  deriving Repr

/-- What a client may say about a write: the generation that the record has to have, and the
seconds until it expires. -/
structure WriteParameters where
  generation : Option UInt32 := none
  ttl : Option UInt32 := none
  deriving DecidableEq, Repr

/-- The options of a write in a mode. -/
def WriteParameters.options (p : WriteParameters) (mode : WriteMode) : WriteOptions :=
  ⟨mode, p.generation, p.ttl⟩

namespace Gateway

/-- A gateway before a store without records. -/
def ofSettings (store : StoreSettings) (scanLimits : ScanLimits) (tasks : TaskLimits) : Gateway :=
  { store := .empty store, scanLimits, tasks := { limits := tasks } }

/-- The outcome of a store call on one record, with the errors of the gateway. -/
def ofStoreCall {α : Type} (g : Gateway) (r : Except StoreError α × Store) :
    Except GatewayError α × Gateway :=
  (r.1.mapError .ofStore, { g with store := r.2 })

/-! ## Single records -/

/-- The record at an address. -/
def getRecord (g : Gateway) (now : Instant) (address : Address) (filter : Option Expression)
    (bins : Option (List String)) : Except GatewayError Record :=
  (g.store.get now address ⟨bins, filter⟩).mapError .ofStore

/-- Succeeds if there is a record at an address that passes a filter. -/
def recordExists (g : Gateway) (now : Instant) (address : Address) (filter : Option Expression) :
    Except GatewayError Unit :=
  ((g.store.exists_ now address filter).mapError .ofStore).bind fun found =>
    if found then .ok () else .error .recordNotFound

/-- Writes bins in a mode. There has to be one. -/
def putRecord (g : Gateway) (now : Instant) (address : Address) (bins : Bins)
    (options : WriteOptions) : Except GatewayError Unit × Gateway :=
  if bins.isEmpty then
    (.error (.invalidRequest "record body must contain at least one bin"), g)
  else g.ofStoreCall (g.store.put now address bins options)

/-- Creates a record; there may be none yet. -/
def createRecord (g : Gateway) (now : Instant) (address : Address) (bins : Bins)
    (ttl : Option UInt32) : Except GatewayError Unit × Gateway :=
  g.putRecord now address bins ⟨.createOnly, none, ttl⟩

/-- Replaces all bins of a record. -/
def replaceRecord (g : Gateway) (now : Instant) (address : Address) (bins : Bins)
    (p : WriteParameters) : Except GatewayError Unit × Gateway :=
  g.putRecord now address bins (p.options .replaceOnly)

/-- Stores bins into a record. -/
def updateRecord (g : Gateway) (now : Instant) (address : Address) (bins : Bins)
    (p : WriteParameters) : Except GatewayError Unit × Gateway :=
  g.putRecord now address bins (p.options .updateOnly)

/-- Deletes a record. -/
def deleteRecord (g : Gateway) (now : Instant) (address : Address) (generation : Option UInt32) :
    Except GatewayError Unit × Gateway :=
  let (found, g) := g.ofStoreCall (g.store.delete now address ⟨.update, generation, none⟩)
  (found.bind fun found => if found then .ok () else .error .recordNotFound, g)

/-- Applies operations to a record. There has to be one. -/
def operate (g : Gateway) (now : Instant) (address : Address) (ops : List Operation)
    (p : WriteParameters) : Except GatewayError Record × Gateway :=
  if ops.isEmpty then (.error (.invalidRequest "opsList must not be empty"), g)
  else g.ofStoreCall (g.store.operate now address ops (p.options .update))

/-! ## Scans and tasks -/

/-- A page of the selected records. -/
def scan (g : Gateway) (now : Instant) (selection : Selection) (bins : Option (List String))
    (size : Option Nat) (token : Option String) : Except GatewayError ScanPage :=
  (g.scanLimits.scan g.store now selection bins size token).mapError .ofScan

/-- Submits a task under a fresh name. -/
def submit (g : Gateway) (now : Instant) (fresh : TaskId) (selection : Selection)
    (ops : List Operation) : Except GatewayError Task × Gateway :=
  let (task, tasks, store) := g.tasks.submit now fresh selection ops g.store
  (task.mapError .ofTask, { g with tasks, store })

/-- The task that a text names. -/
def taskStatus (g : Gateway) (now : Instant) (text : String) : Except GatewayError Task × Gateway :=
  let (task, tasks) := g.tasks.status now text
  (task.mapError .ofTask, { g with tasks })

/-! ## The cluster -/

/-- The answers of a node, or of any node, to commands. -/
def info (g : Gateway) (now : Instant) (node : Option String) (commands : List String) :
    Except GatewayError InfoAnswer :=
  (g.store.info now node commands).mapError .ofStore

/-- The names of the nodes. -/
def nodeNames (g : Gateway) : Except GatewayError (List String) :=
  g.store.nodeNames.mapError .ofStore

/-! ## Background work -/

/-- Lets the jobs run until none is left, and the registry look at those of its running tasks. -/
def settle (g : Gateway) (now : Instant) : Gateway :=
  let store := g.store.settle now
  { g with store, tasks := g.tasks.poll now store.jobStatus }

end Gateway
end RecordService
