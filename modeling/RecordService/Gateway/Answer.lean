import RecordService.Gateway.Basic
import RecordService.Time.Calendar

/-!
# Results as response bodies

What the calls of the gateway return, as the bodies that are sent. A body means the same in both
wire formats.
-/

namespace RecordService

/-- A key as a value: null if only its digest is known. -/
def Key.toValue : Key → Value
  | .string s => .string s
  | .integer n => .int n
  | .bytes b => .blob b
  | .digest _ => .null

/-- The seconds that are told of a record that never expires. -/
def neverExpires : Int64 := -1

/-- The body of a record. -/
def RecordBody.ofRecord (r : Record) : RecordBody where
  bins := r.bins
  generation := r.generation
  ttl := match r.expiration with
    | some seconds => Int64.ofInt seconds.toNat
    | none => neverExpires
  key :=
    { ns := r.address.ns
      setName := r.address.set
      userKey := r.address.key.toValue
      digest := Base64.encode .url false r.digest.bytes }

/-- The body of a page. -/
def ScanBody.ofPage (p : ScanPage) : ScanBody :=
  ⟨p.records.map .ofRecord, ⟨p.resume, p.records.length⟩⟩

/-- The body of a task. -/
def TaskBody.ofTask (t : Task) : TaskBody :=
  ⟨t.id.text, t.state.status, Calendar.text t.submittedAt, t.state.records, t.state.reason⟩

/-- The body of the answers of a node: a map from commands to answers. -/
def InfoAnswer.toDocument (a : InfoAnswer) : Document :=
  .object (a.responses.map fun r => (r.1, .text r.2))

end RecordService
