import BillingEngine.Execution.Inputs

-- What clients may expect of concurrent usage requests: each of them is served at once, at some
-- moment between its arrival and its answer.
namespace Atomic

inductive Session
  | waiting (request : UsageRequest)
  | served (request : UsageRequest) (response : HttpResponse)

@[ext]
structure State where
  db      : Database
  session : Uuid → Option Session

inductive Label
  | start (id : Uuid) (request : UsageRequest)
  | serve (id : Uuid)
  | env (op : Operation)

-- What happens from outside: the arrivals of requests, and the other operations.
def Label.shown : Label → List Label
  | serve _ => []
  | l       => [l]

def State.boot (db : Database) : State where
  db        := db
  session _ := none

-- The request `id` is served by the sequential code.
def State.serve (s : State) (id : Uuid) (request : UsageRequest) (i : Inputs) : State :=
  let (response, db) := Router.recordUsage s.db i.order id request i.now i.timestamp
  { db, session := Function.update s.session id (some <| .served request response) }

def step (inputs : Uuid → Inputs) (s : State) : Label → Option State
  | .start id request =>
    match s.session id with
    | none   => some { s with session := Function.update s.session id (some <| .waiting request) }
    | some _ => none
  | .serve id =>
    match s.session id with
    | some (.waiting request) => some <| s.serve id request (inputs id)
    | _                       => none
  | .env op => (op.apply s.db).map fun db => { s with db }

variable {inputs : Uuid → Inputs} {s : State} {id : Uuid} {request : UsageRequest} {op : Operation}
  {db : Database}

theorem step_start (h : s.session id = none) : step inputs s (.start id request) =
    some { s with session := Function.update s.session id (some <| .waiting request) } := by
  simp [step, h]

theorem step_serve (h : s.session id = some (.waiting request)) :
    step inputs s (.serve id) = some (s.serve id request (inputs id)) := by
  simp [step, h]

theorem step_env (h : op.apply s.db = some db) : step inputs s (.env op) = some { s with db } := by
  simp [step, h]

end Atomic
