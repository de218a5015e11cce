import NodeWe.ControlPlane.Runs
import NodeWe.ControlPlane.WebSocket

/-!
# Requests in flight

A request takes the store's lock twice: `authenticate_request` looks the presented token up, and the
handler runs later, on the store that it finds then. A message of an agent's channel does the same.
Between the two, any other request may run. The system keeps the arms that authenticated arrivals
are bound for, and its runs are runs of the store (`Acts.happens`).
-/

namespace NodeWe.ControlPlane

open Text Transition

/-- What a client sends: a request, or a message of an agent's channel. -/
inductive Arrival
  | request (method path body presented : String)
  | message (text expected_node presented : String)

/-- The token that an arrival presents. -/
def Arrival.presented : Arrival → String
  | request _ _ _ presented => presented
  | message _ _ presented => presented

/-- An arrival that is authenticated and waits for its handler. Tickets count the arrivals. -/
structure Pending where
  ticket : ℕ
  arrival : Arrival
  arm : Arm

/-- The store and what waits to be handled. -/
structure System where
  store : Store
  arrivals : ℕ
  pending : List Pending

/-- A process that starts with an empty store. -/
def System.init : System := ⟨.empty, 0, []⟩

/-- A step of the system. -/
inductive Action
  | authenticated (st : State) (env : Env) (p : Pending)
  | handled (st : State) (env : Env) (p : Pending) (response : Response)
  | restarted (env : Env)

/-- What a step of the system is to the store. -/
def Action.events : Action → List Event
  | authenticated _ _ _ => []
  | handled st env p response => [.handled st env p.arm response]
  | restarted env => [.reloaded env]

section Requests

variable [Serde] [Ed25519]

omit [Ed25519] in
/-- The arm that an arrival is bound for once it is authenticated. A message that is answered at
once is bound for that answer. -/
def Arrival.arm (st : State) (env : Env) (store : Store) : Arrival → Arm
  | request method path body presented =>
    let auth := authenticateRequest st env store path body presented
    routedArm method path body auth.authorized auth.admin auth.actor
  | message text expected_node presented =>
    match messageCall st env store text expected_node presented with
    | .error envelope => .respond ⟨.unauthorized, .text envelope⟩
    | .ok call => call.arm

omit [Ed25519] in
/-- An arrival as it waits once it is authenticated. -/
def System.ticketed (st : State) (env : Env) (arrival : Arrival) (s : System) : Pending :=
  ⟨s.arrivals, arrival, arrival.arm st env s.store⟩

omit [Ed25519] in
/-- The system after an arrival is authenticated. -/
def System.authenticate (st : State) (env : Env) (arrival : Arrival) (s : System) : System :=
  ⟨s.store, s.arrivals + 1, s.pending ++ [s.ticketed st env arrival]⟩

/-- The system after an arrival that waits is handled. -/
def System.handle (st : State) (env : Env) (p : Pending) (s : System) : System :=
  ⟨(p.arm.run st env s.store).2, s.arrivals, s.pending.filter fun q => q.ticket ≠ p.ticket⟩

/-- The steps of the system. -/
inductive Acts : System → Action → System → Prop
  | authenticated (st : State) (env : Env) (arrival : Arrival) (s : System) :
      Acts s (.authenticated st env (s.ticketed st env arrival)) (s.authenticate st env arrival)
  | handled (st : State) (env : Env) (p : Pending) (s : System) (hpending : p ∈ s.pending) :
      Acts s (.handled st env p (p.arm.run st env s.store).1) (s.handle st env p)
  | restarted (env : Env) (s : System) (store : Store)
      (h : parseSnapshot env (snapshotText s.store) = .ok (some store)) :
      Acts s (.restarted env) ⟨store, s.arrivals, []⟩

/-- A step of the system is a run of the store, of one event at most. -/
theorem Acts.happens {s t : System} {action : Action} (h : Acts s action t) :
    Run Happens s.store action.events t.store := by
  cases h with
  | authenticated => exact .start
  | handled st env p s hpending => exact .single (.handled _ _ _ (.handled st env p.arm s.store))
  | restarted env s store h => exact .single (.reloaded env s.store store h)

/-- A run of the system is a run of the store. -/
theorem Acts.run_happens {s t : System} {actions : List Action} (h : Run Acts s actions t) :
    Run Happens s.store (actions.flatMap Action.events) t.store :=
  h.simulates System.store Action.events fun _ _ _ => Acts.happens

/-- The store of a running system is reachable. -/
theorem Acts.reachable {s : System} {actions : List Action}
    (h : Run Acts System.init actions s) : Reachable s.store :=
  ⟨_, Acts.run_happens h⟩

/-- The effect of handling an arrival. -/
theorem Acts.effect {s t : System} {st : State} {env : Env} {p : Pending} {response : Response}
    (h : Acts s (.handled st env p response) t) :
    Effect st env s.store p.arm response t.store := by
  cases h
  exact p.arm.run_effect st env s.store

/-- An arrival is authenticated and handled. -/
theorem Acts.served (st : State) (env : Env) (arrival : Arrival) (s : System) :
    ∃ response, Acts s (.authenticated st env (s.ticketed st env arrival))
        (s.authenticate st env arrival) ∧
      Acts (s.authenticate st env arrival) (.handled st env (s.ticketed st env arrival) response)
        ((s.authenticate st env arrival).handle st env (s.ticketed st env arrival)) :=
  ⟨_, .authenticated st env arrival s,
    .handled st env _ _ (List.mem_append_right _ (List.mem_singleton_self _))⟩

end Requests

/-! ## Small arrivals -/

/-- The administrator's request that enrols the node `n1`. -/
def enrolmentRequest : Arrival := .request "POST" "/v1/nodes" exampleBodies.1 "root"

/-- The administrator's request for a task of `n1`. -/
def creationRequest : Arrival := .request "POST" "/v1/tasks" exampleBodies.2 "root"

/-- The credential that the node `n1` is enrolled with, where the value 1 is drawn. -/
def oldCredential : String := "010101010101010101010101010101010101010101010101"

/-- The poll of `n1` under that credential. -/
def pollRequest : Arrival := .request "GET" "/v1/agent/tasks?node_id=n1" "" oldCredential

section Example

attribute [local instance] exampleParser noKeys

/-- An arrival is authenticated and handled with nothing in between. -/
def served (env : Env) (arrival : Arrival) (s : System) : System :=
  (s.authenticate exampleState env arrival).handle exampleState env
    (s.ticketed exampleState env arrival)

/-- The node `n1` is enrolled and a task is queued for it. -/
def busy : System :=
  served (drawingEnv 2) creationRequest (served (drawingEnv 1) enrolmentRequest .init)

/-- The poll of `n1` as it waits. -/
def waitingPoll : Pending := busy.ticketed exampleState (drawingEnv 3) pollRequest

/-- The two requests are a run, and the poll is authenticated after it. -/
theorem run_busy : ∃ r₁ r₂, Run Acts System.init
    [.authenticated exampleState (drawingEnv 1)
        (System.init.ticketed exampleState (drawingEnv 1) enrolmentRequest),
      .handled exampleState (drawingEnv 1)
        (System.init.ticketed exampleState (drawingEnv 1) enrolmentRequest) r₁,
      .authenticated exampleState (drawingEnv 2)
        ((served (drawingEnv 1) enrolmentRequest .init).ticketed exampleState (drawingEnv 2)
          creationRequest),
      .handled exampleState (drawingEnv 2)
        ((served (drawingEnv 1) enrolmentRequest .init).ticketed exampleState (drawingEnv 2)
          creationRequest) r₂,
      .authenticated exampleState (drawingEnv 3) waitingPoll]
    (busy.authenticate exampleState (drawingEnv 3) pollRequest) := by
  obtain ⟨r₁, harrive₁, hhandle₁⟩ :=
    Acts.served exampleState (drawingEnv 1) enrolmentRequest .init
  obtain ⟨r₂, harrive₂, hhandle₂⟩ := Acts.served exampleState (drawingEnv 2) creationRequest
    (served (drawingEnv 1) enrolmentRequest .init)
  exact ⟨r₁, r₂, .snoc _ _ _ _ (.snoc _ _ _ _ (.snoc _ _ _ _ (.snoc _ _ _ _
    (.single harrive₁) hhandle₁) harrive₂) hhandle₂)
    (.authenticated exampleState (drawingEnv 3) pollRequest busy)⟩

end Example

end NodeWe.ControlPlane
