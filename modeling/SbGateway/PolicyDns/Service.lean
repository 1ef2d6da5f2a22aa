import SbGateway.Lib.Threads
import SbGateway.PolicyDns.Config
import SbGateway.PolicyDns.ResponseCache

namespace SbGateway.PolicyDns

open Lib

/-!
# The policy-DNS service

Every query is a thread of `admitQuery` and `resolveAdmitted`.  A lock-protected section or a
channel operation is one step; `Pc` says where a thread is, and what it does next.  The threads
share the counters, the channels, the table of flights and the response cache.

* `planQuery`, `queryResult` — what is answered from the cache;
* `Service.stageStep`, `Service.step` — the steps;
* `System` — any number of queries in any order.
-/

/-! ### The state -/

/-- What the service was started with. -/
structure ServiceConfig where
  lanes : String → Option Lane
  /-- The tags of the upstream servers. -/
  servers : List String
  /-- The capacity of `limit`. -/
  limit : ℕ
  /-- The capacity of `pending`. -/
  pending : ℕ

/-- The two channels by how full they are, and two counters. -/
structure RouteBudget where
  active : ℕ
  pending : ℕ
  shared : ℤ
  bytes : ℤ

/-- What an exchange has brought. -/
inductive Outcome where
  | answered (response : Message)
  | failed

/-- An exchange that queries share. -/
structure Flight where
  /-- The key it was begun for; in the source only the table knows it. -/
  key : Key
  waiters : ℤ
  /-- The result, once the flight is done. -/
  result : Option Outcome

/-- A record of an upstream exchange that was answered. -/
structure Exchange where
  tag : String
  query : Message
  response : Message

/-- What the threads of the service share. -/
structure Service where
  queryBytes : ℤ
  sharedQueries : ℤ
  limit : ℕ
  pending : ℕ
  /-- The budgets of the routes; one that was never asked for is empty. -/
  routes : String → RouteBudget
  table : Key → Option ℕ
  flights : ℕ → Option Flight
  /-- The flights from here on were never begun. -/
  nextFlight : ℕ
  cache : ResponseCache
  /-- All exchanges so far; nothing reads it. -/
  exchanges : List Exchange

/-- A service before its first query. -/
def Service.Started (s : Service) : Prop :=
  ∃ limit byteLimit staleTTL,
    s = ⟨0, 0, 0, 0, fun _ => ⟨0, 0, 0, 0⟩, fun _ => none, fun _ => none, 0,
    newResponseCache limit byteLimit staleTTL, []⟩

/-- The upstream of a query, and its key. -/
structure QueryPlan where
  tag : String
  key : Key

/-- What a client gets; the bytes of a refusal do not matter. -/
inductive Answer where
  | refusal (serverFailure : Bool)
  | message (bytes : Message)

/-- What a thread with a flight does next. -/
inductive Stage where
  /-- In the flight of another query, and about to ask for a shared slot. -/
  | joined
  | refusedJoin
  /-- With a flight of its own, and about to try `route.active`. -/
  | owner
  /-- About to try `limit`. -/
  | routed
  | blocked
  /-- About to try `route.pending`. -/
  | queueing
  /-- About to try `pending`. -/
  | listed
  | unlisted
  | rejected
  | dropped
  /-- Waiting for the flight of another query. -/
  | shared
  | sharedAnswered (answer : Answer)
  /-- Waiting for `route.active`. -/
  | queued
  /-- Waiting for `limit`. -/
  | queuedRouted
  | expiredRouted
  | dequeuing (acquired : Bool)
  | unlisting (acquired : Bool)
  /-- Admitted for work. -/
  | working
  /-- The upstream exchange is in progress. -/
  | exchanging
  | exchanged (outcome : Outcome)
  | released (outcome : Outcome)
  | finishing (outcome : Outcome) (acquired : Bool)
  | finished (outcome : Outcome) (acquired : Bool)
  | leaving (answer : Option Answer)

/-- Where a thread is. -/
inductive Pc where
  | arrived
  | planned (plan : QueryPlan)
  | charged (plan : QueryPlan)
  | flying (plan : QueryPlan) (flight : ℕ) (stage : Stage)
  | refunding (plan : QueryPlan)
  | returning (plan : QueryPlan) (answer : Option Answer)
  /-- Without an answer if the service has stopped. -/
  | done (answer : Option Answer)

/-- A query and how far it is. -/
structure Thread where
  lane : String
  query : Message
  pc : Pc

/-! ### Counters and channels -/

/-- The longest message. -/
def maxDNSMessage : ℕ := 65535

/-- A single profile may use half of the capacities when there are several. -/
def ServiceConfig.route (config : ServiceConfig) (tag : String) : Option String :=
  if config.servers.length < 2 ∨ config.limit < 2 then none else some tag

/-- A route may use half of the workers. -/
def ServiceConfig.activeCap (config : ServiceConfig) : ℕ := max 1 (config.limit / 2)

/-- A route may use half of the queue. -/
def ServiceConfig.listedCap (config : ServiceConfig) : ℕ := max 1 (config.pending / 2)

namespace Service

variable (config : ServiceConfig) (s : Service)

/-- The budget of a route. -/
def setRoute (tag : String) (budget : RouteBudget) : Service :=
  { s with routes := Function.update s.routes tag budget }

/-- Another cache. -/
def setCache (cache : ResponseCache) : Service := { s with cache }

/-- Bytes are charged to the service and the route. -/
def addBytes (route : Option String) (size : ℤ) : Service :=
  let s := { s with queryBytes := s.queryBytes + size }
  match route with
  | none => s
  | some tag => s.setRoute tag { s.routes tag with bytes := (s.routes tag).bytes + size }

/-- Waiters are charged likewise. -/
def addShared (route : Option String) (count : ℤ) : Service :=
  let s := { s with sharedQueries := s.sharedQueries + count }
  match route with
  | none => s
  | some tag => s.setRoute tag { s.routes tag with shared := (s.routes tag).shared + count }

/-- There is no room for the bytes of a query. -/
def overBytes (route : Option String) (size : ℤ) : Bool :=
  s.queryBytes + size > max 1 config.limit * maxDNSMessage ||
    match route with
    | none => false
    | some tag => (s.routes tag).bytes + size > max 1 (config.limit / 2) * maxDNSMessage

/-- Another query may wait. -/
def acceptsShared (route : Option String) : Bool :=
  s.sharedQueries < max 1 config.limit * 4 &&
    match route with
    | none => true
    | some tag => (s.routes tag).shared < config.limit * 3

/-- Try `limit`. -/
def acquire : Option Service :=
  if s.limit < config.limit then some { s with limit := s.limit + 1 } else none

/-- A receiver of an empty channel has to wait. -/
def release : Option Service := if 0 < s.limit then some { s with limit := s.limit - 1 } else none

/-- A place in the queue. -/
def tryPending : Option Service :=
  if s.pending < config.pending then some { s with pending := s.pending + 1 } else none

/-- It is given back. -/
def releasePending : Option Service :=
  if 0 < s.pending then some { s with pending := s.pending - 1 } else none

/-- The workers of a route. -/
def setActive (tag : String) (active : ℕ) : Service :=
  s.setRoute tag { s.routes tag with active }

/-- The queue of a route. -/
def setListed (tag : String) (pending : ℕ) : Service :=
  s.setRoute tag { s.routes tag with pending }

/-- A worker for the route. -/
def tryActive : Option String → Option Service
  | none => some s
  | some tag =>
    if (s.routes tag).active < config.activeCap then
      some (s.setActive tag ((s.routes tag).active + 1))
    else none

/-- It is given back. -/
def releaseActive : Option String → Option Service
  | none => some s
  | some tag =>
    if 0 < (s.routes tag).active then some (s.setActive tag ((s.routes tag).active - 1)) else none

/-- A place in the queue of the route. -/
def tryListed : Option String → Option Service
  | none => some s
  | some tag =>
    if (s.routes tag).pending < config.listedCap then
      some (s.setListed tag ((s.routes tag).pending + 1))
    else none

/-- It is given back. -/
def releaseListed : Option String → Option Service
  | none => some s
  | some tag =>
    if 0 < (s.routes tag).pending then some (s.setListed tag ((s.routes tag).pending - 1)) else none

/-! ### Flights -/

/-- A flight is changed. -/
def modifyFlight (flight : ℕ) (change : Flight → Flight) : Service :=
  { s with flights := Function.update s.flights flight ((s.flights flight).map change) }

/-- Who waits for a flight. -/
def waiters (flight : ℕ) : ℤ := ((s.flights flight).map Flight.waiters).getD 0

/-- One more waits. -/
def join (flight : ℕ) : Service :=
  s.modifyFlight flight fun f => { f with waiters := f.waiters + 1 }

/-- One less waits. -/
def leave (flight : ℕ) : Service :=
  s.modifyFlight flight fun f => { f with waiters := f.waiters - 1 }

/-- Begin a flight for a key that has none. -/
def launch (key : Key) : Service :=
  { s with
    table := Function.update s.table key (some s.nextFlight)
    flights := Function.update s.flights s.nextFlight (some ⟨key, 1, none⟩)
    nextFlight := s.nextFlight + 1 }

/-- The result is there, and the key is free. -/
def finish (key : Key) (flight : ℕ) (outcome : Outcome) : Service :=
  { s.modifyFlight flight fun f => { f with result := some outcome } with
    table := Function.update s.table key none }

/-- The flight of a key, and whether it is a new one; nothing, if it has too many waiters. -/
def begin (key : Key) (maximum : ℤ) : Option (Service × ℕ × Bool) :=
  match s.table key with
  | some flight =>
    if 0 < maximum ∧ maximum ≤ s.waiters flight then none else some (s.join flight, flight, false)
  | none => some (s.launch key, s.nextFlight, true)

end Service

/-! ### Answers -/

/-- What is known of a query before it needs an upstream server. -/
inductive Planned where
  | unknownLane
  | answer (answer : Answer)
  | upstream (plan : QueryPlan)

/-- What becomes of a query before any exchange. -/
def planQuery (config : ServiceConfig) (cache : ResponseCache) (laneID : String) (query : Message)
    (now : Time) : Planned × ResponseCache :=
  match config.lanes laneID with
  | none => (.unknownLane, cache)
  | some lane =>
    match questionName query with
    | none => (.answer (.refusal false), cache)
    | some name =>
      if (lane.target name).2 = true ∨ (lane.target name).1 ∉ config.servers then
        (.answer (.refusal false), cache)
      else
        match normalizedQueryKey (lane.target name).1 query with
        | none => (.answer (.refusal false), cache)
        | some key =>
          match cache.get key (query.take 2) now with
          | (some response, cache) => (.answer (.message response), cache)
          | (none, cache) => (.upstream ⟨(lane.target name).1, key⟩, cache)

/-- What the upstream server says, if it is an answer to the query. -/
def checkedResponse (query : Message) : Option Message → Option Message
  | none => none
  | some response =>
    if response.length < 12 ∨ matchingQuestion query response = false then none else some response

/-- A failed exchange may be answered from the cache. -/
def queryResult (cache : ResponseCache) (plan : QueryPlan) (query : Message) (now : Time) :
    Outcome → Answer × ResponseCache
  | .failed =>
    match cache.getStale plan.key (query.take 2) now with
    | (some stale, cache) => (.message stale, cache)
    | (none, cache) => (.refusal true, cache)
  | .answered response => (.message (responseWithID response (query.take 2)), cache)

/-! ### Steps -/

/-- What the environment decides in a step. -/
structure Choice where
  now : Time
  /-- The context of the query, or of the service, is done. -/
  expired : Bool
  /-- The answer of the upstream server, if there is one. -/
  upstream : Option Message

namespace Service

variable (config : ServiceConfig) (choice : Choice) (s : Service)

/-- The result of a successful exchange goes into the cache; that never fails. -/
def exchange (plan : QueryPlan) (query response : Message) : Service :=
  { s with
    cache := (s.cache.putOwned plan.key response (responseTTL response) choice.now).getD s.cache
    exchanges := ⟨plan.tag, query, response⟩ :: s.exchanges }

/-- What a waiter of a flight gets, if it need not wait any longer. -/
def awaited (flight : ℕ) : Option Outcome :=
  if choice.expired then some .failed else (s.flights flight).bind Flight.result

/-- A step with a flight; nothing, if the thread has to wait. -/
def stageStep (query : Message) (plan : QueryPlan) (flight : ℕ) : Stage → Option (Service × Pc)
  | .joined =>
    if s.acceptsShared config (config.route plan.tag) then
      some (s.addShared (config.route plan.tag) 1, .flying plan flight .shared)
    else some (s, .flying plan flight .refusedJoin)
  | .refusedJoin => some (s.leave flight, .refunding plan)
  | .owner =>
    match s.tryActive config (config.route plan.tag) with
    | some s => some (s, .flying plan flight .routed)
    | none => some (s, .flying plan flight .queueing)
  | .routed =>
    match s.acquire config with
    | some s => some (s, .flying plan flight .working)
    | none => some (s, .flying plan flight .blocked)
  | .blocked => do
    return (← s.releaseActive (config.route plan.tag), .flying plan flight .queueing)
  | .queueing =>
    match s.tryListed config (config.route plan.tag) with
    | some s => some (s, .flying plan flight .listed)
    | none => some (s, .flying plan flight .rejected)
  | .listed =>
    match s.tryPending config with
    | some s => some (s, .flying plan flight .queued)
    | none => some (s, .flying plan flight .unlisted)
  | .unlisted => do
    return (← s.releaseListed (config.route plan.tag), .flying plan flight .rejected)
  | .rejected => some (s.finish plan.key flight .failed, .flying plan flight .dropped)
  | .dropped => some (s.leave flight, .refunding plan)
  | .shared => do
    let outcome ← s.awaited choice flight
    let (answer, cache) := queryResult s.cache plan query choice.now outcome
    return (s.setCache cache, .flying plan flight (.sharedAnswered answer))
  | .sharedAnswered answer =>
    some (s.addShared (config.route plan.tag) (-1), .flying plan flight (.leaving (some answer)))
  | .queued =>
    if choice.expired then some (s, .flying plan flight (.dequeuing false))
    else do return (← s.tryActive config (config.route plan.tag), .flying plan flight .queuedRouted)
  | .queuedRouted =>
    if choice.expired then some (s, .flying plan flight .expiredRouted)
    else do return (← s.acquire config, .flying plan flight (.dequeuing true))
  | .expiredRouted => do
    return (← s.releaseActive (config.route plan.tag), .flying plan flight (.dequeuing false))
  | .dequeuing acquired => do
    return (← s.releasePending, .flying plan flight (.unlisting acquired))
  | .unlisting acquired => do
    return (← s.releaseListed (config.route plan.tag),
      .flying plan flight (if acquired then .working else .finishing .failed false))
  | .working =>
    some (s, .flying plan flight (if choice.expired then .exchanged .failed else .exchanging))
  | .exchanging =>
    match checkedResponse query choice.upstream with
    | none => some (s, .flying plan flight (.exchanged .failed))
    | some response => some (s.exchange choice plan query response,
        .flying plan flight (.exchanged (.answered response.withoutID)))
  | .exchanged outcome => do return (← s.release, .flying plan flight (.released outcome))
  | .released outcome => do
    return (← s.releaseActive (config.route plan.tag),
      .flying plan flight (.finishing outcome true))
  | .finishing outcome acquired =>
    some (s.finish plan.key flight outcome, .flying plan flight (.finished outcome acquired))
  | .finished outcome acquired =>
    if acquired = false ∧ choice.expired then some (s, .flying plan flight (.leaving none))
    else
      let (answer, cache) := queryResult s.cache plan query choice.now outcome
      some (s.setCache cache, .flying plan flight (.leaving (some answer)))
  | .leaving answer => some (s.leave flight, .returning plan answer)

/-- A step of a thread; nothing, if it has to wait or is done. -/
def step (laneID : String) (query : Message) : Pc → Option (Service × Pc)
  | .arrived =>
    match planQuery config s.cache laneID query choice.now with
    | (.unknownLane, cache) => some (s.setCache cache, .done (some (.refusal true)))
    | (.answer answer, cache) => some (s.setCache cache, .done (some answer))
    | (.upstream plan, cache) => some (s.setCache cache, .planned plan)
  | .planned plan =>
    if s.overBytes config (config.route plan.tag) query.length then
      some (s, .done (some (.refusal true)))
    else some (s.addBytes (config.route plan.tag) query.length, .charged plan)
  | .charged plan =>
    match s.begin plan.key (max 2 (config.limit * 4)) with
    | none => some (s, .refunding plan)
    | some (s, flight, true) => some (s, .flying plan flight .owner)
    | some (s, flight, false) => some (s, .flying plan flight .joined)
  | .flying plan flight stage => s.stageStep config choice query plan flight stage
  | .refunding plan =>
    some (s.addBytes (config.route plan.tag) (-query.length), .done (some (.refusal true)))
  | .returning plan answer =>
    some (s.addBytes (config.route plan.tag) (-query.length), .done answer)
  | .done _ => none

/-- A move of a thread, whatever the environment decides. -/
def Next (s : Service) (t : Thread) (s' : Service) (t' : Thread) : Prop :=
  ∃ choice pc, s.step config choice t.lane t.query t.pc = some (s', pc) ∧ t' = { t with pc }

end Service

/-- A query that has just arrived. -/
def Thread.Fresh (t : Thread) : Prop := t.pc = .arrived

/-- Any number of queries, in any order. -/
def ServiceReachable (config : ServiceConfig) (x : Threads.System Service Thread) : Prop :=
  Threads.Reachable (Service.Next config) Service.Started Thread.Fresh x

end SbGateway.PolicyDns
