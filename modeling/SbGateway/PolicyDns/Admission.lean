import SbGateway.PolicyDns.Service

namespace SbGateway.PolicyDns

open Lib
open Lib.Threads

/-!
# Accounting of admissions

Whatever the service counts is the sum of what the queries in it hold.

* `Service.balance` — the counters, channels, flights and keys as accounts;
* `Thread.charge` — what a query holds, by where it is;
* `step_changes` — every step changes the accounts by what its query takes or returns;
* `admission_accounting` — in every reachable state the accounts are the sums over the queries, and
  nothing is left when no query holds anything.
-/

/-! ### Accounts -/

/-- What is counted. -/
inductive Account where
  | queryBytes
  | sharedQueries
  | limit
  | pending
  | routeBytes (tag : String)
  | routeShared (tag : String)
  | routeActive (tag : String)
  | routePending (tag : String)
  | waiters (flight : ℕ)
  /-- Whether there is a flight for the key. -/
  | table (key : Key)
  deriving DecidableEq

/-- What an account of the service holds. -/
def Service.balance (s : Service) : Account → ℤ
  | .queryBytes => s.queryBytes
  | .sharedQueries => s.sharedQueries
  | .limit => s.limit
  | .pending => s.pending
  | .routeBytes tag => (s.routes tag).bytes
  | .routeShared tag => (s.routes tag).shared
  | .routeActive tag => (s.routes tag).active
  | .routePending tag => (s.routes tag).pending
  | .waiters flight => s.waiters flight
  | .table key => if (s.table key).isSome then 1 else 0

/-- One unit of an account. -/
def unit (account : Account) : Account → ℤ := Pi.single account 1

/-- One unit of an account of the route, if there is one. -/
def onRoute (account : String → Account) : Option String → Account → ℤ
  | none => 0
  | some tag => unit (account tag)

/-- The bytes of a query. -/
def bytesCharge (route : Option String) (size : ℤ) : Account → ℤ :=
  size • (unit .queryBytes + onRoute .routeBytes route)

/-- A shared slot. -/
def sharedCharge (route : Option String) : Account → ℤ :=
  unit .sharedQueries + onRoute .routeShared route

namespace Stage

/-- The thread has a shared slot. -/
def holdsShared : Stage → Bool
  | .shared | .sharedAnswered _ => true
  | _ => false

/-- The thread has a token of `limit`. -/
def holdsLimit : Stage → Bool
  | .working | .exchanging | .exchanged _ => true
  | .dequeuing acquired | .unlisting acquired => acquired
  | _ => false

/-- The thread has a token of `pending`. -/
def holdsPending : Stage → Bool
  | .queued | .queuedRouted | .expiredRouted | .dequeuing _ => true
  | _ => false

/-- The thread has a token of `route.active`, if there is a route. -/
def holdsActive : Stage → Bool
  | .routed | .blocked | .queuedRouted | .expiredRouted | .working | .exchanging | .exchanged _
  | .released _ => true
  | .dequeuing acquired | .unlisting acquired => acquired
  | _ => false

/-- The thread has a token of `route.pending`, if there is a route. -/
def holdsListed : Stage → Bool
  | .listed | .unlisted | .queued | .queuedRouted | .expiredRouted | .dequeuing _
  | .unlisting _ => true
  | _ => false

/-- The thread has begun the flight and not finished it. -/
def holdsFlight : Stage → Bool
  | .joined | .refusedJoin | .dropped | .shared | .sharedAnswered _ | .finished _ _
  | .leaving _ => false
  | _ => true

/-- What a thread with a flight holds. -/
def charge (stage : Stage) (route : Option String) (plan : QueryPlan) (flight : ℕ) : Account → ℤ :=
  unit (.waiters flight) +
    ((if stage.holdsFlight then unit (.table plan.key) else 0) +
    (if stage.holdsShared then sharedCharge route else 0) +
    (if stage.holdsLimit then unit .limit else 0) +
    (if stage.holdsPending then unit .pending else 0) +
    (if stage.holdsActive then onRoute .routeActive route else 0) +
    (if stage.holdsListed then onRoute .routePending route else 0))

end Stage

/-- What a thread holds. -/
def Pc.charge (config : ServiceConfig) (size : ℕ) : Pc → Account → ℤ
  | .arrived | .planned _ | .done _ => 0
  | .charged plan | .refunding plan | .returning plan _ =>
    bytesCharge (config.route plan.tag) size
  | .flying plan flight stage =>
    bytesCharge (config.route plan.tag) size + stage.charge (config.route plan.tag) plan flight

/-- What a thread has taken. -/
def Thread.charge (config : ServiceConfig) (t : Thread) : Account → ℤ :=
  t.pc.charge config t.query.length

/-! ### What the parts of a step change -/

/-- The channels are within their capacities, and the table has flights that were begun. -/
structure WellFormed (config : ServiceConfig) (s : Service) : Prop where
  limit : s.limit ≤ config.limit
  pending : s.pending ≤ config.pending
  active : ∀ tag, (s.routes tag).active ≤ config.activeCap
  listed : ∀ tag, (s.routes tag).pending ≤ config.listedCap
  free : ∀ flight, s.nextFlight ≤ flight → s.flights flight = none
  known : ∀ key flight, s.table key = some flight → (s.flights flight).isSome

/-- The change from `s` to `s'` is well-formed, and it is `delta` for the accounts. -/
structure Changes (config : ServiceConfig) (s s' : Service) (delta : Account → ℤ) : Prop where
  wellFormed : WellFormed config s → WellFormed config s'
  balance : s'.balance = s.balance + delta

variable {config : ServiceConfig} {s s' : Service} {route : Option String} {flight : ℕ} {key : Key}

/-- Equal changes. -/
theorem Changes.congr (h : Changes config s s' delta)
    (hdelta : delta = delta') : Changes config s s' delta' :=
  hdelta ▸ h

/-- Nothing changes. -/
theorem changes_refl : Changes config s s 0 := ⟨id, (add_zero _).symm⟩

/-- Changes add up. -/
theorem Changes.trans (h : Changes config s s' delta)
    (h' : Changes config s' s'' delta') : Changes config s s'' (delta + delta') :=
  ⟨h'.wellFormed ∘ h.wellFormed, by rw [h'.balance, h.balance, add_assoc]⟩

/-- The cache is in no account. -/
theorem changes_setCache (cache : ResponseCache) : Changes config s (s.setCache cache) 0 where
  wellFormed h := { h with }
  balance := by
    rw [add_zero]
    funext account
    cases account <;> rfl

/-- An exchange is in none. -/
theorem changes_exchange (choice : Choice) (plan : QueryPlan) (query response : Message) :
    Changes config s (s.exchange choice plan query response) 0 where
  wellFormed h := { h with }
  balance := by
    rw [add_zero]
    funext account
    cases account <;> rfl

/-- An account that a change does not touch. -/
theorem unchanged {after before delta : Account → ℤ}
    (h : after account = before account) (hdelta : delta account = 0) :
    after account = (before + delta) account := by
  rw [Pi.add_apply, hdelta, add_zero, h]

attribute [local simp] unit Service.balance Service.waiters

/-- The global counters are replaced. -/
theorem changes_counters (bytes shared : ℤ) {limit pending : ℕ}
    (hlimit : limit ≤ config.limit ∨ limit ≤ s.limit)
    (hpending : pending ≤ config.pending ∨ pending ≤ s.pending) : Changes config s
      { s with queryBytes := bytes, sharedQueries := shared, limit := limit, pending := pending }
      ((bytes - s.queryBytes) • unit .queryBytes +
        (shared - s.sharedQueries) • unit .sharedQueries +
        ((limit : ℤ) - s.limit) • unit .limit + ((pending : ℤ) - s.pending) • unit .pending) := by
  refine ⟨fun h => { h with
    limit := hlimit.elim id h.limit.trans'
    pending := hpending.elim id h.pending.trans' }, ?_⟩
  funext account
  cases account <;> simp

/-- The budget of a route is replaced. -/
theorem changes_setRoute
    (hactive : budget.active ≤ config.activeCap ∨ budget.active ≤ (s.routes tag).active)
    (hlisted : budget.pending ≤ config.listedCap ∨ budget.pending ≤ (s.routes tag).pending) :
    Changes config s (s.setRoute tag budget)
      ((budget.bytes - (s.routes tag).bytes) • unit (.routeBytes tag) +
        (budget.shared - (s.routes tag).shared) • unit (.routeShared tag) +
        ((budget.active : ℤ) - (s.routes tag).active) • unit (.routeActive tag) +
        ((budget.pending : ℤ) - (s.routes tag).pending) • unit (.routePending tag)) := by
  constructor
  · intro h
    refine ⟨h.limit, h.pending, fun other => ?_, fun other => ?_, h.free, h.known⟩ <;>
      simp only [Service.setRoute, Function.update_apply] <;> split
    · exact hactive.elim id (h.active tag).trans'
    · exact h.active other
    · exact hlisted.elim id (h.listed tag).trans'
    · exact h.listed other
  · funext account
    cases account with
    | queryBytes | sharedQueries | limit | pending | waiters _ | table _ =>
      exact unchanged rfl (by simp)
    | routeBytes other | routeShared other | routeActive other | routePending other =>
      by_cases hother : other = tag
      · subst hother
        simp [Service.setRoute]
      · simp [Service.setRoute, hother]

/-- The bytes of a query. -/
theorem changes_addBytes (size : ℤ) :
    Changes config s (s.addBytes route size) (bytesCharge route size) := by
  have hglobal := @changes_counters config s (s.queryBytes + size) s.sharedQueries s.limit s.pending
    (.inr le_rfl) (.inr le_rfl)
  cases route with
  | none => exact hglobal.congr (by simp [bytesCharge, onRoute])
  | some tag =>
    refine Changes.congr (hglobal.trans (changes_setRoute (.inr le_rfl) (.inr le_rfl))) ?_
    simp [bytesCharge, onRoute]

/-- The waiters of a route. -/
theorem changes_addShared (count : ℤ) :
    Changes config s (s.addShared route count) (count • sharedCharge route) := by
  have hglobal :=
    @changes_counters config s s.queryBytes (s.sharedQueries + count) s.limit s.pending
    (.inr le_rfl) (.inr le_rfl)
  cases route with
  | none => exact hglobal.congr (by simp [sharedCharge, onRoute])
  | some tag =>
    refine Changes.congr (hglobal.trans (changes_setRoute (.inr le_rfl) (.inr le_rfl))) ?_
    simp [sharedCharge, onRoute]

/-- A worker is taken. -/
theorem changes_acquire (h : s.acquire config = some s') : Changes config s s' (unit .limit) := by
  obtain ⟨hroom, hs⟩ := Option.ite_none_right_eq_some.mp h
  cases hs
  exact (changes_counters _ _ (.inl hroom) (.inr le_rfl)).congr (by simp)

/-- A worker is returned. -/
theorem changes_release (h : s.release = some s') : Changes config s s' (-unit .limit) := by
  obtain ⟨hheld, hs⟩ := Option.ite_none_right_eq_some.mp h
  cases hs
  exact (changes_counters _ _ (.inr (Nat.sub_le _ _)) (.inr le_rfl)).congr
    (by simp [Nat.cast_pred hheld])

/-- A place in the queue. -/
theorem changes_tryPending (h : s.tryPending config = some s') :
    Changes config s s' (unit .pending) := by
  obtain ⟨hroom, hs⟩ := Option.ite_none_right_eq_some.mp h
  cases hs
  exact (changes_counters _ _ (.inr le_rfl) (.inl hroom)).congr (by simp)

/-- It is returned. -/
theorem changes_releasePending (h : s.releasePending = some s') :
    Changes config s s' (-unit .pending) := by
  obtain ⟨hheld, hs⟩ := Option.ite_none_right_eq_some.mp h
  cases hs
  exact (changes_counters _ _ (.inr le_rfl) (.inr (Nat.sub_le _ _))).congr
    (by simp [Nat.cast_pred hheld])

/-- A step on the route, where there is one. -/
theorem changes_onRoute {sign : ℤ}
    {take : Service → Option String → Option Service} (hnone : take s none = some s)
    (hsome : ∀ tag, take s (some tag) = some s' → Changes config s s' (sign • unit (account tag)))
    (h : take s route = some s') : Changes config s s' (sign • onRoute account route) := by
  cases route with
  | none =>
    cases hnone.symm.trans h
    exact changes_refl.congr (smul_zero sign).symm
  | some tag => exact hsome tag h

/-- A worker of the route. -/
theorem changes_tryActive (h : s.tryActive config route = some s') :
    Changes config s s' (onRoute .routeActive route) := by
  refine (changes_onRoute rfl (fun tag h => ?_) h).congr (one_smul ℤ _)
  obtain ⟨hroom, hs⟩ := Option.ite_none_right_eq_some.mp h
  cases hs
  exact Changes.congr (changes_setRoute (.inl hroom) (.inr le_rfl)) (by simp)

/-- It is returned. -/
theorem changes_releaseActive (h : s.releaseActive route = some s') :
    Changes config s s' (-onRoute .routeActive route) := by
  refine (changes_onRoute rfl (fun tag h => ?_) h).congr (neg_one_smul ℤ _)
  obtain ⟨hheld, hs⟩ := Option.ite_none_right_eq_some.mp h
  cases hs
  exact Changes.congr (changes_setRoute (.inr (Nat.sub_le _ _)) (.inr le_rfl))
    (by simp [Nat.cast_pred hheld])

/-- A place in its queue. -/
theorem changes_tryListed (h : s.tryListed config route = some s') :
    Changes config s s' (onRoute .routePending route) := by
  refine (changes_onRoute rfl (fun tag h => ?_) h).congr (one_smul ℤ _)
  obtain ⟨hroom, hs⟩ := Option.ite_none_right_eq_some.mp h
  cases hs
  exact Changes.congr (changes_setRoute (.inr le_rfl) (.inl hroom)) (by simp)

/-- It is returned. -/
theorem changes_releaseListed (h : s.releaseListed route = some s') :
    Changes config s s' (-onRoute .routePending route) := by
  refine (changes_onRoute rfl (fun tag h => ?_) h).congr (neg_one_smul ℤ _)
  obtain ⟨hheld, hs⟩ := Option.ite_none_right_eq_some.mp h
  cases hs
  exact Changes.congr (changes_setRoute (.inr le_rfl) (.inr (Nat.sub_le _ _)))
    (by simp [Nat.cast_pred hheld])

/-! ### Flights -/

/-- No flight comes or goes. -/
theorem isSome_modifyFlight (s : Service) (flight : ℕ) (change : Flight → Flight) (other : ℕ) :
    ((s.modifyFlight flight change).flights other).isSome = (s.flights other).isSome := by
  simp only [Service.modifyFlight, Function.update_apply]
  split
  · next heq => rw [heq, Option.isSome_map]
  · rfl

/-- A changed flight is still one. -/
theorem wellFormed_modifyFlight (h : WellFormed config s) (flight : ℕ) (change : Flight → Flight) :
    WellFormed config (s.modifyFlight flight change) := by
  refine { h with free := fun other hother => ?_, known := fun k other hk => ?_ }
  · have hsome := isSome_modifyFlight s flight change other
    rw [h.free other hother] at hsome
    simpa using hsome
  · rw [isSome_modifyFlight]
    exact h.known k other hk

/-- A change of the waiters of a flight. -/
theorem balance_modifyFlight (hfound : s.flights flight = some found) (change : Flight → Flight) :
    (s.modifyFlight flight change).balance =
      s.balance + ((change found).waiters - found.waiters) • unit (.waiters flight) := by
  funext account
  cases account with
  | waiters other =>
    by_cases hother : other = flight
    · subst hother
      simp [Service.modifyFlight, hfound]
    · simp [Service.modifyFlight, hother]
  | queryBytes | sharedQueries | limit | pending | routeBytes _ | routeShared _ | routeActive _
  | routePending _ | table _ =>
    exact unchanged rfl (by simp)

section

variable (hfound : (s.flights flight).isSome)
include hfound

/-- One more waits. -/
theorem changes_join : Changes config s (s.join flight) (unit (.waiters flight)) := by
  obtain ⟨found, hfound⟩ := Option.isSome_iff_exists.mp hfound
  refine ⟨fun h => wellFormed_modifyFlight h _ _, ?_⟩
  rw [Service.join, balance_modifyFlight hfound]
  simp

/-- One less waits. -/
theorem changes_leave : Changes config s (s.leave flight) (-unit (.waiters flight)) := by
  obtain ⟨found, hfound⟩ := Option.isSome_iff_exists.mp hfound
  refine ⟨fun h => wellFormed_modifyFlight h _ _, ?_⟩
  rw [Service.leave, balance_modifyFlight hfound]
  simp

/-- The key is free again. -/
theorem changes_finish (hkey : (s.table key).isSome) (outcome : Outcome) :
    Changes config s (s.finish key flight outcome) (-unit (.table key)) := by
  obtain ⟨found, hfound⟩ := Option.isSome_iff_exists.mp hfound
  have hmodified := balance_modifyFlight hfound fun f => { f with result := some outcome }
  refine ⟨fun h => ?_, ?_⟩
  · have hmod := wellFormed_modifyFlight h flight fun f => { f with result := some outcome }
    refine { hmod with known := fun k other hk => ?_ }
    have hother : k ≠ key := by
      rintro rfl
      simp [Service.finish] at hk
    simp only [Service.finish, Function.update_of_ne hother] at hk
    exact hmod.known k other hk
  · funext account
    have hsame := congrFun hmodified account
    simp only [sub_self, zero_smul, add_zero] at hsame
    cases account with
    | table k =>
      by_cases hk : k = key
      · subst hk
        simp [Service.finish, hkey]
      · simp [Service.finish, hk]
    | queryBytes | sharedQueries | limit | pending | routeBytes _ | routeShared _ | routeActive _
    | routePending _ | waiters _ =>
      exact unchanged hsame (by simp)

end

/-- A flight with its first waiter. -/
theorem changes_launch (h : WellFormed config s) (hkey : s.table key = none) :
    Changes config s (s.launch key) (unit (.table key) + unit (.waiters s.nextFlight)) := by
  have hfree := h.free s.nextFlight le_rfl
  refine ⟨fun h => { h with free := fun other hother => ?_, known := fun k other hk => ?_ }, ?_⟩
  · have hlt : s.nextFlight < other := hother
    simp only [Service.launch, Function.update_of_ne (Nat.ne_of_gt hlt)]
    exact h.free other (Nat.le_of_lt hlt)
  · simp only [Service.launch, Function.update_apply] at hk ⊢
    split at hk
    · cases hk
      simp
    · split
      · rfl
      · exact h.known k other hk
  · funext account
    cases account with
    | table k =>
      by_cases hk : k = key
      · subst hk
        simp [Service.launch, hkey]
      · simp [Service.launch, hk]
    | waiters other =>
      by_cases hother : other = s.nextFlight
      · subst hother
        simp [Service.launch, hfree]
      · simp [Service.launch, hother]
    | queryBytes | sharedQueries | limit | pending | routeBytes _ | routeShared _ | routeActive _
    | routePending _ =>
      exact unchanged rfl (by simp)

/-- A flight that is counted was begun. -/
theorem isSome_of_waiters (h : 1 ≤ s.balance (.waiters flight)) : (s.flights flight).isSome := by
  cases hflight : s.flights flight with
  | none => simp [hflight] at h
  | some found => rfl

/-- A key that is charged is in the table. -/
theorem isSome_of_table (h : 1 ≤ s.balance (.table key)) : (s.table key).isSome := by
  cases hkey : s.table key with
  | none => simp [hkey] at h
  | some found => rfl

/-! ### What is held, account by account -/

namespace Thread

variable (config : ServiceConfig) (t : Thread)

/-- The query is admitted, and its bytes are not yet returned. -/
def outstanding : Bool :=
  match t.pc with
  | .arrived | .planned _ | .done _ => false
  | _ => true

/-- The plan of a query that is past the cache. -/
def plan? : Option QueryPlan :=
  match t.pc with
  | .planned plan | .charged plan | .flying plan _ _ | .refunding plan | .returning plan _ =>
    some plan
  | _ => none

/-- The query is counted for the route. -/
def onRoute (tag : String) : Bool := t.plan?.any fun plan => config.route plan.tag == some tag

/-- The query is in a flight, at a stage of this kind. -/
def holds (kind : Stage → Bool) : Bool :=
  match t.pc with
  | .flying _ _ stage => kind stage
  | _ => false

/-- The thread waits for the flight, or flies it. -/
def participates (flight : ℕ) : Bool :=
  match t.pc with
  | .flying _ own _ => own == flight
  | _ => false

/-- The query has begun the flight for the key. -/
def owns (key : Key) : Bool := t.holds Stage.holdsFlight && t.plan?.any fun plan => plan.key == key

/-- What a thread holds of an account. -/
def held : Account → ℤ
  | .queryBytes => if t.outstanding then t.query.length else 0
  | .routeBytes tag => if t.outstanding && t.onRoute config tag then t.query.length else 0
  | .sharedQueries => if t.holds Stage.holdsShared then 1 else 0
  | .routeShared tag => if t.holds Stage.holdsShared && t.onRoute config tag then 1 else 0
  | .limit => if t.holds Stage.holdsLimit then 1 else 0
  | .pending => if t.holds Stage.holdsPending then 1 else 0
  | .routeActive tag => if t.holds Stage.holdsActive && t.onRoute config tag then 1 else 0
  | .routePending tag => if t.holds Stage.holdsListed && t.onRoute config tag then 1 else 0
  | .waiters flight => if t.participates flight then 1 else 0
  | .table key => if t.owns key then 1 else 0

end Thread

/-- The charge of one account. -/
@[simp] theorem onRoute_apply (account : String → Account) (route : Option String)
    (other : Account) :
    onRoute account route other =
      if ∃ tag, route = some tag ∧ other = account tag then 1 else 0 := by
  cases route with
  | none => simp [onRoute]
  | some tag => simp [onRoute, unit, Pi.single_apply]

/-- The bytes belong to the query. -/
theorem bytesCharge_eq_held (lane : String) (query : Message) (plan : QueryPlan) :
    bytesCharge (config.route plan.tag) query.length =
      Thread.held config ⟨lane, query, .charged plan⟩ := by
  funext account
  cases account <;> simp [bytesCharge, unit, Thread.held, Thread.outstanding, Thread.onRoute,
    Thread.plan?, Thread.holds, Thread.participates, Thread.owns]

/-- The charge of a thread says what it holds of every account. -/
theorem Thread.charge_eq_held (t : Thread) : t.charge config = t.held config := by
  obtain ⟨lane, query, pc⟩ := t
  cases pc with
  | arrived | planned | done => funext account; cases account <;> rfl
  | charged plan | refunding plan | returning plan => exact bytesCharge_eq_held lane query plan
  | flying plan flight stage =>
    funext account
    show bytesCharge _ _ account + stage.charge _ plan flight account = _
    rw [bytesCharge_eq_held lane query plan]
    cases account <;> simp [Stage.charge, sharedCharge, ite_apply, unit, Pi.single_apply,
      Thread.held, Thread.outstanding, Thread.onRoute, Thread.plan?, Thread.holds,
      Thread.participates, Thread.owns] <;>
      grind

/-- Nobody owes anything. -/
theorem Thread.charge_nonneg (config : ServiceConfig) (t : Thread) : 0 ≤ t.charge config := by
  rw [Thread.charge_eq_held]
  intro account
  cases account <;> simp only [Thread.held, Pi.zero_apply] <;> split <;> omega

/-! ### Steps -/

section Steps

variable {config : ServiceConfig} {s s' : Service} {query : Message}
  {plan : QueryPlan} {flight : ℕ} {stage stage' : Stage}

section

variable (hcovered : Pc.charge config query.length (.flying plan flight stage) ≤ s.balance)
include hcovered

/-- The flight of a charge is there. -/
theorem isSome_flight : (s.flights flight).isSome := by
  refine isSome_of_waiters (le_trans ?_ (hcovered (.waiters flight)))
  show 1 ≤ Thread.charge config ⟨"", query, .flying plan flight stage⟩ (.waiters flight)
  rw [Thread.charge_eq_held]
  simp [Thread.held, Thread.participates]

/-- So is the key, for who flies it. -/
theorem isSome_table (howner : stage.holdsFlight = true) : (s.table plan.key).isSome := by
  refine isSome_of_table (le_trans ?_ (hcovered (.table plan.key)))
  show 1 ≤ Thread.charge config ⟨"", query, .flying plan flight stage⟩ (.table plan.key)
  rw [Thread.charge_eq_held]
  simp [Thread.held, Thread.owns, Thread.holds, Thread.plan?, howner]

end

/-- A step within a flight changes what its stages hold. -/
theorem changes_stage (h : Changes config s s' delta)
    (hdelta : delta + stage.charge (config.route plan.tag) plan flight =
      stage'.charge (config.route plan.tag) plan flight) (size : ℕ) :
    Changes config s s' (Pc.charge config size (.flying plan flight stage') -
      Pc.charge config size (.flying plan flight stage)) := by
  refine h.congr ?_
  simp only [Pc.charge, ← hdelta]
  abel

/-- A step within a flight that changes nothing. -/
theorem changes_same (hsame : stage.charge (config.route plan.tag) plan flight =
      stage'.charge (config.route plan.tag) plan flight) (size : ℕ) :
    Changes config s s (Pc.charge config size (.flying plan flight stage') -
      Pc.charge config size (.flying plan flight stage)) :=
  changes_stage changes_refl ((zero_add _).trans hsame) size

/-- A step within a flight that takes or returns something first. -/
theorem changes_token (htaken : ∀ s₁, taken = some s₁ → Changes config s s₁ delta)
    (h : (taken.bind fun s₁ => some (s₁, Pc.flying plan flight stage')) = some (s', pc))
    (hdelta : delta + stage.charge (config.route plan.tag) plan flight =
      stage'.charge (config.route plan.tag) plan flight) :
    Changes config s s'
      (pc.charge config size - Pc.charge config size (.flying plan flight stage)) := by
  obtain ⟨s₁, hs₁, hpair⟩ := Option.bind_eq_some_iff.mp h
  cases hpair
  exact changes_stage (htaken _ hs₁) hdelta size

attribute [local simp] Stage.charge

attribute [simp] Stage.holdsFlight Stage.holdsShared Stage.holdsLimit Stage.holdsPending
  Stage.holdsActive Stage.holdsListed

/-- What the accounts say of a step within a flight. -/
theorem stageStep_changes
    (hcovered : Pc.charge config query.length (.flying plan flight stage) ≤ s.balance)
    (h : s.stageStep config choice query plan flight stage = some (s', pc)) :
    Changes config s s' (pc.charge config query.length -
      Pc.charge config query.length (.flying plan flight stage)) := by
  have hflight := isSome_flight hcovered
  -- leaving the flight, with the bytes still to be returned
  have hleave : ∀ {stage : Stage}, stage.charge (config.route plan.tag) plan flight =
      unit (.waiters flight) → Changes config s (s.leave flight)
        (bytesCharge (config.route plan.tag) query.length -
          Pc.charge config query.length (.flying plan flight stage)) := by
    intro stage hstage
    refine (changes_leave hflight).congr ?_
    rw [Pc.charge, hstage]
    abel
  cases stage with
  | joined =>
    simp only [Service.stageStep] at h
    split at h
    · cases h
      refine changes_stage (changes_addShared 1) ?_ _
      simp [add_comm]
    · cases h
      exact changes_same rfl _
  | owner =>
    simp only [Service.stageStep] at h
    split at h <;> cases h
    · next htry =>
      refine changes_stage (changes_tryActive htry) ?_ _
      simp
      abel
    · exact changes_same rfl _
  | routed =>
    simp only [Service.stageStep] at h
    split at h <;> cases h
    · next htry =>
      refine changes_stage (changes_acquire htry) ?_ _
      simp
      abel
    · exact changes_same rfl _
  | queueing =>
    simp only [Service.stageStep] at h
    split at h <;> cases h
    · next htry =>
      refine changes_stage (changes_tryListed htry) ?_ _
      simp
      abel
    · exact changes_same rfl _
  | listed =>
    simp only [Service.stageStep] at h
    split at h <;> cases h
    · next htry =>
      refine changes_stage (changes_tryPending htry) ?_ _
      simp
      abel
    · exact changes_same rfl _
  | unlisted =>
    refine changes_token (fun _ => changes_releaseListed) h ?_
    simp
    abel
  | shared =>
    obtain ⟨outcome, -, hpair⟩ := Option.bind_eq_some_iff.mp h
    cases hpair
    refine changes_stage (changes_setCache _) ?_ _
    simp
  | sharedAnswered answer =>
    cases h
    refine changes_stage (changes_addShared (-1)) ?_ _
    simp
  | queued =>
    simp only [Service.stageStep] at h
    split at h
    · cases h
      exact changes_same rfl _
    · refine changes_token (fun _ => changes_tryActive) h ?_
      simp
      abel
  | queuedRouted =>
    simp only [Service.stageStep] at h
    split at h
    · cases h
      exact changes_same rfl _
    · refine changes_token (fun _ => changes_acquire) h ?_
      simp
      abel
  | blocked | expiredRouted =>
    refine changes_token (fun _ => changes_releaseActive) h ?_
    simp
    abel
  | dequeuing acquired =>
    refine changes_token (fun _ => changes_releasePending) h ?_
    cases acquired <;> simp <;> abel
  | unlisting acquired =>
    refine changes_token (fun _ => changes_releaseListed) h ?_
    cases acquired <;> simp <;> abel
  | working =>
    cases h
    refine changes_same ?_ _
    split <;> rfl
  | exchanging =>
    simp only [Service.stageStep] at h
    split at h
    · cases h
      exact changes_same rfl _
    · cases h
      refine changes_stage (changes_exchange ..) ?_ _
      simp
  | exchanged outcome =>
    refine changes_token (fun _ => changes_release) h ?_
    simp
    abel
  | released outcome =>
    refine changes_token (fun _ => changes_releaseActive) h ?_
    simp
    abel
  | rejected | finishing outcome acquired =>
    cases h
    refine changes_stage (changes_finish hflight (isSome_table hcovered rfl) _) ?_ _
    simp
  | finished outcome acquired =>
    simp only [Service.stageStep] at h
    split at h
    · cases h
      exact changes_same rfl _
    · cases h
      refine changes_stage (changes_setCache _) ?_ _
      simp
  | refusedJoin | dropped | leaving answer =>
    cases h
    exact hleave (by simp)

/-- What the accounts say of a step. -/
theorem step_changes (hwell : WellFormed config s)
    (hcovered : pc.charge config query.length ≤ s.balance)
    (h : s.step config choice laneID query pc = some (s', pc')) :
    Changes config s s' (pc'.charge config query.length - pc.charge config query.length) := by
  have hreturn : ∀ plan : QueryPlan,
      Changes config s (s.addBytes (config.route plan.tag) (-query.length))
      (0 - bytesCharge (config.route plan.tag) query.length) := by
    intro plan
    refine (changes_addBytes _).congr ?_
    rw [bytesCharge, bytesCharge, neg_smul, zero_sub]
  cases pc with
  | arrived =>
    simp only [Service.step] at h
    split at h <;> cases h <;> exact (changes_setCache _).congr (by simp [Pc.charge])
  | planned plan =>
    simp only [Service.step] at h
    split at h
    · cases h
      exact changes_refl.congr (by simp [Pc.charge])
    · cases h
      exact (changes_addBytes _).congr (by simp [Pc.charge])
  | charged plan =>
    simp only [Service.step, Service.begin] at h
    cases hkey : s.table plan.key with
    | none =>
      rw [hkey] at h
      cases h
      refine (changes_launch hwell hkey).congr ?_
      simp [Pc.charge]
      abel
    | some flight =>
      simp only [hkey] at h
      by_cases hfull : 0 < max 2 ((config.limit : ℤ) * 4) ∧
          max 2 ((config.limit : ℤ) * 4) ≤ s.waiters flight
      · rw [if_pos hfull] at h
        cases h
        exact changes_refl.congr (by simp [Pc.charge])
      · rw [if_neg hfull] at h
        cases h
        refine (changes_join (hwell.known _ _ hkey)).congr ?_
        simp [Pc.charge]
  | flying plan flight stage => exact stageStep_changes hcovered h
  | refunding plan | returning plan answer =>
    cases h
    exact hreturn plan
  | done answer => cases h

end Steps

/-! ### Whole runs -/

/-- Everything that is counted is held by the queries. -/
structure Accounted (config : ServiceConfig) (s : Service) (threads : List Thread) : Prop where
  queryBytes : s.queryBytes =
    (threads.map fun t => if t.outstanding then (t.query.length : ℤ) else 0).sum
  routeBytes : ∀ tag, (s.routes tag).bytes =
    (threads.map fun t =>
      if t.outstanding && t.onRoute config tag then (t.query.length : ℤ) else 0).sum
  sharedQueries : s.sharedQueries = threads.countP fun t => t.holds Stage.holdsShared
  routeShared : ∀ tag, (s.routes tag).shared =
    threads.countP fun t => t.holds Stage.holdsShared && t.onRoute config tag
  limit : s.limit = threads.countP (fun t => t.holds Stage.holdsLimit) ∧ s.limit ≤ config.limit
  pending : s.pending = threads.countP (fun t => t.holds Stage.holdsPending) ∧
    s.pending ≤ config.pending
  active : ∀ tag, (s.routes tag).active =
      threads.countP (fun t => t.holds Stage.holdsActive && t.onRoute config tag) ∧
    (s.routes tag).active ≤ config.activeCap
  listed : ∀ tag, (s.routes tag).pending =
      threads.countP (fun t => t.holds Stage.holdsListed && t.onRoute config tag) ∧
    (s.routes tag).pending ≤ config.listedCap
  waiters : ∀ flight, s.waiters flight = threads.countP fun t => t.participates flight
  table : ∀ key, (s.table key).isSome.toNat = threads.countP fun t => t.owns key

/-- Nothing is counted. -/
structure Service.Idle (s : Service) : Prop where
  queryBytes : s.queryBytes = 0
  sharedQueries : s.sharedQueries = 0
  limit : s.limit = 0
  pending : s.pending = 0
  routes : ∀ tag, s.routes tag = ⟨0, 0, 0, 0⟩
  table : ∀ key, s.table key = none

section Runs

variable {config : ServiceConfig}

section

variable (h : ServiceReachable config x)
include h

/-- The accounts hold what the threads have taken. -/
theorem service_balanced :
    WellFormed config x.shared ∧ x.shared.balance = total (Thread.charge config) x.threads := by
  refine Reachable.balanced (Thread.charge_nonneg config) ?_ ?_ ?_ h
  · rintro s ⟨limit, byteLimit, staleTTL, rfl⟩
    refine ⟨⟨Nat.zero_le _, Nat.zero_le _, fun _ => Nat.zero_le _, fun _ => Nat.zero_le _,
      fun _ _ => rfl, nofun⟩, ?_⟩
    funext account
    cases account <;> rfl
  · intro t hfresh
    rw [Thread.charge, show t.pc = .arrived from hfresh]
    rfl
  · rintro s t s' _ hwell hcovered ⟨choice, pc, hstep, rfl⟩
    have hchanges := step_changes hwell hcovered hstep
    refine ⟨hchanges.wellFormed hwell, ?_⟩
    rw [hchanges.balance]
    show s.balance + (pc.charge config t.query.length - t.pc.charge config t.query.length) +
      t.pc.charge config t.query.length = s.balance + pc.charge config t.query.length
    abel

/-- An account is what the threads hold of it. -/
theorem balance_eq_sum (account : Account) :
    x.shared.balance account = (x.threads.map fun t => t.held config account).sum := by
  rw [(service_balanced h).2, total_apply]
  simp only [Thread.charge_eq_held]

/-- An account of things that are held once is the number of threads that hold one. -/
theorem balance_eq_countP (account : Account)
    (hheld : ∀ t, Thread.held config t account = if held t then 1 else 0) :
    x.shared.balance account = x.threads.countP held := by
  rw [(service_balanced h).2, total_count held fun t => by rw [Thread.charge_eq_held, hheld t]]

/-- Every counter is the number of those it counts. -/
theorem accounted : Accounted config x.shared x.threads := by
  have hwell := (service_balanced h).1
  have hnat (account : Account) {held : Thread → Bool}
      (hheld : ∀ t, Thread.held config t account = if held t then 1 else 0) {n : ℕ}
      (hn : x.shared.balance account = n) : n = x.threads.countP held := by
    exact_mod_cast hn.symm.trans (balance_eq_countP h account hheld)
  constructor
  case queryBytes => exact balance_eq_sum h .queryBytes
  case routeBytes => exact fun tag => balance_eq_sum h (.routeBytes tag)
  case sharedQueries => exact balance_eq_countP h .sharedQueries fun _ => rfl
  case routeShared => exact fun tag => balance_eq_countP h (.routeShared tag) fun _ => rfl
  case limit => exact ⟨hnat .limit (fun _ => rfl) rfl, hwell.limit⟩
  case pending => exact ⟨hnat .pending (fun _ => rfl) rfl, hwell.pending⟩
  case active => exact fun tag => ⟨hnat (.routeActive tag) (fun _ => rfl) rfl, hwell.active tag⟩
  case listed => exact fun tag => ⟨hnat (.routePending tag) (fun _ => rfl) rfl, hwell.listed tag⟩
  case waiters => exact fun flight => balance_eq_countP h (.waiters flight) fun _ => rfl
  case table =>
    intro key
    refine hnat (.table key) (fun _ => rfl) ?_
    cases hkey : x.shared.table key <;> simp [Service.balance, hkey]

end

/-- Who is done has returned everything. -/
theorem Thread.charge_eq_zero {t : Thread} (h : t.outstanding = false) : t.charge config = 0 := by
  obtain ⟨lane, query, pc⟩ := t
  cases pc with
  | arrived | planned | done => rfl
  | charged | flying | refunding | returning => exact nomatch h

/-- Empty accounts mean an idle service. -/
theorem idle_of_balance (h : s.balance = 0) : s.Idle := by
  constructor
  case queryBytes => exact congrFun h .queryBytes
  case sharedQueries => exact congrFun h .sharedQueries
  case limit => exact Int.natCast_eq_zero.mp (congrFun h .limit)
  case pending => exact Int.natCast_eq_zero.mp (congrFun h .pending)
  case routes =>
    intro tag
    have hactive : (s.routes tag).active = 0 :=
      Int.natCast_eq_zero.mp (congrFun h (.routeActive tag))
    have hpending : (s.routes tag).pending = 0 :=
      Int.natCast_eq_zero.mp (congrFun h (.routePending tag))
    have hshared : (s.routes tag).shared = 0 := congrFun h (.routeShared tag)
    have hbytes : (s.routes tag).bytes = 0 := congrFun h (.routeBytes tag)
    calc s.routes tag = ⟨(s.routes tag).active, (s.routes tag).pending, (s.routes tag).shared,
          (s.routes tag).bytes⟩ := rfl
      _ = ⟨0, 0, 0, 0⟩ := by rw [hactive, hpending, hshared, hbytes]
  case table =>
    intro key
    have hkey := congrFun h (.table key)
    cases hflight : s.table key with
    | none => rfl
    | some flight => simp [Service.balance, hflight] at hkey

/-- **Admissions.** In every run all that is counted is held by the queries, within the capacities;
    when no query is outstanding, nothing is counted any more. -/
theorem admission_accounting {x : System Service Thread} (h : ServiceReachable config x) :
    Accounted config x.shared x.threads ∧
      ((∀ t ∈ x.threads, t.outstanding = false) → x.shared.Idle) := by
  refine ⟨accounted h, fun hnone => idle_of_balance ?_⟩
  rw [(service_balanced h).2, total]
  refine List.sum_eq_zero fun charge hcharge => ?_
  obtain ⟨t, ht, rfl⟩ := List.mem_map.mp hcharge
  exact Thread.charge_eq_zero (hnone t ht)

end Runs

/-! ### A run -/

/-- A lane whose queries all go to one server. -/
def upstreamLane (id : String) : Lane := ⟨none, ∅, id, "", 0, "upstream", ∅, ∅⟩

/-- Two lanes with one server. -/
def upstreamConfig : ServiceConfig where
  lanes := fun id => if id = "lan" ∨ id = "guest" then some (upstreamLane id) else none
  servers := ["upstream"]
  limit := 1
  pending := 1

/-- A question for the address of a one-letter name. -/
def upstreamQuery (id : Message) : Message :=
  id ++ [1, 0, 0, 1, 0, 0, 0, 0, 0, 0, 1, 97, 0, 0, 1, 0, 1]

/-- The question arrives on both lanes. -/
def upstreamArrived : System Service Thread where
  shared := ⟨0, 0, 0, 0, fun _ => ⟨0, 0, 0, 0⟩, fun _ => none, fun _ => none, 0,
    newResponseCache 4 4096 0, []⟩
  threads := [⟨"lan", upstreamQuery [7, 9], .arrived⟩, ⟨"guest", upstreamQuery [3, 4], .arrived⟩]

/-- The queries with these numbers make a step each, one after the other. -/
def Service.drive (config : ServiceConfig) (choice : Choice) :
    List ℕ → System Service Thread → System Service Thread
  | [], x => x
  | i :: rest, x =>
    match x.threads[i]?.bind fun t => (x.shared.step config choice t.lane t.query t.pc).map
        fun next => (⟨next.1, x.threads.set i { t with pc := next.2 }⟩ : System _ _) with
    | some next => drive config choice rest next
    | none => x

/-- The steps are those of a run. -/
theorem reachable_drive {config : ServiceConfig} {x : System Service Thread} (choice : Choice)
    (h : ServiceReachable config x) (steps : List ℕ) :
    ServiceReachable config (Service.drive config choice steps x) := by
  induction steps generalizing x with
  | nil => exact h
  | cons i rest ih =>
    rw [Service.drive]
    split
    next next hnext =>
      obtain ⟨t, ht, hmap⟩ := Option.bind_eq_some_iff.mp hnext
      obtain ⟨⟨s, pc⟩, hstep, rfl⟩ := Option.map_eq_some_iff.mp hmap
      refine ih (h.step ?_)
      obtain ⟨hi, rfl⟩ := List.getElem?_eq_some_iff.mp ht
      have hx : x = ⟨x.shared, x.threads.take i ++ x.threads[i] :: x.threads.drop (i + 1)⟩ := by
        rw [← List.drop_eq_getElem_cons hi, List.take_append_drop]
      rw [List.set_eq_take_append_cons_drop, if_pos hi]
      nth_rewrite 1 [hx]
      exact .move _ _ ⟨choice, pc, hstep, rfl⟩
    next => exact h

/-- The plan of the upstream query. -/
def upstreamPlan : QueryPlan :=
  ⟨"upstream", tagBytes "upstream" ++ 0 :: (upstreamQuery [7, 9]).withoutID⟩

/-- The first query is admitted for work, the other one has joined its flight. -/
def upstreamWorking : System Service Thread :=
  Service.drive upstreamConfig ⟨0, false, none⟩ [0, 0, 0, 1, 1, 1, 0, 0, 1] upstreamArrived

/-- The service reaches this state. -/
theorem upstreamWorking_reachable : ServiceReachable upstreamConfig upstreamWorking := by
  have hguest : ServiceReachable upstreamConfig
      ⟨upstreamArrived.shared, [⟨"guest", upstreamQuery [3, 4], .arrived⟩]⟩ :=
    Reachable.step (.start ⟨4, 4096, 0, rfl⟩) (.spawn [] rfl)
  have hboth : ServiceReachable upstreamConfig upstreamArrived := hguest.step (.spawn _ rfl)
  exact reachable_drive _ hboth _

/-- Two queries share one exchange. -/
theorem upstreamWorking_accounted :
    upstreamWorking.shared.queryBytes = 38 ∧ upstreamWorking.shared.waiters 0 = 2 ∧
      upstreamWorking.shared.limit = 1 ∧
      Accounted upstreamConfig upstreamWorking.shared upstreamWorking.threads :=
  ⟨by decide +kernel, by decide +kernel, by decide +kernel,
    (admission_accounting upstreamWorking_reachable).1⟩

/-- **No query is stuck.** In every run a query in a flight whose context is done can go on: what it
    has to give back is there, whatever the other queries do. -/
theorem expired_goes_on (h : ServiceReachable config x)
    (ht : ⟨lane, query, .flying plan flight stage⟩ ∈ x.threads) {choice : Choice}
    (hexpired : choice.expired = true) :
    (x.shared.stageStep config choice query plan flight stage).isSome := by
  have hcounted := accounted h
  have hpos : ∀ {held : Thread → Bool}, held ⟨lane, query, .flying plan flight stage⟩ = true →
      0 < x.threads.countP held := fun hheld => List.countP_pos_iff.mpr ⟨_, ht, hheld⟩
  cases stage with
  | blocked | expiredRouted | released _ =>
    cases hroute : config.route plan.tag with
    | none => simp [Service.stageStep, hroute, Service.releaseActive]
    | some tag =>
      have hactive := (hcounted.active tag).1 ▸ hpos
        (by simp [Thread.holds, Stage.holdsActive, Thread.onRoute, Thread.plan?, hroute])
      simp [Service.stageStep, hroute, Service.releaseActive, hactive]
  | unlisted | unlisting _ =>
    cases hroute : config.route plan.tag with
    | none => simp [Service.stageStep, hroute, Service.releaseListed]
    | some tag =>
      have hlisted := (hcounted.listed tag).1 ▸ hpos
        (by simp [Thread.holds, Stage.holdsListed, Thread.onRoute, Thread.plan?, hroute])
      simp [Service.stageStep, hroute, Service.releaseListed, hlisted]
  | dequeuing _ =>
    have hpending := hcounted.pending.1 ▸ hpos (by rfl)
    simp [Service.stageStep, Service.releasePending, hpending]
  | exchanged _ =>
    have hlimit := hcounted.limit.1 ▸ hpos (by rfl)
    simp [Service.stageStep, Service.release, hlimit]
  | shared | queued | queuedRouted => simp [Service.stageStep, Service.awaited, hexpired]
  | _ =>
    simp only [Service.stageStep]
    first | rfl | (split <;> rfl)

/-- The query can go on. -/
theorem upstreamWorking_goes_on : (upstreamWorking.shared.stageStep upstreamConfig ⟨0, true, none⟩
    (upstreamQuery [3, 4]) upstreamPlan 0 .shared).isSome :=
  expired_goes_on upstreamWorking_reachable (List.mem_of_getElem? (i := 1) rfl) rfl

end SbGateway.PolicyDns
