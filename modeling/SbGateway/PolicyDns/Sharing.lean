import SbGateway.PolicyDns.Admission

namespace SbGateway.PolicyDns

open Lib
open Lib.Threads

/-!
# Sharing of answers

All lanes share one cache and one table of flights.  What a query is handed was still brought by an
exchange of its own server, for its own question.

* `Origin` — an exchange has brought the response that is shared under a key;
* `Service.Sound` — everything in the cache and in the flights has an origin;
* `step_sound` — every step keeps that, and what the queries know;
* `shared_answers_isolated` — the origin of every answer, in every run.
-/

/-! ### Responses in the cache -/

namespace ResponseCache

variable {P Q : Key → Message → Prop} {c c' : ResponseCache}

/-- Every response is as `P` says for its key. -/
def All (P : Key → Message → Prop) (c : ResponseCache) : Prop :=
  ∀ element ∈ c.order, P (c.value element).key (c.value element).response

theorem All.mono (h : c.All P) (himp : ∀ key response, P key response → Q key response) : c.All Q :=
  fun element hmem => himp _ _ (h element hmem)

theorem All.moveToFront (h : c.All P) (hmem : element ∈ c.order) : (c.moveToFront element).All P :=
  fun other hother => h other ((List.perm_cons_erase hmem).mem_iff.mpr hother)

theorem All.unlink (h : c.All P) (element : Element) (key : Key) : (c.unlink element key).All P :=
  fun other hother => h other (List.mem_of_mem_erase hother)

/-- What is read from the cache. -/
theorem Reads.all (hreads : Reads c key queryID r) (h : c.All P) :
    r.2.All P ∧ ∀ bytes, r.1 = some bytes → ∃ response age override, P key response ∧
      bytes = cachedResponse response queryID age override := by
  cases hreads with
  | miss => exact ⟨h, nofun⟩
  | drop hmem => exact ⟨h.unlink _ _, nofun⟩
  | serve age override hmem hkey =>
    refine ⟨h.moveToFront hmem, fun bytes hsome => ?_⟩
    exact ⟨_, age, override, hkey ▸ h _ hmem, (Option.some.inj hsome).symm⟩

theorem insert_all (hlinked : c.Linked) (h : c.All P)
    (hkey : entry.key = key) (hentry : P key entry.response) : (c.insert key entry).All P := by
  intro other hother
  unfold insert at hother ⊢
  split at hother
  · next element hfound =>
    obtain ⟨hmem, hown⟩ := (hlinked.listed key element).mp hfound
    have hold : other ∈ c.order := (List.perm_cons_erase hmem).mem_iff.mpr hother
    show P (Function.update c.value element { entry with key := (c.value element).key } other).key
      (Function.update c.value element { entry with key := (c.value element).key } other).response
    rw [Function.update_apply]
    split
    · exact hown.symm ▸ hentry
    · exact h other hold
  · show P (Function.update c.value c.fresh entry other).key
      (Function.update c.value c.fresh entry other).response
    rw [Function.update_apply]
    split
    · exact hkey.symm ▸ hentry
    · next hne => exact h other ((List.mem_cons.mp hother).resolve_left hne)

theorem evict_all (h : c.All P) (hevict : evict older c = some c') : c'.All P := by
  induction older generalizing c with
  | nil =>
    rw [evict] at hevict
    split at hevict
    · cases hevict
    · exact Option.some.inj hevict ▸ h
  | cons oldest newer ih =>
    rw [evict] at hevict
    split at hevict
    · exact ih (h.unlink _ _) hevict
    · exact Option.some.inj hevict ▸ h

theorem putOwned_all (hlinked : c.Linked) (h : c.All P) (hresponse : P key response.withoutID)
    (hput : c.putOwned key response ttl now = some c') : c'.All P := by
  unfold putOwned at hput
  split at hput
  · have hstored : (c.insert key (c.newEntry key response ttl now)).All P :=
      insert_all hlinked h rfl hresponse
    exact evict_all hstored hput
  · exact Option.some.inj hput ▸ h

end ResponseCache

/-! ### What is known of the state and of the threads -/

section

variable (config : ServiceConfig) (exchanges : List Exchange) (key : Key)

/-- An exchange with one of the servers has brought the response that is shared under the key. -/
def Origin (response : Message) : Prop :=
  ∃ x ∈ exchanges, x.tag ∈ config.servers ∧ normalizedQueryKey x.tag x.query = some key ∧
    12 ≤ x.response.length ∧ response = x.response.withoutID

/-- A response with an origin, with the ID of the query, and perhaps with other TTLs. -/
def Served (query bytes : Message) : Prop :=
  ∃ response, Origin config exchanges key response ∧
    (bytes = responseWithID response (query.take 2) ∨
      ∃ age override, bytes = cachedResponse response (query.take 2) age override)

/-- The plan is the one of the lane for the query. -/
structure PlanFor (laneID : String) (query : Message) (plan : QueryPlan) : Prop where
  target : ∃ lane name, config.lanes laneID = some lane ∧ questionName query = some name ∧
    lane.target name = (plan.tag, false)
  server : plan.tag ∈ config.servers
  key : normalizedQueryKey plan.tag query = some plan.key

/-- Whatever the outcome is, it is as `P` says. -/
def Outcome.Is (P : Message → Prop) : Outcome → Prop
  | .answered response => P response
  | .failed => True

/-- Whatever the answer is, it is a refusal or as `P` says. -/
def Answer.Is (P : Message → Prop) : Answer → Prop
  | .message bytes => P bytes
  | .refusal _ => True

/-- Everything that is shared has an origin. -/
structure Service.Sound (s : Service) : Prop where
  cache : s.cache.Consistent
  cached : s.cache.All (Origin config s.exchanges)
  table : ∀ key flight, s.table key = some flight → ∃ f, s.flights flight = some f ∧ f.key = key
  results : ∀ flight f outcome, s.flights flight = some f → f.result = some outcome →
    outcome.Is (Origin config s.exchanges f.key)
  free : ∀ flight, s.nextFlight ≤ flight → s.flights flight = none

/-- What a thread with a flight knows. -/
def Stage.Sound (query : Message) : Stage → Prop
  | .exchanged outcome | .released outcome | .finishing outcome _ | .finished outcome _ =>
    outcome.Is (Origin config exchanges key)
  | .sharedAnswered answer | .leaving (some answer) =>
    answer.Is (Served config exchanges key query)
  | _ => True

/-- What a thread knows. -/
def Pc.Sound (s : Service) (laneID : String) (query : Message) : Pc → Prop
  | .arrived | .done none => True
  | .planned plan | .charged plan | .refunding plan | .returning plan none =>
    PlanFor config laneID query plan
  | .flying plan flight stage => PlanFor config laneID query plan ∧
    (∃ f, s.flights flight = some f ∧ f.key = plan.key) ∧
    stage.Sound config s.exchanges plan.key query
  | .returning plan (some answer) => PlanFor config laneID query plan ∧
    answer.Is (Served config s.exchanges plan.key query)
  | .done (some answer) => answer.Is fun bytes =>
    ∃ plan, PlanFor config laneID query plan ∧ Served config s.exchanges plan.key query bytes

end

/-- No exchange is forgotten, and the flights keep their keys. -/
structure Service.Extends (s s' : Service) : Prop where
  exchanges : s.exchanges ⊆ s'.exchanges
  flights : ∀ flight f, s.flights flight = some f →
    ∃ f', s'.flights flight = some f' ∧ f'.key = f.key

variable {config : ServiceConfig} {s s' : Service} {exchanges exchanges' : List Exchange}
  {key : Key} {query : Message} {laneID : String}

theorem Outcome.Is.mono {outcome : Outcome} (h : outcome.Is P)
    (himp : ∀ response, P response → Q response) : outcome.Is Q := by
  cases outcome with
  | answered response => exact himp _ h
  | failed => trivial

theorem Answer.Is.mono {answer : Answer} (h : answer.Is P)
    (himp : ∀ bytes, P bytes → Q bytes) : answer.Is Q := by
  cases answer with
  | message bytes => exact himp _ h
  | refusal => trivial

theorem Origin.mono (hsub : exchanges ⊆ exchanges')
    (h : Origin config exchanges key response) : Origin config exchanges' key response := by
  obtain ⟨x, hmem, hx⟩ := h
  exact ⟨x, hsub hmem, hx⟩

theorem Served.mono (hsub : exchanges ⊆ exchanges')
    (h : Served config exchanges key query bytes) : Served config exchanges' key query bytes := by
  obtain ⟨response, horigin, hbytes⟩ := h
  exact ⟨response, horigin.mono hsub, hbytes⟩

theorem Stage.Sound.mono (hsub : exchanges ⊆ exchanges') {stage : Stage}
    (h : stage.Sound config exchanges key query) : stage.Sound config exchanges' key query := by
  unfold Stage.Sound at h ⊢
  split <;> first
    | exact Outcome.Is.mono h fun _ => Origin.mono hsub
    | exact Answer.Is.mono h fun _ => Served.mono hsub
    | trivial

/-- What a thread knows stays true. -/
theorem Pc.Sound.mono (hext : s.Extends s') {pc : Pc} (h : pc.Sound config s laneID query) :
    pc.Sound config s' laneID query := by
  unfold Pc.Sound at h ⊢
  split
  case h_1 | h_2 => trivial
  case h_3 | h_4 | h_5 | h_6 => exact h
  case h_7 plan flight stage =>
    obtain ⟨hplan, ⟨f, hflight, hkey⟩, hstage⟩ := h
    obtain ⟨f', hflight', hsame⟩ := hext.flights flight f hflight
    exact ⟨hplan, ⟨f', hflight', hsame.trans hkey⟩, hstage.mono hext.exchanges⟩
  case h_8 => exact ⟨h.1, h.2.mono fun _ => Served.mono hext.exchanges⟩
  case h_9 =>
    refine Answer.Is.mono h fun bytes hbytes => ?_
    obtain ⟨plan, hplan, hserved⟩ := hbytes
    exact ⟨plan, hplan, hserved.mono hext.exchanges⟩

/-! ### Parts of a step -/

/-- A step that is sound goes to a sound state, and forgets nothing. -/
structure Service.Keeps (config : ServiceConfig) (s s' : Service) : Prop where
  sound : s'.Sound config
  extends' : s.Extends s'

/-- The counters and channels do not matter. -/
structure Service.SameAnswers (s s' : Service) : Prop where
  cache : s'.cache = s.cache
  table : s'.table = s.table
  flights : s'.flights = s.flights
  nextFlight : s'.nextFlight = s.nextFlight
  exchanges : s'.exchanges = s.exchanges

variable {route : Option String} {flight : ℕ} {plan : QueryPlan}

theorem Service.Extends.refl (s : Service) : s.Extends s :=
  ⟨fun _ h => h, fun _ f h => ⟨f, h, rfl⟩⟩

theorem Service.Sound.keeps (h : s.Sound config) : s.Keeps config s := ⟨h, .refl s⟩

theorem Service.Sound.same (h : s.Sound config) (hsame : s.SameAnswers s') : s.Keeps config s' := by
  obtain ⟨hcache, htable, hflights, hnext, hexchanges⟩ := hsame
  cases s'
  dsimp only at hcache htable hflights hnext hexchanges
  subst hcache htable hflights hnext hexchanges
  exact ⟨⟨h.cache, h.cached, h.table, h.results, h.free⟩, fun _ h => h, fun _ f hf => ⟨f, hf, rfl⟩⟩

theorem same_addBytes (size : ℤ) : s.SameAnswers (s.addBytes route size) := by
  cases route <;> exact ⟨rfl, rfl, rfl, rfl, rfl⟩

theorem same_addShared (count : ℤ) : s.SameAnswers (s.addShared route count) := by
  cases route <;> exact ⟨rfl, rfl, rfl, rfl, rfl⟩

/-- A token is taken or returned, or there is none. -/
theorem same_ite [Decidable c]
    (h : (if c then some found else none) = some s') (hfound : s.SameAnswers found) :
    s.SameAnswers s' := by
  split at h
  · exact Option.some.inj h ▸ hfound
  · cases h

theorem same_acquire (h : s.acquire config = some s') : s.SameAnswers s' :=
  same_ite h ⟨rfl, rfl, rfl, rfl, rfl⟩

theorem same_release (h : s.release = some s') : s.SameAnswers s' :=
  same_ite h ⟨rfl, rfl, rfl, rfl, rfl⟩

theorem same_tryPending (h : s.tryPending config = some s') : s.SameAnswers s' :=
  same_ite h ⟨rfl, rfl, rfl, rfl, rfl⟩

theorem same_releasePending (h : s.releasePending = some s') : s.SameAnswers s' :=
  same_ite h ⟨rfl, rfl, rfl, rfl, rfl⟩

theorem same_tryActive (h : s.tryActive config route = some s') : s.SameAnswers s' := by
  cases route with
  | none => exact Option.some.inj h ▸ ⟨rfl, rfl, rfl, rfl, rfl⟩
  | some tag => exact same_ite h ⟨rfl, rfl, rfl, rfl, rfl⟩

theorem same_releaseActive (h : s.releaseActive route = some s') : s.SameAnswers s' := by
  cases route with
  | none => exact Option.some.inj h ▸ ⟨rfl, rfl, rfl, rfl, rfl⟩
  | some tag => exact same_ite h ⟨rfl, rfl, rfl, rfl, rfl⟩

theorem same_tryListed (h : s.tryListed config route = some s') : s.SameAnswers s' := by
  cases route with
  | none => exact Option.some.inj h ▸ ⟨rfl, rfl, rfl, rfl, rfl⟩
  | some tag => exact same_ite h ⟨rfl, rfl, rfl, rfl, rfl⟩

theorem same_releaseListed (h : s.releaseListed route = some s') : s.SameAnswers s' := by
  cases route with
  | none => exact Option.some.inj h ▸ ⟨rfl, rfl, rfl, rfl, rfl⟩
  | some tag => exact same_ite h ⟨rfl, rfl, rfl, rfl, rfl⟩

section

variable (h : s.Sound config)
include h

/-- Reading the cache only moves or drops entries. -/
theorem keeps_setCache (hcache : cache.Consistent) (hall : cache.All (Origin config s.exchanges)) :
    s.Keeps config (s.setCache cache) :=
  ⟨⟨hcache, hall, h.table, h.results, h.free⟩, ⟨fun _ h => h, fun _ f hf => ⟨f, hf, rfl⟩⟩⟩

/-- A flight is changed, and the new result has an origin. -/
theorem keeps_modifyFlight (hkey : ∀ f, (change f).key = f.key)
    (hresult : ∀ f outcome, s.flights flight = some f → (change f).result = some outcome →
      outcome.Is (Origin config s.exchanges f.key)) :
    s.Keeps config (s.modifyFlight flight change) := by
  have hflights : ∀ other f, s.flights other = some f →
      ∃ f', (s.modifyFlight flight change).flights other = some f' ∧ f'.key = f.key := by
    intro other f hf
    by_cases hother : other = flight
    · subst hother
      exact ⟨change f, by simp [Service.modifyFlight, hf], hkey f⟩
    · exact ⟨f, by simpa [Service.modifyFlight, hother] using hf, rfl⟩
  refine ⟨⟨h.cache, h.cached, ?_, ?_, ?_⟩, ⟨fun _ h => h, hflights⟩⟩
  · intro key other hother
    obtain ⟨f, hf, rfl⟩ := h.table key other hother
    exact hflights other f hf
  · intro other f outcome hf houtcome
    by_cases hother : other = flight
    · subst hother
      have hchanged : (s.flights other).map change = some f := by
        simpa [Service.modifyFlight] using hf
      obtain ⟨f₀, hf₀, rfl⟩ := Option.map_eq_some_iff.mp hchanged
      rw [hkey]
      exact hresult f₀ outcome hf₀ houtcome
    · exact h.results other f outcome (by simpa [Service.modifyFlight, hother] using hf) houtcome
  · intro other hother
    show Function.update s.flights flight ((s.flights flight).map change) other = none
    rw [Function.update_apply]
    split
    · next hsame => rw [← hsame, h.free other hother, Option.map_none]
    · exact h.free other hother

theorem keeps_join : s.Keeps config (s.join flight) :=
  keeps_modifyFlight h (fun _ => rfl) fun f outcome hf => h.results flight f outcome hf

theorem keeps_leave : s.Keeps config (s.leave flight) :=
  keeps_modifyFlight h (fun _ => rfl) fun f outcome hf => h.results flight f outcome hf

theorem keeps_finish (hflight : ∃ f, s.flights flight = some f ∧ f.key = key)
    (houtcome : outcome.Is (Origin config s.exchanges key)) :
    s.Keeps config (s.finish key flight outcome) := by
  obtain ⟨f, hf, rfl⟩ := hflight
  have hkeeps : s.Keeps config
      (s.modifyFlight flight fun f => { f with result := some outcome }) := by
    refine keeps_modifyFlight h (fun _ => rfl) fun f' outcome' hf' hresult => ?_
    rw [hf] at hf'
    cases hf'
    cases hresult
    exact houtcome
  have hsound := hkeeps.sound
  refine ⟨⟨hsound.cache, hsound.cached, fun other flight' hother => ?_, hsound.results,
    hsound.free⟩, ⟨hkeeps.extends'.exchanges, hkeeps.extends'.flights⟩⟩
  change Function.update s.table f.key none other = some flight' at hother
  rw [Function.update_apply] at hother
  split at hother
  · cases hother
  · exact hsound.table other flight' hother

theorem keeps_launch : s.Keeps config (s.launch key) := by
  have hflights : ∀ other f, s.flights other = some f → (s.launch key).flights other = some f := by
    intro other f hf
    have hne : other ≠ s.nextFlight := by
      rintro rfl
      rw [h.free _ le_rfl] at hf
      cases hf
    simpa [Service.launch, hne] using hf
  have hnew : (s.launch key).flights s.nextFlight = some ⟨key, 1, none⟩ := Function.update_self ..
  refine ⟨⟨h.cache, h.cached, ?_, ?_, ?_⟩,
    ⟨fun _ h => h, fun other f hf => ⟨f, hflights other f hf, rfl⟩⟩⟩
  · intro key' other hother
    change Function.update s.table key (some s.nextFlight) key' = some other at hother
    rw [Function.update_apply] at hother
    split at hother
    · next hsame =>
      cases hother
      exact ⟨_, hnew, hsame.symm⟩
    · obtain ⟨f, hf, hkey⟩ := h.table key' other hother
      exact ⟨f, hflights other f hf, hkey⟩
  · intro other f outcome hf hresult
    change Function.update s.flights s.nextFlight (some ⟨key, 1, none⟩) other = some f at hf
    rw [Function.update_apply] at hf
    split at hf
    · cases hf
      cases hresult
    · exact h.results other f outcome hf hresult
  · intro other hother
    change s.nextFlight + 1 ≤ other at hother
    have hne : other ≠ s.nextFlight := by omega
    show Function.update s.flights s.nextFlight (some ⟨key, 1, none⟩) other = none
    rw [Function.update_of_ne hne]
    exact h.free other (by omega)

/-- An answered exchange is the origin of what it puts into the cache. -/
theorem keeps_exchange (hplan : PlanFor config laneID query plan) {response : Message}
    (hlength : 12 ≤ response.length) (choice : Choice) :
    s.Keeps config (s.exchange choice plan query response) ∧
      Origin config (s.exchange choice plan query response).exchanges plan.key
        response.withoutID := by
  have horigin : Origin config (s.exchange choice plan query response).exchanges plan.key
      response.withoutID :=
    ⟨_, List.mem_cons_self, hplan.server, hplan.key, hlength, rfl⟩
  have hsub : s.exchanges ⊆ (s.exchange choice plan query response).exchanges :=
    List.subset_cons_self _ _
  have hcached : s.cache.All (Origin config (s.exchange choice plan query response).exchanges) :=
    h.cached.mono fun _ _ => Origin.mono hsub
  obtain ⟨cache, hput, hconsistent, -⟩ := ResponseCache.apply_consistent h.cache
    (.putOwned plan.key response (responseTTL response) choice.now)
  change s.cache.putOwned plan.key response (responseTTL response) choice.now = some cache at hput
  have hcache : (s.exchange choice plan query response).cache = cache := by
    show (s.cache.putOwned plan.key response (responseTTL response) choice.now).getD _ = cache
    rw [hput, Option.getD_some]
  refine ⟨⟨⟨?_, ?_, h.table, ?_, h.free⟩, ⟨hsub, fun _ f hf => ⟨f, hf, rfl⟩⟩⟩, horigin⟩
  · rw [hcache]
    exact hconsistent
  · rw [hcache]
    exact ResponseCache.putOwned_all h.cache.toLinked hcached horigin hput
  · exact fun flight f outcome hf hresult =>
      (h.results flight f outcome hf hresult).mono fun _ => Origin.mono hsub

/-- What a query is handed after an exchange, from the exchange or from the cache. -/
theorem queryResult_sound (query : Message)
    (houtcome : outcome.Is (Origin config s.exchanges plan.key)) (now : Time) :
    (queryResult s.cache plan query now outcome).1.Is (Served config s.exchanges plan.key query) ∧
      s.Keeps config (s.setCache (queryResult s.cache plan query now outcome).2) := by
  cases outcome with
  | answered response =>
    exact ⟨⟨response, houtcome, .inl rfl⟩, keeps_setCache h h.cache h.cached⟩
  | failed =>
    have hreads := ResponseCache.getStale_reads plan.key (query.take 2) now h.cache.toLinked
    have hall := hreads.all h.cached
    have hcache := (hreads.consistent h.cache).1
    rw [queryResult]
    split
    · next stale cache hget =>
      rw [hget] at hall hcache
      obtain ⟨response, age, override, horigin, hbytes⟩ := hall.2 stale rfl
      exact ⟨⟨response, horigin, .inr ⟨age, override, hbytes⟩⟩, keeps_setCache h hcache hall.1⟩
    · next cache hget =>
      rw [hget] at hall hcache
      exact ⟨trivial, keeps_setCache h hcache hall.1⟩

end

/-- What is known after the plan of a query. -/
def Planned.Sound (config : ServiceConfig) (s : Service) (laneID : String) (query : Message) :
    Planned → Prop
  | .unknownLane => True
  | .answer given => Pc.Sound config s laneID query (.done (some given))
  | .upstream plan => PlanFor config laneID query plan

theorem planQuery_sound (h : s.Sound config) (laneID : String) (query : Message) (now : Time) :
    (planQuery config s.cache laneID query now).1.Sound config s laneID query ∧
      s.Keeps config (s.setCache (planQuery config s.cache laneID query now).2) := by
  have hsame : s.Keeps config (s.setCache s.cache) := keeps_setCache h h.cache h.cached
  unfold planQuery
  split
  · exact ⟨trivial, hsame⟩
  · next lane hlane =>
    split
    · exact ⟨trivial, hsame⟩
    · next name hname =>
      split
      · exact ⟨trivial, hsame⟩
      · next htarget =>
        obtain ⟨haccept, hserver⟩ := not_or.mp htarget
        split
        · exact ⟨trivial, hsame⟩
        · next key hkey =>
          have hplan : PlanFor config laneID query ⟨(lane.target name).1, key⟩ :=
            ⟨⟨lane, name, hlane, hname, Prod.ext rfl (Bool.not_eq_true _ ▸ haccept)⟩,
              not_not.mp hserver, hkey⟩
          have hreads := ResponseCache.get_reads key (query.take 2) now h.cache.toLinked
          have hall := hreads.all h.cached
          have hcache := (hreads.consistent h.cache).1
          split
          · next response cache hget =>
            rw [hget] at hall hcache
            obtain ⟨stored, age, override, horigin, hbytes⟩ := hall.2 response rfl
            exact ⟨⟨_, hplan, stored, horigin, .inr ⟨age, override, hbytes⟩⟩,
              keeps_setCache h hcache hall.1⟩
          · next cache hget =>
            rw [hget] at hall hcache
            exact ⟨hplan, keeps_setCache h hcache hall.1⟩

/-! ### Steps -/

variable {choice : Choice} {stage stage' : Stage} {pc pc' : Pc}

/-- A sound step: the state and what its thread knows. -/
def SoundStep (config : ServiceConfig) (s s' : Service) (laneID : String) (query : Message)
    (pc' : Pc) : Prop :=
  s.Keeps config s' ∧ pc'.Sound config s' laneID query

/-- The thread stays in its flight. -/
theorem soundStep_flying (hsound : (Pc.flying plan flight stage).Sound config s laneID query)
    (hkeeps : s.Keeps config s') (hstage : stage'.Sound config s'.exchanges plan.key query) :
    SoundStep config s s' laneID query (.flying plan flight stage') := by
  obtain ⟨hplan, hflight, -⟩ := Pc.Sound.mono hkeeps.extends' hsound
  exact ⟨hkeeps, hplan, hflight, hstage⟩

/-- A token is taken or returned, and the thread has nothing new to hand out. -/
theorem soundStep_token (h : s.Sound config)
    (hsound : (Pc.flying plan flight stage).Sound config s laneID query)
    (htoken : ∀ found, token = some found → s.SameAnswers found)
    (hstep : (do return (← token, Pc.flying plan flight stage')) = some (s', pc'))
    (hstage : ∀ exchanges, s.exchanges = exchanges →
      stage'.Sound config exchanges plan.key query) :
    SoundStep config s s' laneID query pc' := by
  cases hfound : token with
  | none => simp [hfound] at hstep
  | some found =>
    have hsame := htoken found hfound
    simp only [hfound, Option.bind_eq_bind, Option.bind_some, Option.pure_def, Option.some.injEq,
      Prod.mk.injEq] at hstep
    obtain ⟨rfl, rfl⟩ := hstep
    exact soundStep_flying hsound (h.same hsame) (hstage _ hsame.exchanges.symm)

theorem le_length_of_checked (h : checkedResponse query upstream = some response) :
    12 ≤ response.length := by
  cases upstream with
  | none => cases h
  | some found =>
    rw [checkedResponse] at h
    split at h
    · cases h
    · next hchecked =>
      cases h
      exact not_lt.mp fun hshort => hchecked (.inl hshort)

/-- The flight of a key was begun for that key. -/
theorem begin_sound (h : s.Sound config)
    (hbegin : s.begin key maximum = some (s', flight, leader)) :
    s.Keeps config s' ∧ ∃ f, s'.flights flight = some f ∧ f.key = key := by
  unfold Service.begin at hbegin
  split at hbegin
  · next found hfound =>
    split at hbegin
    · cases hbegin
    · cases hbegin
      obtain ⟨f, hf, rfl⟩ := h.table key flight hfound
      exact ⟨keeps_join h, (keeps_join h).extends'.flights flight f hf⟩
  · cases hbegin
    exact ⟨keeps_launch h, _, Function.update_self .., rfl⟩

/-- What a waiter gets is the result of the flight for its key. -/
theorem awaited_sound (h : s.Sound config) (hflight : ∃ f, s.flights flight = some f ∧ f.key = key)
    (hawaited : s.awaited choice flight = some outcome) :
    outcome.Is (Origin config s.exchanges key) := by
  obtain ⟨f, hf, rfl⟩ := hflight
  unfold Service.awaited at hawaited
  split at hawaited
  · cases hawaited
    trivial
  · rw [hf, Option.bind_some] at hawaited
    exact h.results flight f outcome hf hawaited

theorem stageStep_sound (h : s.Sound config)
    (hsound : (Pc.flying plan flight stage).Sound config s laneID query)
    (hstep : s.stageStep config choice query plan flight stage = some (s', pc')) :
    SoundStep config s s' laneID query pc' := by
  obtain ⟨hplan, hflight, hstage⟩ := id hsound
  have htrivial (found : Stage)
      (hfound : ∀ exchanges, found.Sound config exchanges plan.key query) :
      SoundStep config s s laneID query (.flying plan flight found) :=
    soundStep_flying hsound h.keeps (hfound _)
  cases stage with
  | joined =>
    rw [Service.stageStep] at hstep
    split at hstep <;> cases hstep
    · exact soundStep_flying hsound (h.same (same_addShared 1)) trivial
    · exact htrivial _ fun _ => trivial
  | refusedJoin | dropped =>
    cases hstep
    exact ⟨keeps_leave h, hplan⟩
  | owner =>
    rw [Service.stageStep] at hstep
    split at hstep <;> cases hstep
    · next hactive => exact soundStep_flying hsound (h.same (same_tryActive hactive)) trivial
    · exact htrivial _ fun _ => trivial
  | routed =>
    rw [Service.stageStep] at hstep
    split at hstep <;> cases hstep
    · next hlimit => exact soundStep_flying hsound (h.same (same_acquire hlimit)) trivial
    · exact htrivial _ fun _ => trivial
  | queueing =>
    rw [Service.stageStep] at hstep
    split at hstep <;> cases hstep
    · next hlisted => exact soundStep_flying hsound (h.same (same_tryListed hlisted)) trivial
    · exact htrivial _ fun _ => trivial
  | listed =>
    rw [Service.stageStep] at hstep
    split at hstep <;> cases hstep
    · next hpending => exact soundStep_flying hsound (h.same (same_tryPending hpending)) trivial
    · exact htrivial _ fun _ => trivial
  | blocked | expiredRouted =>
    exact soundStep_token h hsound (fun _ => same_releaseActive) hstep fun _ _ => trivial
  | unlisted =>
    exact soundStep_token h hsound (fun _ => same_releaseListed) hstep fun _ _ => trivial
  | dequeuing =>
    exact soundStep_token h hsound (fun _ => same_releasePending) hstep fun _ _ => trivial
  | unlisting acquired =>
    refine soundStep_token h hsound (fun _ => same_releaseListed) hstep fun _ _ => ?_
    cases acquired <;> trivial
  | exchanged outcome =>
    refine soundStep_token h hsound (fun _ => same_release) hstep fun _ hsame => ?_
    exact hsame ▸ hstage
  | released outcome =>
    refine soundStep_token h hsound (fun _ => same_releaseActive) hstep fun _ hsame => ?_
    exact hsame ▸ hstage
  | rejected =>
    cases hstep
    exact soundStep_flying hsound (keeps_finish h hflight trivial) trivial
  | queued =>
    rw [Service.stageStep] at hstep
    split at hstep
    · cases hstep
      exact htrivial _ fun _ => trivial
    · exact soundStep_token h hsound (fun _ => same_tryActive) hstep fun _ _ => trivial
  | queuedRouted =>
    rw [Service.stageStep] at hstep
    split at hstep
    · cases hstep
      exact htrivial _ fun _ => trivial
    · exact soundStep_token h hsound (fun _ => same_acquire) hstep fun _ _ => trivial
  | working =>
    cases hstep
    split
    · exact htrivial _ fun _ => trivial
    · exact htrivial _ fun _ => trivial
  | exchanging =>
    rw [Service.stageStep] at hstep
    split at hstep <;> cases hstep
    · exact htrivial _ fun _ => trivial
    · next response hresponse =>
      obtain ⟨hkeeps, horigin⟩ := keeps_exchange h hplan (le_length_of_checked hresponse) choice
      exact soundStep_flying hsound hkeeps horigin
  | finishing outcome acquired =>
    cases hstep
    exact soundStep_flying hsound (keeps_finish h hflight hstage) hstage
  | shared =>
    cases hawaited : s.awaited choice flight with
    | none => simp [Service.stageStep, hawaited] at hstep
    | some outcome =>
      obtain ⟨hserved, hkeeps⟩ :=
        queryResult_sound h query (awaited_sound h hflight hawaited) choice.now
      simp only [Service.stageStep, hawaited] at hstep
      cases hstep
      exact soundStep_flying hsound hkeeps hserved
  | sharedAnswered answer =>
    cases hstep
    have hsame : s.SameAnswers (s.addShared (config.route plan.tag) (-1)) := same_addShared (-1)
    exact soundStep_flying hsound (h.same hsame) (hsame.exchanges.symm ▸ hstage)
  | finished outcome acquired =>
    rw [Service.stageStep] at hstep
    split at hstep <;> cases hstep
    · exact htrivial _ fun _ => trivial
    · obtain ⟨hserved, hkeeps⟩ := queryResult_sound h query hstage choice.now
      exact soundStep_flying hsound hkeeps hserved
  | leaving answer =>
    cases hstep
    cases answer with
    | none => exact ⟨keeps_leave h, hplan⟩
    | some answer => exact ⟨keeps_leave h, hplan, hstage⟩

/-- **Steps.** A step keeps what is known of the state and of its thread. -/
theorem step_sound (h : s.Sound config) (hsound : pc.Sound config s laneID query)
    (hstep : s.step config choice laneID query pc = some (s', pc')) :
    SoundStep config s s' laneID query pc' := by
  cases pc with
  | arrived =>
    obtain ⟨hplanned, hkeeps⟩ := planQuery_sound h laneID query choice.now
    rw [Service.step] at hstep
    split at hstep <;> cases hstep
    · next hplan =>
      rw [hplan] at hkeeps
      exact ⟨hkeeps, trivial⟩
    · next hplan =>
      rw [hplan] at hplanned hkeeps
      exact ⟨hkeeps, hplanned⟩
    · next hplan =>
      rw [hplan] at hplanned hkeeps
      exact ⟨hkeeps, hplanned⟩
  | planned plan =>
    rw [Service.step] at hstep
    split at hstep <;> cases hstep
    · exact ⟨h.keeps, trivial⟩
    · exact ⟨h.same (same_addBytes _), hsound⟩
  | charged plan =>
    rw [Service.step] at hstep
    split at hstep <;> cases hstep
    · exact ⟨h.keeps, hsound⟩
    · next hbegin =>
      obtain ⟨hkeeps, hflight⟩ := begin_sound h hbegin
      exact ⟨hkeeps, hsound, hflight, trivial⟩
    · next hbegin =>
      obtain ⟨hkeeps, hflight⟩ := begin_sound h hbegin
      exact ⟨hkeeps, hsound, hflight, trivial⟩
  | flying plan flight stage => exact stageStep_sound h hsound hstep
  | refunding plan =>
    cases hstep
    exact ⟨h.same (same_addBytes _), trivial⟩
  | returning plan answer =>
    cases hstep
    have hkeeps : s.Keeps config (s.addBytes (config.route plan.tag) (-query.length)) :=
      h.same (same_addBytes _)
    cases answer with
    | none => exact ⟨hkeeps, trivial⟩
    | some answer =>
      refine ⟨hkeeps, Answer.Is.mono hsound.2 fun bytes hserved => ?_⟩
      exact ⟨plan, hsound.1, hserved.mono hkeeps.extends'.exchanges⟩
  | done answer => cases hstep

/-! ### Whole runs -/

/-- The bytes are an answer of the lane's server to the query, with the ID of the query. -/
def Handed (config : ServiceConfig) (exchanges : List Exchange) (laneID : String)
    (query bytes : Message) : Prop :=
  ∃ lane name, config.lanes laneID = some lane ∧ questionName query = some name ∧
    ∃ x ∈ exchanges, x.tag = (lane.target name).1 ∧
      -- the same query but for the ID
      x.query.length = query.length ∧ x.query.drop 2 = query.drop 2 ∧
      bytes.take 2 = query.take 2 ∧
      (bytes = responseWithID x.response (query.take 2) ∨
        ∃ age override, bytes = cachedResponse x.response (query.take 2) age override)

/-- The upstream exchange of the query is in progress. -/
def Thread.exchanging (tag : String) (body : Message) (t : Thread) : Bool :=
  match t.pc with
  | .flying plan _ .exchanging => plan.tag == tag && t.query.withoutID == body
  | _ => false

theorem service_sound (h : ServiceReachable config x) :
    x.shared.Sound config ∧ ∀ t ∈ x.threads, t.pc.Sound config x.shared t.lane t.query := by
  refine Reachable.inv (T := fun s t => t.pc.Sound config s t.lane t.query) ?_ ?_ ?_ h
  · rintro s ⟨limit, byteLimit, staleTTL, rfl⟩
    exact ⟨ResponseCache.linked_new _ _ _, fun _ hmem => (List.not_mem_nil hmem).elim,
      nofun, nofun, fun _ _ => rfl⟩
  · intro s t _ hfresh
    rw [show t.pc = .arrived from hfresh]
    trivial
  · rintro s t s' _ hs ht ⟨choice, pc, hstep, rfl⟩
    obtain ⟨hkeeps, hpc⟩ := step_sound hs ht hstep
    exact ⟨hkeeps.sound, hpc, fun u hu => Pc.Sound.mono hkeeps.extends' hu⟩

theorem responseWithID_withoutID (hresponse : 2 ≤ response.length) (hquery : 2 ≤ queryID.length) :
    responseWithID response.withoutID queryID = responseWithID response queryID := by
  match response, queryID with
  | _ :: _ :: _, _ :: _ :: _ => rfl
  | [_], _ | [], _ => simp at hresponse
  | _ :: _ :: _, [_] | _ :: _ :: _, [] => simp at hquery

theorem drop_two_of_withoutID {query query' : Message} (hquery : 2 ≤ query.length)
    (hquery' : 2 ≤ query'.length) (h : query.withoutID = query'.withoutID) :
    query.length = query'.length ∧ query.drop 2 = query'.drop 2 := by
  match query, query' with
  | _ :: _ :: rest, _ :: _ :: rest' =>
    have hrest : rest = rest' := (List.cons.inj (List.cons.inj h).2).2
    exact ⟨by simp [hrest], hrest⟩
  | [_], _ | [], _ => simp at hquery
  | _ :: _ :: _, [_] | _ :: _ :: _, [] => simp at hquery'

theorem le_length_of_key (h : normalizedQueryKey tag query = some key) : 12 ≤ query.length := by
  unfold normalizedQueryKey at h
  split at h
  · cases h
  · next hlong => exact not_lt.mp hlong

/-- What is served under the key of a plan is what the lane should hand out. -/
theorem Served.handed (htags : ∀ tag ∈ config.servers, 0 ∉ tagBytes tag)
    (hplan : PlanFor config laneID query plan) (h : Served config exchanges plan.key query bytes) :
    Handed config exchanges laneID query bytes := by
  obtain ⟨_, ⟨x, hmem, hserver, hkey, hlength, rfl⟩, hbytes⟩ := h
  obtain ⟨lane, name, hlane, hname, htarget⟩ := hplan.target
  obtain ⟨htag, hqueries⟩ := normalizedQueryKey_inj (htags _ hserver) (htags _ hplan.server) hkey
    hplan.key
  have hquery := le_length_of_key hplan.key
  obtain ⟨hlengths, hdrop⟩ := drop_two_of_withoutID
    (le_trans (by omega) (le_length_of_key hkey)) (by omega) hqueries
  have hid : 2 ≤ (query.take 2).length := by
    rw [List.length_take]
    omega
  have hresponse : responseWithID x.response.withoutID (query.take 2) =
      responseWithID x.response (query.take 2) :=
    responseWithID_withoutID (by omega) hid
  have htake : (query.take 2).take 2 = query.take 2 := by rw [List.take_take, min_self]
  refine ⟨lane, name, hlane, hname, x, hmem, by rw [htarget, htag], hlengths, hdrop, ?_⟩
  rcases hbytes with rfl | ⟨age, override, rfl⟩
  · rw [hresponse, take_two_responseWithID (by omega) hid]
    exact ⟨htake, .inl rfl⟩
  · rw [cachedResponse, hresponse, ← cachedResponse, take_two_cachedResponse (by omega) hid]
    exact ⟨htake, .inr ⟨age, override, rfl⟩⟩

/-- A query whose exchange is in progress has begun the flight for its key. -/
theorem owns_of_exchanging {t : Thread}
    (hsound : t.pc.Sound config s t.lane t.query) (h : t.exchanging tag body = true) :
    t.owns (tagBytes tag ++ 0 :: body) = true := by
  obtain ⟨lane, query, pc⟩ := t
  unfold Thread.exchanging at h
  split at h
  · next plan flight hpc =>
    cases hpc
    obtain ⟨htag, hbody⟩ := Bool.and_eq_true_iff.mp h
    obtain ⟨rfl⟩ := eq_of_beq htag
    have hbody : query.withoutID = body := eq_of_beq hbody
    have hkey := hsound.1.key
    rw [normalizedQueryKey, if_neg (not_lt.mpr (le_length_of_key hkey))] at hkey
    have hkey := Option.some.inj hkey
    simp only at hkey
    simp [Thread.owns, Thread.holds, Thread.plan?, Stage.holdsFlight, ← hkey, ← hbody]
  · cases h

/-- **Shared answers.** In every run, whatever a query is handed, from the cache or from a flight,
    was brought by an exchange with the server that its lane has for the name, for the same query;
    and no two exchanges for one server and one query are in progress at a time. -/
theorem shared_answers_isolated (htags : ∀ tag ∈ config.servers, 0 ∉ tagBytes tag)
    (h : ServiceReachable config x) :
    (∀ t ∈ x.threads, ∀ bytes, t.pc = .done (some (.message bytes)) →
      Handed config x.shared.exchanges t.lane t.query bytes) ∧
    ∀ tag body, x.threads.countP (Thread.exchanging tag body) ≤ 1 := by
  obtain ⟨-, hthreads⟩ := service_sound h
  refine ⟨fun t ht bytes hdone => ?_, fun tag body => ?_⟩
  · have hsound := hthreads t ht
    rw [hdone] at hsound
    obtain ⟨plan, hplan, hserved⟩ := hsound
    exact hserved.handed htags hplan
  · calc x.threads.countP (Thread.exchanging tag body)
        ≤ x.threads.countP fun t => t.owns (tagBytes tag ++ 0 :: body) :=
          List.countP_mono_left fun t ht => owns_of_exchanging (hthreads t ht)
      _ = (x.shared.table (tagBytes tag ++ 0 :: body)).isSome.toNat := ((accounted h).table _).symm
      _ ≤ 1 := Bool.toNat_le _

/-- The answer of the server: the address of the name, to be kept for a minute. -/
def upstreamResponse (id : Message) : Message :=
  id ++ [129, 128, 0, 1, 0, 1, 0, 0, 0, 0, 1, 97, 0, 0, 1, 0, 1,
    192, 12, 0, 1, 0, 1, 0, 0, 0, 60, 0, 4, 192, 0, 2, 1]

/-- Both queries have the answer, each with its own id. -/
def upstreamAnswered : System Service Thread :=
  Service.drive upstreamConfig ⟨0, false, some (upstreamResponse [7, 9])⟩
    (List.replicate 8 0 ++ List.replicate 4 1) upstreamWorking

/-- The query that joined the flight is handed the answer of its one exchange. -/
theorem upstreamAnswered_handed :
    upstreamAnswered.shared.exchanges.length = 1 ∧ Handed upstreamConfig
      upstreamAnswered.shared.exchanges "guest" (upstreamQuery [3, 4])
      (upstreamResponse [3, 4]) := by
  have htags : ∀ tag ∈ upstreamConfig.servers, 0 ∉ tagBytes tag := by
    intro tag htag
    obtain rfl := List.mem_singleton.mp htag
    decide
  refine ⟨rfl, ?_⟩
  have hguest : upstreamAnswered.threads[1]? = some ⟨"guest", upstreamQuery [3, 4],
      .done (some (.message (upstreamResponse [3, 4])))⟩ := rfl
  exact (shared_answers_isolated htags (reachable_drive _ upstreamWorking_reachable _)).1 _
    (List.mem_of_getElem? hguest) _ rfl

end SbGateway.PolicyDns
