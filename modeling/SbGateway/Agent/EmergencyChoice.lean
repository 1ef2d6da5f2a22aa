import SbGateway.Agent.HealthTick

namespace SbGateway.Agent.Health

/-!
# The choice of an emergency batch (`emergencyChoice` in `internal/agent/health_failover.go`)

The results of a batch arrive in any order.  A preferred candidate is published once no earlier one
is pending, another candidate only if none is pending; after the preference wait both conditions
are dropped.

* `Fed` — what is known of the batch after some results;
* `ready_of_preferred`, `ready_of_none` — before the deadline there is one possible choice;
* `emergency_choice_stable` — the first choice does not depend on the order of arrival.
-/

/-! ### Results -/

/-- The bookkeeping of the loop in `probeParallel` for an event. -/
def Progress.receive (p : Progress) : BatchEvent → Progress
  | .result candidate evidence => p.record candidate evidence
  | .deadline => { p with expired := true }
  | .changed => p

/-- What a batch has received since its start. -/
def received (events : List BatchEvent) : Progress :=
  events.foldl Progress.receive ⟨[], "", false, none⟩

/-- The candidates whose results have arrived, in order. -/
def arrivals (events : List BatchEvent) : List String :=
  events.filterMap fun
    | .result candidate _ => some candidate
    | _ => none

section

variable (outcome : String → Evidence)

/-- All results are those of these outcomes. -/
def Reports (events : List BatchEvent) : Prop :=
  ∀ candidate evidence, .result candidate evidence ∈ events → evidence = outcome candidate

/-- The results of some candidates, without the deadline. -/
def results (order : List String) : List BatchEvent :=
  order.map fun candidate => .result candidate (outcome candidate)

/-- The first choice that is not empty, if the results arrive in this order. -/
def firstChoice (preferred order : List String) : String :=
  ((order.inits.map fun arrived => ready (received (results outcome arrived)) preferred).find?
    (· ≠ "")).getD ""

/-- The probe of the candidate succeeds. -/
def succeeds (candidate : String) : Bool := (outcome candidate).ok

end

variable {outcome : String → Evidence} {preferred seen order : List String} {p : Progress}

theorem reports_results : Reports outcome (results outcome order) := by
  intro candidate evidence h
  obtain ⟨other, -, heq⟩ := List.mem_map.mp h
  cases heq
  rfl

theorem arrivals_results : arrivals (results outcome order) = order := by
  simp [arrivals, results, List.filterMap_map]

/-- The batch has the outcomes of the candidates that were seen. -/
structure Fed (outcome : String → Evidence) (seen : List String) (p : Progress) : Prop where
  lookup : ∀ candidate, p.measured.lookup candidate =
    if candidate ∈ seen then some (outcome candidate) else none
  first : p.firstSuccess = (seen.find? (succeeds outcome)).getD ""

theorem Fed.record (h : Fed outcome seen p) (hnamed : "" ∉ seen) (candidate : String) :
    Fed outcome (seen ++ [candidate]) (p.record candidate (outcome candidate)) := by
  constructor
  · intro other
    show List.lookup other ((candidate, outcome candidate) :: p.measured) = _
    by_cases hother : other = candidate
    · simp [hother]
    · rw [List.lookup_cons, beq_eq_false_iff_ne.mpr hother, h.lookup]
      simp [hother]
  · show (if succeeds outcome candidate ∧ p.firstSuccess = "" then candidate
      else p.firstSuccess) = _
    rw [h.first, List.find?_append]
    cases hfind : seen.find? (succeeds outcome) with
    | none => cases hok : succeeds outcome candidate <;> simp [hok]
    | some found =>
      have hname : found ≠ "" := fun heq => hnamed (heq ▸ List.mem_of_find?_eq_some hfind)
      simp [hname]

theorem Fed.foldl (events : List BatchEvent) (h : Fed outcome seen p)
    (hreports : Reports outcome events) (hnamed : "" ∉ seen ++ arrivals events) :
    Fed outcome (seen ++ arrivals events) (events.foldl Progress.receive p) := by
  induction events generalizing seen p with
  | nil => simpa [arrivals] using h
  | cons event events ih =>
    have hrest : Reports outcome events :=
      fun candidate evidence hmem => hreports candidate evidence (List.mem_cons_of_mem _ hmem)
    cases event with
    | result candidate evidence =>
      obtain rfl := hreports candidate evidence List.mem_cons_self
      rw [show arrivals (.result candidate (outcome candidate) :: events) =
        candidate :: arrivals events from rfl, List.append_cons] at hnamed ⊢
      refine ih (h.record (fun hmem => hnamed ?_) candidate) hrest hnamed
      exact List.mem_append_left _ (List.mem_append_left _ hmem)
    | deadline => exact ih ⟨h.lookup, h.first⟩ hrest hnamed
    | changed => exact ih h hrest hnamed

/-- **Run.** What a batch knows after any results and deadlines. -/
theorem fed_received (hreports : Reports outcome events) (hnamed : "" ∉ arrivals events) :
    Fed outcome (arrivals events) (received events) := by
  have hstart : Fed outcome [] ⟨[], "", false, none⟩ := ⟨fun _ => rfl, rfl⟩
  exact hstart.foldl events hreports hnamed

theorem expired_results : (received (results outcome order)).expired = false := by
  suffices h : ∀ q : Progress, q.expired = false →
      ((results outcome order).foldl Progress.receive q).expired = false from h _ rfl
  induction order with
  | nil => exact fun q hq => hq
  | cons candidate order ih => exact fun q hq => ih _ hq

/-! ### Choices -/

theorem Fed.ok_iff (h : Fed outcome seen p) (candidate : String) :
    p.ok candidate = true ↔ candidate ∈ seen ∧ succeeds outcome candidate = true := by
  rw [Progress.ok, h.lookup]
  by_cases hseen : candidate ∈ seen <;> simp [hseen, succeeds]

/-- How the preferred candidates decide: the first one that was measured as available is chosen,
    unless an earlier one is pending; otherwise the first success is, unless one is pending. -/
def Decides (outcome : String → Evidence) (seen : List String) (p : Progress) (pending : Bool)
    (preferred : List String) (choice : String) : Prop :=
  (∃ before candidate after, preferred = before ++ candidate :: after ∧ candidate ∈ seen ∧
    succeeds outcome candidate = true ∧ (∀ d ∈ before, d ∈ seen → succeeds outcome d = false) ∧
    choice = if (pending = true ∨ ∃ d ∈ before, d ∉ seen) ∧ p.expired = false then ""
      else candidate) ∨
  ((∀ d ∈ preferred, d ∈ seen → succeeds outcome d = false) ∧
    choice = if (pending = false ∧ preferred ⊆ seen) ∨ p.expired = true then p.firstSuccess else "")

/-- A candidate that does not decide. -/
theorem Decides.cons (h : Decides outcome seen p (pending || decide (head ∉ seen)) preferred choice)
    (hfailed : head ∈ seen → succeeds outcome head = false) :
    Decides outcome seen p pending (head :: preferred) choice := by
  rcases h with ⟨before, candidate, after, rfl, hseen, hok, hbefore, rfl⟩ | ⟨hall, rfl⟩
  · refine .inl ⟨head :: before, candidate, after, rfl, hseen, hok, ?_, ?_⟩
    · exact List.forall_mem_cons.mpr ⟨hfailed, hbefore⟩
    · simp [or_assoc]
  · refine .inr ⟨List.forall_mem_cons.mpr ⟨hfailed, hall⟩, ?_⟩
    simp [and_assoc]

/-- `ready` from a preferred candidate on. -/
def readyFrom (p : Progress) (pending : Bool) (preferred : List String) : String :=
  match readyPreferred p pending preferred with
  | .ok candidate => candidate
  | .error pending =>
    if p.firstSuccess ≠ "" ∧ (pending = false ∨ p.expired = true) then p.firstSuccess else ""

section

variable (h : Fed outcome seen p)
include h

theorem decides_readyFrom (preferred : List String) (pending : Bool) :
    Decides outcome seen p pending preferred (readyFrom p pending preferred) := by
  induction preferred generalizing pending with
  | nil =>
    refine .inr ⟨nofun, ?_⟩
    by_cases hfirst : p.firstSuccess = "" <;> simp [readyFrom, readyPreferred, hfirst]
  | cons head rest ih =>
    have hlookup := h.lookup head
    by_cases hseen : head ∈ seen
    · rw [if_pos hseen] at hlookup
      cases hok : succeeds outcome head with
      | true =>
        have hevidence : (outcome head).ok = true := hok
        refine .inl ⟨[], head, rest, rfl, hseen, hok, nofun, ?_⟩
        simp [readyFrom, readyPreferred, hlookup, hevidence]
      | false =>
        have hevidence : (outcome head).ok = false := hok
        have hrest : readyFrom p pending (head :: rest) = readyFrom p pending rest := by
          simp [readyFrom, readyPreferred, hlookup, hevidence]
        rw [hrest]
        exact Decides.cons (by simpa [hseen] using ih pending) fun _ => hok
    · rw [if_neg hseen] at hlookup
      have hrest : readyFrom p pending (head :: rest) = readyFrom p true rest := by
        simp [readyFrom, readyPreferred, hlookup]
      rw [hrest]
      exact Decides.cons (by simpa [hseen] using ih true) fun hmem => absurd hmem hseen

theorem decides_ready (preferred : List String) :
    Decides outcome seen p false preferred (ready p preferred) :=
  decides_readyFrom h preferred false

theorem Fed.first_ok (hfirst : p.firstSuccess ≠ "") : p.ok p.firstSuccess = true := by
  rw [h.ok_iff]
  rw [h.first] at hfirst ⊢
  cases hfind : seen.find? (succeeds outcome) with
  | none => simp [hfind] at hfirst
  | some found => exact ⟨List.mem_of_find?_eq_some hfind, List.find?_some hfind⟩

/-- A candidate that `ready` returns was measured as available. -/
theorem ready_ok (hready : ready p preferred ≠ "") : p.ok (ready p preferred) = true := by
  rcases decides_ready h preferred with ⟨before, candidate, after, -, hseen, hok, -, heq⟩ | ⟨-, heq⟩
  · rw [heq] at hready ⊢
    by_cases hpending : (false = true ∨ ∃ d ∈ before, d ∉ seen) ∧ p.expired = false
    · exact absurd (if_pos hpending) hready
    · rw [if_neg hpending]
      exact (h.ok_iff candidate).mpr ⟨hseen, hok⟩
  · rw [heq] at hready ⊢
    by_cases hfree : (false = false ∧ preferred ⊆ seen) ∨ p.expired = true
    · rw [if_pos hfree] at hready ⊢
      exact h.first_ok hready
    · exact absurd (if_neg hfree) hready

/-- With all preferred candidates measured, the first success of them is chosen, or the first one
    that arrived. -/
theorem ready_of_all (hall : preferred ⊆ seen) :
    ready p preferred =
      ((preferred.find? (succeeds outcome)).or (seen.find? (succeeds outcome))).getD "" := by
  rcases decides_ready h preferred with
    ⟨before, candidate, after, rfl, -, hok, hbefore, heq⟩ | ⟨hnone, heq⟩
  · have hfind : (before ++ candidate :: after).find? (succeeds outcome) = some candidate := by
      rw [List.find?_eq_some_iff_append]
      refine ⟨hok, before, after, rfl, fun d hd => ?_⟩
      rw [hbefore d hd (hall (List.mem_append_left _ hd))]
      rfl
    have hfree : ¬ ((false = true ∨ ∃ d ∈ before, d ∉ seen) ∧ p.expired = false) := by
      rintro ⟨hpending | ⟨d, hd, hmissing⟩, -⟩
      · cases hpending
      · exact hmissing (hall (List.mem_append_left _ hd))
    rw [heq, if_neg hfree, hfind]
    rfl
  · have hfind : preferred.find? (succeeds outcome) = none := by
      rw [List.find?_eq_none]
      intro d hd
      rw [hnone d hd (hall hd)]
      exact Bool.false_ne_true
    rw [heq, if_pos (.inl ⟨rfl, hall⟩), hfind, h.first, Option.none_or]

/-- Before the deadline, only the first successful preferred candidate can be chosen. -/
theorem ready_of_preferred (hexpired : p.expired = false)
    (hbest : preferred.find? (succeeds outcome) = some best) :
    ready p preferred = "" ∨ ready p preferred = best := by
  rcases decides_ready h preferred with
    ⟨before, candidate, after, rfl, -, hok, hbefore, heq⟩ | ⟨hnone, heq⟩
  · by_cases hpending : ∃ d ∈ before, d ∉ seen
    · exact .inl (by rw [heq, if_pos ⟨.inr hpending, hexpired⟩])
    · have hfind : before.find? (succeeds outcome) = none := by
        rw [List.find?_eq_none]
        intro d hd
        rw [hbefore d hd (by_contra fun hmissing => hpending ⟨d, hd, hmissing⟩)]
        exact Bool.false_ne_true
      rw [List.find?_append, hfind, Option.none_or, List.find?_cons_of_pos hok] at hbest
      exact .inr (by rw [heq, if_neg fun hboth =>
        hpending (hboth.1.resolve_left nofun), Option.some.inj hbest])
  · -- the first successful one is still pending
    have hmissing : best ∉ seen := fun hseen => by
      have hfailed := hnone best (List.mem_of_find?_eq_some hbest) hseen
      have hok := List.find?_some hbest
      rw [hfailed] at hok
      cases hok
    refine .inl ?_
    rw [heq, if_neg]
    rintro (⟨-, hall⟩ | hlate)
    · exact hmissing (hall (List.mem_of_find?_eq_some hbest))
    · rw [hexpired] at hlate
      cases hlate

/-- Without a successful preferred candidate, only the first success can be chosen. -/
theorem ready_of_none (hnone : preferred.find? (succeeds outcome) = none) :
    ready p preferred = "" ∨ ready p preferred = p.firstSuccess := by
  rcases decides_ready h preferred with ⟨before, candidate, after, rfl, -, hok, -⟩ | ⟨-, heq⟩
  · exact absurd hok (List.find?_eq_none.mp hnone candidate (by simp))
  · rw [heq]
    split_ifs
    · exact .inr rfl
    · exact .inl rfl

end

/-! ### All orders -/

theorem find?_choice {choices : List String}
    (hall : ∀ c ∈ choices, c = "" ∨ c = choice) (hmem : choice ∈ choices) :
    (choices.find? (· ≠ "")).getD "" = choice := by
  cases hfind : choices.find? (· ≠ "") with
  | none =>
    have hempty : choice = "" := by simpa using List.find?_eq_none.mp hfind choice hmem
    exact hempty.symm
  | some found =>
    have hne : found ≠ "" := by simpa using List.find?_some hfind
    exact (hall found (List.mem_of_find?_eq_some hfind)).resolve_left hne

/-- If only one choice is possible after every arrival, and it is made in the end, it is the
    first. -/
theorem firstChoice_eq {choice : String} (hall : ∀ arrived, arrived <+: order →
      ready (received (results outcome arrived)) preferred = "" ∨
        ready (received (results outcome arrived)) preferred = choice)
    (hlast : ready (received (results outcome order)) preferred = choice) :
    firstChoice outcome preferred order = choice := by
  refine find?_choice (fun c hc => ?_) ?_
  · obtain ⟨arrived, harrived, rfl⟩ := List.mem_map.mp hc
    exact hall arrived ((List.mem_inits _ _).mp harrived)
  · exact List.mem_map.mpr ⟨order, (List.mem_inits _ _).mpr List.prefix_rfl, hlast⟩

theorem fed_results (hnamed : "" ∉ order) :
    Fed outcome order (received (results outcome order)) := by
  have h := fed_received (@reports_results outcome order)
  rw [arrivals_results] at h
  exact h hnamed

/-- **The choice of an emergency batch.** Without the deadline the first choice is the first
    successful candidate in the order of preference, or the first success to arrive if there is
    none, whatever the order of arrival.  With and without it a chosen candidate was measured as
    available, and once all results are in there is a choice exactly if there is a success. -/
theorem emergency_choice_stable (batch : Candidates) (preferred : List String)
    (hpreferred : preferred ⊆ batch.ids) (outcome : String → Evidence) :
    (∀ order best, order.Perm batch.ids →
      preferred.find? (succeeds outcome) = some best →
        firstChoice outcome preferred order = best) ∧
    (∀ order, order.Perm batch.ids → (∀ candidate ∈ preferred, succeeds outcome candidate = false) →
      firstChoice outcome preferred order =
        (order.find? (succeeds outcome)).getD "") ∧
    (∀ events, Reports outcome events → arrivals events ⊆ batch.ids →
      ready (received events) preferred ≠ "" →
        (received events).ok (ready (received events) preferred) = true) ∧
    ∀ events, Reports outcome events → (arrivals events).Perm batch.ids →
      (ready (received events) preferred ≠ "" ↔ ∃ c ∈ batch.ids, succeeds outcome c = true) := by
  have hfed : ∀ {order arrived : List String}, order.Perm batch.ids → arrived <+: order →
      Fed outcome arrived (received (results outcome arrived)) := by
    intro order arrived hperm hpre
    exact fed_results fun hmem => batch.named (hperm.subset (hpre.subset hmem))
  have hlast : ∀ {order : List String}, order.Perm batch.ids →
      ready (received (results outcome order)) preferred =
        ((preferred.find? (succeeds outcome)).or
          (order.find? (succeeds outcome))).getD "" :=
    fun hperm => ready_of_all (hfed hperm List.prefix_rfl)
      (List.Subset.trans hpreferred hperm.symm.subset)
  refine ⟨?_, ?_, ?_, ?_⟩
  · intro order best hperm hbest
    refine firstChoice_eq (fun arrived hpre => ?_) (by rw [hlast hperm, hbest]; rfl)
    exact ready_of_preferred (hfed hperm hpre) expired_results hbest
  · intro order hperm hfailed
    have hnone : preferred.find? (succeeds outcome) = none := by
      rw [List.find?_eq_none]
      intro candidate hcandidate
      rw [hfailed candidate hcandidate]
      exact Bool.false_ne_true
    refine firstChoice_eq (fun arrived hpre => ?_) (by rw [hlast hperm, hnone, Option.none_or])
    have hready := ready_of_none (hfed hperm hpre) hnone
    rw [(hfed hperm hpre).first] at hready
    obtain ⟨rest, rfl⟩ := hpre
    rw [List.find?_append]
    -- a success among the results so far is the first one of all
    cases hfirst : arrived.find? (succeeds outcome) with
    | none => exact .inl (by simpa [hfirst] using hready)
    | some first => simpa [hfirst] using hready
  · intro events hreports harrivals hready
    exact ready_ok (fed_received hreports fun hmem => batch.named (harrivals hmem)) hready
  · intro events hreports hperm
    have hfed := fed_received hreports fun hmem => batch.named (hperm.subset hmem)
    have hall : preferred ⊆ arrivals events := List.Subset.trans hpreferred hperm.symm.subset
    constructor
    · intro hready
      obtain ⟨hseen, hok⟩ := (hfed.ok_iff _).mp (ready_ok hfed hready)
      exact ⟨_, hperm.subset hseen, hok⟩
    · rintro ⟨candidate, hcandidate, hok⟩ hempty
      rw [ready_of_all hfed hall] at hempty
      obtain ⟨first, hfirst⟩ := Option.isSome_iff_exists.mp
        (List.find?_isSome.mpr ⟨candidate, hperm.symm.subset hcandidate, hok⟩)
      rw [hfirst] at hempty
      cases hfind : preferred.find? (succeeds outcome) with
      | none =>
        rw [hfind] at hempty
        exact batch.named (hempty ▸ hperm.subset (List.mem_of_find?_eq_some hfirst))
      | some best =>
        rw [hfind] at hempty
        exact batch.named (hempty ▸ hpreferred (List.mem_of_find?_eq_some hfind))

/-- Two available nodes, of which the one that answers last is preferred. -/
theorem two_available_stable :
    firstChoice (fun _ => ⟨true, false, false, .none⟩) ["b"] ["a", "b"] = "b" :=
  (emergency_choice_stable (.ofValues ["a", "b"]) ["b"] (by decide)
    (fun _ => ⟨true, false, false, .none⟩)).1 ["a", "b"] "b" (by decide) rfl

end SbGateway.Agent.Health
