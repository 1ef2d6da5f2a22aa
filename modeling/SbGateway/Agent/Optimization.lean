import SbGateway.Agent.HealthController

namespace SbGateway.Agent.Health

/-!
# Planned optimisation (`internal/agent/health_logic.go`)

A policy in mode `best` leaves its active node for a faster one only after two comparisons.  The
policy state remembers the candidate, the baseline it is compared with and how many comparisons it
has won.

* `gatePlannedOptimization` — one call of the gate;
* `gate_effect` — the four things a call can do;
* `planned_optimization_needs_two_wins` — a switch is preceded by an accepted win over the same
  baseline, with older samples, and nothing has spoken against it since.
-/

/-! ### Data -/

/-- A `float64`: not a number, or a number that may be infinite. -/
inductive Double where
  | nan
  | number (value : WithBot (WithTop ℚ))

namespace Double

/-- A finite number. -/
def ofRat (value : ℚ) : Double := .number ((value : WithTop ℚ) : WithBot (WithTop ℚ))

/-- Nothing compares with NaN. -/
def le : Double → Double → Bool
  | .number a, .number b => a ≤ b
  | _, _ => false

/-- `<` of Go; nothing is less than a NaN. -/
def lt : Double → Double → Bool
  | .number a, .number b => a < b
  | _, _ => false

/-- It is not a NaN. -/
def IsNumber : Double → Prop
  | .number _ => True
  | .nan => False

theorem lt_of_not_le {a b : Double} (ha : a.IsNumber) (hb : b.IsNumber) (h : b.le a = false) :
    a.lt b = true := by
  cases a with
  | nan => exact ha.elim
  | number a =>
    cases b with
    | nan => exact hb.elim
    | number b => simpa [le, lt] using h

end Double

/-- Nanoseconds. -/
abbrev Time := ℤ

/-- A second in nanoseconds. -/
def second : Time := 1000000000

/-- The `Result` of a comparison. -/
inductive ComparisonResult where
  | win
  | loss
  | inconclusive
  deriving DecidableEq

/-- `optimizationComparison`, without the delays it reports. -/
structure OptimizationComparison where
  activeSampleAt : Double
  candidateSampleAt : Double
  comparedAt : String
  candidate : String
  result : ComparisonResult
  reason : String

/-- The part of `policyHealthState` that belongs to the optimisation. -/
structure Optimization where
  baseline : String
  candidate : String
  checks : ℕ
  lastResult : Option OptimizationComparison

/-- The arguments of a call of the gate. -/
structure GateCall where
  now : Time
  selected : String
  desired : String
  reason : String
  comparison : Option OptimizationComparison
  /-- The interval of active probes in the settings, in seconds. -/
  active : ℤ

/-! ### The gate -/

/-- The wins that a switch needs. -/
def optimizationConfirmations : ℕ := 2

/-- The reason of a planned optimisation. -/
def meaningfullyFaster : String := "meaningfully-faster"

/-- The switch can wait. -/
def isPlannedOptimization (reason : String) : Prop := reason = meaningfullyFaster

instance (reason : String) : Decidable (isPlannedOptimization reason) := by
  unfold isPlannedOptimization
  infer_instance

/-- There is no nominated node any more. -/
def clearOptimizationCandidate (item : Optimization) : Optimization :=
  { item with baseline := "", candidate := "", checks := 0 }

section Gate

variable (parse : String → Option Time)

/-- `time.Parse` is a parameter. -/
def freshComparisonAt (now : Time) (comparison : Option OptimizationComparison)
    (active : ℤ) : Prop :=
  ∃ c ∈ comparison, ∃ comparedAt ∈ parse c.comparedAt,
    0 ≤ now - comparedAt ∧ now - comparedAt ≤ max (active * 2) 120 * second

instance (now : Time) (comparison : Option OptimizationComparison) (active : ℤ) :
    Decidable (freshComparisonAt parse now comparison active) := by
  unfold freshComparisonAt
  infer_instance

section

variable (call : GateCall) (comparison : OptimizationComparison) (item : Optimization)

/-- A pair that is not complete yet nominates the candidate. -/
def GateCall.nominates : Prop :=
  call.desired ≠ call.selected ∧ isPlannedOptimization call.reason ∧
    comparison.result = .inconclusive ∧ (Double.ofRat 0).lt comparison.candidateSampleAt ∧
    freshComparisonAt parse call.now (some comparison) call.active ∧
    (comparison.reason = "pair-incomplete" ∨ comparison.reason = "pair-skew")

instance (call : GateCall) (comparison : OptimizationComparison) :
    Decidable (call.nominates parse comparison) := by
  unfold GateCall.nominates
  infer_instance

/-- The state after a nomination. -/
def GateCall.nominate : Optimization :=
  if item.candidate ≠ call.desired ∨ item.baseline ≠ call.selected ∨
      ¬ freshComparisonAt parse call.now item.lastResult call.active then
    ⟨call.selected, call.desired, 0, some comparison⟩
  else if item.checks = 0 then { item with lastResult := some comparison }
  else item

/-- The last result is of no use for a second win. -/
def GateCall.stale : Option OptimizationComparison → Prop
  | none => True
  | some previous => ¬ freshComparisonAt parse call.now (some previous) call.active ∨
    previous.activeSampleAt.le (.ofRat 0) ∨ previous.candidateSampleAt.le (.ofRat 0)

instance (call : GateCall) (previous : Option OptimizationComparison) :
    Decidable (call.stale parse previous) := by
  cases previous <;> (unfold GateCall.stale; infer_instance)

/-- Start to count, unless the candidate is counted already. -/
def GateCall.restart : Optimization :=
  if item.candidate ≠ call.desired ∨ call.stale parse item.lastResult then
    { item with baseline := call.selected, candidate := call.desired, checks := 0 }
  else item

/-- Not both samples are newer than those of the last result. -/
def repeats : Option OptimizationComparison → Prop
  | none => False
  | some previous => previous.comparedAt = comparison.comparedAt ∨
    comparison.activeSampleAt.le previous.activeSampleAt ∨
    comparison.candidateSampleAt.le previous.candidateSampleAt

instance (comparison : OptimizationComparison) (previous : Option OptimizationComparison) :
    Decidable (repeats comparison previous) := by
  cases previous <;> (unfold repeats; infer_instance)

/-- A win with two samples is counted. -/
def GateCall.count : Optimization × String × String :=
  let started := call.restart parse item
  if 0 < started.checks ∧ repeats comparison item.lastResult then (started, call.selected, "")
  else
    let counted := { started with lastResult := some comparison, checks := started.checks + 1 }
    if counted.checks < optimizationConfirmations then (counted, call.selected, "")
    else (clearOptimizationCandidate counted, call.desired, meaningfullyFaster)

/-- A call with a comparison: nominate, drop, or count. -/
def GateCall.compare : Optimization × String × String :=
  if call.nominates parse comparison then
    (call.nominate parse comparison item, call.selected, "")
  else if comparison.result ≠ .win ∨ comparison.candidate ≠ call.desired then
    ({ clearOptimizationCandidate item with lastResult := some comparison }, call.selected, "")
  else if comparison.activeSampleAt.le (.ofRat 0) ∨ comparison.candidateSampleAt.le (.ofRat 0) then
    (item, call.selected, "")
  else call.count parse comparison item

end

/-- The new state, and what is selected for what reason. -/
def gatePlannedOptimization (item : Optimization) (call : GateCall) :
    Optimization × String × String :=
  if call.desired ≠ call.selected ∧ ¬ isPlannedOptimization call.reason then
    (clearOptimizationCandidate item, call.desired, call.reason)
  else if item.baseline ≠ "" ∧ item.baseline ≠ call.selected then
    (clearOptimizationCandidate item, call.selected, "")
  else
    match call.comparison with
    | none =>
      if item.candidate ≠ "" ∧ ¬ freshComparisonAt parse call.now item.lastResult call.active then
        (clearOptimizationCandidate item, call.selected, "")
      else (item, call.selected, "")
    | some comparison => call.compare parse comparison item

/-- The state after some calls. -/
def gateRun (item : Optimization) (calls : List GateCall) : Optimization :=
  calls.foldl (fun item call => (gatePlannedOptimization parse item call).1) item

end Gate

/-! ### What a call does -/

/-- Real nodes, and samples with real times. -/
structure GateCall.Named (call : GateCall) : Prop where
  selected : call.selected ≠ ""
  desired : call.desired ≠ ""
  samples : ∀ c ∈ call.comparison, c.activeSampleAt.IsNumber ∧ c.candidateSampleAt.IsNumber

/-- The call says nothing against a candidate for this baseline. -/
structure GateCall.Quiet (call : GateCall) (baseline : String) : Prop where
  noLoss : ∀ c ∈ call.comparison, c.result ≠ .loss
  sameBaseline : call.selected = baseline
  noSwitch : call.desired ≠ call.selected → isPlannedOptimization call.reason

/-- At most one win is counted, and only for a candidate with a baseline. -/
def Optimization.Valid (item : Optimization) : Prop :=
  item.candidate = "" ∨ item.baseline ≠ "" ∧ item.checks ≤ 1

/-- A win is counted. -/
def Optimization.Counted (item : Optimization) : Prop := item.candidate ≠ "" ∧ item.checks ≠ 0

/-- The call accepts a first win. -/
structure Accepts (parse : String → Option Time) (item : Optimization) (call : GateCall)
    (c : OptimizationComparison) : Prop where
  comparison : call.comparison = some c
  win : c.result = .win
  candidate : c.candidate = call.desired
  counted : (gatePlannedOptimization parse item call).1 =
    ⟨call.selected, call.desired, 1, some c⟩

/-- The call is the second win, over the last result. -/
structure Confirms (parse : String → Option Time) (item : Optimization) (call : GateCall)
    (c₁ c₂ : OptimizationComparison) : Prop where
  counted : item = ⟨call.selected, call.desired, 1, some c₁⟩
  comparison : call.comparison = some c₂
  win : c₂.result = .win
  candidate : c₂.candidate = call.desired
  fresh : freshComparisonAt parse call.now (some c₁) call.active
  active : c₂.activeSampleAt.le c₁.activeSampleAt = false
  reserve : c₂.candidateSampleAt.le c₁.candidateSampleAt = false

/-- What a call can do. -/
inductive GateEffect (parse : String → Option Time) (item : Optimization) (call : GateCall) :
    Optimization → String → Prop where
  | uncounted {item' : Optimization} {reason : String} (hvalid : item'.Valid)
      (h : ¬ item'.Counted) (hreason : reason ≠ meaningfullyFaster) :
      GateEffect parse item call item' reason
  | kept (h : item.Counted → call.Quiet item.baseline) : GateEffect parse item call item ""
  | accepted {c : OptimizationComparison} (comparison : call.comparison = some c)
      (win : c.result = .win) (candidate : c.candidate = call.desired) :
      GateEffect parse item call ⟨call.selected, call.desired, 1, some c⟩ ""
  | confirmed {c₁ c₂ : OptimizationComparison} {item' : Optimization}
    (hcleared : item'.candidate = "")
      (h : Confirms parse item call c₁ c₂) : GateEffect parse item call item' meaningfullyFaster

variable {parse : String → Option Time} {item : Optimization} {call : GateCall}
  {comparison : OptimizationComparison}

theorem empty_ne_meaningfullyFaster : "" ≠ meaningfullyFaster := by decide

/-- The candidate is forgotten. -/
theorem effect_cleared (h : item'.candidate = "") (hreason : reason ≠ meaningfullyFaster) :
    GateEffect parse item call item' reason :=
  .uncounted (.inl h) (fun hcounted => hcounted.1 h) hreason

/-- A candidate without a win. -/
theorem effect_started (hcall : call.Named) :
    GateEffect parse item call ⟨call.selected, call.desired, 0, last⟩ "" :=
  .uncounted (.inr ⟨hcall.selected, Nat.zero_le _⟩) (fun hcounted => hcounted.2 rfl)
    empty_ne_meaningfullyFaster

theorem nominate_effect (hcall : call.Named) (hvalid : item.Valid)
    (hquiet : item.candidate ≠ "" → call.Quiet item.baseline) :
    GateEffect parse item call (call.nominate parse comparison item) "" := by
  unfold GateCall.nominate
  split
  · exact effect_started hcall
  · next hsame =>
    split
    · next hchecks =>
      refine .uncounted ?_ (fun hcounted => hcounted.2 hchecks) empty_ne_meaningfullyFaster
      exact hvalid.imp_right fun h => ⟨h.1, h.2⟩
    · exact .kept fun hcounted => hquiet hcounted.1

/-- A first win. -/
theorem count_first (hstarted : call.restart parse item = started)
    (hbaseline : started.baseline = call.selected) (hcandidate : started.candidate = call.desired)
    (hchecks : started.checks = 0) : call.count parse comparison item =
      (⟨call.selected, call.desired, 1, some comparison⟩, call.selected, "") := by
  obtain ⟨baseline, candidate, checks, lastResult⟩ := started
  subst hbaseline hcandidate hchecks
  unfold GateCall.count
  rw [hstarted]
  simp [optimizationConfirmations]

theorem count_effect (hcomparison : call.comparison = some comparison)
    (hwin : comparison.result = .win) (hown : comparison.candidate = call.desired)
    (hcall : call.Named) (hvalid : item.Valid)
    (hquiet : item.candidate ≠ "" → call.Quiet item.baseline) :
    GateEffect parse item call (call.count parse comparison item).1
      (call.count parse comparison item).2.2 := by
  by_cases hrestart : item.candidate ≠ call.desired ∨ call.stale parse item.lastResult
  · rw [count_first (if_pos hrestart) rfl rfl rfl]
    exact .accepted hcomparison hwin hown
  have hrestarted : call.restart parse item = item := if_neg hrestart
  obtain ⟨hcandidate, hstale⟩ := not_or.mp hrestart
  have hcandidate : item.candidate = call.desired := not_not.mp hcandidate
  have hne : item.candidate ≠ "" := hcandidate ▸ hcall.desired
  obtain ⟨-, hchecks⟩ := hvalid.resolve_left hne
  have hbaseline : item.baseline = call.selected := (hquiet hne).sameBaseline.symm
  by_cases hzero : item.checks = 0
  · rw [count_first hrestarted hbaseline hcandidate hzero]
    exact .accepted hcomparison hwin hown
  have hone : item.checks = 1 := by omega
  unfold GateCall.count
  rw [hrestarted]
  dsimp only
  split
  · exact .kept fun _ => hquiet hne
  · next hnew =>
    rw [if_neg (by simp [hone, optimizationConfirmations])]
    -- the last result is there, fresh, and older on both sides
    obtain ⟨baseline, candidate, checks, lastResult⟩ := item
    cases lastResult with
    | none => exact (hstale trivial).elim
    | some previous =>
      subst hcandidate hbaseline hone
      obtain ⟨hfresh, -⟩ := not_or.mp hstale
      have hrepeats : ¬ repeats comparison (some previous) := fun h => hnew ⟨Nat.one_pos, h⟩
      obtain ⟨-, hsamples⟩ := not_or.mp hrepeats
      obtain ⟨hactive, hreserve⟩ := not_or.mp hsamples
      exact .confirmed rfl ⟨rfl, hcomparison, hwin, hown, not_not.mp hfresh,
        Bool.eq_false_iff.mpr hactive, Bool.eq_false_iff.mpr hreserve⟩

theorem compare_effect (hcomparison : call.comparison = some comparison) (hcall : call.Named)
    (hvalid : item.Valid) (hbaseline : item.candidate ≠ "" → item.baseline = call.selected)
    (hswitch : call.desired ≠ call.selected → isPlannedOptimization call.reason) :
    GateEffect parse item call (call.compare parse comparison item).1
      (call.compare parse comparison item).2.2 := by
  have hquiet (hresult : comparison.result ≠ .loss) (hcandidate : item.candidate ≠ "") :
      call.Quiet item.baseline := by
    refine ⟨fun c hc => ?_, (hbaseline hcandidate).symm, hswitch⟩
    rw [hcomparison] at hc
    exact Option.mem_some_iff.mp hc ▸ hresult
  unfold GateCall.compare
  split
  · next hnominates =>
    have hresult : comparison.result ≠ .loss := by simp [hnominates.2.2.1]
    exact nominate_effect hcall hvalid (hquiet hresult)
  · split
    · exact effect_cleared rfl empty_ne_meaningfullyFaster
    · next hcompared =>
      obtain ⟨hwin, hown⟩ := not_or.mp hcompared
      have hwin : comparison.result = .win := not_not.mp hwin
      have hresult : comparison.result ≠ .loss := by simp [hwin]
      split
      · exact .kept fun hcounted => hquiet hresult hcounted.1
      · exact count_effect hcomparison hwin (not_not.mp hown) hcall hvalid (hquiet hresult)

/-- **One call.** -/
theorem gate_effect (hcall : call.Named) (hvalid : item.Valid) :
    GateEffect parse item call (gatePlannedOptimization parse item call).1
      (gatePlannedOptimization parse item call).2.2 := by
  unfold gatePlannedOptimization
  split
  · next hswitched => exact effect_cleared rfl hswitched.2
  · next hswitch =>
    have hswitch : call.desired ≠ call.selected → isPlannedOptimization call.reason :=
      fun hne => not_not.mp fun hplanned => hswitch ⟨hne, hplanned⟩
    split
    · exact effect_cleared rfl empty_ne_meaningfullyFaster
    · next hother =>
      have hbaseline : item.candidate ≠ "" → item.baseline = call.selected := fun hcandidate =>
        not_not.mp fun hne => hother ⟨(hvalid.resolve_left hcandidate).1, hne⟩
      split
      · next hnone =>
        split
        · exact effect_cleared rfl empty_ne_meaningfullyFaster
        · refine .kept fun hcounted => ⟨fun c hc => ?_, (hbaseline hcounted.1).symm, hswitch⟩
          rw [hnone] at hc
          cases hc
      · next comparison hcomparison =>
        exact compare_effect hcomparison hcall hvalid hbaseline hswitch

/-! ### Runs -/

variable {calls : List GateCall}

/-- Some call has accepted a first win, and what is counted now is that win. -/
def FirstWin (parse : String → Option Time) (item : Optimization) (calls : List GateCall)
    (counted : Optimization) : Prop :=
  ∃ before first between c, calls = before ++ first :: between ∧
    Accepts parse (gateRun parse item before) first c ∧
    counted = ⟨first.selected, first.desired, 1, some c⟩ ∧
    ∀ call ∈ between, call.Quiet first.selected

theorem FirstWin.append
    (h : FirstWin parse item calls counted) (hquiet : call.Quiet counted.baseline) :
    FirstWin parse item (calls ++ [call]) counted := by
  obtain ⟨before, first, between, c, rfl, haccepts, rfl, hbetween⟩ := h
  refine ⟨before, first, between ++ [call], c, by simp, haccepts, rfl, fun other hother => ?_⟩
  rcases List.mem_append.mp hother with hother | hother
  · exact hbetween other hother
  · exact List.mem_singleton.mp hother ▸ hquiet

theorem gateRun_append (call : GateCall) : gateRun parse item (calls ++ [call]) =
    (gatePlannedOptimization parse (gateRun parse item calls) call).1 := by
  simp [gateRun]

/-- Whatever is counted after a run is a first win of the run. -/
theorem gateRun_counted (hstart : item.candidate = "") (hcalls : ∀ call ∈ calls, call.Named) :
    (gateRun parse item calls).Valid ∧
      ((gateRun parse item calls).Counted →
        FirstWin parse item calls (gateRun parse item calls)) := by
  induction calls using List.reverseRecOn with
  | nil => exact ⟨.inl hstart, fun hcounted => (hcounted.1 hstart).elim⟩
  | append_singleton calls call ih =>
    obtain ⟨hvalid, hfirst⟩ := ih fun other hother => hcalls other (List.mem_append_left _ hother)
    have hcall : call.Named := hcalls call (by simp)
    have heffect := @gate_effect parse _ _ hcall hvalid
    rw [gateRun_append]
    generalize hafter : (gatePlannedOptimization parse (gateRun parse item calls) call).1 = after
      at heffect
    generalize (gatePlannedOptimization parse (gateRun parse item calls) call).2.2 = reason
      at heffect
    cases heffect with
    | uncounted hvalid hnot => exact ⟨hvalid, fun hcounted => (hnot hcounted).elim⟩
    | kept hquiet => exact ⟨hvalid, fun hcounted => (hfirst hcounted).append (hquiet hcounted)⟩
    | accepted hcomparison hwin hcandidate =>
      refine ⟨.inr ⟨hcall.selected, le_rfl⟩, fun _ => ?_⟩
      exact ⟨calls, call, [], _, rfl, ⟨hcomparison, hwin, hcandidate, hafter⟩, rfl, by simp⟩
    | confirmed hcleared => exact ⟨.inl hcleared, fun hcounted => (hcounted.1 hcleared).elim⟩

/-- **Two wins.** If the gate lets a planned optimisation pass, an earlier call has accepted a win
    of the same candidate over the same baseline, which is still fresh and whose samples are both
    older; and no call in between has seen a loss, another baseline or another kind of switch. -/
theorem planned_optimization_needs_two_wins {call : GateCall} (hstart : item.candidate = "")
    (hnamed : ∀ other ∈ calls ++ [call], other.Named)
    (hchosen : (gatePlannedOptimization parse (gateRun parse item calls) call).2 =
      (call.desired, "meaningfully-faster")) :
    ∃ before first between c₁ c₂, calls = before ++ first :: between ∧
      Accepts parse (gateRun parse item before) first c₁ ∧ call.comparison = some c₂ ∧
      first.selected = call.selected ∧ first.desired = call.desired ∧
      c₁.result = .win ∧ c₁.candidate = call.desired ∧
      c₂.result = .win ∧ c₂.candidate = call.desired ∧
      c₁.activeSampleAt.lt c₂.activeSampleAt ∧ c₁.candidateSampleAt.lt c₂.candidateSampleAt ∧
      (∃ comparedAt, parse c₁.comparedAt = some comparedAt ∧ 0 ≤ call.now - comparedAt ∧
        call.now - comparedAt ≤ max (call.active * 2) 120 * second) ∧
      ∀ other ∈ between, other.Quiet call.selected := by
  have hcall : call.Named := hnamed call (by simp)
  obtain ⟨hvalid, hfirst⟩ := @gateRun_counted parse _ _ hstart
    fun other hother => hnamed other (List.mem_append_left _ hother)
  have heffect := @gate_effect parse _ _ hcall hvalid
  have hreason := congrArg Prod.snd hchosen
  generalize (gatePlannedOptimization parse (gateRun parse item calls) call).1 = after at heffect
  generalize (gatePlannedOptimization parse (gateRun parse item calls) call).2.2 = reason
    at heffect hreason
  cases heffect with
  | uncounted _ _ hother => exact (hother hreason).elim
  | kept | accepted => exact (empty_ne_meaningfullyFaster hreason).elim
  | @confirmed c₁ c₂ _ hcleared h =>
    have hcounted : (gateRun parse item calls).Counted := by
      rw [h.counted]
      exact ⟨hcall.desired, one_ne_zero⟩
    obtain ⟨before, first, between, c, rfl, haccepts, hsame, hbetween⟩ := hfirst hcounted
    obtain ⟨hselected, hdesired, -, hc⟩ := Optimization.mk.inj (h.counted.symm.trans hsame)
    cases hc
    have hsamples₁ := (hnamed first (by simp)).samples c₁ (by simp [haccepts.comparison])
    have hsamples₂ := hcall.samples c₂ (by simp [h.comparison])
    obtain ⟨c, hc, comparedAt, hparse, hage⟩ := h.fresh
    obtain rfl := Option.mem_some_iff.mp hc
    refine ⟨before, first, between, c₁, c₂, rfl, haccepts, h.comparison, hselected.symm,
      hdesired.symm, haccepts.win, haccepts.candidate.trans hdesired.symm, h.win, h.candidate,
      Double.lt_of_not_le hsamples₁.1 hsamples₂.1 h.active,
      Double.lt_of_not_le hsamples₁.2 hsamples₂.2 h.reserve,
      ⟨comparedAt, Option.mem_def.mp hparse, hage⟩, ?_⟩
    rw [hselected]
    exact hbetween

/-! ### Two calls -/

/-- A comparison that the reserve wins, at a second. -/
def sampleWin (at' : ℕ) (text : String) : OptimizationComparison :=
  ⟨.ofRat at', .ofRat at', text, "reserve", .win, "better"⟩

/-- Two points of time. -/
def sampleParse (text : String) : Option Time :=
  if text = "first" then some (1000 * second) else some (1060 * second)

/-- A call for `reserve` with a win. -/
def sampleCall (selected : String) (at' : ℕ) (text : String) : GateCall :=
  ⟨at' * second, selected, "reserve", "meaningfully-faster", some (sampleWin at' text), 30⟩

theorem sampleCall_two_wins : ∃ before first between c₁,
    [sampleCall "active" 1000 "first"] = before ++ first :: between ∧
    Accepts sampleParse (gateRun sampleParse ⟨"", "", 0, none⟩ before) first c₁ ∧
    first.selected = "active" := by
  have hnamed : ∀ other ∈ [sampleCall "active" 1000 "first"] ++ [sampleCall "active" 1060 "second"],
      other.Named := by
    intro other hother
    rcases List.mem_append.mp hother with hother | hother <;>
      obtain rfl := List.mem_singleton.mp hother <;>
      refine ⟨by decide, by decide, fun c hc => ?_⟩ <;>
      obtain rfl := Option.mem_some_iff.mp hc <;>
      exact ⟨trivial, trivial⟩
  obtain ⟨before, first, between, c₁, -, hcalls, haccepts, -, hselected, -⟩ :=
    @planned_optimization_needs_two_wins sampleParse ⟨"", "", 0, none⟩ _ _ rfl hnamed
      (by decide +kernel)
  exact ⟨before, first, between, c₁, hcalls, haccepts, hselected⟩

/-- Without a selected node the baseline is not remembered: the second win may be over another
    node than the first. -/
theorem sampleCall_empty_baseline : (gatePlannedOptimization sampleParse
      (gateRun sampleParse ⟨"", "", 0, none⟩ [sampleCall "" 1000 "first"])
      (sampleCall "active" 1060 "second")).2 = ("reserve", "meaningfully-faster") ∧
    ¬ ∃ before first between, [sampleCall "" 1000 "first"] = before ++ first :: between ∧
      first.selected = "active" := by
  refine ⟨by decide +kernel, ?_⟩
  rintro ⟨before, first, between, hcalls, hselected⟩
  have hmem : first ∈ [sampleCall "" 1000 "first"] := by
    rw [hcalls]
    simp
  obtain rfl := List.mem_singleton.mp hmem
  exact absurd hselected (by decide)

end SbGateway.Agent.Health
