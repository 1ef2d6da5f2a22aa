import SbGateway.Agent.Optimization

namespace SbGateway.Agent.Health

/-!
# History statistics (`internal/agent/health_history_stats.go`, `health_logic.go`)

For every candidate the controller keeps the samples of a day and one bucket for each of the last
thirty days.  The statistics over them are cached; a candidate is summarized again only if its
history has changed, or if the day has.

* `updateHistories` — the samples and buckets after a tick, and what has changed;
* `summarizeSamples`, `summarizeDays` — the statistics from scratch;
* `refreshHistoryStatistics` — the cached ones;
* `updateHistories_spec` — what has not changed is the same;
* `history_statistics_recomputed` — the cached statistics are those from scratch, in every run.
-/

/-! ### Data -/

/-- `healthSample`; the time is in seconds. -/
structure HealthSample where
  sampleAt : ℚ
  ok : Bool
  delayMS : Option ℤ

/-- The counters and latencies of a day. -/
structure DayBucket where
  samples : ℕ
  successes : ℕ
  failures : ℕ
  latencySamples : List ℤ

/-- What is reported for a period. -/
structure HealthStats where
  samples : ℕ
  successes : ℕ
  failures : ℕ
  lossPercent : Option ℚ
  availabilityPercent : Option ℚ
  medianMS : Option ℤ
  p95MS : Option ℤ
  days : ℕ
  latencySampleCount : ℕ
  percentilesApproximate : Bool

/-- `probeEvidence`, as far as the history reads it. -/
structure ProbeEvidence where
  /-- Nothing for the zero time. -/
  observedAt : Option Time
  ok : Bool
  delayMS : Option ℤ

/-- The buckets by day. -/
abbrev Days := AList fun _ : String => DayBucket

/-- Which statistics a sample makes old. -/
structure HistoryChange where
  daily : Bool
  period : Bool

/-- The cached statistics, and their day. -/
structure HistoryStatistics where
  day : String
  daily : String → Option HealthStats
  week : String → Option HealthStats
  month : String → Option HealthStats

/-- The part of `policyHealthState` that belongs to the history; a missing entry is a nil one. -/
structure HealthHistory where
  dailySamples : String → Option (List HealthSample)
  historyDays : String → Option Days
  historyStatsCache : Option HistoryStatistics

/-! ### Times -/

/-- Older days are deleted. -/
def historyRetentionDays : ℤ := 30

/-- The latencies that are kept of a day. -/
def historyReservoir : ℕ := 256

/-- `Unix()`. -/
def unix (t : Time) : ℤ := t / second

/-- The number of the day of a Unix time. -/
def dayNumber (unix : ℤ) : ℤ := unix / 86400

/-- `int64(value)`. -/
def truncate (value : ℚ) : ℤ := if value < 0 then ⌈value⌉ else ⌊value⌋

/-- When the probe was made, if it is known. -/
def probeObservationTime (now : Time) (evidence : ProbeEvidence) : Time :=
  evidence.observedAt.getD now

/-! ### Statistics -/

/-- One digit after the point. -/
def roundOne (value : ℚ) : ℚ := (round (value * 10) : ℚ) / 10

/-- `sort.Ints`. -/
def sortInts (values : List ℤ) : List ℤ := values.mergeSort

/-- The middle, or the mean of the two, towards zero. -/
def median (sorted : List ℤ) : ℤ :=
  let n := sorted.length
  if n % 2 = 0 then (sorted.getD (n / 2 - 1) 0 + sorted.getD (n / 2) 0).tdiv 2
  else sorted.getD (n / 2) 0

/-- The position of the percentile. -/
def p95Index (n : ℕ) : ℕ := ⌊((n - 1 : ℕ) : ℚ) * (95 / 100) + 999999 / 1000000⌋.toNat

/-- The statistics of the latencies in `delays`. -/
def buildStats (samples successes failures : ℕ) (delays : List ℤ) (days : ℕ) : HealthStats where
  samples := samples
  successes := successes
  failures := failures
  lossPercent := if 0 < samples then some (roundOne ((failures : ℚ) * 100 / samples)) else none
  availabilityPercent :=
    if 0 < samples then some (roundOne ((successes : ℚ) * 100 / samples)) else none
  medianMS := if delays = [] then none else some (median (sortInts delays))
  p95MS := if delays = [] then none else some ((sortInts delays).getD (p95Index delays.length) 0)
  days := days
  latencySampleCount := 0
  percentilesApproximate := false

/-- The statistics of the latest samples. -/
def summarizeSamples (samples : List HealthSample) : HealthStats :=
  let failures := samples.countP fun sample => !sample.ok
  let delays := samples.filterMap fun sample => if sample.ok then sample.delayMS else none
  buildStats samples.length (samples.length - failures) failures delays 0

section Days

-- the text of a day, `Format("2006-01-02")`
variable (formatDay : ℤ → String)

/-- The text of the day some days before a time. -/
def dayText (now : Time) (back : ℤ) : String := formatDay (dayNumber (unix now) - back)

/-- The buckets of the last `count` days, in the order of an iteration over the map. -/
def recentBuckets (days : List (Sigma fun _ : String => DayBucket)) (count : ℤ) (now : Time) :
    List DayBucket :=
  (days.filter fun entry =>
    dayText formatDay now (count - 1) ≤ entry.1 ∧ entry.1 ≤ dayText formatDay now 0).map Sigma.snd

/-- The statistics of the latest days among `days`. -/
def summarizeEntries (days : List (Sigma fun _ : String => DayBucket)) (count : ℤ) (now : Time) :
    HealthStats :=
  let recent := recentBuckets formatDay days count now
  let successes := (recent.map DayBucket.successes).sum
  let delays := recent.flatMap DayBucket.latencySamples
  { buildStats (recent.map DayBucket.samples).sum successes
    (recent.map DayBucket.failures).sum delays
      recent.length with
    latencySampleCount := delays.length
    percentilesApproximate := delays.length < successes }

/-- The statistics of the last `count` days. -/
def summarizeDays (days : Option Days) (count : ℤ) (now : Time) : HealthStats :=
  if count ≤ 0 then ⟨0, 0, 0, none, none, none, none, 0, 0, false⟩
  else summarizeEntries formatDay (days.getD ∅).entries count now

/-! ### Histories -/

/-- A successful delay goes into the reservoir. -/
def DayBucket.addDelay (bucket : DayBucket) (delay : ℤ) : DayBucket :=
  if bucket.latencySamples.length < historyReservoir then
    { bucket with latencySamples := bucket.latencySamples ++ [delay] }
  else
    let slot := (bucket.successes * 1103515245 + 12345) % bucket.successes
    if slot < historyReservoir then
      { bucket with latencySamples := bucket.latencySamples.set slot delay }
    else bucket

/-- A sample is counted; only a success has a latency. -/
def DayBucket.add (bucket : DayBucket) (sample : HealthSample) : DayBucket :=
  let bucket := { bucket with samples := bucket.samples + 1 }
  if sample.ok then
    let bucket := { bucket with successes := bucket.successes + 1 }
    match sample.delayMS with
    | none => bucket
    | some delay => bucket.addDelay delay
  else { bucket with failures := bucket.failures + 1 }

/-- The sample goes into the bucket of its day. -/
def appendHistoryDay (days : Days) (sample : HealthSample) : Days :=
  let day := formatDay (dayNumber (truncate sample.sampleAt))
  days.insert day (((days.lookup day).getD ⟨0, 0, 0, []⟩).add sample)

/-- The samples of the last day, at most 1440 of them. -/
def nextSamples (previous : Option (List HealthSample)) (evidence : Option ProbeEvidence)
    (now : Time) :
    List HealthSample :=
  let cutoff : ℚ := unix (now - 86400 * second)
  let recent := (previous.getD []).filter fun sample => cutoff ≤ sample.sampleAt
  let history := recent ++ (evidence.toList.map fun e =>
    ⟨unix (probeObservationTime now e), e.ok, e.delayMS⟩)
  history.drop (history.length - 1440)

/-- The buckets before the old ones are deleted. -/
def addedDays (days : Option Days) (history : List HealthSample) (evidence : Option ProbeEvidence) :
    Days :=
  match days with
  | none => history.foldl (appendHistoryDay formatDay) ∅
  | some days =>
    match evidence, history.getLast? with
    | some _, some sample => appendHistoryDay formatDay days sample
    | _, _ => days

/-- A bucket of before the last thirty days. -/
def isOld (now : Time) (day : String) : Bool :=
  day < dayText formatDay now (historyRetentionDays - 1)

/-- The days of the last month. -/
def deleteOld (now : Time) (days : Days) : Days where
  entries := days.entries.filter fun entry => !isOld formatDay now entry.1
  nodupKeys := days.nodupKeys.sublist List.filter_sublist

/-- One round of the loop of `updateHistories`. -/
def updateHistory (previous : Option (List HealthSample)) (days : Option Days)
    (evidence : Option ProbeEvidence) (now : Time) : List HealthSample × Days × HistoryChange :=
  let history := nextSamples previous evidence now
  let added := addedDays formatDay days history evidence
  (history, deleteOld formatDay now added,
    { daily := previous.isNone || evidence.isSome || history.length ≠ (previous.getD []).length
      period := evidence.isSome || days.isNone || added.entries.any fun entry =>
        isOld formatDay now entry.1 })

/-- Only changes are recorded. -/
def HistoryChange.record (change : HistoryChange) (candidate : String)
    (changes : String → HistoryChange) : String → HistoryChange :=
  if change.daily || change.period then Function.update changes candidate change else changes

/-- The history of a candidate, and what changed in it. -/
def visitHistory (measured : String → Option ProbeEvidence) (now : Time)
    (state : HealthHistory × (String → HistoryChange)) (candidate : String) :
    HealthHistory × (String → HistoryChange) :=
  let (item, changes) := state
  let (history, days, change) := updateHistory formatDay (item.dailySamples candidate)
    (item.historyDays candidate) (measured candidate) now
  ({ item with
      dailySamples := Function.update item.dailySamples candidate (some history)
      historyDays := Function.update item.historyDays candidate (some days) },
    change.record candidate changes)

/-- The histories of all candidates. -/
def updateHistories (item : HealthHistory) (candidates : List String)
    (measured : String → Option ProbeEvidence) (now : Time) :
    HealthHistory × (String → HistoryChange) :=
  candidates.foldl (visitHistory formatDay measured now) (item, fun _ => ⟨false, false⟩)

/-- A value of the cache is used unless it is missing or has to be computed again. -/
def cachedOr (cached : Option HealthStats) (changed : Bool) (fresh : HealthStats) : HealthStats :=
  match cached with
  | none => fresh
  | some stats => if changed then fresh else stats

/-- The statistics of the candidates; they are also the new cache. -/
def nextStatistics (item : HealthHistory) (changes : String → HistoryChange)
    (candidates : List String) (now : Time) : HistoryStatistics :=
  let previous := item.historyStatsCache
  let day := dayText formatDay now 0
  let dayChanged := previous.all fun statistics => statistics.day ≠ day
  let listed (stats : String → HealthStats) (candidate : String) : Option HealthStats :=
    if candidate ∈ candidates then some (stats candidate) else none
  { day := day
    daily := listed fun candidate =>
      cachedOr (previous.bind (·.daily candidate)) (changes candidate).daily
        (summarizeSamples ((item.dailySamples candidate).getD []))
    week := listed fun candidate =>
      cachedOr (previous.bind (·.week candidate)) ((changes candidate).period || dayChanged)
        (summarizeDays formatDay (item.historyDays candidate) 7 now)
    month := listed fun candidate =>
      cachedOr (previous.bind (·.month candidate)) ((changes candidate).period || dayChanged)
        (summarizeDays formatDay (item.historyDays candidate) historyRetentionDays now) }

/-- The state after the call; the cache has the returned maps. -/
def refreshHistoryStatistics (item : HealthHistory) (candidates : List String)
    (measured : String → Option ProbeEvidence) (now : Time) : HealthHistory × HistoryStatistics :=
  let (item, changes) := updateHistories formatDay item candidates measured now
  let next := nextStatistics formatDay item changes candidates now
  ({ item with historyStatsCache := some next }, next)

end Days

/-! ### Iteration order -/

/-- The statistics do not depend on the order of an iteration over the buckets. -/
theorem summarizeEntries_perm (formatDay : ℤ → String) (h : days.Perm days') (count : ℤ)
    (now : Time) :
    summarizeEntries formatDay days count now = summarizeEntries formatDay days' count now := by
  have hrecent : (recentBuckets formatDay days count now).Perm
      (recentBuckets formatDay days' count now) := (h.filter _).map _
  have hdelays := hrecent.flatMap_right DayBucket.latencySamples
  -- the latencies are sorted before they are counted off
  have hsorted : sortInts _ = sortInts _ :=
    ((List.mergeSort_perm ..).trans (hdelays.trans (List.mergeSort_perm ..).symm)).eq_of_sortedLE
      List.sortedLE_mergeSort List.sortedLE_mergeSort
  simp only [summarizeEntries, buildStats, hsorted, (hrecent.map _).sum_eq, hdelays.length_eq,
    hrecent.length_eq, ← List.length_eq_zero_iff]

/-! ### Unchanged histories -/

variable {formatDay : ℤ → String} {now : Time}
  {days : Option Days}

theorem nextSamples_sublist (samples : List HealthSample) :
    (nextSamples (some samples) none now).Sublist samples := by
  unfold nextSamples
  simp only [Option.getD_some, Option.toList_none, List.map_nil, List.append_nil]
  exact (List.drop_sublist _ _).trans List.filter_sublist

/-- If nothing was dropped, the samples are the same. -/
theorem nextSamples_of_length (h : (nextSamples (some samples) none now).length = samples.length) :
    nextSamples (some samples) none now = samples :=
  (nextSamples_sublist samples).eq_of_length h

/-- A second visit drops nothing. -/
theorem nextSamples_nextSamples :
    nextSamples (some (nextSamples previous none now)) none now =
      nextSamples previous none now := by
  unfold nextSamples
  simp only [Option.getD_some, Option.toList_none, List.map_nil, List.append_nil]
  generalize hrecent : (previous.getD []).filter _ = recent
  have hall : ∀ sample ∈ recent.drop (recent.length - 1440),
      decide (((unix (now - 86400 * second) : ℤ) : ℚ) ≤ sample.sampleAt) = true := by
    intro sample hsample
    rw [← hrecent] at hsample
    exact (List.mem_filter.mp (List.mem_of_mem_drop hsample)).2
  rw [List.filter_eq_self.mpr hall]
  have hlength : (recent.drop (recent.length - 1440)).length - 1440 = 0 := by
    rw [List.length_drop]
    omega
  rw [hlength, List.drop_zero]

theorem deleteOld_eq_self {days : Days}
    (h : (days.entries.any fun entry => isOld formatDay now entry.1) = false) :
    deleteOld formatDay now days = days := by
  refine AList.ext (List.filter_eq_self.mpr fun entry hentry => ?_)
  simpa using List.any_eq_false.mp h entry hentry

theorem any_deleteOld (days : Days) :
    ((deleteOld formatDay now days).entries.any fun entry => isOld formatDay now entry.1) =
      false := by
  refine List.any_eq_false.mpr fun entry hentry => ?_
  simpa using (List.mem_filter.mp hentry).2

theorem addedDays_none (days : Days) (history : List HealthSample) :
    addedDays formatDay (some days) history none = days := rfl

/-- A second visit without evidence changes nothing. -/
theorem updateHistory_settled (previous : Option (List HealthSample)) (days : Option Days) :
    updateHistory formatDay (some (updateHistory formatDay previous days none now).1)
        (some (updateHistory formatDay previous days none now).2.1) none now =
      ((updateHistory formatDay previous days none now).1,
        (updateHistory formatDay previous days none now).2.1, ⟨false, false⟩) := by
  simp [updateHistory, nextSamples_nextSamples, addedDays_none, deleteOld_eq_self (any_deleteOld _),
    any_deleteOld]

/-- Samples that have not changed are the same. -/
theorem updateHistory_daily
    (h : (updateHistory formatDay previous days evidence now).2.2.daily = false) :
    previous = some (updateHistory formatDay previous days evidence now).1 := by
  simp only [updateHistory, ne_eq, decide_not, Bool.or_eq_false_iff, Option.isNone_eq_false_iff,
    Option.isSome_eq_false_iff, Option.isNone_iff_eq_none, Bool.not_eq_false',
    decide_eq_true_eq] at h ⊢
  obtain ⟨⟨hsome, rfl⟩, hlength⟩ := h
  obtain ⟨samples, rfl⟩ := Option.isSome_iff_exists.mp hsome
  rw [nextSamples_of_length hlength]

/-- Buckets that have not changed are the same. -/
theorem updateHistory_period
    (h : (updateHistory formatDay previous days evidence now).2.2.period = false) :
    days = some (updateHistory formatDay previous days evidence now).2.1 := by
  simp only [updateHistory, Bool.or_eq_false_iff, Option.isNone_eq_false_iff,
    Option.isSome_eq_false_iff, Option.isNone_iff_eq_none] at h ⊢
  obtain ⟨⟨rfl, hsome⟩, hold⟩ := h
  obtain ⟨days, rfl⟩ := Option.isSome_iff_exists.mp hsome
  rw [addedDays_none] at hold ⊢
  rw [deleteOld_eq_self hold]

/-! ### The loop over the candidates -/

section Loop

variable (formatDay : ℤ → String) (measured : String → Option ProbeEvidence) (now : Time)
  {candidate other : String}

/-- What is kept for a candidate. -/
def HealthHistory.entry (item : HealthHistory) (candidate : String) :
    Option (List HealthSample) × Option Days :=
  (item.dailySamples candidate, item.historyDays candidate)

/-- The state is the one after a visit of the candidate. -/
structure Visited (formatDay : ℤ → String) (item : HealthHistory) (candidate : String)
    (evidence : Option ProbeEvidence) (now : Time)
    (state : HealthHistory × (String → HistoryChange)) : Prop where
  entry : state.1.entry candidate =
    (some (updateHistory formatDay (item.dailySamples candidate) (item.historyDays candidate)
        evidence now).1,
      some (updateHistory formatDay (item.dailySamples candidate) (item.historyDays candidate)
        evidence now).2.1)
  change : state.2 candidate = (updateHistory formatDay (item.dailySamples candidate)
    (item.historyDays candidate) evidence now).2.2

variable {changes : String → HistoryChange}

theorem record_self (change : HistoryChange) (h : changes candidate = ⟨false, false⟩) :
    change.record candidate changes candidate = change := by
  obtain ⟨daily, period⟩ := change
  unfold HistoryChange.record
  split
  · rw [Function.update_self]
  · next hsame =>
    rw [h]
    cases daily <;> cases period <;> simp_all

theorem record_other (change : HistoryChange) (h : other ≠ candidate) :
    change.record candidate changes other = changes other := by
  unfold HistoryChange.record
  split
  · rw [Function.update_of_ne h]
  · rfl

section

variable (state : HealthHistory × (String → HistoryChange))

theorem visitHistory_self (h : state.2 candidate = ⟨false, false⟩) :
    Visited formatDay state.1 candidate (measured candidate) now
      (visitHistory formatDay measured now state candidate) where
  entry := by simp [visitHistory, HealthHistory.entry]
  change := record_self _ h

theorem visitHistory_other (h : other ≠ candidate) :
    (visitHistory formatDay measured now state candidate).1.entry other = state.1.entry other ∧
      (visitHistory formatDay measured now state candidate).2 other = state.2 other := by
  refine ⟨?_, record_other _ h⟩
  simp [visitHistory, HealthHistory.entry, h]

/-- With evidence a visit changes everything, and that is recorded. -/
theorem visitHistory_measured (h : (measured candidate).isSome) :
    (visitHistory formatDay measured now state candidate).2 candidate = ⟨true, true⟩ := by
  have hchange : (updateHistory formatDay (state.1.dailySamples candidate)
      (state.1.historyDays candidate) (measured candidate) now).2.2 = ⟨true, true⟩ := by
    simp [updateHistory, h]
  calc (visitHistory formatDay measured now state candidate).2 candidate
      = (updateHistory formatDay (state.1.dailySamples candidate) (state.1.historyDays candidate)
          (measured candidate) now).2.2.record candidate state.2 candidate := rfl
    _ = ⟨true, true⟩ := by simp [hchange, HistoryChange.record]

end

variable {item : HealthHistory}

/-- A visit of a candidate that was visited before, without evidence. -/
theorem visitHistory_again
    (hnone : measured candidate = none) (h : Visited formatDay item candidate none now state) :
    Visited formatDay item candidate none now
      (visitHistory formatDay measured now state candidate) := by
  obtain ⟨hsamples, hdays⟩ := Prod.mk.inj h.entry
  constructor
  · simp [visitHistory, HealthHistory.entry, hsamples, hdays, hnone, updateHistory_settled]
  · rw [← h.change]
    simp [visitHistory, hsamples, hdays, hnone, updateHistory_settled, HistoryChange.record]

/-- The visits of a candidate with evidence. -/
theorem visits_measured (h : (measured candidate).isSome) (candidates : List String)
    (hvisited : candidate ∈ candidates ∨ state.2 candidate = ⟨true, true⟩) :
    (candidates.foldl (visitHistory formatDay measured now) state).2 candidate = ⟨true, true⟩ := by
  induction candidates generalizing state with
  | nil => exact hvisited.resolve_left List.not_mem_nil
  | cons first rest ih =>
    refine ih ?_
    by_cases hfirst : candidate = first
    · subst hfirst
      exact .inr (visitHistory_measured formatDay measured now state h)
    · rw [(visitHistory_other formatDay measured now state hfirst).2]
      exact hvisited.imp_left fun hmem => (List.mem_cons.mp hmem).resolve_left hfirst

/-- Further visits of a candidate without evidence. -/
theorem visits_again (hnone : measured candidate = none) (candidates : List String)
    (h : Visited formatDay item candidate none now state) :
    Visited formatDay item candidate none now
      (candidates.foldl (visitHistory formatDay measured now) state) := by
  refine List.foldlRecOn candidates (visitHistory formatDay measured now) h
    fun state h first _ => ?_
  by_cases hfirst : candidate = first
  · subst hfirst
    exact visitHistory_again formatDay measured now hnone h
  · obtain ⟨hentry, hchange⟩ := visitHistory_other formatDay measured now state hfirst
    exact ⟨hentry.trans h.entry, hchange.trans h.change⟩

/-- The visits of a candidate without evidence. -/
theorem visits_unmeasured (hnone : measured candidate = none)
    (candidates : List String) (hmem : candidate ∈ candidates)
    (hentry : state.1.entry candidate = item.entry candidate)
    (hchange : state.2 candidate = ⟨false, false⟩) : Visited formatDay item candidate none now
      (candidates.foldl (visitHistory formatDay measured now) state) := by
  induction candidates generalizing state with
  | nil => exact absurd hmem List.not_mem_nil
  | cons first rest ih =>
    by_cases hfirst : candidate = first
    · subst hfirst
      refine visits_again formatDay measured now hnone rest ?_
      obtain ⟨hsamples, hdays⟩ := Prod.mk.inj hentry
      have hvisit := visitHistory_self formatDay measured now state hchange
      rw [hnone] at hvisit
      exact ⟨hsamples ▸ hdays ▸ hvisit.entry, hsamples ▸ hdays ▸ hvisit.change⟩
    · obtain ⟨hentry', hchange'⟩ := visitHistory_other formatDay measured now state hfirst
      exact ih ((List.mem_cons.mp hmem).resolve_left hfirst) (hentry'.trans hentry)
        (hchange'.trans hchange)

end Loop

/-! ### Whole runs -/

section Runs

variable {formatDay : ℤ → String}

/-- What happens to the history of a policy. -/
inductive HistoryEvent where
  | refresh (candidates : List String) (measured : String → Option ProbeEvidence) (now : Time)
  | deleteSamples (candidate : String)
  | deleteDays (candidate : String)

/-- An event changes the histories. -/
def HealthHistory.apply (formatDay : ℤ → String) (item : HealthHistory) :
    HistoryEvent → HealthHistory
  | .refresh candidates measured now =>
    (refreshHistoryStatistics formatDay item candidates measured now).1
  | .deleteSamples candidate =>
    { item with dailySamples := Function.update item.dailySamples candidate none }
  | .deleteDays candidate =>
    { item with historyDays := Function.update item.historyDays candidate none }

/-- The statistics of a candidate are those from scratch. -/
structure Recomputed (formatDay : ℤ → String) (item : HealthHistory)
    (statistics : HistoryStatistics)
    (now : Time) (candidate : String) : Prop where
  daily : statistics.daily candidate =
    some (summarizeSamples ((item.dailySamples candidate).getD []))
  week : statistics.week candidate =
    some (summarizeDays formatDay (item.historyDays candidate) 7 now)
  month : statistics.month candidate =
    some (summarizeDays formatDay (item.historyDays candidate) 30 now)

/-- What is cached was right at a time of the cached day, and is still right for what is left of the
    history. -/
structure CacheSound (formatDay : ℤ → String) (item : HealthHistory)
    (statistics : HistoryStatistics)
    (now : Time) : Prop where
  day : statistics.day = dayText formatDay now 0
  daily : ∀ candidate, ∀ stats ∈ statistics.daily candidate,
    ∀ samples ∈ item.dailySamples candidate, stats = summarizeSamples samples
  week : ∀ candidate, ∀ stats ∈ statistics.week candidate, ∀ days ∈ item.historyDays candidate,
    stats = summarizeDays formatDay (some days) 7 now
  month : ∀ candidate, ∀ stats ∈ statistics.month candidate, ∀ days ∈ item.historyDays candidate,
    stats = summarizeDays formatDay (some days) 30 now

/-- The cache agrees with the days it was made from. -/
def HealthHistory.Sound (formatDay : ℤ → String) (item : HealthHistory) : Prop :=
  ∀ statistics ∈ item.historyStatsCache, ∃ now, CacheSound formatDay item statistics now

theorem updateHistories_cache (item : HealthHistory) (candidates : List String)
    (measured : String → Option ProbeEvidence) (now : Time) :
    (updateHistories formatDay item candidates measured now).1.historyStatsCache =
      item.historyStatsCache := by
  unfold updateHistories
  generalize (fun _ => ⟨false, false⟩ : String → HistoryChange) = changes
  induction candidates generalizing item changes with
  | nil => rfl
  | cons first rest ih => exact ih _ _

/-- **What has not changed.** -/
theorem updateHistories_spec (item : HealthHistory) {candidates : List String} {candidate : String}
    (hmem : candidate ∈ candidates) (measured : String → Option ProbeEvidence) (now : Time) :
    (((updateHistories formatDay item candidates measured now).2 candidate).daily = false →
      ∃ samples, item.dailySamples candidate = some samples ∧
        (updateHistories formatDay item candidates measured now).1.dailySamples candidate =
          some samples) ∧
    (((updateHistories formatDay item candidates measured now).2 candidate).period = false →
      ∃ days, item.historyDays candidate = some days ∧
        (updateHistories formatDay item candidates measured now).1.historyDays candidate =
          some days) := by
  cases hmeasured : measured candidate with
  | some evidence =>
    have hchanged : (updateHistories formatDay item candidates measured now).2 candidate =
        ⟨true, true⟩ :=
      visits_measured formatDay measured now (by simp [hmeasured]) candidates (.inl hmem)
    rw [hchanged]
    exact ⟨nofun, nofun⟩
  | none =>
    have hvisited : Visited formatDay item candidate none now
        (updateHistories formatDay item candidates measured now) :=
      visits_unmeasured formatDay measured now hmeasured candidates hmem rfl rfl
    obtain ⟨hsamples, hdays⟩ := Prod.mk.inj hvisited.entry
    rw [hvisited.change]
    exact ⟨fun h => ⟨_, updateHistory_daily h, hsamples⟩, fun h =>
      ⟨_, updateHistory_period h, hdays⟩⟩

/-- A value that is used from the cache is the one from scratch. -/
theorem cachedOr_eq
    (h : ∀ stats ∈ cached, changed = false → stats = fresh) :
      cachedOr cached changed fresh = fresh := by
  cases cached with
  | none => rfl
  | some stats =>
    cases changed with
    | true => rfl
    | false => exact h stats rfl rfl

section Format

variable (hformat : Function.Injective formatDay)

include hformat

theorem summarizeDays_congr
    (hday : dayText formatDay now 0 = dayText formatDay now' 0) (days : Option Days) (count : ℤ) :
    summarizeDays formatDay days count now = summarizeDays formatDay days count now' := by
  have hnumber : dayNumber (unix now) = dayNumber (unix now') := by
    simpa [dayText] using hformat hday
  have htext : dayText formatDay now = dayText formatDay now' := by
    funext back
    rw [dayText, dayText, hnumber]
  unfold summarizeDays summarizeEntries recentBuckets
  rw [htext]

/-- Cached statistics of a period that has not changed, on the same day. -/
theorem period_cached {cached : Option HealthStats}
    (hcached : ∀ stats ∈ cached, ∀ days ∈ before,
      stats = summarizeDays formatDay (some days) count now')
    (hday : dayText formatDay now 0 = dayText formatDay now' 0)
    (hsame : ∃ days, before = some days ∧ after = some days) :
    ∀ stats ∈ cached, stats = summarizeDays formatDay after count now := by
  intro stats hstats
  obtain ⟨days, rfl, rfl⟩ := hsame
  rw [hcached stats hstats days rfl, summarizeDays_congr hformat hday]

variable {item : HealthHistory} (hsound : item.Sound formatDay)

include hsound

/-- One call. -/
theorem refresh_recomputed (candidates : List String) (measured : String → Option ProbeEvidence)
    (now : Time) : ∀ candidate ∈ candidates,
      Recomputed formatDay (refreshHistoryStatistics formatDay item candidates measured now).1
        (refreshHistoryStatistics formatDay item candidates measured now).2 now candidate := by
  intro candidate hmem
  obtain ⟨hdaily, hperiod⟩ := @updateHistories_spec formatDay item _ _ hmem measured now
  have hcache := @updateHistories_cache formatDay item candidates measured now
  unfold refreshHistoryStatistics
  generalize updateHistories formatDay item candidates measured now = updated at *
  obtain ⟨after, changes⟩ := updated
  dsimp only at hdaily hperiod hcache ⊢
  have hperiods (count : ℤ) (stats : HistoryStatistics → Option HealthStats)
      (hstats : ∀ statistics now', CacheSound formatDay item statistics now' →
        ∀ cached ∈ stats statistics, ∀ days ∈ item.historyDays candidate,
          cached = summarizeDays formatDay (some days) count now') :
      cachedOr (after.historyStatsCache.bind stats) ((changes candidate).period ||
        after.historyStatsCache.all fun statistics => statistics.day ≠ dayText formatDay now 0)
        (summarizeDays formatDay (after.historyDays candidate) count now) =
      summarizeDays formatDay (after.historyDays candidate) count now := by
    refine cachedOr_eq fun cached hcached hsame => ?_
    obtain ⟨hunchanged, hday⟩ := Bool.or_eq_false_iff.mp hsame
    obtain ⟨statistics, hfound, hcached⟩ := Option.bind_eq_some_iff.mp hcached
    obtain ⟨now', hnow'⟩ := hsound statistics (hcache ▸ hfound)
    rw [hfound] at hday
    have hday : statistics.day = dayText formatDay now 0 := by simpa using hday
    exact period_cached hformat (hstats statistics now' hnow') (hday.symm.trans hnow'.day)
      (hperiod hunchanged) cached hcached
  constructor
  · simp only [nextStatistics, if_pos hmem]
    refine congrArg some (cachedOr_eq fun cached hcached hsame => ?_)
    obtain ⟨statistics, hfound, hcached⟩ := Option.bind_eq_some_iff.mp hcached
    obtain ⟨now', hnow'⟩ := hsound statistics (hcache ▸ hfound)
    obtain ⟨samples, hbefore, hafter⟩ := hdaily hsame
    rw [hafter, Option.getD_some]
    exact hnow'.daily candidate cached hcached samples hbefore
  · simp only [nextStatistics, if_pos hmem]
    exact congrArg some (hperiods 7 (·.week candidate) fun _ _ h => h.week candidate)
  · simp only [nextStatistics, if_pos hmem]
    exact congrArg some (hperiods 30 (·.month candidate) fun _ _ h => h.month candidate)

theorem refresh_sound (candidates : List String) (measured : String → Option ProbeEvidence)
    (now : Time) :
    (refreshHistoryStatistics formatDay item candidates measured now).1.Sound formatDay := by
  have hrecomputed := refresh_recomputed hformat hsound candidates measured now
  intro statistics hstatistics
  obtain rfl := Option.some.inj hstatistics
  -- only listed candidates are cached
  have hlisted {candidate : String} {value cached : HealthStats}
      (hcached : cached ∈ if candidate ∈ candidates then some value else none) :
      candidate ∈ candidates := by
    by_contra hnot
    simp [hnot] at hcached
  refine ⟨now, rfl, fun candidate stats hstats samples hsamples => ?_,
    fun candidate stats hstats days hdays => ?_, fun candidate stats hstats days hdays => ?_⟩
  · have hdaily := (hrecomputed candidate (hlisted hstats)).daily
    rw [Option.mem_def.mp hsamples] at hdaily
    exact Option.mem_unique hstats hdaily
  · have hweek := (hrecomputed candidate (hlisted hstats)).week
    rw [Option.mem_def.mp hdays] at hweek
    exact Option.mem_unique hstats hweek
  · have hmonth := (hrecomputed candidate (hlisted hstats)).month
    rw [Option.mem_def.mp hdays] at hmonth
    exact Option.mem_unique hstats hmonth

/-- Every event keeps the cache right. -/
theorem apply_sound (event : HistoryEvent) : (item.apply formatDay event).Sound formatDay := by
  cases event with
  | refresh candidates measured now => exact refresh_sound hformat hsound candidates measured now
  | deleteSamples deleted =>
    intro statistics hstatistics
    obtain ⟨now, h⟩ := hsound statistics hstatistics
    refine ⟨now, h.day, fun candidate stats hstats samples hsamples => ?_, h.week, h.month⟩
    change samples ∈ Function.update item.dailySamples deleted none candidate at hsamples
    rw [Function.update_apply] at hsamples
    split at hsamples
    · cases hsamples
    · exact h.daily candidate stats hstats samples hsamples
  | deleteDays deleted =>
    intro statistics hstatistics
    obtain ⟨now, h⟩ := hsound statistics hstatistics
    have hkept {candidate : String} {days : Days}
        (hdays : days ∈ Function.update item.historyDays deleted none candidate) :
        days ∈ item.historyDays candidate := by
      rw [Function.update_apply] at hdays
      split at hdays
      · cases hdays
      · exact hdays
    exact ⟨now, h.day, h.daily,
      fun candidate stats hstats days hdays => h.week candidate stats hstats days (hkept hdays),
      fun candidate stats hstats days hdays => h.month candidate stats hstats days (hkept hdays)⟩

theorem run_sound (events : List HistoryEvent) :
    (events.foldl (HealthHistory.apply formatDay) item).Sound formatDay :=
  List.foldlRecOn (motive := HealthHistory.Sound formatDay) events _ hsound
    fun _ h event _ => apply_sound hformat h event

end Format

/-- **Incremental statistics.** After any calls and deletions, in any order and at any times, a call
    returns for each of its candidates the statistics from scratch. -/
theorem history_statistics_recomputed
    (hformat : Function.Injective formatDay) {item : HealthHistory}
    (hstart : item.historyStatsCache = none) (events : List HistoryEvent) (candidates : List String)
    (measured : String → Option ProbeEvidence) (now : Time) :
    ∀ candidate ∈ candidates, Recomputed formatDay
      (refreshHistoryStatistics formatDay (events.foldl (HealthHistory.apply formatDay) item)
        candidates measured now).1
      (refreshHistoryStatistics formatDay (events.foldl (HealthHistory.apply formatDay) item)
        candidates measured now).2 now candidate := by
  have hsound : item.Sound formatDay := by
    intro statistics hstatistics
    rw [hstart] at hstatistics
    cases hstatistics
  exact refresh_recomputed hformat (run_sound hformat hsound events) candidates measured now

end Runs

/-! ### Dates -/

/-- The year and the day in it, both from March on, of a day since March of the year 0. -/
def marchYear (day : ℤ) : ℤ × ℤ :=
  let century := min (day % 146097 / 36524) 3
  let rest := day % 146097 - century * 36524
  let year := min (rest % 1461 / 365) 3
  (day / 146097 * 400 + century * 100 + rest / 1461 * 4 + year, rest % 1461 - year * 365)

theorem marchYear_spec (day : ℤ) : ∃ cycle century four year : ℤ,
    (0 ≤ century ∧ century ≤ 3 ∧ 0 ≤ four ∧ four ≤ 24 ∧ 0 ≤ year ∧ year ≤ 3) ∧
    (marchYear day).1 = cycle * 400 + century * 100 + four * 4 + year ∧
    0 ≤ (marchYear day).2 ∧ (marchYear day).2 ≤ 365 ∧
    day = cycle * 146097 + century * 36524 + four * 1461 + year * 365 + (marchYear day).2 := by
  refine ⟨_, _, _, _, ?_, rfl, ?_⟩
  · omega
  · simp only [marchYear]
    omega

/-- The year, month and day of a day since 1970. -/
def dateOf (day : ℤ) : ℤ × ℕ × ℕ :=
  let (year, d) := marchYear (day + 719468)
  let month := (5 * d + 2) / 153
  (year + month / 10, (month + 3 - month / 10 * 12).toNat, (d - (153 * month + 2) / 5 + 1).toNat)

theorem dateOf_lt (day : ℤ) : (dateOf day).2.1 < 32 ∧ (dateOf day).2.2 < 32 := by
  obtain ⟨-, -, -, -, -, -, hd, hd', -⟩ := marchYear_spec (day + 719468)
  simp only [dateOf]
  omega

theorem dateOf_injective : Function.Injective dateOf := by
  intro a b h
  obtain ⟨q, c, f, y, hbounds, hyear, hd, hd', ha⟩ := marchYear_spec (a + 719468)
  obtain ⟨q', c', f', y', hbounds', hyear', he, he', hb⟩ := marchYear_spec (b + 719468)
  simp only [dateOf, Prod.mk.injEq] at h
  generalize (marchYear (a + 719468)).2 = d at *
  generalize (marchYear (b + 719468)).2 = e at *
  have hmonth : (5 * d + 2) / 153 = (5 * e + 2) / 153 := by omega
  have hcycle : q = q' := by omega
  have hcentury : c = c' := by omega
  omega

/-- A number below 100. -/
def twoDigits (n : ℕ) : List Char := [(n / 10).digitChar, (n % 10).digitChar]

/-- The layout `2006-01-02`, for years with four digits. -/
def dateText (day : ℤ) : String :=
  let (year, month, d) := dateOf day
  year.repr ++ String.ofList ('-' :: twoDigits month ++ '-' :: twoDigits d)

example : [-1, 58, 59].map dateText = ["1969-12-31", "1970-02-28", "1970-03-01"] := by
  decide +kernel

theorem dateText_injective : Function.Injective dateText := by
  have hdigits : ∀ m < 32, ∀ n < 32, twoDigits m = twoDigits n → m = n := by decide +kernel
  intro a b h
  have hlists := congrArg String.toList h
  simp only [dateText, String.toList_append, String.toList_ofList] at hlists
  obtain ⟨hyear, hrest⟩ := List.append_inj' hlists rfl
  have hmonth := hdigits _ (dateOf_lt a).1 _ (dateOf_lt b).1
    (congrArg (fun text => (text.drop 1).take 2) hrest)
  have hday := hdigits _ (dateOf_lt a).2 _ (dateOf_lt b).2 (congrArg (List.drop 4) hrest)
  exact dateOf_injective (Prod.ext (Int.repr_injective (String.toList_injective hyear))
    (Prod.ext hmonth hday))

/-- A sample is measured, the buckets are deleted, and the samples are a day older. -/
theorem dateText_recomputed : Recomputed dateText
      (refreshHistoryStatistics dateText
        ([.refresh ["a"] (fun _ => some ⟨none, true, some 40⟩) 0, .deleteDays "a"].foldl
          (HealthHistory.apply dateText) ⟨fun _ => none, fun _ => none, none⟩)
        ["a", "b"] (fun _ => none) (90000 * second)).1
      (refreshHistoryStatistics dateText
        ([.refresh ["a"] (fun _ => some ⟨none, true, some 40⟩) 0, .deleteDays "a"].foldl
          (HealthHistory.apply dateText) ⟨fun _ => none, fun _ => none, none⟩)
        ["a", "b"] (fun _ => none) (90000 * second)).2 (90000 * second) "a" :=
  history_statistics_recomputed dateText_injective rfl _ _ _ _ "a" List.mem_cons_self

end SbGateway.Agent.Health
