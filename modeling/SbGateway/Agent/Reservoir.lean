import SbGateway.Agent.HistoryStats

namespace SbGateway.Agent.Health

/-!
# The latency reservoir of a day (`appendHistoryDay` in `internal/agent/health_logic.go`)

A bucket keeps at most 256 of the delays of its day.  Once it is full, a new delay replaces an old
one in the slot that a linear congruential formula gives modulo the number of successes.  The
multiplier is multiplied by that same number, so the formula is `12345` modulo the successes: from
the 12346th success of a day on, the slot is always 12345 and no delay enters any more.

* `bucketOf_foldl` — the bucket of a day sees the samples of that day, in order;
* `Recorded` — the counters add up, and every kept delay is one of a recorded success;
* `reservoir_open_iff` — a new delay can still enter exactly until the 12345th success.
-/

/-! ### The bucket of a day -/

section Days

variable (formatDay : ℤ → String)

/-- The day a sample is counted for. -/
def sampleDay (sample : HealthSample) : String := formatDay (dayNumber (truncate sample.sampleAt))

/-- `days[day]`: a missing bucket is the zero one. -/
def bucketOf (days : Days) (day : String) : DayBucket := (days.lookup day).getD ⟨0, 0, 0, []⟩

theorem bucketOf_append_self (days : Days) (sample : HealthSample) :
    bucketOf (appendHistoryDay formatDay days sample) (sampleDay formatDay sample) =
      (bucketOf days (sampleDay formatDay sample)).add sample := by
  unfold bucketOf appendHistoryDay sampleDay
  rw [AList.lookup_insert]
  rfl

theorem bucketOf_append_other (days : Days) (h : sampleDay formatDay sample ≠ day) :
    bucketOf (appendHistoryDay formatDay days sample) day = bucketOf days day := by
  show ((days.insert (sampleDay formatDay sample) _).lookup day).getD _ = _
  rw [AList.lookup_insert_ne (Ne.symm h)]
  rfl

/-- The bucket of a day sees the samples of that day, in order. -/
theorem bucketOf_foldl (day : String) (samples : List HealthSample) (days : Days) :
    bucketOf (samples.foldl (appendHistoryDay formatDay) days) day =
      (samples.filter fun sample => sampleDay formatDay sample = day).foldl DayBucket.add
        (bucketOf days day) := by
  induction samples generalizing days with
  | nil => rfl
  | cons sample samples ih =>
    rw [List.foldl_cons, ih]
    by_cases hday : sampleDay formatDay sample = day
    · rw [List.filter_cons_of_pos (by simpa using hday), List.foldl_cons, ← hday,
        bucketOf_append_self]
    · rw [List.filter_cons_of_neg (by simpa using hday), bucketOf_append_other formatDay days hday]

end Days

/-! ### One sample -/

variable {bucket : DayBucket} {sample : HealthSample} {delay : ℤ}

/-- The sample is a success with this delay. -/
def HealthSample.Delayed (sample : HealthSample) (delay : ℤ) : Prop :=
  sample.ok = true ∧ sample.delayMS = some delay

/-- The reservoir with one more delay.  The multiplier drops out of the slot, and a slot that is
    not below 256 is none of a full reservoir. -/
def stored (values : List ℤ) (successes : ℕ) (delay : ℤ) : List ℤ :=
  if values.length < historyReservoir then values ++ [delay]
  else values.set (12345 % successes) delay

theorem length_stored (h : values.length ≤ historyReservoir) (successes : ℕ) (delay : ℤ) :
    (stored values successes delay).length = min (values.length + 1) historyReservoir := by
  unfold stored
  split_ifs with hroom
  · rw [List.length_append, List.length_singleton]
    omega
  · rw [List.length_set]
    omega

theorem mem_stored (h : value ∈ stored values successes delay) :
    value ∈ values ∨ value = delay := by
  unfold stored at h
  split_ifs at h
  · simpa using h
  · exact List.mem_or_eq_of_mem_set h

theorem addDelay_eq (h : bucket.latencySamples.length ≤ historyReservoir) (delay : ℤ) :
    bucket.addDelay delay =
      { bucket with latencySamples := stored bucket.latencySamples bucket.successes delay } := by
  unfold DayBucket.addDelay stored
  by_cases hroom : bucket.latencySamples.length < historyReservoir
  · rw [if_pos hroom, if_pos hroom]
  · rw [if_neg hroom, if_neg hroom]
    simp only [Nat.mul_add_mod]
    split_ifs
    · rfl
    · rw [List.set_eq_of_length_le (by omega)]

theorem add_of_delayed (hbound : bucket.latencySamples.length ≤ historyReservoir)
    (h : sample.Delayed delay) :
    bucket.add sample = ⟨bucket.samples + 1, bucket.successes + 1, bucket.failures,
      stored bucket.latencySamples (bucket.successes + 1) delay⟩ := by
  unfold DayBucket.add
  rw [if_pos h.1, h.2]
  exact @addDelay_eq ⟨bucket.samples + 1, bucket.successes + 1, bucket.failures,
    bucket.latencySamples⟩ hbound delay

/-! ### Every reached bucket -/

/-- What a bucket has recorded of the samples of its day. -/
structure Recorded (samples : List HealthSample) (bucket : DayBucket) : Prop where
  counts : bucket.samples = bucket.successes + bucket.failures
  bounded : bucket.latencySamples.length ≤ historyReservoir
  values : ∀ value ∈ bucket.latencySamples, ∃ sample ∈ samples, sample.Delayed value

/-- **Step.** One more sample is recorded. -/
theorem Recorded.add (h : Recorded samples bucket) (sample : HealthSample) :
    Recorded (samples ++ [sample]) (bucket.add sample) := by
  have hkept : ∀ value ∈ bucket.latencySamples,
      ∃ sample' ∈ samples ++ [sample], sample'.Delayed value := by
    intro value hvalue
    obtain ⟨sample', hmem, hdelayed⟩ := h.values value hvalue
    exact ⟨sample', List.mem_append_left _ hmem, hdelayed⟩
  have hcounts := h.counts
  by_cases hdelayed : ∃ delay, sample.Delayed delay
  · obtain ⟨delay, hdelayed⟩ := hdelayed
    rw [add_of_delayed h.bounded hdelayed]
    refine ⟨by simp only; omega, ?_, ?_⟩
    · rw [length_stored h.bounded]
      exact min_le_right _ _
    · intro value hvalue
      rcases mem_stored hvalue with hold | rfl
      · exact hkept value hold
      · exact ⟨sample, by simp, hdelayed⟩
  · -- the reservoir stays, and one counter goes up beside the number of samples
    unfold DayBucket.add
    split
    · next hok =>
      split
      · exact ⟨by simp only; omega, h.bounded, hkept⟩
      · next delay hdelay => exact absurd ⟨delay, hok, hdelay⟩ hdelayed
    · exact ⟨by simp only; omega, h.bounded, hkept⟩

/-- **Run.** The samples added one by one are recorded. -/
theorem Recorded.foldl (h : Recorded before bucket) (samples : List HealthSample) :
    Recorded (before ++ samples) (samples.foldl DayBucket.add bucket) := by
  induction samples generalizing before bucket with
  | nil => simpa using h
  | cons sample samples ih => simpa using ih (h.add sample)

theorem recorded_empty : Recorded [] ⟨0, 0, 0, []⟩ :=
  ⟨rfl, Nat.zero_le _, fun _ h => absurd h List.not_mem_nil⟩

/-! ### When a delay can still enter -/

variable {samples : List HealthSample}

/-- All of the samples are successes with this delay. -/
def AllDelayed (delay : ℤ) (samples : List HealthSample) : Prop :=
  ∀ sample ∈ samples, sample.Delayed delay

theorem allDelayed_replicate (n : ℕ) (time : ℚ) (delay : ℤ) :
    AllDelayed delay (List.replicate n ⟨time, true, some delay⟩) := by
  intro sample hsample
  rw [List.eq_of_mem_replicate hsample]
  exact ⟨rfl, rfl⟩

/-- Successes with a delay are counted, and they fill the reservoir. -/
theorem foldl_delayed (h : AllDelayed delay samples)
    (hbound : bucket.latencySamples.length ≤ historyReservoir) :
    (samples.foldl DayBucket.add bucket).successes = bucket.successes + samples.length ∧
      (samples.foldl DayBucket.add bucket).latencySamples.length =
        min (bucket.latencySamples.length + samples.length) historyReservoir := by
  induction samples generalizing bucket with
  | nil => exact ⟨rfl, (min_eq_left hbound).symm⟩
  | cons sample samples ih =>
    have hlength := length_stored hbound (bucket.successes + 1) delay
    have hrest := @ih (bucket.add sample) fun s hs => h s (List.mem_cons_of_mem _ hs)
    rw [add_of_delayed hbound (h sample List.mem_cons_self)] at hrest
    rw [List.foldl_cons, List.length_cons, add_of_delayed hbound (h sample List.mem_cons_self)]
    simp only [hlength] at hrest
    obtain ⟨hsuccesses, hfilled⟩ := hrest (min_le_right _ _)
    exact ⟨by omega, by omega⟩

/-- A full reservoir that has seen 12345 successes. -/
def DayBucket.Frozen (bucket : DayBucket) : Prop :=
  bucket.latencySamples.length = historyReservoir ∧ 12345 ≤ bucket.successes

/-- From then on the slot is 12345, which is none of the reservoir. -/
theorem Frozen.foldl (h : bucket.Frozen) (hsamples : AllDelayed delay samples) :
    (samples.foldl DayBucket.add bucket).latencySamples = bucket.latencySamples := by
  induction samples generalizing bucket with
  | nil => rfl
  | cons sample samples ih =>
    obtain ⟨hfull, hmany⟩ := h
    have hslot : 12345 % (bucket.successes + 1) = 12345 := Nat.mod_eq_of_lt (by omega)
    have hsame : stored bucket.latencySamples (bucket.successes + 1) delay =
        bucket.latencySamples := by
      unfold stored
      rw [if_neg (by omega), hslot, List.set_eq_of_length_le (by rw [hfull]; decide)]
    rw [List.foldl_cons, add_of_delayed hfull.le (hsamples sample List.mem_cons_self), hsame]
    exact ih ⟨hfull, Nat.le_succ_of_le hmany⟩ fun s hs => hsamples s (List.mem_cons_of_mem _ hs)

/-- As long as the bucket is not frozen, enough samples of a delay bring it in: the 12345th success
    goes into slot 0, if there is no room for it. -/
theorem mem_foldl_of_open (hbound : bucket.latencySamples.length ≤ historyReservoir)
    (h : ¬ bucket.Frozen) (time : ℚ) (delay : ℤ) :
    ∃ n, delay ∈ ((List.replicate n (⟨time, true, some delay⟩ : HealthSample)).foldl DayBucket.add
      bucket).latencySamples := by
  by_cases hroom : bucket.latencySamples.length < historyReservoir
  · refine ⟨1, ?_⟩
    show delay ∈ (bucket.add ⟨time, true, some delay⟩).latencySamples
    rw [add_of_delayed hbound ⟨rfl, rfl⟩, stored, if_pos hroom]
    simp
  · have hfew : bucket.successes < 12345 := by
      by_contra hmany
      exact h ⟨by omega, by omega⟩
    refine ⟨(12344 - bucket.successes) + 1, ?_⟩
    obtain ⟨hsuccesses, hfilled⟩ :=
      foldl_delayed (allDelayed_replicate (12344 - bucket.successes) time delay) hbound
    rw [List.length_replicate] at hsuccesses hfilled
    have hslot : bucket.successes + (12344 - bucket.successes) + 1 = 12345 := by omega
    rw [List.replicate_succ', List.foldl_append, List.foldl_cons, List.foldl_nil,
      add_of_delayed (by omega) ⟨rfl, rfl⟩, stored, if_neg (by omega), hsuccesses, hslot]
    exact List.mem_set (by rw [hfilled, min_eq_right (by omega)]; decide) delay

/-! ### The reservoir of a day -/

section Day

variable (formatDay : ℤ → String)

/-- The bucket of a day after some samples of any days. -/
def bucketAfter (samples : List HealthSample) (day : String) : DayBucket :=
  bucketOf (samples.foldl (appendHistoryDay formatDay) ∅) day

/-- Some further successes of the day, all with this delay, bring the delay into the reservoir. -/
def CanEnter (samples : List HealthSample) (day : String) (delay : ℤ) : Prop :=
  ∃ more, AllDelayed delay more ∧ (∀ sample ∈ more, sampleDay formatDay sample = day) ∧
    delay ∈ (bucketAfter formatDay (samples ++ more) day).latencySamples

variable {formatDay}

theorem bucketAfter_append
    (h : ∀ sample ∈ more, sampleDay formatDay sample = day) (samples : List HealthSample) :
    bucketAfter formatDay (samples ++ more) day =
      more.foldl DayBucket.add (bucketAfter formatDay samples day) := by
  unfold bucketAfter
  rw [List.foldl_append, bucketOf_foldl formatDay day more]
  congr 1
  exact List.filter_eq_self.mpr fun sample hsample => by simpa using h sample hsample

theorem recorded_bucketAfter (samples : List HealthSample) (day : String) :
    Recorded (samples.filter fun sample => sampleDay formatDay sample = day)
      (bucketAfter formatDay samples day) := by
  unfold bucketAfter
  rw [bucketOf_foldl]
  exact recorded_empty.foldl _

/-- A frozen bucket takes no other delay. -/
theorem not_canEnter_of_frozen (hfrozen : (bucketAfter formatDay samples day).Frozen)
    (hnew : delay ∉ (bucketAfter formatDay samples day).latencySamples) :
    ¬ CanEnter formatDay samples day delay := by
  rintro ⟨more, hmore, hday, hmem⟩
  rw [bucketAfter_append hday, Frozen.foldl hfrozen hmore] at hmem
  exact hnew hmem

theorem sampleDay_replicate
    (h : sample ∈ List.replicate n (⟨time, true, some delay⟩ : HealthSample)) :
    sampleDay formatDay sample = formatDay (dayNumber (truncate time)) := by
  rw [List.eq_of_mem_replicate h]
  rfl

theorem canEnter_of_open
    (h : ¬ (bucketAfter formatDay samples (formatDay (dayNumber (truncate time)))).Frozen)
    (delay : ℤ) : CanEnter formatDay samples (formatDay (dayNumber (truncate time))) delay := by
  obtain ⟨n, hmem⟩ := mem_foldl_of_open (recorded_bucketAfter samples _).bounded h time delay
  refine ⟨_, allDelayed_replicate n time delay, fun _ => sampleDay_replicate, ?_⟩
  rw [bucketAfter_append fun _ => sampleDay_replicate]
  exact hmem

/-- **The reservoir of a day.** After any samples, the counters of the bucket of a day add up, it
    keeps at most 256 delays and each of them is of a recorded success of the day; and a delay that
    is not in it can still enter exactly if there is room or the day has had fewer than 12345
    successes. -/
theorem reservoir_open_iff (formatDay : ℤ → String) (samples : List HealthSample) (time : ℚ) :
    let day := formatDay (dayNumber (truncate time))
    let bucket := bucketAfter formatDay samples day
    bucket.samples = bucket.successes + bucket.failures ∧
      bucket.latencySamples.length ≤ 256 ∧
      (∀ value ∈ bucket.latencySamples,
        ∃ sample ∈ samples, sampleDay formatDay sample = day ∧ sample.Delayed value) ∧
      ∀ delay, delay ∉ bucket.latencySamples →
        (CanEnter formatDay samples day delay ↔
          bucket.latencySamples.length < 256 ∨ bucket.successes < 12345) := by
  intro day bucket
  have hrecorded := @recorded_bucketAfter formatDay samples day
  refine ⟨hrecorded.counts, hrecorded.bounded, ?_, ?_⟩
  · intro value hvalue
    obtain ⟨sample, hsample, hdelayed⟩ := hrecorded.values value hvalue
    obtain ⟨hmem, hday⟩ := List.mem_filter.mp hsample
    exact ⟨sample, hmem, by simpa using hday, hdelayed⟩
  · intro delay hnew
    have hbounded : bucket.latencySamples.length ≤ 256 := hrecorded.bounded
    have hopen : bucket.latencySamples.length < 256 ∨ bucket.successes < 12345 ↔
        ¬ bucket.Frozen := by
      unfold DayBucket.Frozen historyReservoir
      omega
    rw [hopen]
    constructor
    · intro henter hfrozen
      exact not_canEnter_of_frozen hfrozen hnew henter
    · intro h
      exact canEnter_of_open h delay

/-- The name of a day is its number, and the day is the one of time zero. -/
def sampleBucket (samples : List HealthSample) : DayBucket :=
  bucketAfter (fun day => toString day) samples (toString (dayNumber (truncate 0)))

/-- The samples of a day with some successes of one millisecond. -/
def sampleDayOfSuccesses (n : ℕ) : List HealthSample := List.replicate n ⟨0, true, some 1⟩

/-- They are counted, they fill the reservoir, and no other delay is in it. -/
theorem sampleBucket_successes (n : ℕ) : (sampleBucket (sampleDayOfSuccesses n)).successes = n ∧
    (sampleBucket (sampleDayOfSuccesses n)).latencySamples.length = min n 256 ∧
    (2 : ℤ) ∉ (sampleBucket (sampleDayOfSuccesses n)).latencySamples := by
  have hall : AllDelayed 1 (sampleDayOfSuccesses n) := allDelayed_replicate n 0 1
  have hlength : (sampleDayOfSuccesses n).length = n := List.length_replicate
  have hday : ∀ sample ∈ sampleDayOfSuccesses n,
      sampleDay (fun day => toString day) sample = toString (dayNumber (truncate 0)) :=
    fun _ => sampleDay_replicate
  have hbucket : sampleBucket (sampleDayOfSuccesses n) =
      (sampleDayOfSuccesses n).foldl DayBucket.add ⟨0, 0, 0, []⟩ := bucketAfter_append hday []
  obtain ⟨hsuccesses, hfilled⟩ := foldl_delayed hall recorded_empty.bounded
  rw [hbucket, hsuccesses, hfilled, hlength]
  refine ⟨Nat.zero_add n, by rw [List.length_nil, Nat.zero_add, historyReservoir], fun hmem => ?_⟩
  obtain ⟨sample, hsample, hdelayed⟩ :=
    (recorded_empty.foldl (sampleDayOfSuccesses n)).values 2 hmem
  have hone := hdelayed.2.symm.trans (hall sample hsample).2
  simp at hone

/-- After 300 successes the reservoir is full, and a delay of two milliseconds can still enter. -/
theorem sampleDayOfSuccesses_canEnter :
    (sampleBucket (sampleDayOfSuccesses 300)).latencySamples.length = 256 ∧
      CanEnter (fun day => toString day) (sampleDayOfSuccesses 300)
        (toString (dayNumber (truncate 0))) 2 := by
  obtain ⟨hsuccesses, hfull, hnew⟩ := sampleBucket_successes 300
  refine ⟨hfull, ((reservoir_open_iff (fun day => toString day) _ 0).2.2.2 2 hnew).mpr
    (.inr (?_ : (sampleBucket (sampleDayOfSuccesses 300)).successes < 12345))⟩
  rw [hsuccesses]
  decide

/-- After 12345 successes it never enters. -/
theorem sampleDayOfSuccesses_frozen :
    (2 : ℤ) ∉ (sampleBucket (sampleDayOfSuccesses 12345)).latencySamples ∧
      ¬ CanEnter (fun day => toString day) (sampleDayOfSuccesses 12345)
        (toString (dayNumber (truncate 0))) 2 := by
  obtain ⟨hsuccesses, hfull, hnew⟩ := sampleBucket_successes 12345
  exact ⟨hnew, not_canEnter_of_frozen ⟨hfull, hsuccesses.ge⟩ hnew⟩

end Day

end SbGateway.Agent.Health
