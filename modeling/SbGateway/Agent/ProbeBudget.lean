import SbGateway.Agent.Optimization

namespace SbGateway.Agent.Health

/-!
# The probe budget (`internal/agent/health_probe_budget.go`)

The policies of a tick share a budget of quality probes.  A policy claims its targets, which
reserves their keys, and then probes them; nodes with the same fingerprint have the same key, and a
result that is not too old serves every policy.

* `claimProbeTargets`, `sharedQualityBatch`, `sharedQualityProbe` — the calls;
* `ProbeBudget.Sound` — what is probed was reserved, once, within the limit;
* `claim_spec`, `batch_sound`, `probe_sound` — every call keeps that;
* `probe_budget_kept` — the budget in every tick.
-/

/-! ### Data -/

/-- `probeEvidence`, as far as the budget reads it. -/
structure QualityEvidence where
  ok : Bool
  deferred : Bool
  /-- Nothing for the zero time. -/
  observedAt : Option Time

/-- `sharedProbeResult`. -/
structure SharedProbeResult where
  storedAt : Time
  evidence : QualityEvidence

/-- `healthPolicyContract`: the mode, and the fingerprints of the nodes. -/
structure ProbeContract where
  mode : String
  fingerprint : String → String

/-- `healthProbeBudget`, with the state of its environment. -/
structure ProbeBudget where
  limit : ℤ
  used : Finset String
  quality : String → Option SharedProbeResult
  qualityAttempted : Finset String
  deferredPolicies : String → Option Time
  /-- How often the clock was read. -/
  clockReads : ℕ
  /-- The keys whose nodes were handed to the runtime, the last one first. -/
  handed : List String

/-- The clock, and the runtime. -/
structure ProbeEnv where
  clock : ℕ → Time
  /-- The evidence of `Probe`, after some probes. -/
  probe : ℕ → String → QualityEvidence
  /-- The evidence of `ProbeQualityParallel`; a node may have none. -/
  probeParallel : ℕ → String → Option QualityEvidence
  /-- The runtime has `ProbeQualityParallel`. -/
  parallel : Bool

/-- How long a result is shared. -/
def sharedProbeLifetime : Time := 15 * second

/-- How far the two results of a pair may be apart. -/
def optimizationPairSkew : Time := 10 * second

/-- How long a probe takes at most. -/
def qualityProbeTimeout : Time := 5 * second

/-- The answer to a probe that is put off. -/
def deferredEvidence : QualityEvidence := ⟨false, true, none⟩

/-- An unverified node has a key of its own. -/
def probeKey (policyID node : String) (contract : ProbeContract) : String :=
  if contract.fingerprint node ≠ "" then contract.fingerprint node else policyID ++ ":" ++ node

/-- The nodes of a contract have different fingerprints, which are digests. -/
structure ProbeContract.Distinct (contract : ProbeContract) : Prop where
  injective : ∀ node node', contract.fingerprint node = contract.fingerprint node' →
    contract.fingerprint node ≠ "" → node = node'
  digest : ∀ node, ':' ∉ (contract.fingerprint node).toList

/-! ### Calls -/

namespace ProbeBudget

variable (env : ProbeEnv) (policyID : String) (contract : ProbeContract)

/-- `beginProbeBudget`: what is kept from the last tick are the deferred policies that still
    exist. -/
def start (probeBudget : ℤ) (exists' : String → Bool) (previous : Option ProbeBudget) :
    ProbeBudget where
  limit := probeBudget
  used := ∅
  quality := fun _ => none
  qualityAttempted := ∅
  deferredPolicies := fun id =>
    if exists' id then previous.bind (·.deferredPolicies id) else none
  clockReads := 0
  handed := []

/-- `time.Now()`. -/
def readClock (b : ProbeBudget) : Time × ProbeBudget :=
  (env.clock b.clockReads, { b with clockReads := b.clockReads + 1 })

/-- The policy waits, since the first time. -/
def markDeferred (now : Time) (b : ProbeBudget) : ProbeBudget :=
  { b with
    deferredPolicies := Function.update b.deferredPolicies policyID
      (some ((b.deferredPolicies policyID).getD now)) }

/-- The policy waits from now on. -/
def deferSharedProbe (b : ProbeBudget) : ProbeBudget :=
  if (b.deferredPolicies policyID).isSome then b
  else
    let (now, b) := b.readClock env
    b.markDeferred policyID now

/-- A result at a time. -/
def cached (b : ProbeBudget) (now : Time) (key : String) : Bool :=
  (b.quality key).any fun result => now - result.storedAt ≤ sharedProbeLifetime

/-- A key takes a place of the budget. -/
def reserve (b : ProbeBudget) (key : String) : ProbeBudget := { b with used := insert key b.used }

/-- The second loop of `claimProbeTargets`. -/
def claimEach (now : Time) : List String → ProbeBudget → (List String × List String) × ProbeBudget
  | [], b => (([], []), b)
  | node :: targets, b =>
    let key := probeKey policyID node contract
    if b.cached now key = false ∧ key ∈ b.qualityAttempted then
      let ((accepted, deferred), b) := claimEach now targets b
      ((accepted, node :: deferred), b)
    else if b.cached now key ∨ key ∈ b.used ∨ (b.used.card : ℤ) < b.limit then
      let ((accepted, deferred), b) :=
        claimEach now targets (if b.cached now key then b else b.reserve key)
      ((node :: accepted, deferred), b)
    else
      let ((accepted, deferred), b) := claimEach now targets b
      ((accepted, node :: deferred), b)

/-- The keys that a claim would add. -/
def newKeys (b : ProbeBudget) (targets : List String) : Finset String :=
  (targets.map fun node => probeKey policyID node contract).toFinset \ b.used

/-- A pair is not split. -/
def refusesPair (b : ProbeBudget) (now : Time) (targets : List String) : Prop :=
  (∃ node ∈ targets, probeKey policyID node contract ∈ b.qualityAttempted ∧
    b.cached now (probeKey policyID node contract) = false) ∨
  b.limit < (b.newKeys policyID contract targets).card + b.used.card

instance (b : ProbeBudget) (now : Time) (targets : List String) :
    Decidable (b.refusesPair policyID contract now targets) := by
  unfold refusesPair
  infer_instance

/-- The accepted targets, and the deferred ones. -/
def claimProbeTargets (targets : List String) (atomicPair : Bool) (b : ProbeBudget) :
    (List String × List String) × ProbeBudget :=
  if b.limit ≤ 0 then ((targets, []), b)
  else
    let (now, b) := b.readClock env
    if atomicPair = true ∧ b.refusesPair policyID contract now targets then
      (([], targets), b.markDeferred policyID now)
    else
      let (lists, b) := b.claimEach policyID contract now targets
      (lists, if lists.2 = [] then b else b.markDeferred policyID now)

/-- The node is handed to the runtime. -/
def hand (b : ProbeBudget) (key : String) : ProbeBudget :=
  { b with qualityAttempted := insert key b.qualityAttempted, handed := key :: b.handed }

/-- A good result of a verified node is kept. -/
def keep (b : ProbeBudget) (node : String) (evidence : QualityEvidence) : ProbeBudget :=
  if evidence.ok = true ∧ contract.fingerprint node ≠ "" then
    let (observedAt, b) := match evidence.observedAt with
      | some observedAt => (observedAt, b)
      | none => b.readClock env
    { b with
      quality := Function.update b.quality (probeKey policyID node contract)
        (some ⟨observedAt, evidence⟩) }
  else b

/-- A shared result that is not too old. -/
def shared (key : String) (b : ProbeBudget) : Option QualityEvidence × ProbeBudget :=
  match b.quality key with
  | none => (none, b)
  | some result =>
    let (now, b) := b.readClock env
    (if now - result.storedAt ≤ sharedProbeLifetime then some result.evidence else none, b)

/-- A shared result, or a new probe if there is a place. -/
def sharedQualityProbe (node : String) (b : ProbeBudget) : QualityEvidence × ProbeBudget :=
  let key := probeKey policyID node contract
  match b.shared env key with
  | (some evidence, b) => (evidence, b)
  | (none, b) =>
    if key ∈ b.qualityAttempted then (deferredEvidence, b)
    else
      let evidence := env.probe b.handed.length node
      (evidence, (b.hand key).keep env policyID contract node evidence)

/-! ### Batches -/

/-- The first and the last result of a batch that are not too old, and how many are missing. -/
structure PairWindow where
  first : Option Time
  last : Option Time
  pending : ℤ

/-- The oldest and newest shared results of the nodes, and how many have none. -/
def window (b : ProbeBudget) (now : Time) : List String → PairWindow
  | [] => ⟨none, none, 0⟩
  | node :: nodes =>
    let key := probeKey policyID node contract
    let rest := window b now nodes
    match b.quality key with
    | some result =>
      let age := now - result.storedAt
      if age < 0 ∨ sharedProbeLifetime < age then
        if key ∈ b.qualityAttempted then rest else { rest with pending := rest.pending + 1 }
      else
        { rest with
          first := some (min result.storedAt (rest.first.getD result.storedAt))
          last := some (max result.storedAt (rest.last.getD result.storedAt)) }
    | none =>
      if key ∈ b.qualityAttempted then rest else { rest with pending := rest.pending + 1 }

/-- The first result would be too old beside the last one. -/
def PairWindow.expires (w : PairWindow) (now : Time) (lanes : ℤ) : Bool :=
  match w.first with
  | none => false
  | some first =>
    let last := if 0 < w.pending then now + (w.pending + lanes - 1) / lanes * qualityProbeTimeout
      else w.last.getD first
    optimizationPairSkew < last - first

/-- With the selected node of the policy, if it has a state, and the number of lanes. -/
def sharedPairWouldExpire (selected : Option String) (lanes : ℤ) (nodes : List String)
    (b : ProbeBudget) : Bool × ProbeBudget :=
  if contract.mode ≠ "best" ∨ (selected.all fun node => node ∉ nodes) ∨ lanes ≤ 0 then (false, b)
  else
    let (now, b) := b.readClock env
    ((b.window policyID contract now nodes).expires now lanes, b)

/-- A reservation that was not used is given back. -/
def release (b : ProbeBudget) (key : String) : ProbeBudget :=
  if key ∈ b.qualityAttempted then b else { b with used := b.used.erase key }

/-- The nodes that have to be probed, and the results of the others. -/
def pendingNodes : List String → ProbeBudget →
    (List String × List (String × QualityEvidence)) × ProbeBudget
  | [], b => (([], []), b)
  | node :: nodes, b =>
    let key := probeKey policyID node contract
    match b.shared env key with
    | (some evidence, b) =>
      let ((pending, results), b) := pendingNodes nodes b
      ((pending, (node, evidence) :: results), b)
    | (none, b) =>
      if key ∈ b.qualityAttempted then
        let ((pending, results), b) := pendingNodes nodes b
        ((pending, (node, deferredEvidence) :: results), b)
      else
        let ((pending, results), b) := pendingNodes nodes b
        ((node :: pending, results), b)

/-- The results are shared. -/
def keepAll (results : List (String × QualityEvidence)) (b : ProbeBudget) : ProbeBudget :=
  results.foldl (fun b result => b.keep env policyID contract result.1 result.2) b

/-- All nodes at once. -/
def probeAll (pending : List String) (b : ProbeBudget) :
    List (String × QualityEvidence) × ProbeBudget :=
  let results := pending.filterMap fun node =>
    (env.probeParallel b.handed.length node).map fun evidence => (node, evidence)
  let b := pending.foldl (fun b node => b.hand (probeKey policyID node contract)) b
  (results, b.keepAll env policyID contract results)

/-- One node after the other. -/
def probeEach : List String → ProbeBudget → List (String × QualityEvidence) × ProbeBudget
  | [], b => ([], b)
  | node :: pending, b =>
    let (evidence, b) := b.sharedQualityProbe env policyID contract node
    let (results, b) := probeEach pending b
    ((node, evidence) :: results, b)

/-- The shared results, and probes of the other nodes. -/
def sharedQualityBatch (selected : Option String) (lanes : ℤ) (nodes : List String)
    (b : ProbeBudget) : List (String × QualityEvidence) × ProbeBudget :=
  let (expires, b) := b.sharedPairWouldExpire env policyID contract selected lanes nodes
  if expires then
    let b := nodes.foldl (fun b node => b.release (probeKey policyID node contract)) b
    (nodes.map fun node => (node, deferredEvidence), b.deferSharedProbe env policyID)
  else
    let ((pending, results), b) := b.pendingNodes env policyID contract nodes
    let (probed, b) := if env.parallel = true ∧ 1 < pending.length
      then b.probeAll env policyID contract pending
      else b.probeEach env policyID contract pending
    (probed ++ results, b)

/-- `takeSharedProbeInterruption`, when the runtime was interrupted. -/
def forget (b : ProbeBudget) : ProbeBudget := { b with quality := fun _ => none }

end ProbeBudget

/-! ### What is kept -/

namespace ProbeBudget

/-- What is probed was reserved within the limit, and handed to the runtime once. -/
structure Sound (b : ProbeBudget) : Prop where
  used : (b.used.card : ℤ) ≤ b.limit
  attempted : b.qualityAttempted ⊆ b.used
  cached : ∀ key, (b.quality key).isSome → key ∈ b.qualityAttempted
  nodup : b.handed.Nodup
  handed : ∀ key, key ∈ b.handed ↔ key ∈ b.qualityAttempted

/-- The clock and the deferred policies do not matter. -/
structure Same (b b' : ProbeBudget) : Prop where
  limit : b'.limit = b.limit
  used : b'.used = b.used
  quality : b'.quality = b.quality
  attempted : b'.qualityAttempted = b.qualityAttempted
  handed : b'.handed = b.handed

variable {b b' b'' : ProbeBudget}

theorem Same.trans (h : b.Same b') (h' : b'.Same b'') : b.Same b'' :=
  ⟨h'.limit.trans h.limit, h'.used.trans h.used, h'.quality.trans h.quality,
    h'.attempted.trans h.attempted, h'.handed.trans h.handed⟩

theorem Sound.same (h : b.Sound) (hsame : b.Same b') : b'.Sound := by
  constructor
  · rw [hsame.used, hsame.limit]
    exact h.used
  · rw [hsame.attempted, hsame.used]
    exact h.attempted
  · rw [hsame.quality, hsame.attempted]
    exact h.cached
  · rw [hsame.handed]
    exact h.nodup
  · rw [hsame.handed, hsame.attempted]
    exact h.handed

theorem same_refl (b : ProbeBudget) : b.Same b := ⟨rfl, rfl, rfl, rfl, rfl⟩

theorem same_readClock (env : ProbeEnv) (b : ProbeBudget) : b.Same (b.readClock env).2 :=
  ⟨rfl, rfl, rfl, rfl, rfl⟩

theorem same_markDeferred (policyID : String) (now : Time) (b : ProbeBudget) :
    b.Same (b.markDeferred policyID now) :=
  ⟨rfl, rfl, rfl, rfl, rfl⟩

theorem same_deferSharedProbe (env : ProbeEnv) (policyID : String) (b : ProbeBudget) :
    b.Same (b.deferSharedProbe env policyID) := by
  unfold deferSharedProbe
  split
  · exact same_refl b
  · exact ⟨rfl, rfl, rfl, rfl, rfl⟩

theorem same_shared (env : ProbeEnv) (key : String) (b : ProbeBudget) :
    b.Same (b.shared env key).2 := by
  unfold shared
  split
  · exact same_refl b
  · exact same_readClock env b

theorem same_sharedPairWouldExpire (env : ProbeEnv) (policyID : String) (contract : ProbeContract)
    (selected : Option String) (lanes : ℤ) (nodes : List String) (b : ProbeBudget) :
    b.Same (b.sharedPairWouldExpire env policyID contract selected lanes nodes).2 := by
  unfold sharedPairWouldExpire
  split
  · exact same_refl b
  · exact same_readClock env b

/-! ### Claims -/

section Claims

variable {policyID : String} {contract : ProbeContract} {now : Time} {b : ProbeBudget}

theorem reserve_sound (h : b.Sound) (hroom : key ∈ b.used ∨ (b.used.card : ℤ) < b.limit) :
    (b.reserve key).Sound := by
  refine ⟨?_, h.attempted.trans (Finset.subset_insert _ _), h.cached, h.nodup, h.handed⟩
  show ((insert key b.used).card : ℤ) ≤ b.limit
  rcases hroom with hused | hless
  · rw [Finset.insert_eq_of_mem hused]
    exact h.used
  · have hcard := Finset.card_insert_le key b.used
    omega

theorem isSome_of_cached (h : b.cached now key = true) : (b.quality key).isSome := by
  unfold cached at h
  cases hresult : b.quality key with
  | none => simp [hresult] at h
  | some result => rfl

/-- A claim only reserves keys. -/
structure Claimed (policyID : String) (contract : ProbeContract) (b b' : ProbeBudget)
    (accepted : List String) : Prop where
  sound : b'.Sound
  limit : b'.limit = b.limit
  used : b.used ⊆ b'.used
  granted : ∀ node ∈ accepted, probeKey policyID node contract ∈ b'.used

theorem Claimed.cons (h : Claimed policyID contract b₁ b' accepted) (hlimit : b₁.limit = b.limit)
    (hused : b.used ⊆ b₁.used) (hkey : probeKey policyID node contract ∈ b₁.used) :
    Claimed policyID contract b b' (node :: accepted) := by
  refine ⟨h.sound, h.limit.trans hlimit, hused.trans h.used, fun other hother => ?_⟩
  rcases List.mem_cons.mp hother with rfl | hother
  · exact h.used hkey
  · exact h.granted other hother

theorem claimEach_spec (h : b.Sound) (targets : List String) :
    Claimed policyID contract b (b.claimEach policyID contract now targets).2
        (b.claimEach policyID contract now targets).1.1 ∧
      ((b.claimEach policyID contract now targets).1.1 ++
        (b.claimEach policyID contract now targets).1.2).Perm targets := by
  induction targets generalizing b with
  | nil => exact ⟨⟨h, rfl, fun _ hkey => hkey, by simp [claimEach]⟩, List.Perm.nil⟩
  | cons node targets ih =>
    rw [claimEach]
    dsimp only
    split
    · obtain ⟨hclaimed, hperm⟩ := ih h
      exact ⟨hclaimed, List.perm_middle.trans (hperm.cons node)⟩
    · split
      · next hroom =>
        by_cases hcached : b.cached now (probeKey policyID node contract) = true
        · -- a cached result was probed, so its key is reserved
          rw [if_pos hcached]
          obtain ⟨hclaimed, hperm⟩ := ih h
          have hkey := h.attempted (h.cached _ (isSome_of_cached hcached))
          exact ⟨hclaimed.cons rfl Finset.Subset.rfl hkey, hperm.cons node⟩
        · rw [if_neg hcached]
          obtain ⟨hclaimed, hperm⟩ := ih (reserve_sound h (hroom.resolve_left hcached))
          exact ⟨hclaimed.cons rfl (Finset.subset_insert _ _) (Finset.mem_insert_self _ _),
            hperm.cons node⟩
      · obtain ⟨hclaimed, hperm⟩ := ih h
        exact ⟨hclaimed, List.perm_middle.trans (hperm.cons node)⟩

/-- If there is room for all, nothing is deferred. -/
theorem claimEach_all
    (hattempted : ∀ node ∈ targets, probeKey policyID node contract ∈ b.qualityAttempted →
      b.cached now (probeKey policyID node contract) = true)
    (hroom : ((b.newKeys policyID contract targets).card + b.used.card : ℤ) ≤ b.limit) :
    (b.claimEach policyID contract now targets).1.2 = [] := by
  induction targets generalizing b with
  | nil => rfl
  | cons node targets ih =>
    have hrest (node' : String) (hmem : node' ∈ targets) := hattempted node' (by simp [hmem])
    have hfirst := hattempted node List.mem_cons_self
    generalize hkey : probeKey policyID node contract = key at hfirst
    -- the new keys and the reserved ones together do not become more
    simp only [newKeys, ← Nat.cast_add, Finset.card_sdiff_add_card, List.map_cons,
      List.toFinset_cons, hkey] at hroom ih
    generalize (targets.map fun node => probeKey policyID node contract).toFinset = rest at hroom ih
    have hnext : ∀ used ⊆ insert key b.used, ((rest ∪ used).card : ℤ) ≤ b.limit := by
      intro used hused
      refine le_trans (Nat.cast_le.mpr (Finset.card_le_card ?_)) hroom
      rw [Finset.insert_union, ← Finset.union_insert]
      exact Finset.union_subset_union_right hused
    have hplace : key ∈ b.used ∨ (b.used.card : ℤ) < b.limit := by
      by_cases hused : key ∈ b.used
      · exact .inl hused
      · have hless := hnext (insert key b.used) Finset.Subset.rfl
        have hcard := Finset.card_le_card (@Finset.subset_union_right _ _ rest (insert key b.used))
        rw [Finset.card_insert_of_notMem hused] at hcard
        omega
    rw [claimEach, hkey]
    dsimp only
    rw [if_neg fun hdeferred => by
      rw [hfirst hdeferred.2] at hdeferred
      exact Bool.noConfusion hdeferred.1, if_pos (.inr hplace)]
    split
    · exact ih hrest (hnext _ (Finset.subset_insert _ _))
    · exact ih (b := b.reserve key) hrest (hnext _ Finset.Subset.rfl)

/-- **Claims.** The targets are accepted or deferred; a pair is not split, and what is accepted is
    reserved. -/
theorem claim_spec (h : b.Sound) (hlimit : 0 < b.limit)
    (hclaim : b.claimProbeTargets env policyID contract targets atomicPair = (lists, b')) :
    Claimed policyID contract b b' lists.1 ∧ (lists.1 ++ lists.2).Perm targets ∧
      (atomicPair = true → lists.1 = [] ∨ lists.2 = []) := by
  rw [claimProbeTargets, if_neg (not_le.mpr hlimit)] at hclaim
  have hsame := same_readClock env b
  generalize b.readClock env = clock at hsame hclaim
  obtain ⟨now, b₁⟩ := clock
  dsimp only at hsame hclaim
  have hsound := h.same hsame
  split at hclaim
  · cases hclaim
    have hmarked := same_markDeferred policyID now b₁
    refine ⟨⟨hsound.same hmarked, hsame.limit, ?_, by simp⟩, by simp, fun _ => .inl rfl⟩
    rw [hmarked.used, hsame.used]
  · next hpair =>
    obtain ⟨hclaimed, hperm⟩ := @claimEach_spec policyID contract now b₁ hsound targets
    have hall := @claimEach_all policyID contract now b₁ targets
    generalize b₁.claimEach policyID contract now targets = claimed at *
    cases hclaim
    refine ⟨?_, hperm, fun hatomic => .inr ?_⟩
    · have hused : b.used ⊆ claimed.2.used := hsame.used ▸ hclaimed.used
      split
      · exact ⟨hclaimed.sound, hclaimed.limit.trans hsame.limit, hused, hclaimed.granted⟩
      · exact ⟨hclaimed.sound.same (same_markDeferred _ _ _), hclaimed.limit.trans hsame.limit,
          hused, hclaimed.granted⟩
    · obtain ⟨hattempted, hroom⟩ := not_or.mp fun hrefuses => hpair ⟨hatomic, hrefuses⟩
      refine hall (fun node hnode hkey => ?_) (not_lt.mp hroom)
      by_contra hcached
      exact hattempted ⟨node, hnode, hkey, Bool.eq_false_iff.mpr hcached⟩

end Claims

/-! ### Probes -/

section Probes

variable {env : ProbeEnv} {policyID : String} {contract : ProbeContract} {b : ProbeBudget}

/-- Nothing is reserved or given back. -/
structure Probed (b b' : ProbeBudget) : Prop where
  sound : b'.Sound
  limit : b'.limit = b.limit
  used : b'.used = b.used

theorem Probed.trans (h : b.Probed b') (h' : b'.Probed b'') : b.Probed b'' :=
  ⟨h'.sound, h'.limit.trans h.limit, h'.used.trans h.used⟩

theorem Sound.probed (h : b.Sound) (hsame : b.Same b') : b.Probed b' :=
  ⟨h.same hsame, hsame.limit, hsame.used⟩

/-- A key that is reserved and was not probed is handed to the runtime. -/
theorem hand_probed (h : b.Sound) (hused : key ∈ b.used) (hfirst : key ∉ b.qualityAttempted) :
    b.Probed (b.hand key) := by
  refine ⟨⟨h.used, Finset.insert_subset hused h.attempted, fun other hother => ?_, ?_,
    fun other => ?_⟩, rfl, rfl⟩
  · exact Finset.mem_insert_of_mem (h.cached other hother)
  · exact List.nodup_cons.mpr ⟨fun hmem => hfirst ((h.handed key).mp hmem), h.nodup⟩
  · show other ∈ key :: b.handed ↔ other ∈ insert key b.qualityAttempted
    rw [List.mem_cons, Finset.mem_insert, h.handed]

/-- Results are kept for keys that were probed. -/
theorem keep_probed (h : b.Sound) {node : String} (evidence : QualityEvidence)
    (hkey : probeKey policyID node contract ∈ b.qualityAttempted) :
    b.Probed (b.keep env policyID contract node evidence) ∧
      (b.keep env policyID contract node evidence).qualityAttempted = b.qualityAttempted := by
  have hquality (result : SharedProbeResult) (key : String)
      (hsome : (Function.update b.quality (probeKey policyID node contract)
        (some result) key).isSome) :
      key ∈ b.qualityAttempted := by
    by_cases hsame : key = probeKey policyID node contract
    · exact hsame ▸ hkey
    · rw [Function.update_of_ne hsame] at hsome
      exact h.cached key hsome
  unfold keep
  split
  · cases evidence.observedAt with
    | none | some observedAt =>
      exact ⟨⟨⟨h.used, h.attempted, hquality _, h.nodup, h.handed⟩, rfl, rfl⟩, rfl⟩
  · exact ⟨⟨h, rfl, rfl⟩, rfl⟩

/-- **One probe.** -/
theorem probe_sound (h : b.Sound) {node : String}
    (hused : probeKey policyID node contract ∈ b.used) :
    b.Probed (b.sharedQualityProbe env policyID contract node).2 := by
  have hsame := same_shared env (probeKey policyID node contract) b
  unfold sharedQualityProbe
  dsimp only
  split
  · next evidence b₁ hshared =>
    rw [hshared] at hsame
    exact h.probed hsame
  · next b₁ hshared =>
    rw [hshared] at hsame
    have hprobed := h.probed hsame
    split
    · exact hprobed
    · next hfirst =>
      have hhanded := hand_probed hprobed.sound (hprobed.used.symm ▸ hused) hfirst
      refine (hprobed.trans hhanded).trans (keep_probed hhanded.sound _ ?_).1
      exact Finset.mem_insert_self _ _

theorem probeEach_sound (pending : List String) (h : b.Sound)
    (hused : ∀ node ∈ pending, probeKey policyID node contract ∈ b.used) :
    b.Probed (b.probeEach env policyID contract pending).2 := by
  induction pending generalizing b with
  | nil => exact ⟨h, rfl, rfl⟩
  | cons node pending ih =>
    have hprobed := @probe_sound env policyID contract b h node (hused node List.mem_cons_self)
    refine hprobed.trans (ih hprobed.sound fun other hother => ?_)
    rw [hprobed.used]
    exact hused other (List.mem_cons_of_mem _ hother)

theorem mem_attempted_handAll (keys : List String) (b : ProbeBudget) (key : String) :
    key ∈ (keys.foldl hand b).qualityAttempted ↔ key ∈ keys ∨ key ∈ b.qualityAttempted := by
  induction keys generalizing b with
  | nil => simp
  | cons first keys ih =>
    rw [List.foldl_cons, ih, List.mem_cons]
    show key ∈ keys ∨ key ∈ insert first b.qualityAttempted ↔ _
    rw [Finset.mem_insert]
    tauto

/-- Different keys are handed to the runtime. -/
theorem handAll_probed (keys : List String) (h : b.Sound) (hnodup : keys.Nodup)
    (hused : ∀ key ∈ keys, key ∈ b.used) (hfirst : ∀ key ∈ keys, key ∉ b.qualityAttempted) :
    b.Probed (keys.foldl hand b) := by
  induction keys generalizing b with
  | nil => exact ⟨h, rfl, rfl⟩
  | cons key keys ih =>
    obtain ⟨hnot, hnodup⟩ := List.nodup_cons.mp hnodup
    have hhanded := hand_probed h (hused key List.mem_cons_self) (hfirst key List.mem_cons_self)
    refine hhanded.trans (ih hhanded.sound hnodup (fun other hother => ?_) fun other hother => ?_)
    · rw [hhanded.used]
      exact hused other (List.mem_cons_of_mem _ hother)
    · show other ∉ insert key b.qualityAttempted
      rw [Finset.mem_insert, not_or]
      exact ⟨fun hsame => hnot (hsame ▸ hother), hfirst other (List.mem_cons_of_mem _ hother)⟩

theorem keepAll_probed (results : List (String × QualityEvidence)) (h : b.Sound)
    (hkeys : ∀ result ∈ results, probeKey policyID result.1 contract ∈ b.qualityAttempted) :
    b.Probed (b.keepAll env policyID contract results) := by
  unfold keepAll
  induction results generalizing b with
  | nil => exact ⟨h, rfl, rfl⟩
  | cons result results ih =>
    obtain ⟨hkept, hattempted⟩ := @keep_probed env policyID contract b h result.1 result.2
      (hkeys result List.mem_cons_self)
    refine hkept.trans (ih hkept.sound fun other hother => ?_)
    rw [hattempted]
    exact hkeys other (List.mem_cons_of_mem _ hother)

theorem probeAll_sound (pending : List String) (h : b.Sound)
    (hnodup : (pending.map fun node => probeKey policyID node contract).Nodup)
    (hused : ∀ node ∈ pending, probeKey policyID node contract ∈ b.used)
    (hfirst : ∀ node ∈ pending, probeKey policyID node contract ∉ b.qualityAttempted) :
    b.Probed (b.probeAll env policyID contract pending).2 := by
  have hhanded := handAll_probed (pending.map fun node => probeKey policyID node contract) h hnodup
    (by simpa using hused) (by simpa using hfirst)
  unfold probeAll
  dsimp only
  rw [← List.foldl_map]
  refine hhanded.trans (keepAll_probed _ hhanded.sound fun result hresult => ?_)
  obtain ⟨node, hnode, hanswer⟩ := List.mem_filterMap.mp hresult
  obtain ⟨evidence, -, rfl⟩ := Option.map_eq_some_iff.mp hanswer
  exact (mem_attempted_handAll _ _ _).mpr (.inl (List.mem_map_of_mem hnode))

/-! ### Batches -/

theorem pendingNodes_spec (nodes : List String) (b : ProbeBudget) :
    b.Same (b.pendingNodes env policyID contract nodes).2 ∧
      (b.pendingNodes env policyID contract nodes).1.1.Sublist nodes ∧
      ∀ node ∈ (b.pendingNodes env policyID contract nodes).1.1,
        probeKey policyID node contract ∉ b.qualityAttempted := by
  induction nodes generalizing b with
  | nil => exact ⟨same_refl b, List.Sublist.slnil, by simp [pendingNodes]⟩
  | cons node nodes ih =>
    have hsame := same_shared env (probeKey policyID node contract) b
    rw [pendingNodes]
    dsimp only
    split
    · next evidence b₁ hshared =>
      rw [hshared] at hsame
      obtain ⟨hrest, hsub, hfirst⟩ := ih b₁
      exact ⟨hsame.trans hrest, hsub.cons _, hsame.attempted ▸ hfirst⟩
    · next b₁ hshared =>
      rw [hshared] at hsame
      obtain ⟨hrest, hsub, hfirst⟩ := ih b₁
      split
      · exact ⟨hsame.trans hrest, hsub.cons _, hsame.attempted ▸ hfirst⟩
      · next hnot =>
        refine ⟨hsame.trans hrest, hsub.cons_cons _, fun other hother => ?_⟩
        rcases List.mem_cons.mp hother with rfl | hother
        · exact hsame.attempted ▸ hnot
        · exact hsame.attempted ▸ hfirst other hother

/-- Reservations of keys that were not probed may be given back. -/
theorem releaseAll_sound (keys : List String) (h : b.Sound) :
    (keys.foldl release b).Sound ∧ (keys.foldl release b).limit = b.limit ∧
      (keys.foldl release b).used ⊆ b.used := by
  induction keys generalizing b with
  | nil => exact ⟨h, rfl, fun _ hkey => hkey⟩
  | cons key keys ih =>
    have hreleased : (b.release key).Sound ∧ (b.release key).limit = b.limit ∧
        (b.release key).used ⊆ b.used := by
      unfold release
      split
      · exact ⟨h, rfl, fun _ hkey => hkey⟩
      · next hnot =>
        refine ⟨⟨?_, fun other hother => ?_, h.cached, h.nodup, h.handed⟩, rfl,
          Finset.erase_subset _ _⟩
        · have hcard := Finset.card_le_card (Finset.erase_subset key b.used)
          have hused := h.used
          show ((b.used.erase key).card : ℤ) ≤ b.limit
          omega
        · exact Finset.mem_erase.mpr ⟨fun hsame => hnot (hsame ▸ hother), h.attempted hother⟩
    obtain ⟨hsound, hlimit, hused⟩ := ih hreleased.1
    exact ⟨hsound, hlimit.trans hreleased.2.1, hused.trans hreleased.2.2⟩

theorem probeKey_injective (hcontract : contract.Distinct) :
    Function.Injective fun node => probeKey policyID node contract := by
  have hmixed (node node' : String) : contract.fingerprint node ≠ policyID ++ ":" ++ node' := by
    intro hsame
    refine hcontract.digest node ?_
    rw [hsame]
    simp
  intro node node' h
  simp only [probeKey] at h
  split at h
  · next hnode =>
    split at h
    · exact hcontract.injective node node' h hnode
    · exact (hmixed node node' h).elim
  · split at h
    · exact (hmixed node' node h.symm).elim
    · exact (String.append_right_inj _).mp h

/-- **A batch.** Different nodes with reservations are probed; or none, and their reservations may
    be given back. -/
theorem batch_sound (h : b.Sound) (hcontract : contract.Distinct) (selected : Option String)
    (lanes : ℤ) {nodes : List String} (hnodup : nodes.Nodup)
    (hused : ∀ node ∈ nodes, probeKey policyID node contract ∈ b.used) :
    (b.sharedQualityBatch env policyID contract selected lanes nodes).2.Sound ∧
      (b.sharedQualityBatch env policyID contract selected lanes nodes).2.limit = b.limit := by
  have hsame := same_sharedPairWouldExpire env policyID contract selected lanes nodes b
  unfold sharedQualityBatch
  generalize b.sharedPairWouldExpire env policyID contract selected lanes nodes = asked at hsame ⊢
  obtain ⟨expires, b₁⟩ := asked
  have hsound := h.same hsame
  dsimp only at hsame ⊢
  split
  · obtain ⟨hreleased, hlimit, -⟩ := releaseAll_sound
      (nodes.map fun node => probeKey policyID node contract) hsound
    rw [List.foldl_map] at hreleased hlimit
    have hdeferred := same_deferSharedProbe env policyID
      (nodes.foldl (fun b node => b.release (probeKey policyID node contract)) b₁)
    exact ⟨hreleased.same hdeferred, hdeferred.limit.trans (hlimit.trans hsame.limit)⟩
  · obtain ⟨hpending, hsub, hfirst⟩ := @pendingNodes_spec env policyID contract nodes b₁
    generalize b₁.pendingNodes env policyID contract nodes = found at hpending hsub hfirst ⊢
    obtain ⟨⟨pending, results⟩, b₂⟩ := found
    dsimp only at hpending hsub hfirst ⊢
    have hsound₂ := hsound.same hpending
    have hused₂ : ∀ node ∈ pending, probeKey policyID node contract ∈ b₂.used := by
      intro node hnode
      rw [hpending.used, hsame.used]
      exact hused node (hsub.subset hnode)
    have hlimit := hpending.limit.trans hsame.limit
    split
    · have hprobed : b₂.Probed (b₂.probeAll env policyID contract pending).2 := by
        refine probeAll_sound pending hsound₂ ?_ hused₂ fun node hnode => ?_
        · exact (hsub.nodup hnodup).map (probeKey_injective hcontract)
        · rw [hpending.attempted]
          exact hfirst node hnode
      exact ⟨hprobed.sound, hprobed.limit.trans hlimit⟩
    · have hprobed : b₂.Probed (b₂.probeEach env policyID contract pending).2 :=
        probeEach_sound pending hsound₂ hused₂
      exact ⟨hprobed.sound, hprobed.limit.trans hlimit⟩

end Probes
end ProbeBudget

/-! ### Ticks -/

/-- A policy was granted a node under a key. -/
structure Grant where
  policyID : String
  node : String
  key : String
  deriving DecidableEq

/-- The budget of a tick, and what the policies were granted. -/
structure Tick where
  budget : ProbeBudget
  grants : List Grant

/-- The policies call in any order, and a policy probes nodes that it was granted.  If they are
    `strict`, a batch has every node once, and a grant ends when a batch gives the reservation of
    its key back. -/
inductive TickStep (env : ProbeEnv) (strict : Bool) : Tick → Tick → Prop where
  | claim (policyID : String) (contract : ProbeContract) (targets : List String)
      (atomicPair : Bool) (b : ProbeBudget) (grants : List Grant) :
      TickStep env strict ⟨b, grants⟩
        ⟨(b.claimProbeTargets env policyID contract targets atomicPair).2,
          ((b.claimProbeTargets env policyID contract targets atomicPair).1.1.map fun node =>
            ⟨policyID, node, probeKey policyID node contract⟩) ++ grants⟩
  | batch (policyID : String) (contract : ProbeContract) (nodes : List String)
      (selected : Option String) (lanes : ℤ) {b : ProbeBudget} {grants : List Grant}
      (hcontract : contract.Distinct) (hnodup : strict = true → nodes.Nodup)
      (hgranted : ∀ node ∈ nodes, ⟨policyID, node, probeKey policyID node contract⟩ ∈ grants) :
      TickStep env strict ⟨b, grants⟩
        ⟨(b.sharedQualityBatch env policyID contract selected lanes nodes).2,
          grants.filter fun grant => strict = true → grant.key ∈
            (b.sharedQualityBatch env policyID contract selected lanes nodes).2.used⟩
  | probe (policyID : String) (contract : ProbeContract) (node : String) {b : ProbeBudget}
      {grants : List Grant}
      (hgranted : ⟨policyID, node, probeKey policyID node contract⟩ ∈ grants) :
      TickStep env strict ⟨b, grants⟩ ⟨(b.sharedQualityProbe env policyID contract node).2, grants⟩
  | interrupt (b : ProbeBudget) (grants : List Grant) :
    TickStep env strict ⟨b, grants⟩ ⟨b.forget, grants⟩

/-- The states of a tick with a limit. -/
inductive TickReachable (env : ProbeEnv) (strict : Bool) (limit : ℤ) : Tick → Prop where
  | start (exists' : String → Bool) (previous : Option ProbeBudget) :
      TickReachable env strict limit ⟨.start limit exists' previous, []⟩
  | step {tick tick' : Tick} (h : TickReachable env strict limit tick)
      (hstep : TickStep env strict tick tick') : TickReachable env strict limit tick'

/-- Every grant has a reservation. -/
structure Tick.Sound (limit : ℤ) (tick : Tick) : Prop where
  budget : tick.budget.Sound
  limit : tick.budget.limit = limit
  grants : ∀ grant ∈ tick.grants, grant.key ∈ tick.budget.used

section Ticks

variable {env : ProbeEnv} {limit : ℤ} {tick tick' : Tick}

theorem tickStep_sound (hlimit : 0 < limit) (h : tick.Sound limit)
    (hstep : TickStep env true tick tick') : tick'.Sound limit := by
  obtain ⟨hbudget, rfl, hgrants⟩ := h
  cases hstep with
  | claim policyID contract targets atomicPair b grants =>
    obtain ⟨hclaimed, -⟩ := ProbeBudget.claim_spec hbudget hlimit
      (rfl : b.claimProbeTargets env policyID contract targets atomicPair = _)
    refine ⟨hclaimed.sound, hclaimed.limit, fun grant hgrant => ?_⟩
    rcases List.mem_append.mp hgrant with hgrant | hgrant
    · obtain ⟨node, hnode, rfl⟩ := List.mem_map.mp hgrant
      exact hclaimed.granted node hnode
    · exact hclaimed.used (hgrants grant hgrant)
  | @batch policyID contract nodes selected lanes b grants hcontract hnodup hgranted =>
    obtain ⟨hsound, hsame⟩ := @ProbeBudget.batch_sound env policyID contract b hbudget hcontract
      selected lanes nodes (hnodup rfl) fun node hnode => hgrants _ (hgranted node hnode)
    refine ⟨hsound, hsame, fun grant hgrant => ?_⟩
    simpa using (List.mem_filter.mp hgrant).2
  | @probe policyID contract node b grants hgranted =>
    have hprobed := @ProbeBudget.probe_sound env policyID contract b hbudget node
      (hgrants _ hgranted)
    refine ⟨hprobed.sound, hprobed.limit, fun grant hgrant => ?_⟩
    rw [hprobed.used]
    exact hgrants grant hgrant
  | interrupt b grants =>
    refine ⟨⟨hbudget.used, hbudget.attempted, fun key hkey => ?_, hbudget.nodup,
      hbudget.handed⟩, rfl, hgrants⟩
    cases hkey

theorem tick_sound (hlimit : 0 < limit) (h : TickReachable env true limit tick) :
    tick.Sound limit := by
  induction h with
  | start exists' previous =>
    refine ⟨⟨?_, Finset.Subset.refl _, fun key hkey => ?_, List.nodup_nil, fun key => ?_⟩, rfl,
      by simp⟩
    · show ((∅ : Finset String).card : ℤ) ≤ limit
      simpa using hlimit.le
    · cases hkey
    · simp [ProbeBudget.start]
  | step _ hstep ih => exact tickStep_sound hlimit ih hstep

/-- **The probe budget.** In every strict tick at most `limit` keys are reserved, no key is handed
    to the runtime twice, and so there are at most `limit` probes; a claim accepts or defers each of
    its targets, and does not split a pair. -/
theorem probe_budget_kept (hlimit : 0 < limit) (h : TickReachable env true limit tick) :
    (tick.budget.used.card : ℤ) ≤ limit ∧ tick.budget.handed.Nodup ∧
      (tick.budget.handed.length : ℤ) ≤ limit ∧
      ∀ policyID contract targets atomicPair,
        ((tick.budget.claimProbeTargets env policyID contract targets atomicPair).1.1 ++
          (tick.budget.claimProbeTargets env policyID contract targets atomicPair).1.2).Perm
            targets ∧
        (atomicPair = true →
          (tick.budget.claimProbeTargets env policyID contract targets atomicPair).1.1 = [] ∨
          (tick.budget.claimProbeTargets env policyID contract targets atomicPair).1.2 = []) := by
  obtain ⟨hbudget, rfl, -⟩ := tick_sound hlimit h
  refine ⟨hbudget.used, hbudget.nodup, ?_, fun policyID contract targets atomicPair =>
    (ProbeBudget.claim_spec hbudget hlimit rfl).2⟩
  have hlength : tick.budget.handed.length ≤ tick.budget.used.card := by
    rw [← List.toFinset_card_of_nodup hbudget.nodup]
    refine Finset.card_le_card fun key hkey => hbudget.attempted ?_
    exact (hbudget.handed key).mp (List.mem_toFinset.mp hkey)
  have hused := hbudget.used
  omega

end Ticks

/-! ### Ticks that are not strict -/

/-- Every probe succeeds.  The clock stands still until its fourth read, and then six seconds
    later. -/
def sampleProbeEnv : ProbeEnv where
  clock := fun reads => if reads < 4 then 0 else 6 * second
  probe := fun _ _ => ⟨true, false, none⟩
  probeParallel := fun _ _ => some ⟨true, false, none⟩
  parallel := true

/-- Two nodes with fingerprints; the others have none. -/
def sampleContract : ProbeContract :=
  ⟨"best", fun node => if node = "first" then "f1" else if node = "shared" then "f2" else ""⟩

theorem sampleContract_distinct : sampleContract.Distinct := by
  refine ⟨fun node node' h hne => ?_, fun node => ?_⟩
  · simp only [sampleContract] at h hne
    split_ifs at h hne <;> simp_all
  · simp only [sampleContract]
    split_ifs <;> decide

/-- One policy probes a node, and the other claims it together with a second one. -/
theorem sampleTick_kept : ∃ tick, TickReachable sampleProbeEnv true 2 tick ∧
    (tick.budget.used.card : ℤ) ≤ 2 ∧ tick.budget.handed = ["f1"] ∧ tick.budget.handed.Nodup := by
  have hstart : TickReachable sampleProbeEnv true 2 _ := .start (fun _ => true) none
  have hclaim := hstart.step (.claim "x" sampleContract ["first"] false _ _)
  have hprobe := hclaim.step (.probe "x" sampleContract "first" (by decide +kernel))
  have htick := hprobe.step (.claim "b" sampleContract ["first", "shared"] true _ _)
  have hkept := probe_budget_kept (by decide) htick
  exact ⟨_, htick, hkept.1, by decide +kernel, hkept.2.1⟩

/-- The second policy gives back what a third one has claimed, too.  A fourth one takes the place,
    and then the third one still probes: there are three probes for a limit of two.  And a batch
    with a node twice hands it to the runtime twice. -/
theorem sampleTick_exceeded : (∃ tick, TickReachable sampleProbeEnv false 2 tick ∧
      tick.budget.handed = ["f2", "d:other", "f1"]) ∧
    ∃ tick, TickReachable sampleProbeEnv false 2 tick ∧ tick.budget.handed = ["f2", "f2"] := by
  have hstart : TickReachable sampleProbeEnv false 2 _ := .start (fun _ => true) none
  constructor
  · have hfirst := (hstart.step (.claim "x" sampleContract ["first"] false _ _)).step
      (.probe "x" sampleContract "first" (by decide +kernel))
    have hclaims := (hfirst.step (.claim "a" sampleContract ["shared"] false _ _)).step
      (.claim "b" sampleContract ["first", "shared"] true _ _)
    have hreleased := hclaims.step (.batch "b" sampleContract ["first", "shared"] (some "first") 1
      sampleContract_distinct nofun (by decide +kernel))
    have hother := (hreleased.step (.claim "d" sampleContract ["other"] false _ _)).step
      (.probe "d" sampleContract "other" (by decide +kernel))
    exact ⟨_, hother.step (.probe "a" sampleContract "shared" (by decide +kernel)),
      by decide +kernel⟩
  · have hclaim := hstart.step (.claim "a" sampleContract ["shared"] false _ _)
    exact ⟨_, hclaim.step (.batch "a" sampleContract ["shared", "shared"] none 1
      sampleContract_distinct nofun (by decide +kernel)), by decide +kernel⟩

end SbGateway.Agent.Health
