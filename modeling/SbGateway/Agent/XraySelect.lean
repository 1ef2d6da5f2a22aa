import SbGateway.Agent.XrayInvariant

namespace SbGateway.Agent

open Lib
open Prog

/-!
# Selections keep the invariant

* `ownProbeTag_ready` — the probe lane removes only handlers of its own;
* `select_sound` — `Select` commits only what was read back;
* `current_sound` — so does the refresh inside `Current`.
-/

variable {sha : String → String} {lagging : Option String} {lane : String}
  {pool : HealthPool}

/-! ### Selecting -/

/-- What `Select` is called with, for a probe lane and a pool: the invariant, unshared retired
    handlers, and a member that has a name of its own. -/
structure SelectReady (sha : String → String) (lane : String) (pool : HealthPool)
    (selector member : String) (st : State) : Prop where
  lane : st.probeSelector = lane
  pool : st.pool = pool
  sound : Sound sha none st
  unshared : st.pool.lists selector → Unshared sha selector st
  named : selector ≠ st.probeSelectorName → ¬ IsProbeTag sha st.probeSelector member
  runtimeTag : st.pool.lists selector → st.pool.policyRuntimeTag sha selector member ≠ ""

theorem Quiet.unshared (h : Quiet a b) (hu : Unshared sha selector a) : Unshared sha selector b :=
  hu.congr h.pool h.overrides (State.retiredOf_congr h.retiredByPolicy selector)
    (congrFun h.activeByPolicy selector)

/-- A change of the bookkeeping that none of the conditions reads. -/
theorem SelectReady.congr
    (hr : SelectReady sha lane pool selector member a) (hpool : b.pool = a.pool)
    (hprobe : b.probeSelector = a.probeSelector) (hover : b.overrides = a.overrides)
    (hretired : b.retiredByPolicy = a.retiredByPolicy)
    (hactive : b.activeByPolicy = a.activeByPolicy) (hsound : Sound sha none b) :
    SelectReady sha lane pool selector member b := by
  have hname := State.probeSelectorName_congr hprobe
  refine ⟨hprobe.trans hr.lane, hpool.trans hr.pool, hsound, ?_, ?_, ?_⟩
  · intro hlisted
    rw [hpool] at hlisted
    exact (hr.unshared hlisted).congr hpool hover (State.retiredOf_congr hretired selector)
      (congrFun hactive selector)
  · rw [hname, hprobe]
    exact hr.named
  · rw [hpool]
    exact hr.runtimeTag

theorem Quiet.selectReady (h : Quiet a b) (hr : SelectReady sha lane pool selector member a) :
    SelectReady sha lane pool selector member b :=
  hr.congr h.pool h.probeSelector h.overrides h.retiredByPolicy h.activeByPolicy
    (h.sound hr.sound)

theorem ready_of_quiet {m : M α} (h : Within Quiet m) :
    Stable (SelectReady sha lane pool selector member) m :=
  h.triple (fun _ _ hq hr => hq.selectReady hr)

/-- The readback returns the override and disturbs nothing. -/
theorem selectedRuntimeMember_triple (hI : ∀ a b, Quiet a b → I a → I b) :
    Triple I (selectedRuntimeMember selector) (fun v st => v = st.overrides selector ∧ I st) I := by
  refine Triple.keep (nextOutcome_quiet.triple hI) (fun outcome => ?_)
  split
  · exact Triple.fix (fun now h => Triple.pure (forall_eq.mpr ⟨rfl, h⟩))
  · exact Triple.fail (fun _ h => h)

theorem Sound.markPending (h : Sound sha lagging st) (nodeID : String)
    (htag : selector = st.probeSelectorName → IsProbeTag sha st.probeSelector tag) :
    Sound sha lagging
      { st with pendingDynamic := st.pendingDynamic.insert tag ⟨selector, nodeID⟩ } := by
  refine { h with pending := ?_ }
  intro key pending hlook hsel
  by_cases hkey : key = tag
  · subst hkey
    have hsame : pending = ⟨selector, nodeID⟩ := by
      have hnew : (st.pendingDynamic.insert key ⟨selector, nodeID⟩).lookup key
          = some ⟨selector, nodeID⟩ := AList.lookup_insert _
      exact Option.some.inj (hlook.symm.trans hnew)
    rw [hsame] at hsel
    exact htag hsel
  · refine h.pending key pending ?_ hsel
    have hold : (st.pendingDynamic.insert tag ⟨selector, nodeID⟩).lookup key
        = st.pendingDynamic.lookup key := AList.lookup_insert_ne hkey
    exact hold.symm.trans hlook

theorem Sound.cache (h : Sound sha (some selector) st)
    (hmember : member ≠ "" → st.overrides selector = member) : Sound sha none
      { st with selectorMembers := Function.update st.selectorMembers selector member } := by
  refine { h with members := ?_ }
  intro other _ hne
  by_cases hother : other = selector
  · subst hother
    simp only [Function.update_self] at hne ⊢
    exact hmember hne
  · simp only [Function.update_of_ne hother] at hne ⊢
    exact h.members other (fun heq => hother (Option.some.inj heq)) hne

theorem Sound.lag (h : Sound sha none st) (selector : String) : Sound sha (some selector) st :=
  { h with members := fun other _ => h.members other (by simp) }

/-- The probe lane replaces its own handler, which no listed selector uses. -/
theorem ownProbeTag_ready :
    Stable (SelectReady sha lane pool selector member) (ownProbeTag sha nodeID) := by
  refine Triple.fix (fun now hready => Triple.branch (Triple.pure (forall_eq.mpr hready)) ?_)
  have hprobe : IsProbeTag sha lane (now.probeHandlerTag sha nodeID) := by
    rw [State.probeHandlerTag, hready.lane]
    exact ⟨_, rfl⟩
  refine Triple.bind (fun _ => SelectReady sha lane pool selector member)
    (Triple.when (fun hold => Triple.of_final (forall_eq.mpr ?_)) (fun _ => forall_eq.mpr hready))
    (fun _ => ?_)
  · -- the previous handler of the lane goes
    have hrem := removeOutbound_removed now.probeRuntimeTag now
    have hidle : now.carrying now.probeRuntimeTag = [] := by
      refine State.carrying_eq_nil.mpr (fun other hlisted heq => ?_)
      have hne : other ≠ now.probeSelectorName := by
        rintro rfl
        exact hready.sound.unlisted hlisted
      exact hready.sound.overrides other hne (heq ▸ hready.sound.probeRuntimeTag hold.1)
    exact hready.congr hrem.pool hrem.probeSelector hrem.overrides hrem.retiredByPolicy
      hrem.activeByPolicy (hrem.sound hready.sound (fun _ => hidle))
  refine Triple.bind_state (fun later => ?_)
  refine Triple.keep (Triple.when (fun _ => ?_) (fun _ _ h => h)) (fun _ => ?_)
  · exact ready_of_quiet (admitDynamicTag_quiet _ _)
  refine Triple.keep (Triple.alter (fun st h => ?_)) (fun _ => ?_)
  · refine h.congr rfl rfl rfl rfl rfl (h.sound.markPending nodeID (fun _ => ?_))
    rw [h.lane]
    exact hprobe
  refine Triple.keep (ready_of_quiet (ensureOutbound_quiet _ _)) (fun _ => ?_)
  refine Triple.keep (Triple.alter (fun st h => ?_)) (fun _ => Triple.skip)
  refine h.congr rfl rfl rfl rfl rfl { h.sound with probeRuntimeTag := fun _ => ?_ }
  show IsProbeTag sha st.probeSelector _
  rw [h.lane]
  exact hprobe

theorem probeTag_ready :
    Stable (SelectReady sha lane pool selector member) (probeTag sha nodeID) := by
  refine Triple.bind_state (fun now => ?_)
  refine Triple.branch Triple.skip (Triple.branch ownProbeTag_ready ?_)
  refine Triple.branch Triple.skip (Triple.branch Triple.skip ?_)
  refine Triple.keep (ready_of_quiet (outboundPresent_quiet _)) (fun present => ?_)
  -- both bookkeeping updates touch nothing the conditions read
  refine Triple.ite (fun _ => ?_) (fun _ => ?_)
  · refine Triple.keep (Triple.alter (fun st h => ?_)) (fun _ => Triple.skip)
    exact h.congr rfl rfl rfl rfl rfl { h.sound with }
  · refine Triple.keep (Triple.alter (fun st h => ?_)) (fun _ => ownProbeTag_ready)
    exact h.congr rfl rfl rfl rfl rfl { h.sound with }

/-- The runtime member a selection continues with. -/
structure Chosen (sha : String → String) (lane : String) (pool : HealthPool)
    (selector member runtimeMember : String) (st : State) : Prop where
  ready : SelectReady sha lane pool selector member st
  named : selector ≠ st.probeSelectorName → ¬ IsProbeTag sha st.probeSelector runtimeMember
  nonempty : st.pool.lists selector → runtimeMember ≠ ""

/-- The selector is not the one of the probe lane. -/
def Ordinary (lane selector : String) : Prop :=
  ∀ st : State, st.probeSelector = lane → selector ≠ st.probeSelectorName

theorem SelectReady.chosen_runtimeTag (hsha : ∀ s, (sha s).length = 64)
    (hname : Ordinary lane selector) (h : SelectReady sha lane pool selector member st) :
    Chosen sha lane pool selector member (pool.policyRuntimeTag sha selector member) st := by
  obtain rfl := h.pool
  exact ⟨h, fun _ => HealthPool.policyRuntimeTag_not_probe hsha h.sound.published
    (h.named (hname st h.lane)), h.runtimeTag⟩

theorem SelectReady.markPending (hname : Ordinary lane selector) (tag : String)
    (h : SelectReady sha lane pool selector member st) : SelectReady sha lane pool selector member
      { st with pendingDynamic := st.pendingDynamic.insert tag ⟨selector, member⟩ } :=
  h.congr rfl rfl rfl rfl rfl (h.sound.markPending member (fun heq => absurd heq (hname st h.lane)))

theorem policyTag_chosen (hsha : ∀ s, (sha s).length = 64) (hname : Ordinary lane selector) :
    Triple (SelectReady sha lane pool selector member) (policyTag sha selector member)
      (Chosen sha lane pool selector member) (SelectReady sha lane pool selector member) := by
  refine Triple.read (fun now hnow => ?_)
  rw [hnow.pool]
  refine Triple.ite (fun hsame => ?_) (fun _ => ?_)
  · refine Triple.keep (Triple.alter (fun st h => ?_)) (fun _ => Triple.pure (fun st h => ?_))
    · exact h.congr rfl rfl rfl rfl rfl { h.sound with }
    · have hchosen := h.chosen_runtimeTag hsha hname
      rwa [hsame] at hchosen
  refine Triple.keep (Triple.when (fun _ => Triple.ite (fun _ => Triple.fail (fun _ h => h))
    (fun _ => ready_of_quiet (admitDynamicTag_quiet _ _))) (fun _ _ h => h)) (fun _ => ?_)
  refine Triple.keep (Triple.alter (fun st h => h.markPending hname _)) (fun _ => ?_)
  refine Triple.keep (ready_of_quiet (ensureOutbound_quiet _ _)) (fun _ => Triple.pure ?_)
  exact fun st h => h.chosen_runtimeTag hsha hname

theorem learnMember_ready :
    Stable (SelectReady sha lane pool selector member) (learnMember selector) := by
  refine Triple.bind_attempt (selectedRuntimeMember_triple (fun _ _ hq h => hq.selectReady h))
    (fun actual => Triple.alter ?_) (fun _ => Triple.skip)
  rintro st ⟨hactual, h⟩
  exact h.congr rfl rfl rfl rfl rfl ((h.sound.lag selector).cache (fun _ => hactual.symm))

theorem adoptHandler_ready (hname : Ordinary lane selector) :
    Stable (SelectReady sha lane pool selector member)
      (adoptHandler selector member expected) := by
  refine Triple.keep (ready_of_quiet (outboundPresent_quiet _)) (fun present => ?_)
  refine Triple.ite (fun _ => Triple.alter (fun st h => ?_)) (fun _ => ?_)
  · exact h.congr rfl rfl rfl rfl rfl { h.sound with }
  · refine Triple.keep (Triple.alter (fun st h => h.markPending hname _)) (fun _ => ?_)
    exact ready_of_quiet (ensureOutbound_quiet _ _)

theorem policyMember_chosen (hsha : ∀ s, (sha s).length = 64) (hname : Ordinary lane selector) :
    Triple (SelectReady sha lane pool selector member) (policyMember sha selector member)
      (Chosen sha lane pool selector member) (SelectReady sha lane pool selector member) := by
  refine Triple.read (fun now hnow => ?_)
  rw [hnow.pool]
  refine Triple.bind_state (fun later => ?_)
  refine Triple.keep (Triple.when (fun _ => learnMember_ready) (fun _ _ h => h)) (fun _ => ?_)
  refine Triple.bind_state (fun last => Triple.ite (fun _ => ?_) (fun _ => ?_))
  · refine Triple.keep (adoptHandler_ready hname) (fun _ => Triple.pure (fun st h => ?_))
    exact h.chosen_runtimeTag hsha hname
  · exact policyTag_chosen hsha hname

theorem runtimeMemberOf_chosen (hsha : ∀ s, (sha s).length = 64) :
    Triple (SelectReady sha lane pool selector member) (runtimeMemberOf sha selector member)
      (Chosen sha lane pool selector member) (SelectReady sha lane pool selector member) := by
  refine Triple.fix (fun now hready => Triple.ite (fun hprobe => ?_) (fun hname => ?_))
  · -- the probe selector is not listed and may take any tag
    refine probeTag_ready.weaken (forall_eq.mpr hready) (fun v st h => ?_) (fun _ h => h)
    have hself : selector = st.probeSelectorName := by
      rw [hprobe]
      exact State.probeSelectorName_congr (hready.lane.trans h.lane.symm)
    exact ⟨h, fun hne => absurd hself hne, fun hlisted => absurd (hself ▸ hlisted) h.sound.unlisted⟩
  refine Triple.ite (fun _ => ?_) (fun hliteral => Triple.pure (forall_eq.mpr ?_))
  · refine (policyMember_chosen hsha (fun st hst => ?_)).pre (forall_eq.mpr hready)
    rwa [State.probeSelectorName_congr (hst.trans hready.lane.symm)]
  · refine ⟨hready, hready.named, fun hlisted hempty => ?_⟩
    -- only `block` and `direct-wan` are taken over as they are for a listed selector
    exact hliteral ⟨hlisted, by rw [hempty]; decide, by rw [hempty]; decide⟩

/-- Overriding a selector leaves its cached member in doubt and nothing else. -/
theorem overrideBalancer_triple (hquiet : ∀ a b, Quiet a b → I a → I b) (hI : ∀ st, I st → J st)
    (happly : ∀ st, I st → J { st with overrides := Function.update st.overrides selector tag }) :
    Triple I (overrideBalancer selector tag) (fun _ => J) J := by
  refine Triple.bind (fun _ => I) ((nextOutcome_quiet.triple hquiet).onError hI) (fun outcome => ?_)
  have hset : Triple I (alter (fun st : State =>
      { st with overrides := Function.update st.overrides selector tag })) (fun _ => J) J :=
    Triple.alter happly
  cases outcome with
  | ok => exact hset
  | failed deadline => exact Triple.fail hI
  | lost deadline => exact Triple.bind _ hset (fun _ => Triple.fail (fun _ h => h))

theorem Sound.override (h : Sound sha none st)
    (htag : selector ≠ st.probeSelectorName → ¬ IsProbeTag sha st.probeSelector tag) :
    Sound sha (some selector)
      { st with overrides := Function.update st.overrides selector tag } := by
  refine { h with members := ?_, overrides := ?_ }
  · intro other hlag hne
    have hother : other ≠ selector := fun heq => hlag (by rw [heq])
    simp only [Function.update_of_ne hother]
    exact h.members other (by simp) hne
  · intro other hname
    by_cases hother : other = selector
    · subst hother
      simp only [Function.update_self]
      exact htag hname
    · simp only [Function.update_of_ne hother]
      exact h.overrides other hname

/-- Between override and readback. -/
structure Overridden (sha : String → String) (selector : String) (listed : Prop) (st : State) :
    Prop where
  sound : Sound sha (some selector) st
  unshared : st.pool.lists selector → Unshared sha selector st
  listed : st.pool.lists selector ↔ listed

theorem Quiet.overridden (h : Quiet a b) (ho : Overridden sha selector listed a) :
    Overridden sha selector listed b := by
  refine ⟨h.sound ho.sound, ?_, ?_⟩
  · rw [h.pool]
    exact fun hlisted => h.unshared (ho.unshared hlisted)
  · rw [h.pool]
    exact ho.listed

/-- The end of a selection whose member is the real override. -/
theorem settleSelection_sound : Triple (fun st => Sound sha none st ∧
        (policySelector = true → Unshared sha selector st ∧ st.overrides selector = runtimeMember))
      (settleSelection sha policySelector selector member runtimeMember)
      (fun _ => Sound sha none) (Sound sha none) := by
  refine Triple.ite (fun hpolicy => ?_) (fun _ => Triple.alter ?_)
  · refine commitPolicySelection_sound.pre ?_
    exact fun st h => ⟨h.1, (h.2 hpolicy).1, (h.2 hpolicy).2⟩
  · rintro st ⟨h, _⟩
    refine { h with pending := ?_ }
    exact fun tag pending hlook hsel => h.pending tag pending (lookup_of_erase hlook) hsel

/-- **Selection.** `Select` keeps the invariant, whatever its API calls do. -/
theorem select_sound (hsha : ∀ s, (sha s).length = 64) :
    Triple (SelectReady sha lane pool selector member) (select sha selector member)
      (fun _ => Sound sha none) (Sound sha none) := by
  refine Triple.read (fun now hnow => ?_)
  refine Triple.bind _ ((runtimeMemberOf_chosen hsha).onError (fun _ h => h.sound))
    (fun runtimeMember => ?_)
  refine Triple.fix (fun later hchosen => Triple.ite (fun hcached => ?_) (fun _ => ?_))
  · -- the cached member is the real override
    refine settleSelection_sound.pre (forall_eq.mpr ⟨hchosen.ready.sound, fun hpolicy => ?_⟩)
    have hlisted : later.pool.lists selector := by
      rw [hchosen.ready.pool, ← hnow.pool]
      exact of_decide_eq_true hpolicy
    refine ⟨hchosen.ready.unshared hlisted, ?_⟩
    rw [← hcached]
    refine hchosen.ready.sound.members selector (by simp) ?_
    rw [hcached]
    exact hchosen.nonempty hlisted
  -- the override is issued; from here on the cached member is in doubt until the readback
  have hover : Triple (· = later) (overrideBalancer selector runtimeMember)
      (fun _ => Overridden sha selector (now.pool.lists selector))
      (Overridden sha selector (now.pool.lists selector)) := by
    have hready : ∀ st, Chosen sha lane pool selector member runtimeMember st →
        Overridden sha selector (now.pool.lists selector) st := fun st h =>
      ⟨h.ready.sound.lag selector, h.ready.unshared, by rw [h.ready.pool, hnow.pool]⟩
    refine (overrideBalancer_triple (I := Chosen sha lane pool selector member runtimeMember)
      ?_ hready ?_).pre (forall_eq.mpr hchosen)
    · intro a b hq h
      refine ⟨hq.selectReady h.ready, ?_, ?_⟩
      · rw [State.probeSelectorName_congr hq.probeSelector, hq.probeSelector]
        exact h.named
      · rw [hq.pool]
        exact h.nonempty
    · intro st h
      refine ⟨h.ready.sound.override h.named, fun hlisted other hother hne => ?_,
        (hready st h).listed⟩
      simp only [Function.update_of_ne hne]
      exact h.ready.unshared hlisted other hother hne
  have hdoubt : ∀ e, Triple (Overridden sha selector (now.pool.lists selector))
      (do
        cacheMember selector ""
        fail e : M Unit) (fun _ => Sound sha none) (Sound sha none) := fun e =>
    Triple.bind (fun _ => Sound sha none)
      (Triple.alter (fun st h => h.sound.cache (fun hne => absurd rfl hne)))
      (fun _ => Triple.fail (fun _ h => h))
  refine Triple.bind_attempt hover (fun _ => ?_) hdoubt
  refine Triple.bind_attempt (selectedRuntimeMember_triple (fun _ _ hq h => hq.overridden h))
    (fun actual => Triple.ite (fun _ => (hdoubt _).pre (fun _ h => h.2)) (fun hsame => ?_)) hdoubt
  refine Triple.bind (fun _ st => Sound sha none st
      ∧ (decide (now.pool.lists selector) = true →
        Unshared sha selector st ∧ st.overrides selector = runtimeMember))
    (Triple.alter ?_) (fun _ => settleSelection_sound)
  rintro st ⟨hactual, h⟩
  have hread : st.overrides selector = runtimeMember := hactual.symm.trans (not_not.mp hsame)
  refine ⟨h.sound.cache (fun _ => hread), fun hpolicy => ⟨?_, hread⟩⟩
  exact h.unshared (h.listed.mpr (of_decide_eq_true hpolicy))

/-! ### Reading the current selection -/

theorem mem_visitOrder : key ∈ visitOrder order keys ↔ key ∈ keys := by
  simp only [visitOrder, List.mem_append, List.mem_dedup, List.mem_filter, decide_eq_true_eq]
  by_cases h : key ∈ order <;> simp [h]

theorem nodup_visitOrder (order : List String) (h : keys.Nodup) :
    (visitOrder order keys).Nodup := by
  refine List.Nodup.append (List.nodup_dedup _) (h.filter _) ?_
  intro key hleft hright
  rw [List.mem_dedup, List.mem_filter] at hleft
  rw [List.mem_filter, decide_eq_true_eq] at hright
  exact hright.2 hleft.1

/-- What `Current` is called with: the invariant, unshared retired handlers, and no node named
    like a probe handler. -/
structure CurrentReady (sha : String → String) (selector : String) (st : State) : Prop where
  sound : Sound sha none st
  unshared : st.pool.lists selector → Unshared sha selector st
  named : ∀ node ∈ st.activeByNode.keys, ¬ IsProbeTag sha st.probeSelector node

theorem Quiet.currentReady (h : Quiet a b) (hr : CurrentReady sha selector a) :
    CurrentReady sha selector b := by
  refine ⟨h.sound hr.sound, ?_, ?_⟩
  · rw [h.pool]
    exact fun hlisted => h.unshared (hr.unshared hlisted)
  · rw [h.activeByNode, h.probeSelector]
    exact hr.named

theorem ensureThen_sound (value : String) :
    Triple (CurrentReady sha selector) (do ensureOutbound nodeID tag; return value : M String)
      (fun _ => Sound sha none) (Sound sha none) := by
  have hensure : Stable (Sound sha none) (ensureOutbound nodeID tag) :=
    (ensureOutbound_quiet _ _).triple (fun _ _ hq h => hq.sound h)
  exact Triple.bind _ (hensure.pre (fun _ h => h.sound)) (fun _ => Triple.skip)

theorem currentByNode_sound (hsha : ∀ s, (sha s).length = 64) :
    Triple (CurrentReady sha selector) (currentByNode sha selector member order)
      (fun _ => Sound sha none) (Sound sha none) := by
  refine Triple.fix (fun now hready => ?_)
  split
  · exact Triple.pure (forall_eq.mpr hready.sound)
  rename_i node hfound
  have hnode : node ∈ now.activeByNode.keys :=
    mem_visitOrder.mp (List.mem_of_find?_eq_some hfound)
  refine Triple.ite (fun _ => Triple.pure (forall_eq.mpr hready.sound)) (fun hdynamic => ?_)
  refine Triple.branch ?_ ((ensureThen_sound _).pre (forall_eq.mpr hready))
  · have hselect : Triple (SelectReady sha now.probeSelector now.pool selector node)
        (select sha selector node) (fun _ => Sound sha none) (Sound sha none) := select_sound hsha
    refine Triple.bind (fun _ => Sound sha none) ?_ (fun r => ?_)
    · refine hselect.attempt_same.pre (forall_eq.mpr ?_)
      refine ⟨rfl, rfl, hready.sound, hready.unshared, fun _ => hready.named node hnode, ?_⟩
      -- the node has a definition of its own, so its tag is a derived one
      intro _ hempty
      have htag : now.pool.policyRuntimeTag sha selector node
          = now.pool.dynamicTag sha (now.pool.policyPrefix sha selector) node := by
        rw [HealthPool.policyRuntimeTag, if_neg (fun h => hdynamic h.symm)]
      have hlen := HealthPool.length_dynamicTag hsha hready.sound.published selector node
      rw [← htag, hempty] at hlen
      exact absurd hlen (by decide)
    · split
      · exact Triple.skip
      · exact Triple.fail (fun _ h => h)

/-- **Current.** Reading the selection, with the refresh it may trigger, keeps the invariant. -/
theorem current_sound (hsha : ∀ s, (sha s).length = 64) :
    Triple (CurrentReady sha selector) (current sha selector order)
      (fun _ => Sound sha none) (Sound sha none) := by
  refine Triple.bind _ ((selectedRuntimeMember_triple (fun _ _ hq h => hq.currentReady h)).onError
    (fun _ h => h.sound)) (fun member => ?_)
  have hcache : ∀ st, member = st.overrides selector ∧ CurrentReady sha selector st →
      Sound sha none
        { st with selectorMembers := Function.update st.selectorMembers selector member } :=
    fun st h => (h.2.sound.lag selector).cache (fun _ => h.1.symm)
  refine Triple.ite (fun hempty => ?_) (fun _ => ?_)
  · refine Triple.bind (fun _ => Sound sha none) (Triple.alter (fun st h => ?_))
      (fun _ => Triple.skip)
    have := hcache st h
    rwa [hempty] at this
  refine Triple.bind (fun _ => CurrentReady sha selector) (Triple.alter (fun st h => ?_))
    (fun _ => ?_)
  · exact ⟨hcache st h, h.2.unshared, h.2.named⟩
  refine Triple.bind_state (fun now => Triple.branch (Triple.pure (fun _ h => h.sound)) ?_)
  split
  · exact currentByNode_sound hsha
  split
  · exact currentByNode_sound hsha
  · exact Triple.branch (Triple.pure (fun _ h => h.sound)) (ensureThen_sound _)

end SbGateway.Agent
