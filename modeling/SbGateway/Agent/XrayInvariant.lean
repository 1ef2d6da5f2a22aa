import SbGateway.Agent.XrayFrames

namespace SbGateway.Agent

open Lib
open Prog

/-!
# The invariant of the selector runtime

* `Sound` — a cached member is the real override, the handlers of the probe lane are never
  the override of another selector, and every removal so far was of an idle handler;
* `Removed.sound` — removing an idle handler keeps it;
* `pruneRetiredOutbounds_triple` — what pruning may do, for any invariant;
* `commitPolicySelection_sound` — a confirmed selection keeps it, if the selector does not
  share its retired handlers.
-/

section Tags

variable (sha : String → String)

/-- A handler tag of the probe lane. -/
def IsProbeTag (probeSelector tag : String) : Prop :=
  ∃ source, tag = probeFamily sha probeSelector (shortHash sha source 12)

/-- The pool's prefixes are those of policies, as `BuildXrayHealthPool` publishes them. -/
def HealthPool.Published (pool : HealthPool) : Prop :=
  ∀ selector lead, pool.policyPrefixes.lookup selector = some lead →
    ∃ policyID, lead = urlTestPolicyPrefix sha policyID

variable {sha} (hsha : ∀ s, (sha s).length = 64)
include hsha

theorem length_shortHash (value : String) (hn : n ≤ 64) : (shortHash sha value n).length = n := by
  have h := hsha value
  rw [← String.length_toList] at h
  rw [shortHash, String.length_ofList, List.length_take]
  omega

theorem length_urlTestPolicyPrefix (policyID : String) :
    (urlTestPolicyPrefix sha policyID).length = 24 := by
  have h := length_shortHash hsha policyID (n := 12) (by omega)
  have hlead : "sb-urltest-".length = 11 := by decide
  have hdash : "-".length = 1 := by decide
  rw [urlTestPolicyPrefix, String.length_append, String.length_append]
  omega

theorem IsProbeTag.length_eq (h : IsProbeTag sha probeSelector tag) :
    tag.length = 29 ∨ tag.length = 31 := by
  obtain ⟨source, rfl⟩ := h
  have hdigest := length_shortHash hsha source (n := 12) (by omega)
  have hlane := length_shortHash hsha probeSelector (n := 8) (by omega)
  have hprobe : "sb-urltest-probe-".length = 17 := by decide
  have hhealth : "sb-health-".length = 10 := by decide
  have hdash : "-".length = 1 := by decide
  unfold probeFamily
  split
  · simp only [String.length_append]
    omega
  · simp only [String.length_append]
    omega

/-- The handler tag of a policy selector has its own length. -/
theorem HealthPool.length_dynamicTag {pool : HealthPool} (hpub : pool.Published sha)
    (selector nodeID : String) :
    (pool.dynamicTag sha (pool.policyPrefix sha selector) nodeID).length = 36 := by
  have hlead : ∃ policyID, pool.policyPrefix sha selector = urlTestPolicyPrefix sha policyID := by
    simp only [HealthPool.policyPrefix]
    split
    · rename_i hne
      cases hlook : pool.policyPrefixes.lookup selector with
      | none => exact absurd (by rw [hlook]; rfl) hne
      | some lead => exact hpub selector lead hlook
    · exact ⟨selector, rfl⟩
  obtain ⟨policyID, hlead⟩ := hlead
  have hprefix := length_urlTestPolicyPrefix hsha policyID
  have hdigest := length_shortHash hsha
    (nodeID ++ "\x00" ++ (pool.outbounds.lookup nodeID).getD "") (n := 12) (by omega)
  rw [HealthPool.dynamicTag, hlead, String.length_append, HealthPool.dynamicDigest]
  omega

/-- The runtime tag of a member is no probe tag, unless the member is named like one. -/
theorem HealthPool.policyRuntimeTag_not_probe {pool : HealthPool} (hpub : pool.Published sha)
    (hmember : ¬ IsProbeTag sha probeSelector member) :
    ¬ IsProbeTag sha probeSelector (pool.policyRuntimeTag sha selector member) := by
  unfold HealthPool.policyRuntimeTag
  split
  · exact hmember
  · intro hprobe
    have hlane := hprobe.length_eq hsha
    have hlen := HealthPool.length_dynamicTag hsha hpub selector member
    omega

theorem HealthPool.policyRuntimeTag_ne_empty {pool : HealthPool} (hpub : pool.Published sha)
    (hmember : member ≠ "") :
    pool.policyRuntimeTag sha selector member ≠ "" := by
  unfold HealthPool.policyRuntimeTag
  split
  · exact hmember
  · intro hempty
    have hlen := HealthPool.length_dynamicTag hsha hpub selector member
    rw [hempty] at hlen
    exact absurd hlen (by decide)

end Tags

/-! ### The invariant -/

/-- The invariant of all runs.  Between an override and its readback the cached member of the
    selector `lagging` may be out of date. -/
structure Sound (sha : String → String) (lagging : Option String) (st : State) : Prop where
  members : ∀ selector, some selector ≠ lagging → st.selectorMembers selector ≠ "" →
    st.overrides selector = st.selectorMembers selector
  probeRuntimeTag : st.probeRuntimeTag ≠ "" →
    IsProbeTag sha st.probeSelector st.probeRuntimeTag
  pending : ∀ tag pending, st.pendingDynamic.lookup tag = some pending →
    pending.selector = st.probeSelectorName → IsProbeTag sha st.probeSelector tag
  overrides : ∀ selector, selector ≠ st.probeSelectorName →
    ¬ IsProbeTag sha st.probeSelector (st.overrides selector)
  unlisted : ¬ st.pool.lists st.probeSelectorName
  published : st.pool.Published sha
  idle : ∀ removal ∈ st.removals, removal.carrying = []

variable {sha : String → String} {lagging : Option String}

theorem State.carrying_eq_nil {st : State} :
    st.carrying tag = [] ↔ ∀ selector, st.pool.lists selector → st.overrides selector ≠ tag := by
  simp [State.carrying, HealthPool.lists]

variable {a b : State}

theorem State.probeSelectorName_congr (h : b.probeSelector = a.probeSelector) :
    b.probeSelectorName = a.probeSelectorName := by
  rw [State.probeSelectorName, State.probeSelectorName, h]

theorem Quiet.sound (h : Quiet a b) (hs : Sound sha lagging a) : Sound sha lagging b := by
  have hname := State.probeSelectorName_congr h.probeSelector
  constructor
  · rw [h.selectorMembers, h.overrides]
    exact hs.members
  · rw [h.probeRuntimeTag, h.probeSelector]
    exact hs.probeRuntimeTag
  · rw [h.pendingDynamic, h.probeSelector, hname]
    exact hs.pending
  · rw [h.overrides, h.probeSelector, hname]
    exact hs.overrides
  · rw [h.pool, hname]
    exact hs.unlisted
  · rw [h.pool]
    exact hs.published
  · rw [h.removals]
    exact hs.idle

theorem lookup_of_erase {α : Type} {m : AList (fun _ : String => α)}
    {value : α} (h : (m.erase removed).lookup key = some value) : m.lookup key = some value := by
  by_cases hkey : key = removed
  · rw [hkey, AList.lookup_erase] at h
    cases h
  · rwa [AList.lookup_erase_ne hkey] at h

theorem Removed.pending_lookup (h : Removed tag a b)
    {pending : PendingOutbound} (hb : b.pendingDynamic.lookup key = some pending) :
    a.pendingDynamic.lookup key = some pending := by
  rcases h.pending with heq | ⟨_, heq⟩
  · rwa [heq] at hb
  · rw [heq] at hb
    exact lookup_of_erase hb

/-- Removing a handler nobody points at keeps the invariant. -/
theorem Removed.sound {tag : String} (h : Removed tag a b)
    (hs : Sound sha lagging a) (hidle : tag ∈ a.loadedDynamic → a.carrying tag = []) :
    Sound sha lagging b := by
  have hname := State.probeSelectorName_congr h.probeSelector
  constructor
  · intro selector hlag hne
    rw [h.overrides]
    rcases h.members selector with hsame | hempty
    · rw [hsame] at hne ⊢
      exact hs.members selector hlag hne
    · exact absurd hempty hne
  · intro hne
    rw [h.probeSelector]
    rcases h.probeRuntimeTag with hsame | hempty
    · rw [hsame] at hne ⊢
      exact hs.probeRuntimeTag hne
    · exact absurd hempty hne
  · intro key pending hlook hsel
    rw [h.probeSelector]
    rw [hname] at hsel
    exact hs.pending key pending (h.pending_lookup hlook) hsel
  · rw [h.overrides, h.probeSelector, hname]
    exact hs.overrides
  · rw [h.pool, hname]
    exact hs.unlisted
  · rw [h.pool]
    exact hs.published
  · intro removal hmem
    rcases h.removals with hsame | ⟨hload, hnew⟩
    · rw [hsame] at hmem
      exact hs.idle removal hmem
    · rw [hnew, List.mem_append, List.mem_singleton] at hmem
      rcases hmem with hold | rfl
      · exact hs.idle removal hold
      · exact hidle hload

/-! ### Pruning -/

theorem removeRetired_triple
    (hI : ∀ tag ∈ tags, ∀ a b, I a → tag ≠ a.activeByPolicy policyID → Removed tag a b → I b) :
    Triple I (removeRetired policyID tags) (fun failed st => failed ⊆ tags ∧ I st) I := by
  induction tags with
  | nil => exact Triple.pure (fun st h => ⟨fun _ hmem => hmem, h⟩)
  | cons tag rest ih =>
    have hrest := ih (fun other hmem => hI other (List.mem_cons_of_mem tag hmem))
    have hwider : Triple I (removeRetired policyID rest)
        (fun failed st => failed ⊆ tag :: rest ∧ I st) I :=
      hrest.post (fun _ _ h => ⟨fun _ hmem => List.mem_cons_of_mem tag (h.1 hmem), h.2⟩)
    refine Triple.fix (fun now hnow => Triple.ite (fun _ => ?_) (fun hactive => ?_))
    · exact hwider.pre (forall_eq.mpr hnow)
    -- the attempt leaves `I` behind whether the removal was confirmed or not
    have hremove : Triple (· = now) (removeOutbound tag) (fun _ => I) I := Triple.of_final
      (forall_eq.mpr (hI tag List.mem_cons_self now _ hnow hactive
        (removeOutbound_removed tag now)))
    refine Triple.bind (fun _ => I) hremove.attempt_same (fun r => ?_)
    split
    · exact hwider
    · refine Triple.bind _ hrest (fun failed => Triple.pure (fun st h => ⟨?_, h.2⟩))
      exact List.cons_subset_cons tag h.1

/-- What pruning stores: nothing new, and nothing moves behind the newest. -/
structure Kept (retired kept : List String) : Prop where
  subset : kept ⊆ retired
  older : kept.dropLast ⊆ retired.dropLast

theorem kept_of_failed (hlong : ¬ retired.length ≤ 1) (hfailed : failed ⊆ retired.dropLast.take 4) :
    Kept retired (retired.dropLast.drop 4 ++ failed ++ retired.getLast?.toList) := by
  have hne : retired ≠ [] := by
    rintro rfl
    exact hlong (Nat.zero_le 1)
  have hlast : retired.getLast?.toList = [retired.getLast hne] := by
    rw [List.getLast?_eq_some_getLast hne]
    rfl
  have hold : retired.dropLast.drop 4 ++ failed ⊆ retired.dropLast := by
    intro tag hmem
    rcases List.mem_append.mp hmem with h | h
    · exact List.mem_of_mem_drop h
    · exact List.mem_of_mem_take (hfailed h)
  rw [hlast]
  refine ⟨fun tag hmem => ?_, ?_⟩
  · rcases List.mem_append.mp hmem with h | h
    · exact List.dropLast_subset retired (hold h)
    · rw [List.mem_singleton] at h
      rw [h]
      exact List.getLast_mem hne
  · rw [List.dropLast_concat]
    exact hold

/-- **Pruning.** What removals of older retired tags and shorter retired lists preserve,
    pruning preserves. -/
theorem pruneRetiredOutbounds_triple (hI : ∀ tag a b, tag ∈ (a.retiredOf policyID).dropLast → I a →
      tag ≠ a.activeByPolicy policyID → Removed tag a b → I b)
    (hkeep : ∀ a kept, I a → Kept (a.retiredOf policyID) kept →
      I { a with retiredByPolicy := a.retiredByPolicy.insert policyID kept }) :
    Stable I (pruneRetiredOutbounds policyID) := by
  refine Triple.fix (fun now hnow => ?_)
  refine Triple.ite (fun _ => Triple.pure (forall_eq.mpr hnow)) (fun hlong => ?_)
  -- the retired list itself does not move while tags are removed
  let J : State → Prop := fun st => st.retiredOf policyID = now.retiredOf policyID ∧ I st
  have hloop : Triple J (removeRetired policyID (((now.retiredOf policyID).dropLast).take 4))
      (fun failed st => failed ⊆ ((now.retiredOf policyID).dropLast).take 4 ∧ J st) J := by
    refine removeRetired_triple (fun tag hmem a b ha hactive hrem => ?_)
    refine ⟨?_, hI tag a b ?_ ha.2 hactive hrem⟩
    · rw [State.retiredOf, hrem.retiredByPolicy]
      exact ha.1
    · rw [ha.1]
      exact List.mem_of_mem_take hmem
  refine Triple.bind _ (hloop.weaken (forall_eq.mpr ⟨rfl, hnow⟩) (fun _ _ h => h) (fun _ h => h.2))
    (fun failed => Triple.alter (fun st h => hkeep st _ h.2.2 ?_))
  rw [h.2.1]
  exact kept_of_failed hlong h.1

/-! ### Committing a selection -/

theorem retireFor_mem (h : tag ∈ retireFor retired lead previous runtimeTag) :
    tag ≠ runtimeTag ∧ (tag ∈ retired ∨ tag = previous) := by
  simp only [retireFor] at h
  split at h
  · rename_i hprev
    rcases List.mem_append.mp h with h | h
    · rw [List.mem_filter, decide_eq_true_eq] at h
      exact ⟨h.2, .inl h.1⟩
    · rw [List.mem_singleton] at h
      exact ⟨h ▸ hprev.2.1, .inr h⟩
  · rw [List.mem_filter, decide_eq_true_eq] at h
    exact ⟨h.2, .inl h.1⟩

/-- The retired tags that a commit may prune: all of them if the tag in use becomes the newest
    retired one, else all but the newest. -/
def prunable (retired : List String) (lead previous : String) : List String :=
  if previous ≠ "" ∧ hasPrefix previous lead ∧ previous ∉ retired then retired
  else retired.dropLast

/-- A tag that becomes retired is the newest, so pruning does not reach it. -/
theorem retireFor_dropLast_mem {retired : List String} {lead previous runtimeTag : String}
    (h : tag ∈ (retireFor retired lead previous runtimeTag).dropLast) :
    tag ≠ runtimeTag ∧ tag ∈ prunable retired lead previous := by
  simp only [retireFor] at h
  split at h
  next hpushed =>
    rw [List.dropLast_concat, List.mem_filter, decide_eq_true_eq] at h
    have hnew : previous ∉ retired := fun hmem =>
      hpushed.2.2.2 (List.mem_filter.mpr ⟨hmem, decide_eq_true hpushed.2.1⟩)
    rw [prunable, if_pos ⟨hpushed.1, hpushed.2.2.1, hnew⟩]
    exact ⟨h.2, h.1⟩
  next =>
    have hmem := List.mem_filter.mp (List.dropLast_subset _ h)
    refine ⟨of_decide_eq_true hmem.2, ?_⟩
    -- the newest tag, if it stays, stays the newest
    have hlast := (retired.filter_sublist (p := (decide <| · ≠ runtimeTag))).reverse.tail
    rw [List.tail_reverse, List.tail_reverse, List.reverse_sublist] at hlast
    rw [prunable]
    split
    · exact hmem.1
    · exact hlast.subset h

theorem State.retiredOf_insert (st : State) (policyID other : String) (kept : List String) :
    ({ st with retiredByPolicy := st.retiredByPolicy.insert policyID kept } : State).retiredOf other
      = if other = policyID then kept else st.retiredOf other := by
  unfold State.retiredOf
  by_cases h : other = policyID
  · subst h
    simp [AList.lookup_insert]
  · simp [AList.lookup_insert_ne h, h]

theorem State.committed_retiredOf (sha : String → String) (st : State)
    (policyID nodeID runtimeTag other : String) :
    (st.committed sha policyID nodeID runtimeTag).retiredOf other
      = if other = policyID then
          retireFor (st.retiredOf policyID) (st.pool.policyPrefix sha policyID)
            (st.activeByPolicy policyID) runtimeTag
        else st.retiredOf other :=
  State.retiredOf_insert st policyID other _

theorem Sound.committed (h : Sound sha lagging st) (policyID nodeID runtimeTag : String) :
    Sound sha lagging (st.committed sha policyID nodeID runtimeTag) := by
  refine { h with pending := ?_ }
  exact fun tag pending hlook hsel => h.pending tag pending (lookup_of_erase hlook) hsel

theorem Sound.withRetired (h : Sound sha lagging st)
    (retired : AList (fun _ : String => List String)) :
    Sound sha lagging { st with retiredByPolicy := retired } :=
  { h with }

theorem State.retiredOf_congr {a b : State} (h : b.retiredByPolicy = a.retiredByPolicy)
    (policyID : String) : b.retiredOf policyID = a.retiredOf policyID := by
  rw [State.retiredOf, h, State.retiredOf]

/-- The retired handlers of a policy that its next commit may prune. -/
def State.prunable (sha : String → String) (st : State) (policyID : String) : List String :=
  Agent.prunable (st.retiredOf policyID) (st.pool.policyPrefix sha policyID)
    (st.activeByPolicy policyID)

/-- No other listed selector points at a handler of `policyID` that a commit may prune. -/
def Unshared (sha : String → String) (policyID : String) (st : State) : Prop :=
  ∀ selector, st.pool.lists selector → selector ≠ policyID →
    st.overrides selector ∉ st.prunable sha policyID

instance (policyID : String) (st : State) : Decidable (Unshared sha policyID st) :=
  inferInstanceAs (Decidable (∀ selector ∈ st.pool.policies.keys, selector ≠ policyID →
    st.overrides selector ∉ st.prunable sha policyID))

/-- What is shared is said by the pool, the overrides and the books of the policy. -/
theorem Unshared.congr (h : Unshared sha policyID a) (hpool : b.pool = a.pool)
    (hover : b.overrides = a.overrides) (hretired : b.retiredOf policyID = a.retiredOf policyID)
    (hactive : b.activeByPolicy policyID = a.activeByPolicy policyID) :
    Unshared sha policyID b := by
  intro selector
  rw [State.prunable, hpool, hover, hretired, hactive]
  exact h selector

/-- **Pruning after a commit.** A selector that does not share what it may prune prunes idle
    handlers only, once its new handler is selected. -/
theorem commitPolicySelection_triple {P I : State → Prop} {runtimeTag : String}
    (hstart : ∀ st, P st → I (st.committed sha policyID nodeID runtimeTag) ∧
      Unshared sha policyID st ∧ st.overrides policyID = runtimeTag)
    (hremoved : ∀ tag a b, I a → a.carrying tag = [] → Removed tag a b → I b)
    (hkept : ∀ a kept, I a → Kept (a.retiredOf policyID) kept →
      I { a with retiredByPolicy := a.retiredByPolicy.insert policyID kept }) :
    Triple P (commitPolicySelection sha policyID nodeID runtimeTag) (fun _ => I) I := by
  -- while pruning, nobody points at an older retired handler
  let J : State → Prop := fun st => I st ∧
    ∀ tag ∈ (st.retiredOf policyID).dropLast, ∀ selector, st.pool.lists selector →
      st.overrides selector ≠ tag
  have hprune : Stable J (pruneRetiredOutbounds policyID) := by
    refine pruneRetiredOutbounds_triple ?_ ?_
    · intro tag a b hmem ha _ hrem
      refine ⟨hremoved tag a b ha.1 (State.carrying_eq_nil.mpr (ha.2 tag hmem)) hrem, ?_⟩
      rw [State.retiredOf, hrem.retiredByPolicy, hrem.pool, hrem.overrides]
      exact ha.2
    · intro a kept ha hkeep
      refine ⟨hkept a kept ha.1 hkeep, ?_⟩
      rw [State.retiredOf_insert, if_pos rfl]
      exact fun tag hmem => ha.2 tag (hkeep.older hmem)
  refine Triple.bind (fun _ => J) (Triple.alter fun st h => ?_) (fun _ =>
    hprune.weaken (fun _ h => h) (fun _ _ h => h.1) (fun _ h => h.1))
  obtain ⟨hI, hshared, hselected⟩ := hstart st h
  refine ⟨hI, ?_⟩
  intro tag hmem selector hlisted heq
  have hmem' : tag ∈ ((st.committed sha policyID nodeID runtimeTag).retiredOf policyID).dropLast :=
    hmem
  rw [State.committed_retiredOf, if_pos rfl] at hmem'
  obtain ⟨hne, hold⟩ := retireFor_dropLast_mem hmem'
  by_cases hself : selector = policyID
  · subst hself
    exact hne (heq.symm.trans hselected)
  · exact hshared selector hlisted hself (heq ▸ hold)

/-- **Commit.** After its selection was confirmed, a selector may prune its retired handlers
    if it does not share them. -/
theorem commitPolicySelection_sound {policyID nodeID runtimeTag : String} :
    Triple (fun st => Sound sha none st ∧ Unshared sha policyID st
        ∧ st.overrides policyID = runtimeTag)
      (commitPolicySelection sha policyID nodeID runtimeTag)
      (fun _ => Sound sha none) (Sound sha none) := by
  refine commitPolicySelection_triple (fun st h => ⟨h.1.committed .., h.2⟩) ?_ ?_
  · exact fun tag a b hs hidle hrem => hrem.sound hs fun _ => hidle
  · exact fun a kept hs _ => hs.withRetired _

end SbGateway.Agent
