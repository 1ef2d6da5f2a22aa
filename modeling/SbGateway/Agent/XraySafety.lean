import SbGateway.Agent.XraySelect

namespace SbGateway.Agent

open Lib
open Prog

/-!
# No handler that carries traffic is removed

Retired tags and pending handlers are booked per selector, while a policy and its service
selectors share their tags, and the booked selection can lag behind Xray after a lost
acknowledgement.  `Admissible` says when a call meets neither situation; the runs made of
such calls never remove a handler that a listed selector points at.

* `reload_sound` — the reconciliation of a reload settles every lagging selection before its
  cleanup starts;
* `run_removals_idle` — every removal of an admissible run is of an idle handler;
* `shared_handler_removed` — a policy that moves on twice removes the handler its service
  selector still uses, with every API call successful.
-/

variable {sha : String → String}

/-! ### When a call is admissible -/

/-- No pending handler of one selector is the override of another listed one. -/
def PendingUnshared (st : State) : Prop :=
  ∀ entry ∈ st.pendingDynamic.entries, ∀ selector ∈ st.pool.policies.keys,
    selector ≠ entry.2.selector → st.overrides selector ≠ entry.1

/-- A listed selector that really points at one of its own retired handlers, without being
    booked as active there, has the handler pending and both its readbacks answer. -/
def Settled (answers : String → Bool × Bool) (st : State) : Prop :=
  ∀ selector ∈ st.pool.policies.keys, st.overrides selector ∈ st.retiredOf selector →
    st.overrides selector ≠ st.activeByPolicy selector →
      (st.pendingDynamic.lookup (st.overrides selector)).map PendingOutbound.selector
          = some selector
        ∧ answers (st.overrides selector) = (true, true)

/-- The state in which a reload starts its cleanup shares no handler that may be pruned, and is
    settled. -/
structure CleanupReady (sha : String → String) (answers : String → Bool × Bool) (st : State) :
    Prop where
  published : st.pool.Published sha
  unlisted : ¬ st.pool.lists st.probeSelectorName
  /-- Only the newest retired handler of a selector may be shared. -/
  older : ∀ policyID ∈ st.retiredByPolicy.keys, ∀ selector ∈ st.pool.policies.keys,
    selector ≠ policyID → st.overrides selector ∉ (st.retiredOf policyID).dropLast
  /-- A selector that points at its pending handler may be committed. -/
  unshared : ∀ entry ∈ st.pendingDynamic.entries, st.overrides entry.2.selector = entry.1 →
    Unshared sha entry.2.selector st
  pendingUnshared : PendingUnshared st
  settled : Settled answers st

/-- The condition on a call, in the state before it. -/
def Admissible (sha : String → String) (st : State) (s : Step) : Prop :=
  match s.call with
  | .reload input =>
    match input.snapshot with
    | none => True
    | some (pool, signature) =>
      CleanupReady sha input.answers (st.adoptSnapshot pool signature input.pid)
  | .select selector member =>
    (selector ≠ st.probeSelectorName → ¬ IsProbeTag sha st.probeSelector member)
      ∧ (st.pool.lists selector → member ≠ "" ∧ Unshared sha selector st)
  | .current selector _ =>
    (∀ node ∈ st.activeByNode.keys, ¬ IsProbeTag sha st.probeSelector node)
      ∧ (st.pool.lists selector → Unshared sha selector st)
  | .probe _ _ => True

/-- Every call of a run is admissible in the state it meets. -/
def AdmissibleRun (sha : String → String) : State → List Step → Prop
  | _, [] => True
  | st, s :: rest => Admissible sha st s ∧ AdmissibleRun sha (step sha st s) rest

/-! ### Reconciling pending handlers -/

/-- The invariant of the reconciliation of the tags `all`, of which `visited` are already
    reconciled.  A selector is committed at most once, because its override does not move
    meanwhile. -/
structure Reconciling (sha : String → String) (answers : String → Bool × Bool)
    (all visited : List String) (st : State) : Prop where
  sound : Sound sha none st
  older : ∀ policyID selector, st.pool.lists selector → selector ≠ policyID →
    st.overrides selector ∉ (st.retiredOf policyID).dropLast
  unshared : ∀ tag pending, st.pendingDynamic.lookup tag = some pending →
    st.overrides pending.selector = tag → tag ∉ visited → Unshared sha pending.selector st
  pending : ∀ tag pending selector, st.pendingDynamic.lookup tag = some pending →
    st.pool.lists selector → selector ≠ pending.selector → st.overrides selector ≠ tag
  known : ∀ tag pending, st.pendingDynamic.lookup tag = some pending → tag ∈ all
  own : ∀ selector, st.pool.lists selector → st.overrides selector ∈ st.retiredOf selector →
    st.overrides selector ≠ st.activeByPolicy selector →
    st.overrides selector ∈ st.loadedDynamic →
      st.overrides selector ∉ visited
        ∧ answers (st.overrides selector) = (true, true)
        ∧ ∃ pending, st.pendingDynamic.lookup (st.overrides selector) = some pending
            ∧ pending.selector = selector

/-- Bookkeeping of handlers and of the probe lane, without a word about selections.  What the
    listed selectors point at keeps its pending entry. -/
theorem Reconciling.congr (hr : Reconciling sha answers all visited a)
    (hpool : b.pool = a.pool) (hover : b.overrides = a.overrides)
    (hretired : b.retiredByPolicy = a.retiredByPolicy)
    (hactive : b.activeByPolicy = a.activeByPolicy) (hsound : Sound sha none b)
    (hpending : ∀ tag pending, b.pendingDynamic.lookup tag = some pending →
      a.pendingDynamic.lookup tag = some pending)
    (hload : ∀ selector, a.pool.lists selector → a.overrides selector ∈ b.loadedDynamic →
      a.overrides selector ∈ a.loadedDynamic ∧ b.pendingDynamic.lookup (a.overrides selector) =
        a.pendingDynamic.lookup (a.overrides selector)) :
    Reconciling sha answers all visited b := by
  have hof := State.retiredOf_congr hretired
  refine ⟨hsound, ?_, ?_, ?_, fun tag pending hlook =>
    hr.known tag pending (hpending _ _ hlook), ?_⟩
  · simp only [hof, hpool, hover]
    exact hr.older
  · rw [hover]
    exact fun tag pending hlook hselected hnew =>
      (hr.unshared tag pending (hpending _ _ hlook) hselected hnew).congr hpool hover (hof _)
        (congrFun hactive _)
  · rw [hpool, hover]
    exact fun tag pending selector hlook => hr.pending tag pending selector (hpending _ _ hlook)
  · intro selector
    rw [hpool, hover, hof, hactive]
    intro hlisted hmem hne hin
    obtain ⟨hin, hlook⟩ := hload selector hlisted hin
    rw [hlook]
    exact hr.own selector hlisted hmem hne hin

theorem Removed.reconciling (h : Removed tag a b) (hr : Reconciling sha answers all visited a)
    (hidle : tag ∈ a.loadedDynamic → a.carrying tag = []) :
    Reconciling sha answers all visited b := by
  refine hr.congr h.pool h.overrides h.retiredByPolicy h.activeByPolicy (h.sound hr.sound hidle)
    (fun _ _ => h.pending_lookup) fun selector hlisted hload => ⟨h.loaded hload, ?_⟩
  rcases h.pending with hsame | ⟨htag, herase⟩
  · rw [hsame]
  · -- an issued removal is of an idle tag, so this pending handler stays
    rw [herase]
    exact AList.lookup_erase_ne (State.carrying_eq_nil.mp (hidle htag) selector hlisted)

/-- The retired handlers of a selector that was visited are pruned. -/
theorem Reconciling.kept (hr : Reconciling sha answers all visited st)
    (hvisited : st.overrides policyID ∈ visited) {kept : List String}
    (hkept : Kept (st.retiredOf policyID) kept) :
    Reconciling sha answers all visited
      { st with retiredByPolicy := st.retiredByPolicy.insert policyID kept } := by
  have hsub : ∀ other, ({ st with retiredByPolicy := st.retiredByPolicy.insert policyID kept } :
      State).retiredOf other ⊆ st.retiredOf other := by
    intro other
    rw [State.retiredOf_insert]
    split
    · rename_i heq
      rw [heq]
      exact hkept.subset
    · exact fun _ h => h
  refine ⟨hr.sound.withRetired _, ?_, ?_, hr.pending, hr.known, ?_⟩
  · intro other selector hlisted hne hmem
    refine hr.older other selector hlisted hne ?_
    rw [State.retiredOf_insert] at hmem
    split at hmem
    · rename_i heq
      rw [heq]
      exact hkept.older hmem
    · exact hmem
  · intro tag pending hlook hselected hnew
    have hne : pending.selector ≠ policyID := by
      rintro rfl
      exact hnew (hselected ▸ hvisited)
    refine (hr.unshared tag pending hlook hselected hnew).congr rfl rfl ?_ rfl
    rw [State.retiredOf_insert, if_neg hne]
  · exact fun selector hlisted hmem => hr.own selector hlisted (hsub selector hmem)

theorem Reconciling.mono (hr : Reconciling sha answers all visited st)
    (hown : ∀ selector, st.pool.lists selector → st.overrides selector = tag →
      st.overrides selector ∈ st.retiredOf selector →
      st.overrides selector ≠ st.activeByPolicy selector →
      st.overrides selector ∉ st.loadedDynamic) :
    Reconciling sha answers all (visited ++ [tag]) st := by
  refine ⟨hr.sound, hr.older, ?_, hr.pending, hr.known, ?_⟩
  · exact fun key pending hlook hselected hnew =>
      hr.unshared key pending hlook hselected fun hin => hnew (List.mem_append_left _ hin)
  · intro selector hlisted hmem hactive hload
    obtain ⟨hvisited, hrest⟩ := hr.own selector hlisted hmem hactive hload
    refine ⟨fun hin => ?_, hrest⟩
    rcases List.mem_append.mp hin with h | h
    · exact hvisited h
    · exact hown selector hlisted (List.mem_singleton.mp h) hmem hactive hload

/-- Committing the selection of a visited tag. -/
theorem commitPolicySelection_reconciling (hnew : tag ∉ visited) :
    Triple (fun st => Reconciling sha answers all visited st ∧ st.overrides policyID = tag
        ∧ (∃ pending, st.pendingDynamic.lookup tag = some pending ∧ pending.selector = policyID)
        ∧ ∀ selector, st.pool.lists selector → selector ≠ policyID → st.overrides selector ≠ tag)
      (commitPolicySelection sha policyID nodeID tag)
      (fun _ => Reconciling sha answers all (visited ++ [tag]))
      (Reconciling sha answers all (visited ++ [tag])) := by
  let I : State → Prop := fun st =>
    Reconciling sha answers all (visited ++ [tag]) st ∧ st.overrides policyID = tag
  refine Triple.weaken (commitPolicySelection_triple (I := I) ?_
      (fun old a b ha hidle hrem => ⟨hrem.reconciling ha.1 fun _ => hidle, hrem.overrides ▸ ha.2⟩)
      fun a kept ha hkept => ⟨ha.1.kept (by simp [ha.2]) hkept, ha.2⟩)
    (fun _ h => h) (fun _ _ h => h.1) (fun _ h => h.1)
  rintro st ⟨hr, hselected, ⟨own, hown, rfl⟩, hothers⟩
  -- this selector was not committed before, so nobody else points at what it may prune
  have hfree := hr.unshared tag own hown hselected hnew
  have hretired := State.committed_retiredOf sha st own.selector nodeID tag
  refine ⟨⟨⟨hr.sound.committed own.selector nodeID tag, ?_, ?_, ?_,
    fun key pending hlook => hr.known key pending (lookup_of_erase hlook), ?_⟩, hselected⟩, hfree,
    hselected⟩
  · intro other selector hlisted hne
    rw [hretired]
    split
    · rename_i heq
      intro hmem
      exact hfree selector hlisted (heq ▸ hne) (retireFor_dropLast_mem hmem).2
    · exact hr.older other selector hlisted hne
  · intro key pending hlook hkey hunvisited
    have hother : pending.selector ≠ own.selector := fun heq =>
      hunvisited (List.mem_append_right _ (List.mem_singleton.mpr
        (hkey.symm.trans ((congrArg st.overrides heq).trans hselected))))
    refine (hr.unshared key pending (lookup_of_erase hlook) hkey
      fun hin => hunvisited (List.mem_append_left _ hin)).congr rfl rfl ?_ ?_
    · rw [hretired, if_neg hother]
    · exact Function.update_of_ne hother ..
  · exact fun key pending selector hlook => hr.pending key pending selector (lookup_of_erase hlook)
  · intro selector hlisted hmem hactive hload
    rw [hretired] at hmem
    by_cases hself : selector = own.selector
    · subst hself
      rw [if_pos rfl] at hmem
      exact absurd hselected (retireFor_mem hmem).1
    · have hne := hothers selector hlisted hself
      rw [if_neg hself] at hmem
      have hactive' : st.overrides selector ≠ st.activeByPolicy selector := by
        have hsame : (st.committed sha own.selector nodeID tag).activeByPolicy selector
            = st.activeByPolicy selector := Function.update_of_ne hself ..
        rwa [hsame] at hactive
      obtain ⟨hvisited, hanswers, pending, hlook, hsel⟩ :=
        hr.own selector hlisted hmem hactive' hload
      refine ⟨fun hin => ?_, hanswers, pending, ?_, hsel⟩
      · rcases List.mem_append.mp hin with h | h
        · exact hvisited h
        · exact hne (List.mem_singleton.mp h)
      · exact (AList.lookup_erase_ne hne).trans hlook

/-- Dropping a pending handler nobody listed points at. -/
theorem Reconciling.erasePending (hr : Reconciling sha answers all visited st)
    (hidle : ∀ selector, st.pool.lists selector →
      st.overrides selector ∈ st.loadedDynamic → st.overrides selector ≠ tag) :
    Reconciling sha answers all visited
      { st with pendingDynamic := st.pendingDynamic.erase tag } := by
  refine hr.congr rfl rfl rfl rfl { hr.sound with pending := ?_ } (fun _ _ => lookup_of_erase)
    fun selector hlisted hload => ⟨hload, AList.lookup_erase_ne (hidle selector hlisted hload)⟩
  exact fun key pending hlook => hr.sound.pending key pending (lookup_of_erase hlook)

/-- **One pending handler.** Its selector, when it points at the handler, is committed; only a
    handler nobody points at is removed. -/
theorem reconcilePending_reconciling (hnew : tag ∉ visited) :
    Triple (Reconciling sha answers all visited) (reconcilePending sha answers tag)
      (fun _ => Reconciling sha answers all (visited ++ [tag]))
      (Reconciling sha answers all (visited ++ [tag])) := by
  refine Triple.fix (fun now hr => ?_)
  -- a readback that fails, or a tag that is no longer pending, leaves the state as it is
  have hskip : (∀ pending, now.pendingDynamic.lookup tag = some pending →
      answers tag ≠ (true, true)) → Reconciling sha answers all (visited ++ [tag]) now := by
    refine fun hnone => hr.mono (fun selector hlisted heq hmem hactive hload => ?_)
    obtain ⟨_, hanswers, pending, hlook, _⟩ := hr.own selector hlisted hmem hactive hload
    rw [heq] at hanswers hlook
    exact hnone pending hlook hanswers
  split
  · rename_i hlook
    exact Triple.pure (forall_eq.mpr (hskip (fun pending h => by rw [hlook] at h; cases h)))
  rename_i pending hlook
  refine Triple.ite (fun hfails => Triple.pure (forall_eq.mpr (hskip (fun _ _ hboth => ?_))))
    (fun hreads => ?_)
  · rw [hboth] at hfails
    rcases hfails with h | h <;> cases h
  have hanswers : answers tag = (true, true) := by
    rcases hcase : answers tag with ⟨first, second⟩
    rw [hcase] at hreads
    cases first <;> cases second <;> simp at hreads ⊢
  refine Triple.ite (fun _ => Triple.alter (forall_eq.mpr ?_)) (fun _ => ?_)
  · -- the handler is gone: nothing will be issued for its tag
    have hdrop : Reconciling sha answers all visited (now.dropHandler tag) :=
      hr.congr rfl rfl rfl rfl { hr.sound with } (fun _ _ h => h)
        (fun _ _ h => ⟨Finset.mem_of_mem_erase h, rfl⟩)
    have hgone : ∀ selector, (now.dropHandler tag).overrides selector
        ∈ (now.dropHandler tag).loadedDynamic → (now.dropHandler tag).overrides selector ≠ tag :=
      fun selector h => Finset.ne_of_mem_erase h
    refine (hdrop.erasePending (fun selector _ h => hgone selector h)).mono ?_
    exact fun selector _ heq _ _ hload => hgone selector hload heq
  -- the tag may now be the override of its own selector only
  have hothers : ∀ selector, now.pool.lists selector → selector ≠ pending.selector →
      now.overrides selector ≠ tag := fun selector => hr.pending tag pending selector hlook
  have hconfirmed : Reconciling sha answers all visited (now.confirmHandler tag) := by
    refine ⟨{ hr.sound with }, hr.older, hr.unshared, hr.pending, hr.known,
      fun selector hlisted hmem hactive hload => ?_⟩
    by_cases heq : now.overrides selector = tag
    · have hself : selector = pending.selector := by
        by_contra hne
        exact hothers selector hlisted hne heq
      show now.overrides selector ∉ visited ∧ answers (now.overrides selector) = (true, true)
        ∧ ∃ pending, now.pendingDynamic.lookup (now.overrides selector) = some pending
          ∧ pending.selector = selector
      rw [heq]
      exact ⟨hnew, hanswers, pending, hlook, hself.symm⟩
    · exact hr.own selector hlisted hmem hactive
        ((Finset.mem_insert.mp hload).resolve_left heq)
  refine Triple.bind_alter (Triple.ite (fun hselected => ?_) (fun hnotSelected => ?_))
  · -- the selector really points at the handler: commit
    refine Triple.bind _ (Triple.alter (forall_eq.mpr ?_))
      (fun _ => commitPolicySelection_reconciling hnew)
    refine ⟨hconfirmed.congr rfl rfl rfl rfl ?_ (fun _ _ h => h) (fun _ _ h => ⟨h, rfl⟩),
      hselected.1, ⟨pending, hlook, rfl⟩, hothers⟩
    exact (hconfirmed.sound.lag pending.selector).cache (fun _ => hselected.1)
  have hidle : ∀ selector, now.pool.lists selector → now.overrides selector ≠ tag := by
    intro selector hlisted heq
    by_cases hself : selector = pending.selector
    · exact hnotSelected ⟨hself ▸ heq, hself ▸ hlisted⟩
    · exact hothers selector hlisted hself heq
  -- what is left for a handler that nobody points at
  have hdone : ∀ {st}, Reconciling sha answers all visited st → st.pool = now.pool →
      st.overrides = now.overrides → Reconciling sha answers all (visited ++ [tag]) st ∧
        Reconciling sha answers all (visited ++ [tag])
          { st with pendingDynamic := st.pendingDynamic.erase tag } := by
    intro st hst hpool hover
    rw [← hpool, ← hover] at hidle
    exact ⟨hst.mono (fun selector hlisted heq => absurd heq (hidle selector hlisted)),
      (hst.erasePending (fun selector hlisted _ => hidle selector hlisted)).mono
        (fun selector hlisted heq => absurd heq (hidle selector hlisted))⟩
  refine Triple.ite (fun hprobe => ?_) (fun _ => ?_)
  · -- the handler of the probe lane is adopted
    refine Triple.bind_alter (Triple.alter (forall_eq.mpr ?_))
    have hcached := (hconfirmed.sound.lag pending.selector).cache (fun _ => hprobe.1)
    have hadopted : Reconciling sha answers all visited
        { now.confirmHandler tag with
          selectorMembers := Function.update now.selectorMembers pending.selector tag
          probeRuntimeTag := tag } :=
      hconfirmed.congr rfl rfl rfl rfl { hcached with
        probeRuntimeTag := fun _ => hr.sound.pending tag pending hlook hprobe.2 }
        (fun _ _ h => h) (fun _ _ h => ⟨h, rfl⟩)
    exact (hdone hadopted rfl rfl).2
  · -- nobody points at the handler: remove it
    let J : State → Prop := fun st => st.pool = now.pool ∧ st.overrides = now.overrides ∧
      Reconciling sha answers all visited st
    have hremove : Triple (· = now.confirmHandler tag) (removeOutbound tag) (fun _ => J) J := by
      refine Triple.of_final (forall_eq.mpr ?_)
      have hrem := removeOutbound_removed tag (now.confirmHandler tag)
      exact ⟨hrem.pool, hrem.overrides,
        hrem.reconciling hconfirmed (fun _ => State.carrying_eq_nil.mpr hidle)⟩
    refine Triple.bind (fun _ => J) hremove.attempt_same (fun r => ?_)
    split
    · exact Triple.alter (fun st h => (hdone h.2.2 h.1 h.2.1).2)
    · exact Triple.pure (fun st h => (hdone h.2.2 h.1 h.2.1).1)

/-- All pending handlers, one after the other. -/
theorem reconcileAll_reconciling (hnodup : all.Nodup) :
    Triple (Reconciling sha answers all []) (forEach all (reconcilePending sha answers))
      (fun _ => Reconciling sha answers all all) (Sound sha none) := by
  refine Triple.forEach _ (fun done tag rest hsplit => ?_)
  rw [hsplit] at hnodup
  have hnew : tag ∉ done := fun hmem =>
    (List.nodup_append.mp hnodup).2.2 tag hmem tag List.mem_cons_self rfl
  exact (reconcilePending_reconciling hnew).onError (fun _ h => h.sound)

/-! ### Reloading -/

/-- Cleanup may start: an older retired handler that would be removed is idle. -/
structure Cleaned (sha : String → String) (st : State) : Prop where
  sound : Sound sha none st
  idle : ∀ policyID, ∀ tag ∈ (st.retiredOf policyID).dropLast,
    tag ≠ st.activeByPolicy policyID → tag ∈ st.loadedDynamic → st.carrying tag = []

/-- After every pending handler was visited, no selection lags. -/
theorem Reconciling.cleaned (hr : Reconciling sha answers all all st) : Cleaned sha st := by
  refine ⟨hr.sound, fun policyID tag hmem hactive hload => ?_⟩
  refine State.carrying_eq_nil.mpr (fun selector hlisted heq => ?_)
  by_cases hself : selector = policyID
  · subst hself heq
    obtain ⟨hvisited, _, pending, hlook, _⟩ :=
      hr.own selector hlisted (List.dropLast_subset _ hmem) hactive hload
    exact hvisited (hr.known _ _ hlook)
  · exact hr.older policyID selector hlisted hself (heq ▸ hmem)

theorem pruneRetiredOutbounds_cleaned : Stable (Cleaned sha) (pruneRetiredOutbounds policyID) := by
  refine pruneRetiredOutbounds_triple ?_ ?_
  · intro tag a b hmem ha hactive hrem
    refine ⟨hrem.sound ha.sound (ha.idle policyID tag hmem hactive), fun other old hold => ?_⟩
    have hcarry : b.carrying old = a.carrying old := by
      rw [State.carrying, State.carrying, hrem.pool, hrem.overrides]
    rw [State.retiredOf, hrem.retiredByPolicy] at hold
    rw [hrem.activeByPolicy, hcarry]
    exact fun hne hload => ha.idle other old hold hne (hrem.loaded hload)
  · intro a kept ha hkept
    refine ⟨ha.sound.withRetired _, fun other old hold => ?_⟩
    rw [State.retiredOf_insert] at hold
    split at hold
    · rename_i heq
      subst heq
      exact ha.idle other old (hkept.older hold)
    · exact ha.idle other old hold

/-- The reconciliation starts from an unshared and settled state. -/
theorem CleanupReady.reconciling (h : CleanupReady sha answers st)
    (hsound : Sound sha none st) (order : List String) :
    Reconciling sha answers (visitOrder order st.pendingDynamic.keys) [] st := by
  refine ⟨hsound, ?_, ?_, ?_, ?_, ?_⟩
  · intro policyID selector hlisted hne
    by_cases hkey : policyID ∈ st.retiredByPolicy.keys
    · exact h.older policyID hkey selector hlisted hne
    · have hnone : st.retiredByPolicy.lookup policyID = none :=
        AList.lookup_eq_none.mpr (fun hmem => hkey (AList.mem_keys.mp hmem))
      rw [State.retiredOf, hnone]
      exact List.not_mem_nil
  · exact fun tag pending hlook hselected _ =>
      h.unshared ⟨tag, pending⟩ (AList.mem_lookup_iff.mp hlook) hselected
  · intro tag pending selector hlook hlisted hne
    exact h.pendingUnshared ⟨tag, pending⟩ (AList.mem_lookup_iff.mp hlook) selector hlisted hne
  · intro tag pending hlook
    refine mem_visitOrder.mpr (AList.mem_keys.mp (AList.lookup_isSome.mp ?_))
    rw [hlook]
    rfl
  · intro selector hlisted hmem hactive _
    obtain ⟨hmap, hanswers⟩ := h.settled selector hlisted hmem hactive
    obtain ⟨pending, hlook, hsel⟩ := Option.map_eq_some_iff.mp hmap
    exact ⟨List.not_mem_nil, hanswers, pending, hlook, hsel⟩

theorem Quiet.cleanupReady (h : Quiet a b) (hc : CleanupReady sha answers a) :
    CleanupReady sha answers b := by
  have hname := State.probeSelectorName_congr h.probeSelector
  have hof := State.retiredOf_congr h.retiredByPolicy
  refine ⟨?_, ?_, ?_, ?_, ?_, ?_⟩
  · rw [h.pool]
    exact hc.published
  · rw [h.pool, hname]
    exact hc.unlisted
  · simp only [hof, h.pool, h.overrides, h.retiredByPolicy]
    exact hc.older
  · rw [h.pendingDynamic, h.overrides]
    exact fun entry hentry hselected => h.unshared (hc.unshared entry hentry hselected)
  · unfold PendingUnshared
    rw [h.pendingDynamic, h.pool, h.overrides]
    exact hc.pendingUnshared
  · intro selector
    rw [h.pool, h.overrides, hof, h.activeByPolicy, h.pendingDynamic]
    exact hc.settled selector

/-- Taking over a snapshot keeps the invariant when the pool it brings is a fit one. -/
theorem Sound.adoptSnapshot (h : Sound sha none st) (pool : HealthPool)
    (signature : String) (pid : ℕ) (hpub : (st.adoptSnapshot pool signature pid).pool.Published sha)
    (hun : ¬ (st.adoptSnapshot pool signature pid).pool.lists
      (st.adoptSnapshot pool signature pid).probeSelectorName) :
    Sound sha none (st.adoptSnapshot pool signature pid) := by
  by_cases hpid : pid = st.xrayPID <;> by_cases hsig : signature = st.poolSignature <;>
    simp only [State.adoptSnapshot, hpid, hsig, ne_eq, not_true_eq_false, not_false_eq_true,
      if_true, if_false] at hpub hun ⊢
  · exact { h with unlisted := hun, published := hpub }
  · exact { h with unlisted := hun, published := hpub }
  -- a new process starts with empty books
  all_goals
    exact ⟨fun _ _ hne => absurd rfl hne, fun hne => absurd rfl hne,
      (fun _ _ hlook => by cases hlook), h.overrides, hun, hpub, h.idle⟩

/-- **Reload.** Reconciliation and cleanup of an unshared and settled state keep the
    invariant. -/
theorem reload_sound :
    Triple (fun st =>
      Sound sha none st ∧ ∀ pool signature, input.snapshot = some (pool, signature) →
        CleanupReady sha input.answers (st.adoptSnapshot pool signature input.pid))
      (reload sha input) (fun _ => Sound sha none) (Sound sha none) := by
  unfold reload
  split
  · exact Triple.fail (fun _ h => h.1)
  rename_i pool signature hsnapshot
  refine Triple.bind_state (fun now => Triple.branch (Triple.fail (fun _ h => h.1)) ?_)
  let I : State → Prop := fun st => Sound sha none st ∧ CleanupReady sha input.answers st
  have hquiet : ∀ a b, Quiet a b → I a → I b := fun a b hq h =>
    ⟨hq.sound h.1, hq.cleanupReady h.2⟩
  refine Triple.bind (fun _ => I) (Triple.alter ?_) (fun _ => Triple.bind_state (fun _ => ?_))
  · rintro st ⟨hsound, hready⟩
    have hready := hready pool signature hsnapshot
    exact ⟨hsound.adoptSnapshot pool signature input.pid hready.published hready.unlisted, hready⟩
  refine Triple.keep (Triple.when (fun _ => ?_) (fun _ _ h => h)) (fun _ => ?_)
  · exact (loadDynamicInventory_quiet.triple hquiet).onError (fun _ h => h.1)
  refine Triple.bind (fun _ => Cleaned sha) (Triple.fix (fun start hstart => ?_)) (fun _ => ?_)
  · have hnodup := nodup_visitOrder input.pendingOrder start.pendingDynamic.keys_nodup
    refine (reconcileAll_reconciling hnodup).weaken (forall_eq.mpr ?_) (fun _ _ h => h.cleaned)
      (fun _ h => h)
    exact hstart.2.reconciling hstart.1 input.pendingOrder
  refine Triple.bind_state
    (fun cleaned => Triple.keep ?_ (fun _ => Triple.bind_state (fun _ => ?_)))
  · refine Triple.forEach (fun _ => Cleaned sha) (fun _ _ _ _ => ?_)
    exact pruneRetiredOutbounds_cleaned.onError (fun _ h => h.sound)
  refine Triple.bind (fun _ => Sound sha none) (Triple.alter (fun st h => ?_))
    (fun _ => Triple.skip)
  exact { h.sound with }

/-! ### Runs -/

/-- **One call.** An admissible call keeps the invariant, whatever its API calls do. -/
theorem step_sound (hsha : ∀ s, (sha s).length = 64)
    (h : Sound sha none st) (hadm : Admissible sha st s) : Sound sha none (step sha st s) := by
  -- the script and the clock of the call are not part of the invariant
  have hscript : Quiet st { st with script := s.script, fresh := s.fresh } :=
    ⟨rfl, rfl, rfl, rfl, rfl, rfl, rfl, rfl, rfl, rfl⟩
  have hsound := hscript.sound h
  rcases s with ⟨call, script, fresh⟩
  cases call with
  | reload input =>
    refine Triple.exec (P := fun st => Sound sha none st ∧ ∀ pool signature,
        input.snapshot = some (pool, signature) →
          CleanupReady sha input.answers (st.adoptSnapshot pool signature input.pid)) ?_ ?_
    · exact Triple.bind _ reload_sound (fun _ => Triple.skip)
    · refine ⟨hsound, fun pool signature hsnapshot => ?_⟩
      have hready : CleanupReady sha input.answers
          (st.adoptSnapshot pool signature input.pid) := by
        simp only [Admissible, hsnapshot] at hadm
        exact hadm
      refine Quiet.cleanupReady ?_ hready
      simp only [State.adoptSnapshot]
      split <;> split <;> exact ⟨rfl, rfl, rfl, rfl, rfl, rfl, rfl, rfl, rfl, rfl⟩
  | select selector member =>
    obtain ⟨hnamed, hlisted⟩ := hadm
    refine Triple.exec (P := SelectReady sha st.probeSelector st.pool selector member)
      (select_sound hsha) ⟨rfl, rfl, hsound, fun hl => hscript.unshared (hlisted hl).2, hnamed,
        fun hl => ?_⟩
    exact HealthPool.policyRuntimeTag_ne_empty hsha h.published (hlisted hl).1
  | current selector order =>
    obtain ⟨hnamed, hlisted⟩ := hadm
    refine Triple.exec (P := CurrentReady sha selector) ?_
      ⟨hsound, fun hl => hscript.unshared (hlisted hl), hnamed⟩
    exact Triple.bind _ (current_sound hsha) (fun _ => Triple.skip)
  | probe candidate reaches =>
    refine Triple.exec (P := Sound sha none) ?_ hsound
    refine Triple.fix (fun now h => Triple.when (fun _ => ?_) (fun _ => forall_eq.mpr h))
    -- the probe selector is not listed, so no condition on it is left
    refine Triple.pre
      (P := SelectReady sha now.probeSelector now.pool now.probeSelectorName candidate)
      (select_sound hsha) (forall_eq.mpr ?_)
    exact ⟨rfl, rfl, h, fun hl => absurd hl h.unlisted, fun hne => absurd rfl hne,
      fun hl => absurd hl h.unlisted⟩

theorem run_sound (hsha : ∀ s, (sha s).length = 64) (h : Sound sha none st)
    (hadm : AdmissibleRun sha st steps) : Sound sha none (run sha st steps) := by
  induction steps generalizing st with
  | nil => exact h
  | cons s rest ih => exact ih (step_sound hsha h hadm.1) hadm.2

theorem newXraySelectorRuntime_sound
    (hstart : ∀ selector, ¬ IsProbeTag sha probeSelector (overrides selector)) :
    Sound sha none (newXraySelectorRuntime probeSelector handlers overrides) :=
  ⟨fun _ _ hne => absurd rfl hne, fun hne => absurd rfl hne, (fun _ _ hlook => by cases hlook),
    fun selector _ => hstart selector, List.not_mem_nil, (fun _ _ hlook => by cases hlook),
    fun _ hmem => absurd hmem List.not_mem_nil⟩

/-! ### A policy and its service -/

/-- A stand-in for SHA-256: hexadecimal, 64 characters. -/
def sampleSha (text : String) : String :=
  let hex (c : Char) : Char := "0123456789abcdef".toList.getD (c.toNat % 16) '0'
  String.ofList ((text.toList.map hex ++ List.replicate 64 '0').take 64)

theorem length_sampleSha (text : String) : (sampleSha text).length = 64 := by
  rw [sampleSha, String.length_ofList, List.length_take, List.length_append,
    List.length_replicate]
  omega

/-- The policy `p` with the service selector `svc`, as `BuildXrayHealthPool` publishes them:
    the same members and the same prefix. -/
def sharedPool : HealthPool where
  policies := AList.insert "svc" ["n1", "n2", "n3"] (AList.insert "p" ["n1", "n2", "n3"] ∅)
  healthPolicies := AList.insert "p" ["n1", "n2", "n3"] ∅
  policyPrefixes := AList.insert "svc" (urlTestPolicyPrefix sampleSha "p")
    (AList.insert "p" (urlTestPolicyPrefix sampleSha "p") ∅)
  baseOutboundTags := ["direct-wan", "block"]
  outbounds := AList.insert "n1" "1" (AList.insert "n2" "2" (AList.insert "n3" "3" ∅))

theorem sharedPool_published : sharedPool.Published sampleSha := by
  intro selector lead hlook
  refine ⟨"p", ?_⟩
  by_cases hsvc : selector = "svc"
  · subst hsvc
    exact (Option.some.inj hlook).symm
  · by_cases hp : selector = "p"
    · subst hp
      exact (Option.some.inj hlook).symm
    · have hnone : sharedPool.policyPrefixes.lookup selector = none := by
        show (AList.insert "svc" _ (AList.insert "p" _ ∅)).lookup selector = none
        rw [AList.lookup_insert_ne hsvc, AList.lookup_insert_ne hp]
        rfl
      rw [hnone] at hlook
      cases hlook

/-- A call whose API calls all succeed. -/
def answered (call : Call) : Step := ⟨call, [], fun _ => false⟩

/-- The pool of the two policies is loaded. -/
def sharedReload : Call :=
  .reload ⟨some (sharedPool, "pool"), false, 0, [], [], fun _ => (true, true)⟩

/-- A runtime beside a new Xray. -/
def freshRuntime : State := newXraySelectorRuntime "" ∅ (fun _ => "")

/-- Policy and service take `n1`; then the policy moves on twice. -/
def sharedRun : List Step :=
  [ answered sharedReload, answered (.select "p" "n1"), answered (.select "svc" "n1"),
    answered (.select "p" "n2"), answered (.select "p" "n3") ]

/-- The second move of the policy removes the handler its service selector still uses. -/
theorem shared_handler_removed :
    (∀ text, (sampleSha text).length = 64) ∧ sharedPool.Published sampleSha
      ∧ (run sampleSha freshRuntime sharedRun).removals.map Removal.carrying = [["svc"]] :=
  ⟨length_sampleSha, sharedPool_published, by decide +kernel⟩

/-- A policy alone: `n1` is retired, its removal fails, it is selected again with the
    acknowledgement lost, and the readback of the next reload fails. -/
def laggingRun : List Step :=
  [ answered sharedReload, answered (.select "p" "n1"), answered (.select "p" "n2"),
    ⟨.select "p" "n3", [.ok, .ok, .ok, .ok, .failed false, .ok], fun _ => false⟩,
    ⟨.select "p" "n1", [.ok, .lost false], fun _ => false⟩,
    answered (.reload ⟨some (sharedPool, "pool"), false, 0, [], [], fun _ => (false, true)⟩) ]

example : (run sampleSha freshRuntime laggingRun).removals.map Removal.carrying = [[], ["p"]] := by
  decide +kernel

theorem admissible_select (hsha : ∀ s, (sha s).length = 64)
    (hcall : s.call = .select selector member)
    (hlength : member.length ≠ 29 ∧ member.length ≠ 31) (hne : member ≠ "")
    (hshared : Unshared sha selector st) : Admissible sha st s := by
  rw [Admissible, hcall]
  refine ⟨fun _ hprobe => ?_, fun _ => ⟨hne, hshared⟩⟩
  rcases hprobe.length_eq hsha with h | h
  · exact hlength.1 h
  · exact hlength.2 h

/-! ### The theorem -/

/-- **No handler that carries traffic is removed.** A new runtime beside an Xray process whose
    selectors do not use probe handlers, driven through admissible calls with any outcomes of
    their API calls, issues removals only for tags that no selector listed in the pool is
    overridden to at that moment. -/
theorem run_removals_idle (hsha : ∀ s, (sha s).length = 64) (probeSelector : String)
    (handlers : Finset String) (overrides : String → String)
    (hstart : ∀ selector, ¬ IsProbeTag sha probeSelector (overrides selector)) (steps : List Step)
    (hadm : AdmissibleRun sha (newXraySelectorRuntime probeSelector handlers overrides) steps) :
    ∀ removal ∈ (run sha (newXraySelectorRuntime probeSelector handlers overrides) steps).removals,
      removal.carrying = [] :=
  (run_sound hsha (newXraySelectorRuntime_sound hstart) hadm).idle

/-- The service follows before the policy moves on a second time. -/
def followingRun : List Step :=
  [ answered sharedReload, answered (.select "p" "n1"), answered (.select "svc" "n1"),
    answered (.select "svc" "n2"), answered (.select "p" "n2"), answered (.select "p" "n3") ]

theorem followingRun_admissible : AdmissibleRun sampleSha freshRuntime followingRun := by
  refine ⟨⟨sharedPool_published, by decide +kernel, by decide +kernel, by decide +kernel, ?_, ?_⟩,
    ?_, ?_, ?_, ?_, ?_, trivial⟩
  · unfold PendingUnshared
    decide +kernel
  · unfold Settled
    decide +kernel
  -- the selections after the first call
  all_goals
    exact admissible_select length_sampleSha rfl (by decide) (by decide) (by decide +kernel)

theorem followingRun_removals_idle : (run sampleSha freshRuntime followingRun).removals ≠ [] ∧
      ∀ removal ∈ (run sampleSha freshRuntime followingRun).removals, removal.carrying = [] := by
  refine ⟨by decide +kernel, ?_⟩
  refine run_removals_idle length_sampleSha "" ∅ (fun _ => "") ?_ followingRun
    followingRun_admissible
  intro selector hprobe
  rcases hprobe.length_eq length_sampleSha with h | h <;> exact absurd h (by decide)

end SbGateway.Agent
