import SbGateway.ControlPlane.SubscriptionInvariant
import SbGateway.ControlPlane.SubscriptionRecovery

namespace SbGateway.ControlPlane.Subscription

open Lib
open Lib.Calls
open RuntimeConfig.Endpoints

/-!
# The nodes of the runtime are bypassed

Traffic to a node that is not in the bypass list would loop through the gateway.  The bypass list is
to have the IPv4 literals of the installed runtime at every moment of an activation and of its
recovery.

* `covered_iff_not_exposed` — at a moment of an activation this fails exactly if the list was
  reduced to the endpoints of the other runtime;
* `recoveries_covered` — a recovery keeps it;
* `installSubscriptionRuntime_covered_iff` — no activation can break it exactly if the endpoints
  stay the same.
-/

variable {γ ν : Type} {server : Server γ ν} {config : γ} {metadata : Document}
  {previousNodes nodes : List ν} {plan : Plan γ ν} {start w w' : World γ ν}
  {s : World γ ν × History γ ν} {candidate : Candidate γ ν} {changed : Bool}

/-! ### Plans -/

/-- What a plan is made from. -/
structure PlanFor (server : Server γ ν) (config : γ) (metadata : Document)
    (previousNodes nodes : List ν) (plan : Plan γ ν) : Prop where
  sameConfig : plan.config = config
  sameMetadata : plan.metadata = metadata
  sameNodes : plan.nodes = nodes
  previous : endpointsOf server ⟨config, previousNodes⟩ = .ok plan.previousEndpoints
  desired : endpointsOf server plan.candidate = .ok plan.desiredEndpoints
  unchanged : plan.endpointsChanged = false → plan.previousEndpoints = plan.desiredEndpoints

theorem makePlan_ok (h : makePlan server config metadata previousNodes nodes = .ok plan) :
    PlanFor server config metadata previousNodes nodes plan := by
  unfold makePlan at h
  cases hprevious : routerOSEndpointBypass server.source config previousNodes with
  | error e => rw [hprevious] at h; cases h
  | ok previous =>
    cases hdesired : routerOSEndpointBypass server.source config nodes with
    | error e => rw [hprevious, hdesired] at h; cases h
    | ok desired =>
      cases hsource : updateRouterOSEndpointSource (metadata.text "routeros_source") previous
          desired with
      | error e => rw [hprevious, hdesired] at h; simp only [hsource] at h; cases h
      | ok source =>
        rw [hprevious, hdesired] at h
        simp only [hsource] at h
        split at h
        · cases h
        · cases h
          refine ⟨rfl, rfl, rfl, hprevious, hdesired, fun hsame => ?_⟩
          have htext : source = metadata.text "routeros_source" := by
            simpa [Plan.endpointsChanged] using hsame
          rw [htext] at hsource
          exact updateRouterOSEndpointSource_unchanged _ hprevious hdesired hsource

/-- A plan that can be made. -/
theorem makePlan_eq (hprevious : endpointsOf server ⟨config, previousNodes⟩ = .ok previous)
    (hdesired : endpointsOf server ⟨config, nodes⟩ = .ok desired)
    (hsource : updateRouterOSEndpointSource (metadata.text "routeros_source") previous desired =
      .ok source) (hsync : server.canSync = true) :
    makePlan server config metadata previousNodes nodes =
      .ok ⟨config, metadata, nodes, previous, desired, source⟩ := by
  unfold endpointsOf at hprevious hdesired
  unfold makePlan
  rw [hprevious, hdesired]
  simp only [hsource, hsync]
  exact if_neg fun h => nomatch h.2

theorem installSubscriptionRuntime_eq
    (hplan : makePlan server config metadata previousNodes nodes = .ok plan) :
    installSubscriptionRuntime server config metadata previousNodes nodes =
      installPlan server plan := by
  unfold installSubscriptionRuntime
  rw [hplan]

theorem PlanFor.keeps (hplan : PlanFor server config metadata previousNodes nodes plan)
    (hdigests : Digests server) (hlist : plan.previousEndpoints.toFinset ⊆ start.bypass) :
    Keeps server plan start (installPlan server plan) (start, []) (Outcome server plan start) :=
  installPlan_keeps hdigests fun hsame => hplan.unchanged hsame ▸ hlist

/-! ### Coverage -/

/-- The servers of these nodes that are IPv4 literals are in the list. -/
def Bypassed (server : Server γ ν) (candidate : Candidate γ ν) (bypass : Finset String) : Prop :=
  ∀ nodes, augmentRuntimeNodes server.source candidate.config candidate.nodes = .ok nodes →
    ∀ node ∈ nodes, ∀ address, ipv4Server server.source node = some address → address ∈ bypass

/-- The nodes of the installed runtime are bypassed. -/
def Covered (server : Server γ ν) (w : World γ ν) : Prop := Bypassed server w.runtime w.bypass

theorem bypassed_iff (h : endpointsOf server candidate = .ok endpoints) :
    Bypassed server candidate bypass ↔ endpoints.toFinset ⊆ bypass := by
  obtain ⟨augmented, haugmented, hmem⟩ := mem_endpoints_iff _ h
  constructor
  · intro hbypassed text htext
    obtain ⟨node, hnode, hserver⟩ := (hmem text).mp (List.mem_toFinset.mp htext)
    exact hbypassed augmented haugmented node hnode text hserver
  · intro hsubset nodes hnodes node hnode address haddress
    obtain rfl : augmented = nodes := by simpa [haugmented] using hnodes
    exact hsubset (List.mem_toFinset.mpr ((hmem address).mpr ⟨node, hnode, haddress⟩))

theorem Bypassed.mono (h : Bypassed server candidate bypass) (hsubset : bypass ⊆ bypass') :
    Bypassed server candidate bypass' :=
  fun nodes hnodes node hnode address haddress =>
    hsubset (h nodes hnodes node hnode address haddress)

/-! ### Activations -/

/-- The bypass list was reduced to the endpoints of the other runtime, and they do not suffice. -/
def Exposed (plan : Plan γ ν) (t : Trace) : Prop :=
  (t.installed = false ∧ t.pruned = some plan.desiredEndpoints ∧
    ¬ plan.previousEndpoints.toFinset ⊆ plan.desiredEndpoints.toFinset) ∨
  (t.installed = true ∧ t.pruned = some plan.previousEndpoints ∧
    ¬ plan.desiredEndpoints.toFinset ⊆ plan.previousEndpoints.toFinset)

/-- The list has what a runtime needs unless it was reduced to the endpoints of the other one. -/
theorem subset_iff_of_pruned {own other : List String}
    (hgrown : pruned = none → own.toFinset ⊆ bypass)
    (hpruned : ∀ values, pruned = some values →
      (values = own ∨ values = other) ∧ bypass = values.toFinset) :
    own.toFinset ⊆ bypass ↔ ¬ (pruned = some other ∧ ¬ own.toFinset ⊆ other.toFinset) := by
  cases pruned with
  | none => simpa using hgrown rfl
  | some values =>
    obtain ⟨hvalues, rfl⟩ := hpruned values rfl
    rcases hvalues with rfl | rfl
    · by_cases hsame : values = other <;> simp [hsame]
    · simp

/-- **One moment.** It is covered unless it is exposed by the calls so far. -/
theorem covered_iff_not_exposed (hs : Sound server plan start s) (hstart : Covered server start)
    (hprevious : endpointsOf server start.runtime = .ok plan.previousEndpoints)
    (hdesired : endpointsOf server plan.candidate = .ok plan.desiredEndpoints) :
    Covered server s.1 ↔ ¬ Exposed plan (trace s.2) := by
  have hlist : plan.previousEndpoints.toFinset ⊆ start.bypass := (bypassed_iff hprevious).mp hstart
  have hruntime := hs.deployed.runtime
  unfold Covered
  cases hinstalled : (trace s.2).installed with
  | false =>
    rw [hinstalled] at hruntime
    rw [hruntime, if_neg (by simp), bypassed_iff hprevious, subset_iff_of_pruned
      (fun hnone => hlist.trans (hs.deployed.grown hnone).1) hs.deployed.pruned]
    simp [Exposed, hinstalled]
  | true =>
    rw [hinstalled] at hruntime
    rw [hruntime, if_pos rfl, bypassed_iff hdesired, subset_iff_of_pruned
      (fun hnone => (hs.deployed.grown hnone).2 hinstalled)
      fun values hvalues => (hs.deployed.pruned values hvalues).imp_left Or.symm]
    simp [Exposed, hinstalled]

/-- Endpoints that stay the same expose nothing. -/
theorem not_exposed_of_same (h : plan.previousEndpoints.toFinset = plan.desiredEndpoints.toFinset) :
    ¬ Exposed plan t := by
  rintro (⟨-, -, hnot⟩ | ⟨-, -, hnot⟩)
  · exact hnot h.le
  · exact hnot h.ge

/-! ### Recoveries -/

/-- A recovery that does not touch the bypass list finds what it needs there. -/
def Ready (server : Server γ ν) (w : World γ ν) : Prop :=
  ∀ candidate, Pending w.store false → Named w.store candidate → Bypassed server candidate w.bypass

/-- What an activation needs and leaves. -/
structure Safe (server : Server γ ν) (w : World γ ν) : Prop where
  covered : Covered server w
  ready : Ready server w
  active : ∃ document, w.store (.pointer .active) = .holds document

/-- What recoveries, one after the other, can leave; each of them may be cut off. -/
inductive Recoveries (server : Server γ ν) (w : World γ ν) : World γ ν → Prop where
  | none : Recoveries server w w
  | next {w' : World γ ν} (before : Recoveries server w w') (choices : List Ending) :
      Recoveries server w ((activatePendingSubscription server).run.run step choices w').2

theorem Pending.of_journal (h : Pending store' changed)
    (hjournal : store' (.journal .subscriptionRuntime) = store (.journal .subscriptionRuntime)) :
    Pending store changed := by
  obtain ⟨journal, hfile, hflags⟩ := h
  exact ⟨journal, hjournal ▸ hfile, hflags⟩

theorem Pending.unique (h : Pending store changed) (h' : Pending store other) :
    changed = other := by
  obtain ⟨journal, hfile, -, hchanged⟩ := h
  obtain ⟨journal', hfile', -, hchanged'⟩ := h'
  obtain rfl : journal = journal' := by simpa [hfile] using hfile'
  exact hchanged.symm.trans hchanged'

theorem not_pending_of_empty (hfile : store (.journal .subscriptionRuntime) = .holds []) :
    ¬ Pending store changed := by
  rintro ⟨journal, hjournal, hpending, -⟩
  obtain rfl : [] = journal := by simpa [hfile] using hjournal
  cases hpending

/-- The list has what a stage of the recovery needs. -/
theorem Stage.covered (h : Stage server candidate changed w w') (hs : Safe server w)
    (hnamed : Named w.store candidate) (hpending : Pending w.store changed) :
    Covered server w' := by
  unfold Covered
  cases h with
  | before hruntime hgrown _ _ =>
    rw [hruntime]
    exact Bypassed.mono hs.covered hgrown
  | installed hruntime hgrown hkept _ =>
    rw [hruntime]
    cases changed with
    | true =>
      obtain ⟨endpoints, hendpoints, hbypass⟩ := hgrown rfl
      rw [hbypass, bypassed_iff hendpoints]
      exact Finset.subset_union_right
    | false =>
      rw [hkept rfl]
      exact hs.ready candidate hpending hnamed
  | reached hreached _ =>
    rw [hreached.runtime]
    cases changed with
    | true =>
      obtain ⟨endpoints, hendpoints, hbypass⟩ := hreached.pruned rfl
      rw [hbypass, bypassed_iff hendpoints]
    | false =>
      rw [hreached.kept rfl]
      exact hs.ready candidate hpending hnamed

/-- A journal that is still pending is that of the start. -/
theorem Stage.pending (h : Stage server candidate changed w w') (hother : Pending w'.store other) :
    Pending w.store other := by
  cases h with
  | before _ _ _ hjournal | installed _ _ _ hjournal => exact hother.of_journal hjournal
  | reached _ hjournal =>
    rcases hjournal with hjournal | hempty
    · exact hother.of_journal hjournal
    · exact absurd hother (not_pending_of_empty hempty)

theorem Stage.bypass_kept (h : Stage server candidate false w w') : w'.bypass = w.bypass := by
  cases h with
  | before _ _ hkept _ | installed _ _ hkept _ => exact hkept rfl
  | reached hreached _ => exact hreached.kept rfl

theorem During.active (h : During server w w')
    (hw : ∃ document, w.store (.pointer .active) = .holds document) :
    ∃ document, w'.store (.pointer .active) = .holds document := by
  obtain ⟨document, hdocument⟩ := hw
  refine ⟨document, ?_⟩
  rw [h.commit _ (by simp) fun name hname heq => hname (by simpa using heq.symm), hdocument]

theorem During.safe (h : During server w w') (hs : Safe server w) : Safe server w' := by
  have hactive := h.active hs.active
  rcases h.stage with hidle | ⟨candidate, changed, hnamed, hpending, hstage⟩
  · refine ⟨?_, fun other hfalse hother => ?_, hactive⟩
    · unfold Covered
      rw [hidle.runtime, hidle.bypass]
      exact hs.covered
    · rw [hidle.bypass]
      exact hs.ready other (hfalse.of_journal hidle.journal) ((h.commit.named other).mp hother)
  · refine ⟨hstage.covered hs hnamed hpending, fun other hfalse hother => ?_, hactive⟩
    have hstart := hstage.pending hfalse
    obtain rfl := hpending.unique hstart
    rw [hstage.bypass_kept]
    exact hs.ready other hstart ((h.commit.named other).mp hother)

/-- **Recoveries.** What each of them keeps, wherever it is cut off, all of them keep. -/
theorem recoveries_keep {I : World γ ν → Prop}
    (hactive : ∀ w, I w → ∃ document, w.store (.pointer .active) = .holds document)
    (hduring : ∀ w w', During server w w' → I w → I w') (hw : I w) (h : Recoveries server w w') :
    I w' := by
  induction h with
  | none => exact hw
  | @next last _ choices ih =>
    obtain ⟨document, hdocument⟩ := hactive last ih
    have hspec : wp step (During server last) (activatePendingSubscription server).run
        (fun _ => During server last) last :=
      wp_mono (activatePendingSubscription_spec hdocument) fun _ _ h => h.1
    exact hduring _ _ (wp_inv hspec choices) ih

/-- The worlds that recoveries leave are safe. -/
theorem recoveries_safe (hs : Safe server w) (h : Recoveries server w w') : Safe server w' :=
  recoveries_keep (fun _ hs => hs.active) (fun _ _ hduring hs => hduring.safe hs) hs h

/-! ### The claim for whole runs -/

/-- What an activation finds: the runtime is what the commit point names, and no activation is
    pending. -/
structure Committed (config : γ) (metadata : Document) (previousNodes : List ν)
    (w : World γ ν) : Prop where
  active : w.store (.pointer .active) = .holds metadata
  named : Named w.store ⟨config, previousNodes⟩
  runtime : w.runtime = ⟨config, previousNodes⟩
  idle : ∀ changed, ¬ Pending w.store changed

theorem text_newPointer :
    (newPointer server plan).text "revision" = plan.metadata.text "revision" := by
  simp [newPointer, CommitMetadata.pointer, Plan.commit, Document.text, List.lookup]

theorem snapshotRevision_newPointer (hdigests : Digests server) :
    snapshotRevision (newPointer server plan) = plan.nodesRevision server := by
  have hnodes := safeRevision_ne_empty (hdigests.nodes plan.nodes)
  simp [snapshotRevision, newPointer, CommitMetadata.pointer, Plan.commit, Document.text,
    List.lookup, nullableString, Plan.nodesRevision, hnodes]

/-- During an activation the commit point names the old or the new runtime. -/
theorem named_of_documents (hdigests : Digests server)
    (hplan : PlanFor server config metadata previousNodes nodes plan)
    (hstart : Committed config metadata previousNodes start)
    (h : Documents server plan start t store) (hnamed : Named store candidate) :
    candidate = start.runtime ∨ candidate = plan.candidate := by
  obtain ⟨document, snapshot, hactive, hconfig, hsnapshot, hnodes⟩ := hnamed
  obtain ⟨document', snapshot', hactive', hconfig', hsnapshot', hnodes'⟩ := hstart.named
  obtain rfl : metadata = document' := by simpa [hstart.active] using hactive'
  obtain ⟨config', nodes'⟩ := candidate
  rw [h.generations] at hconfig
  have hnew : SnapshotSaved server plan store → snapshotRevision document =
      plan.nodesRevision server → nodes' = plan.nodes := by
    intro hsaved hrevision
    rw [hrevision, hsaved] at hsnapshot
    cases hsnapshot
    exact hnodes.symm
  have hdocument : document.text "revision" = metadata.text "revision" → config' = config := by
    intro htext
    rw [htext, hconfig'] at hconfig
    cases hconfig
    rfl
  have hcandidate : config' = config → nodes' = plan.nodes →
      (⟨config', nodes'⟩ : Candidate γ ν) = plan.candidate := by
    rintro rfl rfl
    rw [Plan.candidate, hplan.sameConfig]
  cases hpublished : t.published with
  | true =>
    have hpointer : newPointer server plan = document := by
      simpa [h.active, hpublished] using hactive
    subst hpointer
    refine .inr (hcandidate (hdocument ?_) (hnew (h.saved (h.ordered hpublished)) ?_))
    · rw [text_newPointer, hplan.sameMetadata]
    · exact snapshotRevision_newPointer hdigests
  | false =>
    obtain rfl : metadata = document := by
      simpa [h.active, hpublished, hstart.active] using hactive
    rcases h.snapshots (snapshotRevision metadata) with hkept | ⟨hrevision, hsaved⟩
    · rw [hkept, hsnapshot'] at hsnapshot
      cases hsnapshot
      refine .inl ?_
      rw [hstart.runtime, hdocument rfl]
      exact congrArg _ (hnodes.symm.trans hnodes')
    · exact .inr (hcandidate (hdocument rfl) (hnew hsaved hrevision))

section

variable (hs : Sound server plan start s)
include hs

theorem pending_of_opened (h : (trace s.2).journal = some true) :
    Pending s.1.store plan.endpointsChanged := by
  refine ⟨pendingJournal plan.endpointsChanged, ?_, rfl, ?_⟩
  · rw [hs.documents.journal, h]
    rfl
  · cases plan.endpointsChanged <;> rfl

/-- A journal that is pending is that of the plan. -/
theorem Sound.flag (hstart : Committed config metadata previousNodes start)
    (hpending : Pending s.1.store changed) : changed = plan.endpointsChanged := by
  have hjournal := hs.documents.journal
  cases hwritten : (trace s.2).journal with
  | none =>
    rw [hwritten] at hjournal
    exact absurd (hpending.of_journal hjournal) (hstart.idle changed)
  | some pending =>
    cases pending with
    | false =>
      rw [hwritten] at hjournal
      exact absurd hpending (not_pending_of_empty hjournal)
    | true => exact hpending.unique (pending_of_opened hs hwritten)

theorem Sound.active (hstart : Committed config metadata previousNodes start) :
    ∃ document, s.1.store (.pointer .active) = .holds document := by
  rw [hs.documents.active]
  split
  · exact ⟨_, rfl⟩
  · exact ⟨_, hstart.active⟩

/-- A covered moment of an activation is safe for recoveries. -/
theorem Sound.safe (hdigests : Digests server)
    (hplan : PlanFor server config metadata previousNodes nodes plan)
    (hstart : Committed config metadata previousNodes start)
    (hlist : plan.previousEndpoints.toFinset ⊆ start.bypass) (hcovered : Covered server s.1) :
    Safe server s.1 := by
  refine ⟨hcovered, fun candidate hpending hnamed => ?_, hs.active hstart⟩
  -- the journal is that of an activation that leaves the list as it is
  have hunchanged := (hs.flag hstart hpending).symm
  rw [(hs.deployed.untouched hunchanged).1]
  rcases named_of_documents hdigests hplan hstart hs.documents hnamed with rfl | rfl
  · rw [hstart.runtime, bypassed_iff hplan.previous]
    exact hlist
  · rw [bypassed_iff hplan.desired, ← hplan.unchanged hunchanged]
    exact hlist

end

/-- A moment of an activation: the world, and the calls so far. -/
def installing (server : Server γ ν) (config : γ) (metadata : Document)
    (previousNodes nodes : List ν) (start : World γ ν) (choices : List Ending) :
    World γ ν × History γ ν :=
  ((installSubscriptionRuntime server config metadata previousNodes nodes).run (recorded step)
    choices (start, [])).2

theorem installing_eq (hplan : makePlan server config metadata previousNodes nodes = .ok plan)
    (choices : List Ending) : installing server config metadata previousNodes nodes start choices =
      ((installPlan server plan).run (recorded step) choices (start, [])).2 := by
  unfold installing
  rw [installSubscriptionRuntime_eq hplan]

theorem installing_sound (hdigests : Digests server)
    (hplan : makePlan server config metadata previousNodes nodes = .ok plan)
    (hstart : Committed config metadata previousNodes start) (hcovered : Covered server start)
    (choices : List Ending) : Sound server plan start
      (installing server config metadata previousNodes nodes start choices) := by
  have hfor := makePlan_ok hplan
  have hlist : plan.previousEndpoints.toFinset ⊆ start.bypass := by
    have hprevious := hfor.previous
    rw [← hstart.runtime] at hprevious
    exact (bypassed_iff hprevious).mp hcovered
  rw [installing_eq hplan]
  exact wp_inv (wp_mono (hfor.keeps hdigests hlist) fun _ _ h => h.1) choices

/-- The list is reduced, the call fails all the same, and the old runtime is restored. -/
def cleanupLost : List Ending :=
  [.done, .done, .done, .done, .done, .done, .done, .lost, .done]

/-- The new runtime does not start, it cannot be taken back, and the list is reduced. -/
def rollbackRefused : List Ending :=
  [.done, .done, .done, .done, .done, .done, .refused, .refused, .done]

/-- The runtime and the list at the end of these runs. -/
theorem installing_lists (hplan : makePlan server config metadata previousNodes nodes = .ok plan)
    (hchanged : plan.endpointsChanged = true) (start : World γ ν) :
    let lost := (installing server config metadata previousNodes nodes start cleanupLost).1
    let refused := (installing server config metadata previousNodes nodes start rollbackRefused).1
    (lost.runtime = start.runtime ∧ lost.bypass = plan.desiredEndpoints.toFinset) ∧
      refused.runtime = plan.candidate ∧ refused.bypass = plan.previousEndpoints.toFinset := by
  rw [installing_eq hplan, installing_eq hplan]
  unfold installPlan runActivation rollback finishRollback
  simp only [hchanged]
  exact ⟨⟨rfl, rfl⟩, rfl, rfl⟩

/-- **Coverage.** An activation is covered at a moment unless the list was reduced to the endpoints
    of the other runtime.  No run can do that exactly if the endpoints stay the same; and from a
    covered moment on, recoveries are covered. -/
theorem installSubscriptionRuntime_covered_iff (hdigests : Digests server)
    (hstart : Committed config metadata previousNodes start) (hcovered : Covered server start) :
    ((∀ choices, Covered server
        (installing server config metadata previousNodes nodes start choices).1) ↔
      ∀ plan, makePlan server config metadata previousNodes nodes = .ok plan →
        plan.previousEndpoints.toFinset = plan.desiredEndpoints.toFinset) ∧
    ∀ choices w h, installing server config metadata previousNodes nodes start choices = (w, h) →
      (Covered server w ↔ ∀ plan, makePlan server config metadata previousNodes nodes = .ok plan →
        ¬ Exposed plan (trace h)) ∧
      (Covered server w → ∀ w', Recoveries server w w' → Covered server w') := by
  -- every moment of a run with a plan
  have hmoment : ∀ plan, makePlan server config metadata previousNodes nodes = .ok plan →
      ∀ choices, Covered server
          (installing server config metadata previousNodes nodes start choices).1 ↔
        ¬ Exposed plan
          (trace (installing server config metadata previousNodes nodes start choices).2) := by
    intro plan hplan choices
    have hprevious := (makePlan_ok hplan).previous
    rw [← hstart.runtime] at hprevious
    exact covered_iff_not_exposed (installing_sound hdigests hplan hstart hcovered choices)
      hcovered hprevious (makePlan_ok hplan).desired
  cases hresult : makePlan server config metadata previousNodes nodes with
  | error e =>
    have hinstalling : ∀ choices,
        installing server config metadata previousNodes nodes start choices = (start, []) := by
      intro choices
      unfold installing installSubscriptionRuntime
      rw [hresult]
      rfl
    have hsafe : Safe server start :=
      ⟨hcovered, fun _ hpending => absurd hpending (hstart.idle false), _, hstart.active⟩
    refine ⟨⟨fun _ plan hplan => (nomatch hplan), fun _ choices => ?_⟩, fun choices w h hrun => ?_⟩
    · rw [hinstalling]
      exact hcovered
    · rw [hinstalling] at hrun
      cases hrun
      exact ⟨⟨fun _ plan hplan => (nomatch hplan), fun _ => hcovered⟩,
        fun _ w' hw' => (recoveries_safe hsafe hw').covered⟩
  | ok plan =>
    have hfor := makePlan_ok hresult
    have hprevious := hfor.previous
    rw [← hstart.runtime] at hprevious
    refine ⟨⟨fun hall other hother => ?_, fun hsame choices => ?_⟩, fun choices w h hrun => ?_⟩
    · obtain rfl : plan = other := by simpa using hother
      cases hchanged : plan.endpointsChanged with
      | false => rw [hfor.unchanged hchanged]
      | true =>
        have hcleanup := hall cleanupLost
        have hrollback := hall rollbackRefused
        unfold Covered at hcleanup hrollback
        obtain ⟨⟨hrun, hlist⟩, hrun', hlist'⟩ := installing_lists hresult hchanged start
        rw [hrun, hlist, bypassed_iff hprevious] at hcleanup
        rw [hrun', hlist', bypassed_iff hfor.desired] at hrollback
        exact Finset.Subset.antisymm hcleanup hrollback
    · exact (hmoment plan hresult choices).mpr (not_exposed_of_same (hsame plan rfl))
    · have hexact := hmoment plan hresult choices
      have hsound := installing_sound hdigests hresult hstart hcovered choices
      rw [hrun] at hexact hsound
      refine ⟨⟨fun hw other hother => ?_, fun hno => hexact.mpr (hno plan rfl)⟩, ?_⟩
      · obtain rfl : plan = other := by simpa using hother
        exact hexact.mp hw
      · intro hw w' hw'
        have hlist := (bypassed_iff hprevious).mp hcovered
        exact (recoveries_safe (hsound.safe hdigests hfor hstart hlist hw) hw').covered

/-! ### An activation that is not covered -/

/-- A digest of one character. -/
def sampleDigest (c : Char) : String := String.ofList (List.replicate 64 c)

/-- Nodes that are addresses. -/
def sampleServer : Server Unit (BitVec 32) where
  repository :=
    { revisionFor := fun _ => sampleDigest 'a'
      nodesRevision := fun nodes => sampleDigest (if nodes = [0x01010101] then 'b' else 'c')
      now := "2026-01-01T00:00:00Z" }
  source :=
    { id := fun node => (Addr.v4 node).text
      server := fun node => (Addr.v4 node).text
      reserves := fun _ => []
      exits := fun _ => .ok []
      renderError := fun _ _ => none }
  runtimeRevision candidate := sampleDigest (if candidate.nodes = [0x01010101] then 'd' else 'e')
  canSync := true

theorem safeRevision_sampleDigest (h : lowerHex c = true) :
    safeRevision (sampleDigest c) = true := by
  simp [safeRevision, sampleDigest, h]

theorem sampleServer_digests : Digests sampleServer := by
  constructor
  · intro nodes
    refine safeRevision_sampleDigest ?_
    split <;> decide
  · intro candidate
    refine safeRevision_sampleDigest ?_
    split <;> decide

theorem sampleServer_endpoints (node : BitVec 32) :
    endpointsOf sampleServer ⟨(), [node]⟩ = .ok [(Prefix.single (.v4 node)).text] := by
  refine routerOSEndpointBypass_single _ (fun h => ?_) rfl rfl rfl rfl
  have hdot := dot_mem_ipv4Text node.toNat
  rw [show ipv4Text node.toNat = "" from h] at hdot
  cases hdot

/-- The text of the first node. -/
theorem sampleEndpoint_text : (Prefix.single (.v4 0x01010101)).text = "1.1.1.1/32" := by
  decide

theorem sampleBlock_once :
    occurrences ":local wantedBypass ".toList 0 (bypassBlock ["1.1.1.1/32"]).toList = 1 := by
  simp only [bypassBlock, renderRouterOSAddressList, routerOSArray, joinTexts, List.map,
    String.toList_append, reduceIte, reduceCtorEq, String.reduceToList]
  decide +kernel

/-- The metadata of the first activation. -/
def sampleMetadata : Document :=
  [("revision", .text (sampleDigest 'a')), ("node_snapshot_revision", .text (sampleDigest 'b')),
   ("runtime_revision", .text (sampleDigest 'd')),
   ("routeros_source", .text (bypassBlock ["1.1.1.1/32"]))]

/-- The first activation is committed. -/
def sampleWorld : World Unit (BitVec 32) where
  store
    | .pointer _ => .holds sampleMetadata
    | .generation revision => if revision = sampleDigest 'a' then .holds () else .absent
    | .snapshot revision =>
      if revision = sampleDigest 'b' then .holds ⟨revision, [0x01010101]⟩ else .absent
    | .journal _ => .absent
    | .draft => .absent
  runtime := ⟨(), [0x01010101]⟩
  bypass := {"1.1.1.1/32"}

theorem text_sampleRevision : sampleMetadata.text "revision" = sampleDigest 'a' := by
  simp [sampleMetadata, Document.text]

theorem text_sampleSource : sampleMetadata.text "routeros_source" = bypassBlock ["1.1.1.1/32"] := by
  simp [sampleMetadata, Document.text, List.lookup]

theorem snapshotRevision_sample : snapshotRevision sampleMetadata = sampleDigest 'b' := by
  have hnonempty : sampleDigest 'b' ≠ "" :=
    safeRevision_ne_empty (safeRevision_sampleDigest (by decide))
  simp [snapshotRevision, sampleMetadata, Document.text, List.lookup, hnonempty]

theorem sampleWorld_committed : Committed () sampleMetadata [0x01010101] sampleWorld := by
  refine ⟨rfl, ⟨sampleMetadata, ⟨sampleDigest 'b', [0x01010101]⟩, rfl, ?_, ?_, rfl⟩, rfl, ?_⟩
  · rw [text_sampleRevision]
    simp [sampleWorld]
  · rw [snapshotRevision_sample]
    simp [sampleWorld]
  · rintro changed ⟨journal, hjournal, -⟩
    simp [sampleWorld] at hjournal

theorem sampleWorld_covered : Covered sampleServer sampleWorld := by
  refine (bypassed_iff (sampleServer_endpoints 0x01010101)).mpr ?_
  rw [sampleEndpoint_text]
  simp [sampleWorld]

/-- The first node is replaced by another one. -/
def samplePlan : Plan Unit (BitVec 32) where
  config := ()
  metadata := sampleMetadata
  nodes := [0x02020202]
  previousEndpoints := ["1.1.1.1/32"]
  desiredEndpoints := ["2.2.2.2/32"]
  source := bypassBlock ["2.2.2.2/32"]

theorem sampleEndpoint_newText : (Prefix.single (.v4 0x02020202)).text = "2.2.2.2/32" := by
  decide

theorem sampleSource_updated :
    updateRouterOSEndpointSource (bypassBlock ["1.1.1.1/32"]) ["1.1.1.1/32"] ["2.2.2.2/32"] =
      .ok (bypassBlock ["2.2.2.2/32"]) := by
  refine updateRouterOSEndpointSource_block ?_ (fun hempty => ?_) sampleBlock_once
  · rw [← sampleEndpoint_text, ← sampleEndpoint_newText]
    simp only [List.cons_append, List.nil_append, List.all_cons, List.all_nil,
      validEndpoint_single, Bool.and_true]
  · have honce := sampleBlock_once
    rw [hempty] at honce
    simp [occurrences] at honce

theorem makePlan_sample :
    makePlan sampleServer () sampleMetadata [0x01010101] [0x02020202] = .ok samplePlan := by
  have hprevious : endpointsOf sampleServer ⟨(), [0x01010101]⟩ = .ok ["1.1.1.1/32"] := by
    rw [sampleServer_endpoints, sampleEndpoint_text]
  have hdesired : endpointsOf sampleServer ⟨(), [0x02020202]⟩ = .ok ["2.2.2.2/32"] := by
    rw [sampleServer_endpoints, sampleEndpoint_newText]
  refine makePlan_eq hprevious hdesired ?_ rfl
  rw [text_sampleSource]
  exact sampleSource_updated

theorem samplePlan_changed : samplePlan.endpointsChanged = true := by
  have hblocks : bypassBlock ["2.2.2.2/32"] ≠ bypassBlock ["1.1.1.1/32"] := by
    intro h
    have hsame := bypassBlock_inj (by simp) (by simp) h
    simp at hsame
  have hchanged : samplePlan.source ≠ samplePlan.metadata.text "routeros_source" := by
    simp only [samplePlan, text_sampleSource]
    exact hblocks
  simp [Plan.endpointsChanged, hchanged]

/-- The list has been reduced to the new endpoint although the call has failed, and the old runtime
    is back. -/
theorem sampleCleanup_uncovered : Digests sampleServer ∧
    Committed () sampleMetadata [0x01010101] sampleWorld ∧ Covered sampleServer sampleWorld ∧
    ¬ Covered sampleServer (installing sampleServer () sampleMetadata [0x01010101] [0x02020202]
      sampleWorld cleanupLost).1 := by
  refine ⟨sampleServer_digests, sampleWorld_committed, sampleWorld_covered, fun hcovered => ?_⟩
  unfold Covered at hcovered
  obtain ⟨⟨hrun, hlist⟩, -⟩ := installing_lists makePlan_sample samplePlan_changed _
  rw [hrun, hlist] at hcovered
  have hsubset := (bypassed_iff (sampleServer_endpoints 0x01010101)).mp hcovered
  rw [sampleEndpoint_text] at hsubset
  simp [samplePlan] at hsubset

/-- Nodes that stay the same are covered throughout. -/
theorem sampleNodes_covered : Digests sampleServer ∧
    Committed () sampleMetadata [0x01010101] sampleWorld ∧ Covered sampleServer sampleWorld ∧
    ∀ choices, Covered sampleServer (installing sampleServer () sampleMetadata [0x01010101]
      [0x01010101] sampleWorld choices).1 := by
  refine ⟨sampleServer_digests, sampleWorld_committed, sampleWorld_covered, ?_⟩
  refine (installSubscriptionRuntime_covered_iff sampleServer_digests sampleWorld_committed
    sampleWorld_covered).1.mpr fun plan hplan => ?_
  obtain ⟨hconfig, -, hnodes, hprevious, hdesired, -⟩ := makePlan_ok hplan
  rw [Plan.candidate, hconfig, hnodes, hprevious] at hdesired
  rw [Except.ok.inj hdesired]

end SbGateway.ControlPlane.Subscription
