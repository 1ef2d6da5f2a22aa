import SbGateway.Agent.XrayRuntime

namespace SbGateway.Agent

open Lib
open Prog

/-!
# What the parts of the selector runtime may change

* `Quiet` — calls that only look at Xray or add a handler leave selectors, retired lists,
  pending handlers and removals alone: `ensureOutbound_quiet` and its parts;
* `Removed` — everything one `removeOutbound` can do: `removeOutbound_removed`.
-/

/-! ### Reading and adding -/

/-- Only handlers, their bookkeeping and the script differ. -/
structure Quiet (a b : State) : Prop where
  pool : b.pool = a.pool
  probeSelector : b.probeSelector = a.probeSelector
  activeByPolicy : b.activeByPolicy = a.activeByPolicy
  activeByNode : b.activeByNode = a.activeByNode
  retiredByPolicy : b.retiredByPolicy = a.retiredByPolicy
  pendingDynamic : b.pendingDynamic = a.pendingDynamic
  selectorMembers : b.selectorMembers = a.selectorMembers
  probeRuntimeTag : b.probeRuntimeTag = a.probeRuntimeTag
  overrides : b.overrides = a.overrides
  removals : b.removals = a.removals

theorem Quiet.refl (a : State) : Quiet a a := ⟨rfl, rfl, rfl, rfl, rfl, rfl, rfl, rfl, rfl, rfl⟩

theorem Quiet.trans (hab : Quiet a b) (hbc : Quiet b c) : Quiet a c :=
  ⟨hbc.1.trans hab.1, hbc.2.trans hab.2, hbc.3.trans hab.3, hbc.4.trans hab.4,
    hbc.5.trans hab.5, hbc.6.trans hab.6, hbc.7.trans hab.7, hbc.8.trans hab.8,
    hbc.9.trans hab.9, hbc.10.trans hab.10⟩

instance : Std.Refl Quiet := ⟨Quiet.refl⟩

instance : IsTrans State Quiet := ⟨fun _ _ _ => Quiet.trans⟩

theorem nextOutcome_quiet : Within Quiet nextOutcome := by
  intro st
  unfold nextOutcome
  split
  · exact Quiet.refl st
  · exact { Quiet.refl st with }

theorem outboundTags_quiet : Within Quiet outboundTags := by
  refine Within.bind nextOutcome_quiet (fun outcome => ?_)
  split
  · refine Within.bind Within.state (fun _ => ?_)
    exact Within.pure _
  · exact Within.fail _

theorem outboundPresent_quiet (tag : String) : Within Quiet (outboundPresent tag) :=
  Within.bind outboundTags_quiet (fun _ => Within.pure _)

/-- The handlers of Xray may change. -/
theorem handlers_quiet (change : Finset String → Finset String) (outcome : Outcome) :
    Within Quiet (do
      alter (fun st : State => { st with handlers := change st.handlers })
      return outcome : M Outcome) :=
  Within.bind (Within.alter (fun st => { Quiet.refl st with })) (fun _ => Within.pure _)

theorem addOutbound_quiet (tag : String) : Within Quiet (addOutbound tag) := by
  refine Within.bind nextOutcome_quiet (fun outcome => ?_)
  cases outcome with
  | ok | lost deadline => exact handlers_quiet (insert tag) _
  | failed deadline => exact Within.pure _

theorem presentAfterAdd_quiet (tag : String) : Within Quiet (presentAfterAdd tag) := by
  refine Within.bind (Within.attempt (outboundPresent_quiet tag)) (fun r => ?_)
  split
  · exact Within.pure _
  · exact Within.fail _

theorem addAttempts_quiet (repair : Bool) (tag : String) :
    Within Quiet (addAttempts repair tag) := by
  refine Within.bind (addOutbound_quiet tag) (fun outcome => ?_)
  refine Within.ite (Within.pure _) ?_
  refine Within.bind (presentAfterAdd_quiet tag) (fun present => ?_)
  refine Within.ite (Within.pure _) (Within.ite ?_ (Within.fail _))
  refine Within.bind (addOutbound_quiet tag) (fun _ => ?_)
  refine Within.bind (presentAfterAdd_quiet tag) (fun again => ?_)
  exact Within.ite (Within.pure _) (Within.fail _)

theorem installOutbound_quiet (repair : Bool) (nodeID tag : String) :
    Within Quiet (installOutbound repair nodeID tag) := by
  refine Within.bind Within.state (fun st => ?_)
  refine Within.ite (Within.fail _) ?_
  refine Within.bind nextOutcome_quiet (fun outcome => ?_)
  refine Within.ite (Within.fail _) ?_
  exact Within.bind (addAttempts_quiet repair tag)
    (fun _ => Within.alter (fun st => { Quiet.refl st with }))

theorem ensureOutbound_quiet (nodeID tag : String) : Within Quiet (ensureOutbound nodeID tag) := by
  refine Within.bind Within.state (fun st => ?_)
  refine Within.ite (installOutbound_quiet false nodeID tag) ?_
  refine Within.ite (Within.pure _) ?_
  refine Within.bind (outboundPresent_quiet tag) (fun present => ?_)
  refine Within.ite (Within.alter (fun st => { Quiet.refl st with })) ?_
  refine Within.bind (Within.alter (fun st => { Quiet.refl st with })) (fun _ => ?_)
  exact installOutbound_quiet true nodeID tag

theorem loadDynamicInventory_quiet : Within Quiet loadDynamicInventory := by
  refine Within.bind outboundTags_quiet (fun tags => Within.alter (fun st => ?_))
  exact { Quiet.refl st with }

theorem admitDynamicTag_quiet (tag lead : String) : Within Quiet (admitDynamicTag tag lead) := by
  refine Within.bind Within.state (fun st => ?_)
  refine Within.ite (Within.fail _) (Within.ite (Within.pure _) ?_)
  exact Within.ite (Within.fail _) (Within.pure _)

/-! ### Removing -/

/-- Everything a removal of `tag` can do.  A call is issued only for a loaded handler. -/
structure Removed (tag : String) (a b : State) : Prop where
  pool : b.pool = a.pool
  probeSelector : b.probeSelector = a.probeSelector
  activeByPolicy : b.activeByPolicy = a.activeByPolicy
  retiredByPolicy : b.retiredByPolicy = a.retiredByPolicy
  overrides : b.overrides = a.overrides
  loaded : b.loadedDynamic ⊆ a.loadedDynamic
  members : ∀ selector, b.selectorMembers selector = a.selectorMembers selector
    ∨ b.selectorMembers selector = ""
  probeRuntimeTag : b.probeRuntimeTag = a.probeRuntimeTag ∨ b.probeRuntimeTag = ""
  pending : b.pendingDynamic = a.pendingDynamic
    ∨ (tag ∈ a.loadedDynamic ∧ b.pendingDynamic = a.pendingDynamic.erase tag)
  removals : b.removals = a.removals
    ∨ (tag ∈ a.loadedDynamic ∧ b.removals = a.removals ++ [⟨tag, a.carrying tag⟩])

theorem Removed.refl (tag : String) (a : State) : Removed tag a a :=
  ⟨rfl, rfl, rfl, rfl, rfl, subset_rfl, fun _ => .inl rfl, .inl rfl, .inl rfl, .inl rfl⟩

/-- The issued call, its outcome still open: only the script, the handlers and the record
    changed, and the loaded handlers are the same. -/
structure Issued (tag : String) (a b : State) : Prop where
  quiet : Quiet (a.recordRemoval tag) b
  loaded : b.loadedDynamic = a.loadedDynamic

theorem Issued.removed (h : Issued tag a b) (hload : tag ∈ a.loadedDynamic) : Removed tag a b :=
  ⟨h.quiet.pool, h.quiet.probeSelector, h.quiet.activeByPolicy, h.quiet.retiredByPolicy,
    h.quiet.overrides, h.loaded.subset, fun selector =>
      .inl (congrFun h.quiet.selectorMembers selector),
    .inl h.quiet.probeRuntimeTag, .inl h.quiet.pendingDynamic, .inr ⟨hload, h.quiet.removals⟩⟩

theorem Issued.forget_removed (h : Issued tag a b) (hload : tag ∈ a.loadedDynamic) :
    Removed tag a (b.forget tag) := by
  refine ⟨h.quiet.pool, h.quiet.probeSelector, h.quiet.activeByPolicy, h.quiet.retiredByPolicy,
    h.quiet.overrides, ?_, fun selector => ?_, ?_, .inr ⟨hload, ?_⟩, .inr ⟨hload, h.quiet.removals⟩⟩
  · exact (Finset.erase_subset _ _).trans h.loaded.subset
  · show (if b.selectorMembers selector = tag then "" else b.selectorMembers selector)
        = a.selectorMembers selector ∨ _
    split
    · exact .inr (if_pos ‹_›)
    · exact .inl (congrFun h.quiet.selectorMembers selector)
  · show (if b.probeRuntimeTag = tag then "" else b.probeRuntimeTag) = a.probeRuntimeTag ∨ _
    split
    · exact .inr (if_pos ‹_›)
    · exact .inl h.quiet.probeRuntimeTag
  · show b.pendingDynamic.erase tag = _
    rw [h.quiet.pendingDynamic]
    rfl

/-- The loaded handlers are the same. -/
def SameLoaded (a b : State) : Prop := b.loadedDynamic = a.loadedDynamic

instance : Std.Refl SameLoaded := ⟨fun _ => rfl⟩

instance : IsTrans State SameLoaded := ⟨fun _ _ _ hab hbc => Eq.trans hbc hab⟩

theorem nextOutcome_sameLoaded : Within SameLoaded nextOutcome := by
  intro st
  unfold nextOutcome
  split <;> rfl

theorem outboundPresent_sameLoaded (tag : String) : Within SameLoaded (outboundPresent tag) := by
  refine Within.bind ?_ (fun _ => Within.pure _)
  refine Within.bind nextOutcome_sameLoaded (fun outcome => ?_)
  split
  · exact Within.bind Within.state (fun _ => Within.pure _)
  · exact Within.fail _

theorem takeOff_quiet (tag : String) (outcome : Outcome) : Within Quiet (takeOff tag outcome) := by
  cases outcome with
  | ok | lost deadline => exact handlers_quiet (·.erase tag) _
  | failed deadline => exact Within.pure _

theorem takeOff_sameLoaded (tag : String) (outcome : Outcome) :
    Within SameLoaded (takeOff tag outcome) := by
  cases outcome <;> exact fun _ => rfl

theorem removeCall_issued (tag : String) : Within (Issued tag) (removeCall tag) := by
  intro a
  have hquiet : Within Quiet (nextOutcome >>= takeOff tag) :=
    Within.bind nextOutcome_quiet (takeOff_quiet tag)
  have hload : Within SameLoaded (nextOutcome >>= takeOff tag) :=
    Within.bind nextOutcome_sameLoaded (takeOff_sameLoaded tag)
  exact ⟨hquiet (a.recordRemoval tag), hload (a.recordRemoval tag)⟩

/-- The readback after an unacknowledged removal. -/
theorem confirmRemoval_removed (hload : tag ∈ a.loadedDynamic) :
    Triple (Issued tag a) (confirmRemoval tag) (fun _ => Removed tag a) (Removed tag a) := by
  have hwithin : Within (fun s s' => Quiet s s' ∧ SameLoaded s s')
      (attempt (outboundPresent tag)) :=
    Within.attempt (fun s => ⟨outboundPresent_quiet tag s, outboundPresent_sameLoaded tag s⟩)
  have hread : Stable (Issued tag a) (attempt (outboundPresent tag)) :=
    hwithin.triple (fun s s' hs h => ⟨h.quiet.trans hs.1, Eq.trans hs.2 h.loaded⟩)
  refine Triple.bind _ (hread.onError (fun _ h => h.removed hload)) (fun r => ?_)
  split
  · exact Triple.alter (fun s h => h.forget_removed hload)
  · exact Triple.fail (fun s h => h.removed hload)

/-- **Removal.** Whatever its outcome, `removeOutbound` only does what `Removed` lists. -/
theorem removeOutbound_removed (tag : String) : Within (Removed tag) (removeOutbound tag) := by
  intro a
  have hall : Triple (· = a) (removeOutbound tag) (fun _ => Removed tag a) (Removed tag a) := by
    refine Triple.branch (Triple.pure (forall_eq.mpr (Removed.refl tag a))) ?_
    refine Triple.fix (forall_eq.mpr ?_)
    refine Triple.ite (fun _ => Triple.pure (forall_eq.mpr (Removed.refl tag a))) (fun hload => ?_)
    -- the call is issued; afterwards the handler is forgotten or the failure is reported
    have hloaded : tag ∈ a.loadedDynamic := not_not.mp hload
    have hcall : Triple (· = a) (removeCall tag) (fun _ => Issued tag a) (Issued tag a) :=
      Triple.of_final (forall_eq.mpr (removeCall_issued tag a))
    exact Triple.bind _ (hcall.onError (fun _ h => h.removed hloaded)) (fun outcome =>
      Triple.branch (Triple.alter (fun s h => h.forget_removed hloaded))
        (confirmRemoval_removed hloaded))
  exact Triple.exec hall rfl

end SbGateway.Agent
