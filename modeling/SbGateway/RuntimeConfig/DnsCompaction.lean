import SbGateway.RuntimeConfig.DnsCompile

namespace SbGateway.RuntimeConfig

open Lib

/-!
# Grouping the hosts of a lane

`compactPolicyDNSHostRules` moves the sources of a host rule forward into an earlier rule of the
same lane.  All rules in between are for hosts that were seen before, so a flow from a new host
matches none of them.

* `Compacted` — what holds after every rule of the list;
* `compaction_keeps_first_match` — the first matching rule leads to the same exit.
-/

/-- The exit of the first matching rule. -/
def firstExit (xray : Xray) (flow : Flow) (addresses : List Addr) (rules : List XrayRule) :
    Option Exit :=
  (rules.find? (·.matches xray flow addresses)).map XrayRule.exit

variable {xray : Xray} {flow : Flow} {addresses : List Addr} {tag : String}
  {sources : List String} {hosts : List Addr}

theorem firstExit_append (rules others : List XrayRule) :
    firstExit xray flow addresses (rules ++ others) =
      (firstExit xray flow addresses rules).or (firstExit xray flow addresses others) := by
  rw [firstExit, List.find?_append, Option.map_or]
  rfl

theorem firstExit_cons (rule : XrayRule) (rules : List XrayRule) :
    firstExit xray flow addresses (rule :: rules) =
      if rule.matches xray flow addresses then some rule.exit
      else firstExit xray flow addresses rules := by
  rw [firstExit, List.find?_cons]
  cases rule.matches xray flow addresses <;> rfl

/-! ### Rules of hosts -/

/-- The rule of some sources of a lane. -/
abbrev hostRule (sources : List String) (tag : String) : XrayRule :=
  identityRule ⟨[], [], sources⟩ tag

theorem eq_hostRule (h : hostSources (identityRule identity tag) = some hosts) :
    identity.sourceCIDR ≠ [] ∧ identityRule identity tag = hostRule identity.sourceCIDR tag := by
  unfold hostSources at h
  split at h
  · cases h
  next hother =>
    simp only [not_or, not_not] at hother
    obtain ⟨hsource, huser, hinbound⟩ := hother
    refine ⟨hsource, ?_⟩
    unfold hostRule identityRule
    rw [show identity.authUser = [] from huser, show identity.inbound = [] from hinbound]

/-- A flow that a host rule matches comes from one of its hosts. -/
theorem source_mem_of_hostSources (h : hostSources rule = some hosts)
    (hmatch : rule.matches xray flow addresses = true) : flow.source.unmap ∈ hosts := by
  unfold hostSources at h
  split at h
  · cases h
  next hother =>
    rcases (XrayRule.matches_iff.mp hmatch).source with hsource | ⟨entry, hentry, hm⟩
    · exact (hother (.inl hsource)).elim
    · obtain ⟨host, hhost, hparse⟩ := exists_of_mem_forall₂ (mapM_eq_some h).flip hentry
      obtain ⟨p, hp, hfull⟩ := Option.bind_eq_some_iff.mp hparse
      split at hfull
      next hbits =>
        cases hfull
        rw [sourceMatches, ipMatches, hp, Bool.or_eq_true] at hm
        rcases hm with hm | hm
        · rw [← Prefix.eq_of_contains hbits hm]
          exact hhost
        · have hsame : p.addr.unmap = flow.source.unmap := by simpa [hbits] using hm
          exact hsame ▸ hhost
      next => cases hfull

/-- A rule of more sources matches what either rule matches. -/
theorem hostRule_append_matches (hold : old ≠ []) (hne : sources ≠ []) :
    (hostRule (old ++ sources) tag).matches xray flow addresses =
      ((hostRule old tag).matches xray flow addresses ||
        (hostRule sources tag).matches xray flow addresses) := by
  have hempty : ∀ {s : List String}, s ≠ [] → s.isEmpty = false := List.isEmpty_eq_false_iff.mpr
  simp [hostRule, identityRule, XrayRule.matches, hempty hold, hempty hne,
    hempty (List.append_ne_nil_of_left_ne_nil hold sources), Bool.and_or_distrib_right]

/-! ### The loop -/

/-- After some rules: the first match is theirs, a group is a host rule of its lane, and from the
    first group on rules only match flows from hosts that have been seen. -/
structure Compacted (xray : Xray) (flow : Flow) (addresses : List Addr)
    (done : List XrayRule) (state : CompactState) : Prop where
  first : firstExit xray flow addresses state.result = firstExit xray flow addresses done
  group : ∀ {tag i}, state.groups.lookup tag = some i →
    ∃ sources, sources ≠ [] ∧ state.result[i]? = some (hostRule sources tag)
  seen : ∀ {tag i j rule}, state.groups.lookup tag = some i → i ≤ j →
    state.result[j]? = some rule → rule.matches xray flow addresses = true →
      flow.source.unmap ∈ state.seen

namespace Compacted

theorem append (h : Compacted xray flow addresses done state) (rule : XrayRule) :
    firstExit xray flow addresses (state.result ++ [rule]) =
      firstExit xray flow addresses (done ++ [rule]) := by
  rw [firstExit_append, firstExit_append, h.first]

section Host

variable (h : Compacted xray flow addresses done ⟨result, groups, known⟩) (hne : sources ≠ [])
  (hhosts : (hostRule sources tag).matches xray flow addresses = true → flow.source.unmap ∈ hosts)

include h hne hhosts

/-- A host rule starts a group. -/
theorem start : Compacted xray flow addresses (done ++ [hostRule sources tag])
      ⟨result ++ [hostRule sources tag], (tag, result.length) :: groups, hosts ++ known⟩ := by
  refine ⟨h.append _, fun {tag' i} hgroup => ?_, fun {tag' i j rule} hgroup hj hrule hm => ?_⟩
  · rw [List.lookup_cons] at hgroup
    split at hgroup
    next hsame =>
      cases hgroup
      cases beq_iff_eq.mp hsame
      exact ⟨_, hne, by simp⟩
    next =>
      obtain ⟨old, hold, hi⟩ := h.group hgroup
      refine ⟨old, hold, ?_⟩
      rw [List.getElem?_append_left (List.getElem?_eq_some_iff.mp hi).1]
      exact hi
  · rw [List.lookup_cons] at hgroup
    rw [List.getElem?_append] at hrule
    split at hrule
    next hlt =>
      split at hgroup
      · cases hgroup
        omega
      · exact List.mem_append_right _ (h.seen hgroup hj hrule hm)
    next =>
      rw [List.mem_singleton.mp (List.mem_of_getElem? hrule)] at hm
      exact List.mem_append_left _ (hhosts hm)

variable (hgroup : groups.lookup tag = some i) (hnew : ∀ a ∈ hosts, a ∉ known)

include hgroup hnew

/-- A group may take the sources of a later rule: a flow from them matches no rule in between. -/
theorem firstExit_modify : firstExit xray flow addresses
        (result.modify i fun r => { r with source := r.source ++ sources }) =
      firstExit xray flow addresses (done ++ [hostRule sources tag]) := by
  obtain ⟨old, hold, hi⟩ := h.group hgroup
  obtain ⟨before, rule, after, hresult, hlen, hmodify⟩ := List.exists_of_modify
    (fun r : XrayRule => { r with source := r.source ++ sources })
    (List.getElem?_eq_some_iff.mp hi).1
  have hrule : rule = hostRule old tag := by
    rw [hresult, List.getElem?_append_right hlen.le, hlen, Nat.sub_self] at hi
    exact Option.some.inj hi
  have hjoined : (hostRule (old ++ sources) tag).matches xray flow addresses = _ :=
    hostRule_append_matches hold hne
  rw [hmodify, ← h.append, hresult, firstExit_append, firstExit_append, firstExit_append,
    Option.or_assoc]
  congr 1
  subst hrule
  show firstExit _ _ _ (hostRule (old ++ sources) tag :: after) = _
  rw [firstExit_cons, hjoined]
  cases hnow : (hostRule sources tag).matches xray flow addresses with
  | false =>
    rw [firstExit_cons, firstExit_cons, hnow, Bool.or_false]
    exact (Option.or_none ..).symm
  | true =>
    have hnone : firstExit xray flow addresses (hostRule old tag :: after) = none := by
      refine Option.map_eq_none_iff.mpr (List.find?_eq_none.mpr fun x hx hm => ?_)
      obtain ⟨k, hk⟩ := List.mem_iff_getElem?.mp hx
      refine hnew _ (hhosts hnow) (h.seen hgroup (Nat.le_add_right i k) ?_ hm)
      rw [hresult, List.getElem?_append_right (by omega), hlen, Nat.add_sub_cancel_left, hk]
    rw [hnone, firstExit_cons, hnow, Bool.or_true]
    rfl

/-- A host rule joins the group of its lane, if none of its hosts has been seen. -/
theorem join : Compacted xray flow addresses (done ++ [hostRule sources tag])
      ⟨result.modify i fun r => { r with source := r.source ++ sources }, groups,
        hosts ++ known⟩ := by
  obtain ⟨old, hold, hi⟩ := h.group hgroup
  refine ⟨h.firstExit_modify hne hhosts hgroup hnew, fun {tag' i'} hgroup' => ?_,
    fun {tag' i' j rule} hgroup' hj hrule hm => ?_⟩
  · obtain ⟨old', hold', hi'⟩ := h.group hgroup'
    simp only at hi'
    by_cases hsame : i = i'
    · exact ⟨old' ++ sources, List.append_ne_nil_of_left_ne_nil hold' _,
        by simp [hi', hsame, hostRule, identityRule]⟩
    · exact ⟨old', hold', by simp [hi', hsame]⟩
  · rw [List.getElem?_modify] at hrule
    obtain ⟨rule, hbefore, rfl⟩ := Option.map_eq_some_iff.mp hrule
    have hseen := h.seen hgroup' hj hbefore
    split at hm
    next hsame =>
      subst hsame
      cases hbefore.symm.trans hi
      rcases (Bool.or_eq_true _ _).mp ((hostRule_append_matches hold hne).symm.trans hm) with
        hm | hm
      · exact List.mem_append_right _ (hseen hm)
      · exact List.mem_append_left _ (hhosts hm)
    next => exact List.mem_append_right _ (hseen hm)

end Host

/-- **One rule.** A host that has been seen, like any other rule, ends the groups. -/
theorem add (h : Compacted xray flow addresses done state) (identity : Identity) (tag : String) :
    Compacted xray flow addresses (done ++ [identityRule identity tag])
      (state.add (identityRule identity tag)) := by
  unfold CompactState.add
  split
  · exact ⟨h.append _, nofun, nofun⟩
  next hosts hhosts =>
    obtain ⟨hne, hrule⟩ := eq_hostRule hhosts
    have hsource : (identityRule identity tag).matches xray flow addresses = true → _ :=
      source_mem_of_hostSources hhosts
    rw [hrule] at hsource ⊢
    obtain ⟨groups, known, hg, hk, hkept, hnew⟩ : ∃ groups known,
        (if hosts.any state.seen.contains then [] else state.groups) = groups ∧
        (if hosts.any state.seen.contains then [] else state.seen) = known ∧
        Compacted xray flow addresses done ⟨state.result, groups, known⟩ ∧
        ∀ a ∈ hosts, a ∉ known := by
      split
      · exact ⟨[], [], rfl, rfl, ⟨h.first, nofun, nofun⟩, fun _ _ => List.not_mem_nil⟩
      next hoverlap => exact ⟨_, _, rfl, rfl, h, by simpa using hoverlap⟩
    simp only [hg, hk]
    split
    next i hi => exact hkept.join hne hsource hi hnew
    next => exact hkept.start hne hsource

end Compacted

/-- **Compaction.** For any mix of identities and lanes, a flow is led to the same exit before and
    after the hosts are grouped. -/
theorem compaction_keeps_first_match (xray : Xray) (flow : Flow) (addresses : List Addr)
    (entries : List (Identity × String)) : firstExit xray flow addresses
        (compactPolicyDNSHostRules (entries.map fun e => identityRule e.1 e.2)) =
      firstExit xray flow addresses (entries.map fun e => identityRule e.1 e.2) := by
  have hrun : ∀ done state, Compacted xray flow addresses done state →
      Compacted xray flow addresses (done ++ entries.map fun e => identityRule e.1 e.2)
        ((entries.map fun e => identityRule e.1 e.2).foldl CompactState.add state) := by
    induction entries with
    | nil =>
      intro done state h
      simpa using h
    | cons e es ih =>
      intro done state h
      simpa using ih _ _ (h.add e.1 e.2)
  exact (hrun [] ⟨[], [], []⟩ ⟨rfl, nofun, nofun⟩).first

end SbGateway.RuntimeConfig
