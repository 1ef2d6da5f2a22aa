import SbGateway.Lib.NetText
import SbGateway.ClientProfile.Profiles

namespace SbGateway.ClientProfile

open Lib

/-!
# The exceptions of a plan

An individual plan has a default and exceptions: names, prefixes, sniffed protocols and ports that
go the other way.  The writers put protocols and names into one rule, whose conditions must all
hold, as custom routes need it; for the exceptions this makes the protocols a restriction.

* `firstDecision_xrayClientMatchRules`, `firstDecision_singBoxClientMatchRules` — which flows the
  rules of a match send to its target;
* `exceptions_union_iff` — the exceptions are sent to their target exactly where the rules do not
  restrict them, and sing-box does not lose them.
-/

/-! ### The rules of a match -/

/-- The writers restrict the match to its protocols. -/
def restricted (route : RouteMatch) (domains : List Text) : Bool :=
  !route.protocols.isEmpty && (!domains.isEmpty || !route.ipCIDRs.isEmpty)

/-- The flow meets the restricted rule: it has one of the protocols, and one of the names, or, where
    there are no names, one of the prefixes. -/
def meetsRestricted (route : RouteMatch) (domains : List Text) (flow : Flow) : Bool :=
  flow.inProtocols route.protocols &&
    (if domains.isEmpty then flow.inPrefixes route.ipCIDRs else flow.inDomains domains)

/-- The flow is sent to the target of a match whose names are `domains`; `ports` says whether its
    port is in a rule. -/
def sentTo (route : RouteMatch) (domains : List Text) (ports : Bool) (flow : Flow) : Bool :=
  if restricted route domains then meetsRestricted route domains flow
  else flow.inDomains domains || flow.inPrefixes route.ipCIDRs ||
    flow.inProtocols route.protocols || ports

section Lists

variable (flow : Flow)

@[simp] theorem inDomains_nil : flow.inDomains [] = false := by
  simp [Flow.inDomains]

@[simp] theorem inPrefixes_nil : flow.inPrefixes [] = false := by
  simp [Flow.inPrefixes]

@[simp] theorem inProtocols_nil : flow.inProtocols [] = false := by
  cases h : flow.sniffed <;> simp [Flow.inProtocols, h]

@[simp] theorem inPorts_nil : flow.inPorts [] = false := rfl

@[simp] theorem isNamed_nil : flow.isNamed [] = false := by
  simp [Flow.isNamed]

end Lists

/-- A rule that is left out for an empty list applies to nothing then anyway. -/
theorem any_unlessEmpty {values : List α} {applies : R → Bool}
    (hempty : values = [] → b = false) (h : values ≠ [] → applies rule = b) :
    (unlessEmpty values rule).any applies = b := by
  cases values with
  | nil => rw [hempty rfl]; rfl
  | cons value values =>
    rw [← h (List.cons_ne_nil _ _)]
    simp [unlessEmpty]

theorem forall_mem_unlessEmpty {values : List α} {P : R → Prop}
    (h : P rule) : ∀ r ∈ unlessEmpty values rule, P r := by
  intro r hr
  rw [unlessEmpty] at hr
  split at hr
  · cases hr
  · rwa [List.mem_singleton.mp hr]

/-- The ports of a network: a rule for each of the two networks is a rule for that of the flow. -/
theorem inPortsOf_eq (flow : Flow) (route : RouteMatch) : flow.inPortsOf route =
      (([Network.tcp].contains flow.network && flow.inPorts route.tcpPorts) ||
        ([Network.udp].contains flow.network && flow.inPorts route.udpPorts)) := by
  cases h : flow.network <;> simp [Flow.inPortsOf, h]

/-- The rules of a match as both writers lay them out: one rule for protocols with names, or with
    prefixes, and otherwise one for each list. -/
theorem any_matchRules {tcp udp : List R} (hnamed : domains ≠ [] → route.protocols ≠ [] →
      applies named = (flow.inProtocols route.protocols && flow.inDomains domains))
    (hprefixed : route.ipCIDRs ≠ [] → route.protocols ≠ [] →
      applies prefixed = (flow.inProtocols route.protocols && flow.inPrefixes route.ipCIDRs))
    (hname : domains ≠ [] → applies name = flow.inDomains domains)
    (hrange : route.ipCIDRs ≠ [] → applies range = flow.inPrefixes route.ipCIDRs)
    (hsniffed : route.protocols ≠ [] → applies sniffed = flow.inProtocols route.protocols) :
    (if domains ≠ [] ∧ route.protocols ≠ [] then [named]
      else if route.ipCIDRs ≠ [] ∧ route.protocols ≠ [] then [prefixed]
      else unlessEmpty domains name ++ unlessEmpty route.ipCIDRs range ++
        unlessEmpty route.protocols sniffed ++ tcp ++ udp).any applies =
      sentTo route domains (tcp.any applies || udp.any applies) flow := by
  rw [sentTo, restricted, meetsRestricted]
  split
  · rename_i hboth
    have hdomains := List.isEmpty_eq_false_iff.mpr hboth.1
    have hprotocols := List.isEmpty_eq_false_iff.mpr hboth.2
    simp [hnamed hboth.1 hboth.2, hdomains, hprotocols]
  · rename_i hnames
    split
    · rename_i hboth
      have hdomains : domains = [] := by
        by_contra hne
        exact hnames ⟨hne, hboth.2⟩
      have hcidrs := List.isEmpty_eq_false_iff.mpr hboth.1
      have hprotocols := List.isEmpty_eq_false_iff.mpr hboth.2
      simp [hprefixed hboth.1 hboth.2, hcidrs, hprotocols, hdomains]
    · rename_i hprefixes
      have hfree : (!route.protocols.isEmpty && (!domains.isEmpty || !route.ipCIDRs.isEmpty)) =
          false := by
        rw [Bool.eq_false_iff]
        simp only [ne_eq, Bool.and_eq_true, Bool.or_eq_true, Bool.not_eq_true',
          List.isEmpty_eq_false_iff]
        tauto
      rw [hfree, if_neg Bool.false_ne_true]
      simp only [List.any_append]
      rw [any_unlessEmpty (by rintro rfl; simp) hname,
        any_unlessEmpty (fun h => by simp [h]) hrange,
        any_unlessEmpty (fun h => by simp [h]) hsniffed]
      simp only [Bool.or_assoc]

/-! ### Xray -/

section Xray

variable (ops : TextOps) (route : RouteMatch) (target : Target) (flow : Flow)

theorem any_applies_xrayClientMatchRules :
    (xrayClientMatchRules ops route target).any (XrayRule.applies flow) =
      sentTo route (normalizedClientDomains ops route.domains) (flow.inPortsOf route) flow := by
  rw [xrayClientMatchRules, any_matchRules, inPortsOf_eq,
    any_unlessEmpty (b := [Network.tcp].contains flow.network && flow.inPorts route.tcpPorts)
      (fun h => by simp [h]),
    any_unlessEmpty (b := [Network.udp].contains flow.network && flow.inPorts route.udpPorts)
      (fun h => by simp [h])]
  all_goals
    intros
    simp [XrayRule.applies, List.isEmpty_eq_false_iff.mpr, Bool.and_comm, *]

/-- **Xray.** The rules of a match send to its target exactly these flows. -/
theorem firstDecision_xrayClientMatchRules : firstDecision (XrayRule.applies flow) XrayRule.decision
      (xrayClientMatchRules ops route target) =
      if sentTo route (normalizedClientDomains ops route.domains) (flow.inPortsOf route) flow
      then some target.decision else none := by
  rw [← any_applies_xrayClientMatchRules ops route target flow]
  refine firstDecision_const fun rule hrule => ?_
  rw [xrayClientMatchRules] at hrule
  split at hrule
  · rw [List.mem_singleton.mp hrule]
  · split at hrule
    · rw [List.mem_singleton.mp hrule]
    · simp only [List.mem_append] at hrule
      rcases hrule with (((hrule | hrule) | hrule) | hrule) | hrule <;>
        exact forall_mem_unlessEmpty (P := fun r => r.decision = target.decision) rfl rule hrule

end Xray

/-! ### sing-box -/

section SingBox

variable (route : RouteMatch) (target : Target) (flow : Flow)

/-- A range as it is written is no range of sing-box. -/
theorem singBoxPortRange_text (first last : ℕ) :
    singBoxPortRange (PortSpec.range first last).text = none := by
  have hcolon : ':' ∉ (PortSpec.range first last).text := by
    rw [PortSpec.text, List.mem_append, List.mem_cons]
    have hdigits : ∀ n, ':' ∉ Nat.toDigits 10 n := fun n =>
      notMem_toDigits (by decide) (by decide) (by decide)
    rintro (h | h | h)
    · exact hdigits _ h
    · cases h
    · exact hdigits _ h
  rw [singBoxPortRange, fieldsOf_eq_singleton hcolon]

theorem filterMap_singBoxPortRange (ports : List PortSpec) :
    (rangeTexts ports).filterMap singBoxPortRange = [] := by
  rw [List.filterMap_eq_nil_iff]
  intro text htext
  obtain ⟨spec, -, hspec⟩ := List.mem_filterMap.mp htext
  cases spec with
  | single port => cases hspec
  | range first last =>
    obtain rfl := Option.some.inj hspec
    exact singBoxPortRange_text first last

/-- The port is one of the single ports of its network. -/
def Flow.inSinglePortsOf (flow : Flow) (route : RouteMatch) : Bool :=
  match flow.network with
  | .tcp => (singlePorts route.tcpPorts).contains flow.port
  | .udp => (singlePorts route.udpPorts).contains flow.port

theorem inSinglePortsOf_eq : flow.inSinglePortsOf route =
      (([Network.tcp].contains flow.network && (singlePorts route.tcpPorts).contains flow.port) ||
        ([Network.udp].contains flow.network &&
          (singlePorts route.udpPorts).contains flow.port)) := by
  cases h : flow.network <;> simp [Flow.inSinglePortsOf, h]

/-- Of the rules for the ports of a network only that for single ports ever applies. -/
theorem any_decides_singBoxPortRules (network : Network) (ports : List PortSpec) :
    (singBoxPortRules network ports target).any (SingBoxRule.decides flow) =
      ([network].contains flow.network && (singlePorts ports).contains flow.port) := by
  rw [singBoxPortRules, List.any_append,
    any_unlessEmpty (b := [network].contains flow.network && (singlePorts ports).contains flow.port)
      (fun h => by simp [h]),
    any_unlessEmpty (b := false) (fun _ => rfl), Bool.or_false]
  · intro hne
    simp [SingBoxRule.decides, SingBoxRule.applies, filterMap_singBoxPortRange,
      List.isEmpty_eq_false_iff.mpr hne]
  · intro hne
    simp [SingBoxRule.decides, SingBoxRule.applies, List.isEmpty_eq_false_iff.mpr hne,
      Bool.and_comm]

theorem any_decides_singBoxClientMatchRules :
    (singBoxClientMatchRules route target).any (SingBoxRule.decides flow) =
      sentTo route route.domains (flow.inSinglePortsOf route) flow := by
  rw [singBoxClientMatchRules, any_matchRules, inSinglePortsOf_eq, any_decides_singBoxPortRules,
    any_decides_singBoxPortRules]
  all_goals
    intros
    simp [SingBoxRule.decides, SingBoxRule.applies, List.isEmpty_eq_false_iff.mpr, Bool.and_comm, *]

/-- **sing-box.** The rules of a match send to its target exactly these flows. -/
theorem firstDecision_singBoxClientMatchRules :
    firstDecision (SingBoxRule.decides flow) (fun rule => rule.decision.getD .dns)
      (singBoxClientMatchRules route target) =
      if sentTo route route.domains (flow.inSinglePortsOf route) flow
      then some target.decision else none := by
  rw [← any_decides_singBoxClientMatchRules route target flow]
  refine firstDecision_const fun rule hrule => ?_
  have hall : ∀ r ∈ singBoxClientMatchRules route target, r.decision = some target.decision := by
    intro r hr
    rw [singBoxClientMatchRules] at hr
    split at hr
    · rw [List.mem_singleton.mp hr]
    · split at hr
      · rw [List.mem_singleton.mp hr]
      · simp only [singBoxPortRules, List.mem_append] at hr
        rcases hr with (((hr | hr) | hr) | hr | hr) | hr | hr <;>
          exact forall_mem_unlessEmpty (P := fun r => r.decision = some target.decision) rfl r hr
  rw [hall rule hrule]
  rfl

end SingBox

/-! ### The exceptions -/

section Exceptions

variable (ops : TextOps) (plan : Plan) (flow : Flow)

/-- No rule before the exceptions applies. -/
def XrayUnmatched : Prop := ∀ rule ∈ xrayRulesBefore ops plan, rule.applies flow = false

/-- No rule before the exceptions decides. -/
def SingBoxUnmatched : Prop := ∀ rule ∈ singBoxRulesBefore ops plan, rule.decides flow = false

/-- The exceptions are a union: both clients send a flow to the target of the exceptions if it is in
    one of their lists, unless an earlier rule decides. -/
structure ExceptionsUnion : Prop where
  xray : XrayUnmatched ops plan flow → flow.inUnion plan.exceptions = true →
    xrayDecision ops plan flow = some plan.exceptionTarget.decision
  singBox : SingBoxUnmatched ops plan flow → flow.inUnion plan.exceptions = true →
    singBoxDecision ops plan flow = some plan.exceptionTarget.decision

/-- Xray expresses the exceptions for a flow: they have no protocols besides names or prefixes, or
    the flow has both. -/
def XrayExpresses : Prop :=
  restricted plan.exceptions (normalizedClientDomains ops plan.exceptions.domains) = true →
    meetsRestricted plan.exceptions
      (normalizedClientDomains ops plan.exceptions.domains) flow = true

/-- sing-box expresses the exceptions for a flow: as for Xray, where names of nodes and
    advertisements are no exceptions and the flow is in another list than that of port ranges. -/
def SingBoxExpresses : Prop :=
  if restricted plan.exceptions (singBoxExceptions ops plan).domains then
    meetsRestricted plan.exceptions (singBoxExceptions ops plan).domains flow = true
  else
    flow.inDomains (singBoxExceptions ops plan).domains = true ∨
      flow.inPrefixes plan.exceptions.ipCIDRs = true ∨
      flow.inProtocols plan.exceptions.protocols = true ∨
      flow.inSinglePortsOf plan.exceptions = true

/-- A name is in a list of domains only if it is in the list as the writers take it. -/
theorem inDomains_normalized (h : flow.inDomains domains = true) :
    flow.inDomains (normalizedClientDomains ops domains) = true := by
  rw [Flow.inDomains] at h ⊢
  cases hname : flow.name with
  | none => simp [hname] at h
  | some name =>
    rw [hname] at h
    obtain ⟨domain, hmem, hunder⟩ := List.any_eq_true.mp h
    refine List.any_eq_true.mpr ⟨domain, mem_normalizedClientDomains.mpr ?_, hunder⟩
    exact ⟨domain, hmem, clientDomain_of_under ops hunder⟩

variable {plan}

/-- What Xray decides of a flow that no earlier rule takes. -/
theorem xrayDecision_of_unmatched (hplan : plan.individual = true)
    (h : XrayUnmatched ops plan flow) : xrayDecision ops plan flow =
      if sentTo plan.exceptions (normalizedClientDomains ops plan.exceptions.domains)
        (flow.inPortsOf plan.exceptions) flow
      then some plan.exceptionTarget.decision else some plan.defaultTarget.decision := by
  have hdefault : XrayRule.applies flow
      { network := [.tcp, .udp], decision := plan.defaultTarget.decision } = true := by
    cases hnetwork : flow.network <;> simp [XrayRule.applies, hnetwork]
  rw [xrayDecision, xrayRules, if_pos hplan, firstDecision_append, firstDecision_append,
    firstDecision_eq_none h, firstDecision_xrayClientMatchRules, firstDecision_cons, hdefault]
  split <;> rfl

/-- What sing-box decides of a flow that no earlier rule takes. -/
theorem singBoxDecision_of_unmatched (hplan : plan.individual = true)
    (h : SingBoxUnmatched ops plan flow) : singBoxDecision ops plan flow =
      if sentTo plan.exceptions (singBoxExceptions ops plan).domains
        (flow.inSinglePortsOf plan.exceptions) flow
      then some plan.exceptionTarget.decision else some plan.defaultTarget.decision := by
  have hsent : sentTo (singBoxExceptions ops plan) (singBoxExceptions ops plan).domains
      (flow.inSinglePortsOf (singBoxExceptions ops plan)) flow =
      sentTo plan.exceptions (singBoxExceptions ops plan).domains
        (flow.inSinglePortsOf plan.exceptions) flow := rfl
  rw [singBoxDecision, singBoxRules, if_pos hplan, firstDecision_append, firstDecision_eq_none h,
    firstDecision_singBoxClientMatchRules, hsent]
  split <;> rfl

/-- The default is not the exception. -/
theorem default_ne_exception (hplan : plan.individual = true) :
    some plan.defaultTarget.decision ≠ some plan.exceptionTarget.decision := by
  have hne := plan.targets hplan
  cases hdefault : plan.defaultTarget <;> cases hexception : plan.exceptionTarget <;>
    simp_all [Target.decision]

/-- Xray sends a flow of the union to the target where it expresses the exceptions. -/
theorem sentTo_iff_xrayExpresses (h : flow.inUnion plan.exceptions = true) :
    sentTo plan.exceptions (normalizedClientDomains ops plan.exceptions.domains)
      (flow.inPortsOf plan.exceptions) flow = true ↔ XrayExpresses ops plan flow := by
  rw [sentTo, XrayExpresses]
  split
  · rename_i hrestricted
    exact ⟨fun hmeets _ => hmeets, fun hexpresses => hexpresses hrestricted⟩
  · rename_i hfree
    refine ⟨fun _ hrestricted => absurd hrestricted hfree, fun _ => ?_⟩
    simp only [Flow.inUnion, Bool.or_eq_true] at h ⊢
    rcases h with ((hdomains | hprefixes) | hprotocols) | hports
    · exact .inl (.inl (.inl (inDomains_normalized ops flow hdomains)))
    · exact .inl (.inl (.inr hprefixes))
    · exact .inl (.inr hprotocols)
    · exact .inr hports

theorem sentTo_iff_singBoxExpresses : sentTo plan.exceptions (singBoxExceptions ops plan).domains
      (flow.inSinglePortsOf plan.exceptions) flow = true ↔ SingBoxExpresses ops plan flow := by
  rw [sentTo, SingBoxExpresses]
  split
  · rfl
  · simp only [Bool.or_eq_true, or_assoc]

/-- A decision between two different targets. -/
theorem ite_eq_exception_iff (hplan : plan.individual = true) :
    (if sent then some plan.exceptionTarget.decision else some plan.defaultTarget.decision) =
      some plan.exceptionTarget.decision ↔ sent = true := by
  cases sent
  · simpa using default_ne_exception hplan
  · simp

end Exceptions

/-- **Exceptions.** For every individual plan and every flow: the exceptions are a union for the
    flow exactly where both clients express them for it, if no earlier rule takes it. -/
theorem exceptions_union_iff (ops : TextOps) (plan : Plan) (hplan : plan.individual = true)
    (flow : Flow) : ExceptionsUnion ops plan flow ↔
      (flow.inUnion plan.exceptions = true →
        (XrayUnmatched ops plan flow → XrayExpresses ops plan flow) ∧
        (SingBoxUnmatched ops plan flow → SingBoxExpresses ops plan flow)) := by
  have hxray : ∀ h : XrayUnmatched ops plan flow, flow.inUnion plan.exceptions = true →
      (xrayDecision ops plan flow = some plan.exceptionTarget.decision ↔
        XrayExpresses ops plan flow) := by
    intro h hunion
    rw [xrayDecision_of_unmatched ops flow hplan h, ite_eq_exception_iff hplan,
      sentTo_iff_xrayExpresses ops flow hunion]
  have hsingBox : ∀ h : SingBoxUnmatched ops plan flow,
      (singBoxDecision ops plan flow = some plan.exceptionTarget.decision ↔
        SingBoxExpresses ops plan flow) := by
    intro h
    rw [singBoxDecision_of_unmatched ops flow hplan h, ite_eq_exception_iff hplan,
      sentTo_iff_singBoxExpresses]
  constructor
  · intro h hunion
    exact ⟨fun hunmatched => (hxray hunmatched hunion).mp (h.xray hunmatched hunion),
      fun hunmatched => (hsingBox hunmatched).mp (h.singBox hunmatched hunion)⟩
  · intro h
    exact ⟨fun hunmatched hunion => (hxray hunmatched hunion).mpr ((h hunion).1 hunmatched),
      fun hunmatched hunion => (hsingBox hunmatched).mpr ((h hunion).2 hunmatched)⟩

/-! ### A plan with a sniffed protocol -/

/-- Operations that leave every text alone. -/
def plainOps : TextOps := ⟨id, id, fun _ _ => rfl, fun _ _ => rfl⟩

/-- The protocol of torrents. -/
def bittorrent : Text := ['b', 'i', 't', 't', 'o', 'r', 'r', 'e', 'n', 't']

/-- An exception for a name, and sniffed protocols as the pack of torrents has them, which every
    such plan has by default. -/
def samplePlan (protocols : List Text) : Plan :=
  { individual := true, exceptionTarget := .direct, defaultTarget := .proxy,
    domainStrategy := .ipIfNonMatch,
    exceptions :=
      { domains := [['a', '.', 'b']], ipCIDRs := [], protocols, tcpPorts := [], udpPorts := [] },
    customRoutes := [], allowedLANCIDRs := [], allowedLANPorts := [], adblock := false,
    nodeDomains := [], internalDNS := false, targets := fun _ => by decide }

/-- The name of the exception. -/
def sampleHost : HostName :=
  { text := ['a', '.', 'b'], chars := by simp [hostChar], nonempty := by simp,
    first := by simp, last := by simp, inner := by decide }

/-- A connection to the name of the exception. -/
def sampleFlow : Flow :=
  { name := some sampleHost, addresses := [], sniffed := none, network := .tcp, port := 443 }

/-- The rules for the client's own name servers apply to no flow of the device. -/
theorem applies_xrayClientDNSRoutes (ops : TextOps) (plan : Plan) (flow : Flow) :
    ∀ rule ∈ xrayClientDNSRoutes ops plan, rule.applies flow = false := by
  have hdns : ∀ tag decision, XrayRule.applies flow { inbound := .dns tag, decision } = false :=
    fun _ _ => rfl
  intro rule hrule
  simp only [xrayClientDNSRoutes, List.mem_append, List.mem_flatMap, List.mem_singleton] at hrule
  rcases hrule with ((hrule | ⟨custom, -, hrule⟩) | hrule) | rfl
  · split at hrule
    · rw [List.mem_singleton.mp hrule]
      exact hdns _ _
    · cases hrule
  · split at hrule
    · cases hrule
    · rw [List.mem_singleton.mp hrule]
      exact hdns _ _
  · split at hrule
    · rw [List.mem_singleton.mp hrule]
      exact hdns _ _
    · cases hrule
  · exact hdns _ _

theorem sampleFlow_xrayUnmatched (protocols : List Text) :
    XrayUnmatched plainOps (samplePlan protocols) sampleFlow := by
  intro rule hrule
  simp only [xrayRulesBefore, xrayLANRules, List.cons_append, List.append_assoc, List.mem_cons,
    List.mem_append] at hrule
  rcases hrule with rfl | hrule | hrule | hrule | hrule | hrule | hrule
  · simp [XrayRule.applies, Flow.inPorts, PortSpec.contains, sampleFlow]
  · exact applies_xrayClientDNSRoutes _ _ _ rule hrule
  · simp [unlessEmpty, Plan.adblockDomains, samplePlan] at hrule
  · simp [unlessEmpty, samplePlan] at hrule
  · simp [unlessEmpty, samplePlan] at hrule
  · have haddress : sampleFlow.inPrefixes (clientDirectPrivateCIDRs []) = false := rfl
    have hsome : clientDirectPrivateCIDRs [] ≠ [] := by
      simp [clientDirectPrivateCIDRs, clientPrivateCIDRs]
    refine forall_mem_unlessEmpty (P := fun r => r.applies sampleFlow = false) ?_ rule hrule
    simp [XrayRule.applies, haddress, hsome, samplePlan]
  · simp [samplePlan] at hrule

/-- The name is in the list of domains as the writers take it. -/
theorem sampleFlow_normalized (protocols : List Text) :
    ['a', '.', 'b'] ∈ normalizedClientDomains plainOps (samplePlan protocols).exceptions.domains :=
  mem_normalizedClientDomains.mpr ⟨['a', '.', 'b'], List.mem_singleton_self _, by decide⟩

/-- Without a sniffed protocol the name is an exception. -/
theorem samplePlan_union : ExceptionsUnion plainOps (samplePlan []) sampleFlow := by
  refine (exceptions_union_iff plainOps (samplePlan []) rfl sampleFlow).mpr fun _ => ⟨?_, ?_⟩
  · intro _ hrestricted
    cases hrestricted
  · intro _
    rw [SingBoxExpresses, if_neg (by decide)]
    refine .inl (List.any_eq_true.mpr ⟨['a', '.', 'b'], ?_, by decide⟩)
    exact List.mem_filter.mpr ⟨sampleFlow_normalized [], by decide +kernel⟩

/-- With the protocol of torrents it is not: Xray sends it to the proxy. -/
theorem samplePlan_not_union : sampleFlow.inUnion (samplePlan [bittorrent]).exceptions = true ∧
      XrayUnmatched plainOps (samplePlan [bittorrent]) sampleFlow ∧
      xrayDecision plainOps (samplePlan [bittorrent]) sampleFlow = some .proxy ∧
      ¬ ExceptionsUnion plainOps (samplePlan [bittorrent]) sampleFlow := by
  have hunion : sampleFlow.inUnion (samplePlan [bittorrent]).exceptions = true := by decide
  have hunmatched := sampleFlow_xrayUnmatched [bittorrent]
  have hdecision : xrayDecision plainOps (samplePlan [bittorrent]) sampleFlow = some .proxy := by
    have hsome := List.isEmpty_eq_false_iff.mpr
      (List.ne_nil_of_mem (sampleFlow_normalized [bittorrent]))
    rw [xrayDecision_of_unmatched plainOps sampleFlow rfl hunmatched, sentTo, restricted, hsome]
    rfl
  refine ⟨hunion, hunmatched, hdecision, fun h => ?_⟩
  have hdirect := h.xray hunmatched hunion
  rw [hdecision] at hdirect
  cases hdirect

end SbGateway.ClientProfile
