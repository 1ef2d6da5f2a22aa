import SbGateway.ClientProfile.Plan

namespace SbGateway.ClientProfile

open Lib

/-!
# The rules of the exported profiles

The rules that are written for Xray and sing-box, and how these clients read them: the first rule
that applies decides.  All conditions of a rule must hold, except that sing-box takes names and
addresses of one rule as alternatives, and so a port and a port range.

* `xrayRules`, `singBoxRules` — the rules in the order in which they are written;
* `xrayDecision`, `singBoxDecision` — what the clients decide.
-/

/-- What a client does with a flow. -/
inductive Decision where
  | reject
  | direct
  | proxy
  /-- The client answers as a name server. -/
  | dns
  deriving DecidableEq

/-- The decision for a target. -/
def Target.decision : Target → Decision
  | .direct => .direct
  | .proxy => .proxy

/-- The decision of the first rule that applies. -/
def firstDecision {R : Type} (applies : R → Bool) (decision : R → Decision) (rules : List R) :
    Option Decision :=
  (rules.find? applies).map decision

section

variable {R : Type} {applies : R → Bool} {decision : R → Decision}

theorem firstDecision_append (rules others : List R) :
    firstDecision applies decision (rules ++ others) =
      (firstDecision applies decision rules).or (firstDecision applies decision others) := by
  rw [firstDecision, List.find?_append, Option.map_or]
  rfl

@[simp] theorem firstDecision_cons (rule : R) (rules : List R) :
    firstDecision applies decision (rule :: rules) =
      if applies rule then some (decision rule) else firstDecision applies decision rules := by
  rw [firstDecision, List.find?_cons]
  cases applies rule <;> rfl

/-- Rules that do not apply decide nothing. -/
theorem firstDecision_eq_none (h : ∀ rule ∈ rules, applies rule = false) :
    firstDecision applies decision rules = none := by
  rw [firstDecision, List.find?_eq_none.mpr (by simpa using h)]
  rfl

/-- Rules with one decision decide so if one of them applies. -/
theorem firstDecision_const (h : ∀ rule ∈ rules, decision rule = d) :
    firstDecision applies decision rules = if rules.any applies then some d else none := by
  induction rules with
  | nil => rfl
  | cons rule rules ih =>
    rw [List.forall_mem_cons] at h
    rw [firstDecision_cons, ih h.2, List.any_cons, h.1]
    cases applies rule <;> simp

end

/-! ### Xray -/

/-- Where a connection of the client comes from: the device, or a name server of the client. -/
inductive XrayInbound where
  | tun
  | dns (tag : Text)
  deriving DecidableEq

/-- A rule; a field that is not set is empty. -/
structure XrayRule where
  inbound : XrayInbound := .tun
  domain : List Text := []
  ip : List Prefix := []
  protocol : List Text := []
  network : List Network := []
  port : List PortSpec := []
  decision : Decision

/-- All fields that are set must match. -/
def XrayRule.applies (flow : Flow) (rule : XrayRule) : Bool :=
  rule.inbound = .tun && (rule.domain.isEmpty || flow.inDomains rule.domain) &&
    (rule.ip.isEmpty || flow.inPrefixes rule.ip) &&
    (rule.protocol.isEmpty || flow.inProtocols rule.protocol) &&
    (rule.network.isEmpty || rule.network.contains flow.network) &&
    (rule.port.isEmpty || flow.inPorts rule.port)

/-- The rule, unless one of its lists would be empty. -/
def unlessEmpty {α R : Type} (values : List α) (rule : R) : List R :=
  if values.isEmpty then [] else [rule]

/-- `appendXrayClientMatchRules`: the rules that are appended. -/
def xrayClientMatchRules (ops : TextOps) (route : RouteMatch) (target : Target) : List XrayRule :=
  let domains := normalizedClientDomains ops route.domains
  if domains ≠ [] ∧ route.protocols ≠ [] then
    [{ domain := domains, protocol := route.protocols, decision := target.decision }]
  else if route.ipCIDRs ≠ [] ∧ route.protocols ≠ [] then
    [{ ip := route.ipCIDRs, protocol := route.protocols, decision := target.decision }]
  else
    unlessEmpty domains { domain := domains, decision := target.decision } ++
    unlessEmpty route.ipCIDRs { ip := route.ipCIDRs, decision := target.decision } ++
    unlessEmpty route.protocols { protocol := route.protocols, decision := target.decision } ++
    unlessEmpty route.tcpPorts
      { network := [.tcp], port := route.tcpPorts, decision := target.decision } ++
    unlessEmpty route.udpPorts
      { network := [.udp], port := route.udpPorts, decision := target.decision }

/-- `appendXrayClientDNSRoutes`: the rules for the connections of the client's own name servers. -/
def xrayClientDNSRoutes (ops : TextOps) (plan : Plan) : List XrayRule :=
  (if plan.internalDNS then
    [{ inbound := .dns "client-dns-internal".toList, decision := .proxy }] else []) ++
  plan.customRoutes.zipIdx.flatMap (fun custom =>
    if custom.1.route.domains = [] ∨ custom.1.route.protocols ≠ [] then []
    else [{ inbound := .dns ("client-dns-custom-".toList ++ Nat.toDigits 10 custom.2),
            decision := custom.1.target.decision }]) ++
  (if plan.individual = true ∧ normalizedClientDomains ops plan.exceptions.domains ≠ [] then
    [{ inbound := .dns "client-dns-exception".toList, decision := plan.exceptionTarget.decision }]
    else []) ++
  [{ inbound := .dns "client-dns-default".toList, decision := plan.defaultTarget.decision }]

/-- The rules for the networks that the gateway reaches, and for private addresses. -/
def xrayLANRules (plan : Plan) : List XrayRule :=
  unlessEmpty plan.allowedLANCIDRs
    { ip := plan.allowedLANCIDRs, port := plan.allowedLANPorts.map .single, decision := .proxy } ++
  unlessEmpty (clientDirectPrivateCIDRs plan.allowedLANCIDRs)
    { ip := clientDirectPrivateCIDRs plan.allowedLANCIDRs, decision := .direct }

/-- The rules before the exceptions. -/
def xrayRulesBefore (ops : TextOps) (plan : Plan) : List XrayRule :=
  { network := [.tcp, .udp], port := [.single 53], decision := .dns } ::
    xrayClientDNSRoutes ops plan ++
  unlessEmpty plan.adblockDomains
    { domain := normalizedClientDomains ops plan.adblockDomains, decision := .reject } ++
  unlessEmpty plan.nodeDomains
    { domain := normalizedClientDomains ops plan.nodeDomains, decision := .direct } ++
  xrayLANRules plan ++
  (if plan.individual then
    plan.customRoutes.flatMap fun custom => xrayClientMatchRules ops custom.route custom.target
    else [])

/-- The rules of `buildCombinedXrayProfile`. -/
def xrayRules (ops : TextOps) (plan : Plan) : List XrayRule :=
  xrayRulesBefore ops plan ++
  (if plan.individual then xrayClientMatchRules ops plan.exceptions plan.exceptionTarget else []) ++
  [{ network := [.tcp, .udp], decision := plan.defaultTarget.decision }]

/-- The decision of the rules. -/
def xrayDecision (ops : TextOps) (plan : Plan) (flow : Flow) : Option Decision :=
  firstDecision (XrayRule.applies flow) XrayRule.decision (xrayRules ops plan)

/-! ### sing-box -/

/-- A rule; a field that is not set is empty. -/
structure SingBoxRule where
  protocol : List Text := []
  domain : List Text := []
  domainSuffix : List Text := []
  ipCIDR : List Prefix := []
  network : List Network := []
  port : List ℕ := []
  portRange : List Text := []
  /-- What is done; sniffing is done before the next rule. -/
  decision : Option Decision

/-- A port range of sing-box: two numbers with a colon between them, of which one may be missing. -/
def singBoxPortRange (text : Text) : Option PortSpec :=
  match fieldsOf ':' text with
  | [first, last] => do
    let first ← if first = [] then some 0 else readNumber 10 first
    let last ← if last = [] then some 65535 else readNumber 10 last
    some (.range first last)
  | _ => none

/-- Names and addresses are alternatives, and so are ports and port ranges. -/
def SingBoxRule.applies (flow : Flow) (rule : SingBoxRule) : Bool :=
  ((rule.domain.isEmpty && rule.domainSuffix.isEmpty && rule.ipCIDR.isEmpty) ||
    flow.isNamed rule.domain || flow.inDomains rule.domainSuffix || flow.inPrefixes rule.ipCIDR) &&
  ((rule.port.isEmpty && rule.portRange.isEmpty) || rule.port.contains flow.port ||
    flow.inPorts (rule.portRange.filterMap singBoxPortRange)) &&
  (rule.network.isEmpty || rule.network.contains flow.network) &&
  (rule.protocol.isEmpty || flow.inProtocols rule.protocol)

/-- The ports of a list that are single ones. -/
def singlePorts (ports : List PortSpec) : List ℕ :=
  ports.filterMap fun
    | .single port => some port
    | .range _ _ => none

/-- The texts of the ranges of a list. -/
def rangeTexts (ports : List PortSpec) : List Text :=
  ports.filterMap fun
    | .single _ => none
    | .range first last => some (PortSpec.range first last).text

/-- The rules for the ports of a network. -/
def singBoxPortRules (network : Network) (ports : List PortSpec) (target : Target) :
    List SingBoxRule :=
  unlessEmpty (singlePorts ports)
    { network := [network], port := singlePorts ports, decision := target.decision } ++
  unlessEmpty (rangeTexts ports)
    { network := [network], portRange := rangeTexts ports, decision := target.decision }

/-- `appendSingBoxClientMatchRules`: the rules that are appended. -/
def singBoxClientMatchRules (route : RouteMatch) (target : Target) : List SingBoxRule :=
  if route.domains ≠ [] ∧ route.protocols ≠ [] then
    [{ domainSuffix := route.domains, protocol := route.protocols, decision := target.decision }]
  else if route.ipCIDRs ≠ [] ∧ route.protocols ≠ [] then
    [{ ipCIDR := route.ipCIDRs, protocol := route.protocols, decision := target.decision }]
  else
    unlessEmpty route.domains { domainSuffix := route.domains, decision := target.decision } ++
    unlessEmpty route.ipCIDRs { ipCIDR := route.ipCIDRs, decision := target.decision } ++
    unlessEmpty route.protocols { protocol := route.protocols, decision := target.decision } ++
    singBoxPortRules .tcp route.tcpPorts target ++ singBoxPortRules .udp route.udpPorts target

/-- `uniqueSingBoxRuleDomains`: the domains that were not seen before. -/
def uniqueSingBoxRuleDomains (ops : TextOps) (values seen : List Text) : List Text :=
  (normalizedClientDomains ops values).filter fun value => !seen.contains value

/-- The rules for the networks that the gateway reaches, and for private addresses. -/
def singBoxLANRules (plan : Plan) : List SingBoxRule :=
  unlessEmpty plan.allowedLANCIDRs
    { ipCIDR := plan.allowedLANCIDRs, port := plan.allowedLANPorts, decision := some .proxy } ++
  unlessEmpty (clientDirectPrivateCIDRs plan.allowedLANCIDRs)
    { ipCIDR := clientDirectPrivateCIDRs plan.allowedLANCIDRs, decision := some .direct }

section

variable (ops : TextOps) (plan : Plan)

/-- The names of the nodes in the rules. -/
def singBoxNodeDomains : List Text := uniqueSingBoxRuleDomains ops plan.nodeDomains []

/-- The domains of advertisements in the rules. -/
def singBoxAdblockDomains : List Text :=
  uniqueSingBoxRuleDomains ops plan.adblockDomains (singBoxNodeDomains ops plan)

/-- The exceptions in the rules. -/
def singBoxExceptions : RouteMatch :=
  { plan.exceptions with
    domains := uniqueSingBoxRuleDomains ops plan.exceptions.domains
      (singBoxNodeDomains ops plan ++ singBoxAdblockDomains ops plan) }

/-- The rules before the exceptions. -/
def singBoxRulesBefore : List SingBoxRule :=
  [{ decision := none }, { protocol := ["dns".toList], decision := some .dns }] ++
  unlessEmpty (singBoxNodeDomains ops plan)
    { domain := singBoxNodeDomains ops plan, decision := some .direct } ++
  unlessEmpty (singBoxAdblockDomains ops plan)
    { domainSuffix := singBoxAdblockDomains ops plan, decision := some .reject } ++
  singBoxLANRules plan ++
  (if plan.individual then
    plan.customRoutes.flatMap fun custom => singBoxClientMatchRules custom.route custom.target
    else [])

/-- `buildSingBoxClientRules` -/
def singBoxRules : List SingBoxRule :=
  singBoxRulesBefore ops plan ++
  (if plan.individual then
    singBoxClientMatchRules (singBoxExceptions ops plan) plan.exceptionTarget else [])

/-- The rule decides, and it applies. -/
def SingBoxRule.decides (flow : Flow) (rule : SingBoxRule) : Bool :=
  rule.decision.isSome && rule.applies flow

/-- The decision of the rules, or the final one. -/
def singBoxDecision (flow : Flow) : Option Decision :=
  (firstDecision (SingBoxRule.decides flow) (fun rule => rule.decision.getD .dns)
    (singBoxRules ops plan)).or (some plan.defaultTarget.decision)

end

end SbGateway.ClientProfile
