import SbGateway.RuntimeConfig.FailClosed
import SbGateway.Lib.NetText

namespace SbGateway.RuntimeConfig

open Lib

/-!
# The loop rule of the node servers

The gateway's own connections to a node come back through the transparent inbound, so that the
servers of the nodes must leave directly before any client rule sees them.  `xrayNodeLoopRule`
puts names and addresses into one rule.  All fields of an Xray rule must match, so that with
servers of both kinds a flow has to go to the address of one server under the name of another.

* `pickRule_of_pass` — a rule that matches behind rules that do not is the one that is taken;
* `loopRule_matches_iff` — the loop rule matches a flow exactly if, of every kind of servers that
  there is, the flow goes to one;
* `loopRuled_iff` — the flows that take the loop rule to the WAN.
-/

/-! ### The rule that is taken -/

variable {env : Env} {xray : Xray} {selectable : List String} {flow : Flow} {xs : List XrayRule}

/-- The rule that is taken matches: a name is never resolved, as the last rule matches it. -/
theorem pickRule_matches (h : convertXrayRules env selectable rules = .ok xs)
    (hpick : pickRule xray resolve xs flow = some rule) :
    rule.matches xray flow flow.destination.addresses = true := by
  obtain ⟨converted, _, hxs⟩ := bind_eq_ok h
  cases hxs
  unfold pickRule at hpick
  split at hpick
  · next found hfind =>
    cases hpick
    exact List.find?_some hfind
  · next hfind =>
    have hlast := List.find?_eq_none.mp hfind blockRest (by simp)
    exact absurd (blockRest_matches flow _) hlast

/-- A rule without rule sets that matches is taken if no rule before it decides. -/
theorem pickRule_of_pass (h : convertXrayRules env selectable (before ++ rule :: after) = .ok xs)
    (hbefore : ∀ r ∈ before, decision env xray flow r = none)
    (hplain : rule.ruleSet = []) (htarget : rule.action.target = some target)
    (hmatch : (convertXrayRuleConditions selectable target rule.conditions).matches xray flow
      flow.destination.addresses = true) (resolve : String → List Addr) :
    pickRule xray resolve xs flow =
      some (convertXrayRuleConditions selectable target rule.conditions) := by
  obtain ⟨converted, hconv, hxs⟩ := bind_eq_ok h
  cases hxs
  have hfind : converted.flatten.find?
      (XrayRule.matches xray flow flow.destination.addresses) =
        some (convertXrayRuleConditions selectable target rule.conditions) := by
    have hall := mapM_eq_ok hconv
    clear hconv h
    induction before generalizing converted with
    | nil =>
      obtain ⟨x, rest, hx, _, rfl⟩ := List.forall₂_cons_left_iff.mp hall
      unfold convertRule expand at hx
      rw [htarget, if_pos hplain] at hx
      cases hx
      simp [hmatch]
    | cons r more ih =>
      obtain ⟨x, rest, hx, hrest, rfl⟩ := List.forall₂_cons_left_iff.mp hall
      -- the rules of an undecided source rule do not match
      have hnone := findSome?_convertRule hx xray flow
      rw [hbefore r (List.mem_cons_self ..), Option.map_none, Option.map_eq_none_iff] at hnone
      rw [List.flatten_cons, List.find?_append, hnone]
      exact ih (fun r hr => hbefore r (List.mem_cons_of_mem _ hr)) rest hrest
  unfold pickRule
  rw [List.find?_append, hfind]
  rfl

/-! ### The loop rule -/

/-- Is the server of the node an address? -/
def Node.isLiteral (node : Node) : Bool := (parseAddr node.server).isSome

/-- The flow goes to the server of the node: to its address, or to its name. -/
def Node.ReachedBy (node : Node) (flow : Flow) : Prop :=
  match parseAddr node.server with
  | some address => flow.destination.address = some address
  | none => flow.destination.name = some node.server

/-- A flow of the transparent inbound to the server of a node, not to a DNS port. -/
structure NodeFlow (node : Node) (flow : Flow) : Prop where
  inbound_mem : flow.inbound ∈ localTransparentInbounds
  port_ne_53 : flow.port ≠ 53
  port_ne_853 : flow.port ≠ 853
  server_ne : node.server ≠ ""
  reached : node.ReachedBy flow

/-- The names among the servers of the nodes. -/
def loopDomains (nodes : List Node) : List String :=
  sortedUniqueStrings (((nodes.map Node.server).filter (fun server => server ≠ "")).filter
    fun server => (parseAddr server).isNone)

/-- The addresses among the servers of the nodes. -/
def loopAddresses (nodes : List Node) : List String :=
  sortedUniqueStrings (((nodes.map Node.server).filter (fun server => server ≠ "")).filterMap
    fun server => (parseAddr server).map fun address => (Prefix.single address).text)

/-- The source of the loop rule. -/
def loopSource (nodes : List Node) : SourceRule :=
  { SourceRule.always (.route "direct-wan") with
    inbound := localTransparentInbounds
    domain := loopDomains nodes
    ipCIDR := loopAddresses nodes }

/-- The loop rule as Xray gets it. -/
def loopRule (selectable : List String) (nodes : List Node) : XrayRule :=
  convertXrayRuleConditions selectable "direct-wan" (loopSource nodes).conditions

theorem mem_loopDomains : name ∈ loopDomains nodes ↔
      ∃ node ∈ nodes, node.server = name ∧ name ≠ "" ∧ node.isLiteral = false := by
  simp only [loopDomains, mem_sortedUniqueStrings, List.mem_filter, List.mem_map, Node.isLiteral]
  constructor
  · rintro ⟨⟨⟨⟨node, hnode, rfl⟩, _⟩, hname⟩, hne⟩
    exact ⟨node, hnode, rfl, hne, by simpa using hname⟩
  · rintro ⟨node, hnode, rfl, hne, hname⟩
    exact ⟨⟨⟨⟨node, hnode, rfl⟩, by simpa using hne⟩, by simpa using hname⟩, hne⟩

theorem prefixText_ne_empty (p : Prefix) : p.text ≠ "" := by
  intro h
  have hread := parsePrefix_text p
  rw [h] at hread
  cases hread

theorem mem_loopAddresses : entry ∈ loopAddresses nodes ↔ ∃ node ∈ nodes, node.server ≠ "" ∧
      ∃ address, parseAddr node.server = some address ∧ (Prefix.single address).text = entry := by
  simp only [loopAddresses, mem_sortedUniqueStrings, List.mem_filterMap, List.mem_filter,
    List.mem_map, Option.map_eq_some_iff]
  constructor
  · rintro ⟨⟨server, ⟨⟨node, hnode, rfl⟩, hne⟩, address, haddress, rfl⟩, _⟩
    exact ⟨node, hnode, by simpa using hne, address, haddress, rfl⟩
  · rintro ⟨node, hnode, hne, address, haddress, rfl⟩
    exact ⟨⟨node.server, ⟨⟨node, hnode, rfl⟩, by simpa using hne⟩, address, haddress, rfl⟩,
      prefixText_ne_empty _⟩

/-- Without names, all servers are addresses. -/
theorem loopDomains_eq_nil : loopDomains nodes = [] ↔
      ∀ node ∈ nodes, node.server ≠ "" → node.isLiteral = true := by
  simp only [List.eq_nil_iff_forall_not_mem, mem_loopDomains]
  constructor
  · intro hnil node hnode hne
    by_contra hkind
    exact hnil node.server ⟨node, hnode, rfl, hne, by simpa using hkind⟩
  · rintro hall name ⟨node, hnode, rfl, hne, hkind⟩
    exact absurd (hall node hnode hne) (by simp [hkind])

/-- Without addresses, all servers are names. -/
theorem loopAddresses_eq_nil : loopAddresses nodes = [] ↔
      ∀ node ∈ nodes, node.server ≠ "" → node.isLiteral = false := by
  simp only [List.eq_nil_iff_forall_not_mem, mem_loopAddresses, Node.isLiteral]
  constructor
  · intro hnil node hnode hne
    cases hparse : parseAddr node.server with
    | none => rfl
    | some address => exact absurd ⟨node, hnode, hne, address, hparse, rfl⟩ (hnil _)
  · rintro hall entry ⟨node, hnode, hne, address, haddress, _⟩
    exact absurd (hall node hnode hne) (by simp [haddress])

/-- Of every kind of servers that there is, addresses or names, the flow goes to one. -/
def EachKind (nodes : List Node) (flow : Flow) : Prop :=
  ∀ other ∈ nodes, other.server ≠ "" →
    ∃ node ∈ nodes, node.server ≠ "" ∧ node.isLiteral = other.isLiteral ∧ node.ReachedBy flow

/-- The entry of an address matches this address only. -/
theorem ipMatches_single (xray : Xray) (address a : Addr) :
    ipMatches xray (Prefix.single address).text a = true ↔ a = address := by
  unfold ipMatches
  rw [parsePrefix_text]
  refine ⟨fun h => (Prefix.eq_of_contains rfl h).symm, ?_⟩
  rintro rfl
  exact Prefix.single_contains_self a

/-- The loop rule lists the address of a flow exactly if a server has it. -/
theorem listed_loopAddresses : listed xray flow (loopAddresses nodes) = true ↔
    ∃ node ∈ nodes, node.server ≠ "" ∧ node.isLiteral = true ∧ node.ReachedBy flow := by
  simp only [listed_iff, mem_loopAddresses, Destination.addresses, Option.mem_toList,
    Node.isLiteral, Node.ReachedBy]
  constructor
  · rintro ⟨_, ⟨node, hnode, hne, address, hparse, rfl⟩, a, ha, hmatch⟩
    rw [ipMatches_single] at hmatch
    exact ⟨node, hnode, hne, by simp [hparse], by simpa [hparse, hmatch] using ha⟩
  · rintro ⟨node, hnode, hne, hkind, hreached⟩
    obtain ⟨address, hparse⟩ := Option.isSome_iff_exists.mp hkind
    rw [hparse] at hreached
    exact ⟨_, ⟨node, hnode, hne, address, hparse, rfl⟩, address, hreached,
      (ipMatches_single xray address address).mpr rfl⟩

/-- The loop rule lists the name of a flow exactly if a server has it. -/
theorem satisfies_loopDomains :
    flow.destination.satisfies xray ((loopDomains nodes).map .full) = true ↔
      ∃ node ∈ nodes, node.server ≠ "" ∧ node.isLiteral = false ∧ node.ReachedBy flow := by
  have hname : ∀ node : Node, node.isLiteral = false →
      (node.ReachedBy flow ↔ flow.destination.name = some node.server) := by
    intro node hkind
    have hparse : parseAddr node.server = none := by simpa [Node.isLiteral] using hkind
    simp [Node.ReachedBy, hparse]
  simp only [Destination.satisfies, Option.any_eq_true, List.any_map, List.any_eq_true,
    Function.comp_apply, DomainCondition.matches, beq_iff_eq, mem_loopDomains]
  constructor
  · rintro ⟨_, hflow, _, ⟨node, hnode, rfl, hne, hkind⟩, rfl⟩
    exact ⟨node, hnode, hne, hkind, (hname node hkind).mpr hflow⟩
  · rintro ⟨node, hnode, hne, hkind, hreached⟩
    exact ⟨_, (hname node hkind).mp hreached, _, ⟨node, hnode, rfl, hne, hkind⟩, rfl⟩

/-- Only the names and the addresses of the loop rule restrict a flow of the transparent
    inbound. -/
theorem loopRule_matches (selectable : List String)
    (hin : flow.inbound ∈ localTransparentInbounds) :
    (loopRule selectable nodes).matches xray flow flow.destination.addresses = true ↔
      (loopAddresses nodes = [] ∨ listed xray flow (loopAddresses nodes) = true) ∧
      (loopDomains nodes = [] ∨
        flow.destination.satisfies xray ((loopDomains nodes).map .full) = true) := by
  have hip : (loopRule selectable nodes).ip = loopAddresses nodes := List.append_nil _
  have hdomain : (loopRule selectable nodes).domain = (loopDomains nodes).map .full := by
    simp [loopRule, convertXrayRuleConditions, Conditions.domains, SourceRule.conditions,
      loopSource, SourceRule.always]
  rw [XrayRule.matches_iff]
  constructor
  · intro hm
    have hips := hm.ip
    have hdomains := hm.domain
    rw [hip] at hips
    rw [hdomain, List.map_eq_nil_iff] at hdomains
    exact ⟨by simpa [listed] using hips, hdomains⟩
  · rintro ⟨hips, hdomains⟩
    refine ⟨.inr hin, .inl rfl, ?_, .inl rfl, .inl rfl, ?_, .inl rfl, .inl rfl⟩
    · rw [hip]
      simpa [listed] using hips
    · rw [hdomain, List.map_eq_nil_iff]
      exact hdomains

/-- The loop rule matches a flow exactly if it goes to a server of each kind that there is. -/
theorem loopRule_matches_iff (selectable : List String)
    (hin : flow.inbound ∈ localTransparentInbounds) :
    (loopRule selectable nodes).matches xray flow flow.destination.addresses = true ↔
      EachKind nodes flow := by
  rw [loopRule_matches selectable hin, listed_loopAddresses, satisfies_loopDomains,
    loopAddresses_eq_nil, loopDomains_eq_nil]
  constructor
  · rintro ⟨haddresses, hnames⟩ other hother hne
    cases hkind : other.isLiteral with
    | true => exact haddresses.resolve_left fun hall => by simp [hall other hother hne] at hkind
    | false => exact hnames.resolve_left fun hall => by simp [hall other hother hne] at hkind
  · intro heach
    -- a server of the kind asks for one of the kind that the flow goes to
    constructor
    · by_contra hnot
      rw [not_or] at hnot
      refine hnot.1 fun other hother hne => Bool.eq_false_iff.mpr fun hkind => hnot.2 ?_
      exact hkind ▸ heach other hother hne
    · by_contra hnot
      rw [not_or] at hnot
      refine hnot.1 fun other hother hne => Bool.not_eq_false _ ▸ fun hkind => hnot.2 ?_
      exact hkind ▸ heach other hother hne

theorem xrayNodeLoopRule_eq (hnode : node ∈ nodes) (hne : node.server ≠ "") :
    xrayNodeLoopRule nodes = [loopSource nodes] := by
  have hsome : ¬ (loopDomains nodes = [] ∧ loopAddresses nodes = []) := by
    rintro ⟨hdomains, haddresses⟩
    have hname := loopAddresses_eq_nil.mp haddresses node hnode hne
    rw [loopDomains_eq_nil.mp hdomains node hnode hne] at hname
    cases hname
  exact if_neg hsome

/-! ### The flows of the transparent inbound -/

/-- The flow takes the loop rule, and the loop rule leads to the WAN. -/
def LoopRuled (xray : Xray) (resolve : String → List Addr) (selectable : List String)
    (nodes : List Node) (xs : List XrayRule) (flow : Flow) : Prop :=
  pickRule xray resolve xs flow = some (loopRule selectable nodes) ∧
    (loopRule selectable nodes).exit = .outbound "direct-wan"

/-- The source rules start with those of the service inbounds and the loop rule. -/
theorem buildXrayRouteSource_split
    (h : buildXrayRouteSource env config nodes outbounds = .ok rules) :
    ∃ rest, rules = serviceInboundRules config nodes (availableExits env config nodes outbounds) ++
      (xrayNodeLoopRule nodes ++ rest) := by
  obtain ⟨management, _, h⟩ := bind_eq_ok h
  obtain ⟨grants, _, h⟩ := bind_eq_ok h
  simp only at h
  split at h
  · cases h
  · obtain ⟨users, _, h⟩ := bind_eq_ok h
    obtain ⟨clients, _, h⟩ := bind_eq_ok h
    cases h
    simp only [List.append_assoc]
    exact ⟨_, rfl⟩

/-- Flows of the transparent inbound pass the rules of the service inbounds. -/
theorem NodeFlow.pass (hflow : NodeFlow node flow) (nodes : List Node) (available : List String) :
    ∀ rule ∈ serviceInboundRules config nodes available, decision env xray flow rule = none := by
  have hin : flow.inbound = "tun-routeros" := List.mem_singleton.mp hflow.inbound_mem
  apply serviceInboundRules_pass_of_notMem nodes available
  · rw [hin]
    decide
  · rw [hin]
    intro hlane
    exact absurd (head_of_mem_lanes hlane) (by decide)
  · exact hflow.port_ne_853

/-- **No loop.** A flow to the server of a node takes the loop rule to the WAN exactly if it goes to
    a server of each kind that there is, names or addresses, and the WAN is no selector. -/
theorem loopRuled_iff {env : Env} {config : Config} {nodes : List Node} {node : Node}
    {outbounds selectable : List String} {xs : List XrayRule} {flow : Flow} {xray : Xray}
    (h : renderRoutes env config nodes outbounds selectable = .ok xs) (hnode : node ∈ nodes)
    (hflow : NodeFlow node flow) (resolve : String → List Addr) :
    LoopRuled xray resolve selectable nodes xs flow ↔
      EachKind nodes flow ∧ "direct-wan" ∉ selectable := by
  obtain ⟨rules, hrules, hxs⟩ := bind_eq_ok h
  have hexit : (loopRule selectable nodes).exit = .outbound "direct-wan" ↔
      "direct-wan" ∉ selectable := by
    show exitOf selectable "direct-wan" = _ ↔ _
    unfold exitOf
    by_cases hmem : "direct-wan" ∈ selectable <;> simp [hmem]
  unfold LoopRuled
  rw [hexit, and_congr_left_iff]
  intro _
  constructor
  · intro hpick
    exact (loopRule_matches_iff selectable hflow.inbound_mem).mp (pickRule_matches hxs hpick)
  · intro hkind
    obtain ⟨rest, rfl⟩ := buildXrayRouteSource_split hrules
    rw [xrayNodeLoopRule_eq hnode hflow.server_ne] at hxs
    have hmatch : (loopRule selectable nodes).matches xray flow flow.destination.addresses = true :=
      (loopRule_matches_iff selectable hflow.inbound_mem).mpr hkind
    exact pickRule_of_pass hxs (hflow.pass nodes _) rfl rfl hmatch resolve

/-- A node with the id and server given. -/
def plainNode (id server : String) : Node where
  enabled := true
  id := id
  protocol := "vless"
  server := server
  subscriptionReserveID := ""
  attributes := []

def domainNode : Node := plainNode "domain-node" "edge.example"

def addressNode : Node := plainNode "ip-node" "203.0.113.7"

def mixedNodes : List Node := [domainNode, addressNode]

/-- A local client whose traffic goes through the node with the name. -/
def loopClient : Client :=
  { bareEntity "desk" "" with
    sourceKind := ""
    sourceScope := ""
    sourceCIDRs := ["192.168.88.10/32"]
    final := "domain-node" }

def loopConfig : Config := { bareConfig with localClients := [loopClient] }

/-- A connection of the client's address. -/
def clientFlow (destination : Destination) : Flow where
  inbound := "tun-routeros"
  user := none
  source := .v4 0xc0a8580a
  network := .tcp
  port := 443
  destination := destination
  protocol := none

/-- A connection to 198.51.100.9 in which sniffing finds the name of a node's server. -/
def namedFlow : Flow := clientFlow ⟨some (.v4 0xc6336409), some "edge.example", rfl⟩

/-- A connection to 203.0.113.7 without a name. -/
def addressedFlow : Flow := clientFlow ⟨some (.v4 0xcb007107), none, rfl⟩

theorem namedFlow_nodeFlow : NodeFlow domainNode namedFlow where
  inbound_mem := List.mem_singleton.mpr rfl
  port_ne_53 := by decide
  port_ne_853 := by decide
  server_ne := by decide
  reached := by
    have hname : parseAddr domainNode.server = none := by decide
    rw [Node.ReachedBy, hname]
    rfl

theorem addressedFlow_nodeFlow : NodeFlow addressNode addressedFlow where
  inbound_mem := List.mem_singleton.mpr rfl
  port_ne_53 := by decide
  port_ne_853 := by decide
  server_ne := by decide
  reached := by
    have haddress : parseAddr addressNode.server = some (.v4 0xcb007107) := by decide
    rw [Node.ReachedBy, haddress]
    rfl

/-- The rules of the nodes given, without selectors. -/
def loopRules (nodes : List Node) : List XrayRule :=
  ((renderRoutes bareEnv loopConfig nodes ["direct-wan", "block", "domain-node"] []).toOption).getD
    []

/-- A flow that leaves through a node does not take the loop rule to the WAN. -/
theorem not_loopRuled_of_exit {nodes : List Node}
    (hexit : routeExit bareXray (fun _ => []) xs flow = some (.outbound "domain-node")) :
    ¬ LoopRuled bareXray (fun _ => []) [] nodes xs flow := by
  rintro ⟨hpick, hwan⟩
  unfold routeExit at hexit
  rw [hpick, Option.map_some, hwan] at hexit
  exact absurd hexit (by decide)

/-- With servers of both kinds the loop rule matches neither flow, and the connection to a node's
    server goes back into the node. -/
theorem mixed_not_loopRuled :
    renderRoutes bareEnv loopConfig mixedNodes ["direct-wan", "block", "domain-node"] [] =
        .ok (loopRules mixedNodes) ∧
      ∀ p ∈ [(domainNode, namedFlow), (addressNode, addressedFlow)],
        p.1 ∈ mixedNodes ∧ NodeFlow p.1 p.2 ∧
        routeExit bareXray (fun _ => []) (loopRules mixedNodes) p.2 =
          some (.outbound "domain-node") ∧
        ¬ LoopRuled bareXray (fun _ => []) [] mixedNodes (loopRules mixedNodes) p.2 := by
  refine ⟨by decide +kernel, ?_⟩
  simp only [List.forall_mem_cons, List.not_mem_nil, false_implies, implies_true, and_true]
  have hnamed : routeExit bareXray (fun _ => []) (loopRules mixedNodes) namedFlow =
      some (.outbound "domain-node") := by decide +kernel
  have haddressed : routeExit bareXray (fun _ => []) (loopRules mixedNodes) addressedFlow =
      some (.outbound "domain-node") := by decide +kernel
  exact ⟨⟨by simp [mixedNodes], namedFlow_nodeFlow, hnamed, not_loopRuled_of_exit hnamed⟩,
    by simp [mixedNodes], addressedFlow_nodeFlow, haddressed, not_loopRuled_of_exit haddressed⟩

/-- With names only, the name of a node's server leaves through the WAN. -/
theorem named_loopRuled :
    LoopRuled bareXray (fun _ => []) [] [domainNode] (loopRules [domainNode]) namedFlow := by
  have hrules : renderRoutes bareEnv loopConfig [domainNode]
      ["direct-wan", "block", "domain-node"] [] = .ok (loopRules [domainNode]) := by
    decide +kernel
  refine (loopRuled_iff hrules (List.mem_cons_self ..) namedFlow_nodeFlow _).mpr ⟨?_, by simp⟩
  intro other hother hne
  rw [List.mem_singleton.mp hother] at hne ⊢
  exact ⟨domainNode, List.mem_cons_self .., hne, rfl, namedFlow_nodeFlow.reached⟩

end SbGateway.RuntimeConfig
