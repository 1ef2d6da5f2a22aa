import SbGateway.RuntimeConfig.Config

namespace SbGateway.RuntimeConfig

open Lib

/-!
# The ordered routing rules (`internal/runtimeconfig/xray_source_route.go`)

`buildXrayRouteSource` renders the configuration into one ordered list of rules: DNS and probe
rules, the grants of trusted remote users, the blocks that protect the LAN, the routes of every
remote user and, at the end, those of the local clients.

The exits a rule may name are the tags of the rendered outbounds; `availableExits` takes out the
selectors of policies whose selection is empty.
-/

/-! ### Rules -/

/-- The action of a source rule. -/
inductive Action where
  | sniff
  | hijackDNS
  | reject
  | route (outbound : String)
  deriving DecidableEq

/-- The `port` field of a source rule, with the Go type it is stored as. -/
inductive PortField where
  | absent
  | int (port : ℕ)
  | ints (ports : List ℕ)
  | text (ports : String)

/-- A routing rule; an empty list is an absent field. -/
structure SourceRule where
  action : Action
  inbound : List String
  authUser : List String
  ipCIDR : List String
  sourceIPCIDR : List String
  protocol : List String
  domain : List String
  domainSuffix : List String
  network : List String
  port : PortField
  ipVersion : Option ℕ
  /-- The services whose rule sets the rule refers to. -/
  ruleSet : List String

/-- A rule without conditions. -/
def SourceRule.always (action : Action) : SourceRule where
  action := action
  inbound := []
  authUser := []
  ipCIDR := []
  sourceIPCIDR := []
  protocol := []
  domain := []
  domainSuffix := []
  network := []
  port := .absent
  ipVersion := none
  ruleSet := []

/-! ### Constants -/

/-- `xrayPrivateDestinations`. -/
def xrayPrivateDestinations : List String :=
  ["0.0.0.0/8", "10.0.0.0/8", "100.64.0.0/10", "127.0.0.0/8", "169.254.0.0/16", "172.16.0.0/12",
    "192.0.0.0/24", "192.168.0.0/16", "198.18.0.0/15", "224.0.0.0/4", "240.0.0.0/4", "::/128",
    "::1/128", "fc00::/7", "fe80::/10", "ff00::/8"]

/-- `trustedFullIPv4Destinations`. -/
def trustedFullIPv4Destinations : List String := ["10.0.0.0/8", "172.16.0.0/12", "192.168.0.0/16"]

/-- `localTransparentInbounds`. -/
def localTransparentInbounds : List String := ["tun-routeros"]

/-- The inbounds of remote users, without the one that depends on the configuration. -/
def baseRemoteInbounds : List String :=
  ["vless-ws", "vless-grpc", "vless-httpupgrade", "vless-xhttp", "vless-reality",
    "vless-reality-grpc", "vless-grpc-tls-pin", "hysteria2-direct"]

/-- `remoteInbounds`. -/
def remoteInbounds (config : Config) : List String :=
  baseRemoteInbounds ++
    if config.transports.any (fun t => t.enabled && t.kind == "xhttp-reality") then
      ["vless-xhttp-reality"]
    else []

/-- `managedInbounds`. -/
def managedInbounds (config : Config) : List String := "tun-routeros" :: remoteInbounds config

/-! ### Exits -/

/-- `healthProbeInventoryCount`. -/
def healthProbeInventoryCount (nodes : List Node) : ℕ :=
  (unique (((nodes.filter fun node => node.enabled && node.subscriptionReserveID == "").map
    Node.id).filter fun id => id ≠ "" ∧ id ≠ "block" ∧ id ≠ "direct-wan")).length

/-- The tags of `xrayHealthProbeLanesForConfig`. -/
def healthProbeLaneTags (config : Config) (candidateCount : ℕ) : List String :=
  "outbound-health-probe" ::
    (List.range (min config.probeBatch (max 1 candidateCount))).map fun i =>
      if i = 0 then "outbound-health-background"
      else "outbound-health-background-" ++ toString (i + 1)

/-- `selectableNonDirect`. -/
def selectableNonDirect (value : String) (available : List String) : Bool :=
  value != "" && value != "direct" && value != "direct-wan" && value != "block" &&
    available.contains value

/-- `selectableOrBlock`. -/
def selectableOrBlock (value : String) (available : List String) : String :=
  if selectableNonDirect value available then value else "block"

/-- The nodes a selection may use: enabled, no subscription reserve, and rendered. -/
def selectableNodes (nodes : List Node) (outbounds : List String) : List Node :=
  nodes.filter fun node =>
    node.enabled && node.subscriptionReserveID == "" && outbounds.contains node.id && node.id != ""

section Env

variable (env : Env)

/-- The selectors that an empty selection takes out of use. -/
def withdrawnSelectors (config : Config) (nodes : List Node) (outbounds : List String) :
    List String :=
  (config.enabledPolicies.filter fun policy =>
      decide (policyCandidateGroups env policy (selectableNodes nodes outbounds) = [])).flatMap
    fun policy => policy.id ::
      (candidateServiceIDs env policy).map (policyServiceSelectorTag env policy.id)

/-- The exits that rules may name, from the tags of the rendered outbounds. -/
def availableExits (config : Config) (nodes : List Node) (outbounds : List String) : List String :=
  outbounds.filter fun tag => tag ≠ "" ∧ tag ∉ withdrawnSelectors env config nodes outbounds

/-! ### Routes of a user or a client -/

section

variable (forceTCP : Bool) (identity : SourceRule) (entity : Entity) (policy : Option Policy)
  (available : List String)

/-- The rules of one service card: the sniffed protocols, the forced TCP, the rule sets. -/
def serviceRules (canonical outbound : String) : List SourceRule :=
  let protocols := serviceSniffedProtocols env.catalog canonical
  let sets := serviceRuleSetIDs env.catalog canonical
  (if protocols = [] then []
    else [{ identity with protocol := protocols, action := .route outbound }]) ++
  (if forceTCP then
      [{ identity with ruleSet := sets, network := ["udp"], port := .int 443, action := .reject }]
    else []) ++
  [{ identity with ruleSet := sets, action := .route outbound }]

/-- The protocols of a custom route. -/
def customProtocols (route : CustomRoute) : List String :=
  let protocols := env.trimSpace route.protocols
  if protocols = "" then [] else splitText ',' protocols

/-- The conditions of a custom route: the rule, and the value that must not be empty. -/
def customConditions (route : CustomRoute) : Except String (SourceRule × String) :=
  let value := env.trimSpace route.value
  if route.kind = "domain" then
    .ok ({ identity with
      domainSuffix := [env.toLower value]
      protocol := customProtocols env route }, value)
  else if route.kind = "ip" then
    match parseAddr value with
    | some address =>
      .ok ({ identity with
        ipCIDR := [(Prefix.single address).text]
        protocol := customProtocols env route }, (Prefix.single address).text)
    | none =>
      if (parsePrefix value).isSome then
        .ok ({ identity with
          ipCIDR := [value]
          protocol := customProtocols env route }, value)
      else .error ("invalid custom route IP " ++ quoted value)
  else if route.kind = "port" then
    if route.network ≠ "tcp" ∧ route.network ≠ "udp" then
      .error "custom port route needs TCP or UDP"
    else .ok ({ identity with network := [route.network], port := .text value }, value)
  else .error ("unsupported custom route kind " ++ quoted route.kind)

/-- The exit of a custom route. -/
def customTarget (route : CustomRoute) (policyID : String) (available : List String) :
    Except String String :=
  if route.target = "wan" then .ok "direct-wan"
  else if route.target = "vless" then .ok (selectableOrBlock policyID available)
  else .error "custom route target must be WAN or VLESS"

/-- The rule of a custom route. -/
def customRule (policyID : String) (available : List String)
    (route : CustomRoute) : Except String SourceRule := do
  let (rule, value) ← customConditions env identity route
  match rule.protocol.find? (fun p => p ≠ "http" ∧ p ≠ "tls" ∧ p ≠ "quic") with
  | some protocol => throw ("invalid custom route protocol " ++ quoted protocol)
  | none =>
    if value = "" then throw "custom route value cannot be empty"
    else
      let outbound ← customTarget route policyID available
      return { rule with action := .route outbound }

/-- The rules of the service cards that a priority policy steers by itself. -/
def candidateServiceRules (policy : Policy)
    (available : List String) : Except String (List SourceRule) :=
  if policy.mode = "priority" then do
    let rules ← (candidateServiceIDs env policy).mapM fun serviceID =>
      let selector := policyServiceSelectorTag env policy.id serviceID
      if available.contains selector then do
        let canonical ← canonicalServiceID env serviceID
        return serviceRules env forceTCP identity canonical selector
      else .ok []
    return rules.flatten
  else .ok []

/-- The exit of a service route. -/
def serviceRouteExit (outbound : String) (available : List String) : String :=
  if !available.contains outbound || outbound == "direct-wan" then "block" else outbound

/-- The rules of one explicit service route; a card that is always direct is left out. -/
def serviceRouteRules (name outbound : String) : Except String (List SourceRule) := do
  let canonical ← canonicalServiceID env name
  let direct := ((env.catalog.byID canonical).map ServicePack.alwaysDirect).getD false
  if direct && ((policy.bind Policy.torrentDirect).getD true) then return []
  else return serviceRules env forceTCP identity canonical (serviceRouteExit outbound available)

/-- The service routes of the policy and the entity, which wins, sorted by name. -/
def serviceRouteTable : List (String × String) :=
  let routes := entity.serviceRoutes ∪ ((policy.map Policy.serviceRoutes).getD ∅)
  (sortStrings routes.keys).map fun name => (name, (routes.lookup name).getD "")

/-- The rule of the direct domains. -/
def directDomainRules : List SourceRule :=
  let domains := directDomains env entity policy
  if domains = [] then []
  else
    let outbound :=
      if (policy.map Policy.trafficMode).getD "" = "wan_with_vless_exceptions" then
        selectableOrBlock ((policy.map Policy.id).getD "") available
      else "direct-wan"
    [{ identity with domainSuffix := domains, action := .route outbound }]

/-- The rules that both kinds of entities have: custom routes, steered services, direct services,
    direct domains and service routes, in this order. -/
def settingRules : Except String (List SourceRule) := do
  let custom ← ((policy.map Policy.customRoutes).getD []).mapM
    (customRule env identity ((policy.map Policy.id).getD "") available)
  let steered ← policy.elim (.ok []) (candidateServiceRules env forceTCP identity · available)
  let direct ← directServices env entity policy
  let directRules ← direct.mapM fun serviceID => do
    let canonical ← canonicalServiceID env serviceID
    return serviceRules env forceTCP identity canonical "direct-wan"
  let routed ← (serviceRouteTable entity policy).mapM fun (name, outbound) =>
    serviceRouteRules env forceTCP identity policy available name outbound
  return custom ++ steered ++ directRules.flatten ++
    directDomainRules env identity entity policy available ++ routed.flatten

/-- The exit of a remote user's traffic that no setting decides. -/
def remoteFinal : String :=
  match policy with
  | none => "block"
  | some p =>
    if p.trafficMode = "wan_with_vless_exceptions" then "direct-wan"
    else selectableOrBlock p.id available

/-- `final` of a local client. -/
def localFinal : String :=
  if entity.final ≠ "" then entity.final
  else match policy with
    | none => ""
    | some p => if p.trafficMode = "vless_with_wan_exceptions" then p.id else p.final

/-- The last rule of a local client: none if its traffic falls through to the WAN. -/
def localFinalRules : List SourceRule :=
  let final := localFinal entity policy
  if final = "" ∨ final = "direct" ∨ final = "direct-wan" then []
  else [{ identity with action := .route (selectableOrBlock final available) }]

end

/-! ### Remote users -/

section

variable (config : Config) (available : List String)

/-- The identity of a remote user's rules. -/
def userIdentity (user : User) : SourceRule :=
  { SourceRule.always .sniff with inbound := remoteInbounds config, authUser := [user.id] }

/-- `integerSlice` of the allowed ports. -/
def integerSlice (ports : List (Option ℤ)) : Except String (List ℕ) :=
  ports.mapM fun port =>
    match port with
    | none => .error "must be an integer"
    | some n =>
      if n < 1 ∨ 65535 < n then .error "port must be between 1 and 65535" else .ok n.toNat

/-- `trustedFullNetworks`. -/
def trustedFullNetworks : List String :=
  sortedUniqueStrings (enabledInternalCIDRs config ++ trustedFullIPv4Destinations)

/-- The address of a prefix as a prefix of its own. -/
def hostPrefix (field value : String) : Except String (List String) :=
  if value = "" then .ok []
  else match parsePrefix value with
    | some p => .ok [(Prefix.single p.addr).text]
    | none => .error ("system.networking." ++ field ++ " is invalid")

/-- `xrayManagementTargets`. -/
def xrayManagementTargets : Except String (List String) := do
  let gateway ←
    if config.routerosGateway = "" then .ok []
    else match parseAddr config.routerosGateway with
      | some address => .ok [(Prefix.single address).text]
      | none => .error "system.networking.routeros_gateway is invalid"
  let container ← hostPrefix "container_address" config.containerAddress
  let tun ← hostPrefix "tun_address" config.tunAddress
  return sortedUniqueStrings
    (["127.0.0.0/8", "::1/128"] ++ config.routerAddresses ++ gateway ++ container ++ tun)

/-- The CIDRs a limited trusted user may reach. -/
def allowedCIDRs (user : User) : List String :=
  sortedUniqueStrings (user.allowedCIDRs ++ user.allowedNetworkIDs.flatMap config.networkByID)

/-- The grants of a trusted user. -/
def grantRules (management : List String) (user : User) : Except String (List SourceRule) :=
  let grant (targets : List String) : List SourceRule :=
    if targets = [] then []
    else [{ userIdentity config user with ipCIDR := targets, action := .route "direct-wan" }]
  let role := textDefault user.role "limited"
  if role = "trusted-full" then
    .ok (grant (trustedFullNetworks config) ++ grant management)
  else if role = "trusted-limited" then
    if allowedCIDRs config user = [] then .ok []
    else match integerSlice user.allowedPorts with
      | .error e => .error ("remote user " ++ quoted user.id ++ " allowed ports: " ++ e)
      | .ok ports =>
        .ok ((grant (allowedCIDRs config user)).map fun rule =>
          { rule with port := if ports = [] then .absent else .ints ports })
  else .ok []

/-- The rules that keep remote users out of the router and the LAN. -/
def protectionRules (management : List String) : List SourceRule :=
  (if management = [] ∨ config.allowRouterManagement.getD false = true then []
    else [{ SourceRule.always .reject with
      inbound := remoteInbounds config
      ipCIDR := management }]) ++
  (if trustedFullNetworks config = [] then []
    else [{ SourceRule.always (.route "block") with
      inbound := remoteInbounds config
      ipCIDR := trustedFullNetworks config }])

/-- The rule for IPv6 literals of a remote user. -/
def ipv6Rule (user : User) : SourceRule :=
  { userIdentity config user with
    ipVersion := some 6
    action :=
      if textDefault config.remoteIPv6Mode "proxy_only" = "proxy_only" ∧
          selectableNonDirect user.policyID available = true then .route user.policyID
      else .reject }

/-- The rules of a remote user. -/
def userRules (user : User) : Except String (List SourceRule) :=
  let policy := config.policyByID user.policyID
  match settingRules env (config.forceTCPForProxyServices.getD false) (userIdentity config user)
      user.toEntity policy available with
  | .error e => .error ("remote user " ++ quoted user.id ++ " routing: " ++ e)
  | .ok rules =>
    .ok (ipv6Rule config available user :: rules ++
      [{ userIdentity config user with action := .route (remoteFinal policy available) }])

/-! ### Local clients -/

/-- The identity of a local client's rules. -/
def clientIdentity (client : Client) : SourceRule :=
  { SourceRule.always .sniff with
    inbound := localTransparentInbounds
    sourceIPCIDR := client.sourceCIDRs }

/-- The rules of a local client. -/
def clientRules (client : Client) : Except String (List SourceRule) :=
  let policy := config.policyByID client.policyID
  match settingRules env (config.forceTCPForProxyServices.getD false) (clientIdentity client)
      client.toEntity policy available with
  | .error e => .error ("local client " ++ quoted client.id ++ " routing: " ++ e)
  | .ok rules =>
    .ok (rules ++ localFinalRules (clientIdentity client) client.toEntity policy available)

/-! ### The whole list -/

/-- `xrayNodeLoopRule`: the servers of the nodes are reached directly. -/
def xrayNodeLoopRule (nodes : List Node) : List SourceRule :=
  let servers := (nodes.map Node.server).filter (fun server => server ≠ "")
  let domains := sortedUniqueStrings (servers.filter fun server => (parseAddr server).isNone)
  let addresses := sortedUniqueStrings (servers.filterMap fun server =>
    (parseAddr server).map fun address => (Prefix.single address).text)
  if domains = [] ∧ addresses = [] then []
  else [{ SourceRule.always (.route "direct-wan") with
    inbound := localTransparentInbounds
    domain := domains
    ipCIDR := addresses }]

/-- The rules before the remote users: sniffing, DNS, subscription updates and probes. -/
def serviceInboundRules (nodes : List Node) (available : List String) : List SourceRule :=
  let lanes := healthProbeLaneTags config (healthProbeInventoryCount nodes)
  [SourceRule.always .sniff,
    { SourceRule.always .hijackDNS with protocol := ["dns"] },
    { SourceRule.always .reject with
      inbound := ["subscription-update-direct", "subscription-update-vpn"] ++ lanes
      ipCIDR := xrayPrivateDestinations },
    { SourceRule.always (.route "direct-wan") with inbound := ["subscription-update-direct"] },
    { SourceRule.always (.route "subscription-update-egress") with
      inbound := ["subscription-update-vpn"] }] ++
  (lanes.filter fun lane => available.contains lane).map (fun lane =>
    { SourceRule.always (.route lane) with inbound := [lane] }) ++
  (if config.hijackManagedClients.getD true then
      [{ SourceRule.always .hijackDNS with
        inbound := managedInbounds config
        network := ["tcp", "udp"]
        port := .int 53 }]
    else []) ++
  (if config.strictDNS.getD true then
      [{ SourceRule.always .reject with
        inbound := managedInbounds config
        network := ["tcp"]
        port := .int 853 }]
    else [])

/-- The rules of the local clients and the last rules of both inbounds. -/
def closingRules (clients : List (List SourceRule)) : List SourceRule :=
  (if enabledInternalCIDRs config = [] then []
    else [{ SourceRule.always (.route "direct-wan") with
      inbound := localTransparentInbounds
      ipCIDR := enabledInternalCIDRs config }]) ++
  clients.flatten ++
  [{ SourceRule.always (.route "direct-wan") with inbound := localTransparentInbounds },
    { SourceRule.always (.route "block") with inbound := remoteInbounds config }]

/-- `BuildXrayRouteSource`; `outbounds` are the tags of the rendered outbounds. -/
def buildXrayRouteSource (nodes : List Node) (outbounds : List String) :
    Except String (List SourceRule) := do
  let available := availableExits env config nodes outbounds
  let management ← xrayManagementTargets config
  let grants ← config.enabledUsers.mapM (grantRules config management)
  let mode := textDefault config.remoteIPv6Mode "proxy_only"
  if mode ≠ "proxy_only" ∧ mode ≠ "disabled" then
    throw "system.networking.remote_ipv6_mode must be proxy_only or disabled"
  else
    let users ← config.enabledUsers.mapM (userRules env config available)
    let clients ← config.enabledLocalClientsSpecificFirst.mapM (clientRules env config available)
    return serviceInboundRules config nodes available ++ xrayNodeLoopRule nodes ++
      grants.flatten ++ protectionRules config management ++ users.flatten ++
      closingRules config clients

end

end Env

end SbGateway.RuntimeConfig
