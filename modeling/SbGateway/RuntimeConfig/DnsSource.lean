import SbGateway.RuntimeConfig.RouteSource

namespace SbGateway.RuntimeConfig

open Lib

/-!
# The DNS rules of the configuration (`internal/runtimeconfig/policy_dns_source.go`)

`buildPolicyDNSSource` renders the DNS servers and the ordered DNS rules: two rules for the
subscription updates, the internal zones, then the settings of every local client and of every
remote user.  A setting has the same conditions as the traffic rule of the same setting; its
target says which resolver answers.

The servers of `policyServer` are created when a rule first refers to them.  The rules therefore
hold targets, and the list of servers is read off them.
-/

/-! ### Servers -/

/-- The protocol of a DNS server. -/
inductive ServerType where
  | udp
  | https
  | tls
  deriving DecidableEq

/-- `PolicyDNSSourceServer`. -/
structure DnsServer where
  tag : String
  type : ServerType
  server : String
  detour : String
  serverPort : ℕ
  path : String
  serverName : String
  dotFallback : Bool
  deriving DecidableEq

/-- `publicDNSPresets`: provider, address and name. -/
def publicDNSPresets : List (String × String × String) :=
  [("cloudflare", "1.1.1.1", "cloudflare-dns.com"), ("google", "8.8.8.8", "dns.google"),
    ("yandex", "77.88.8.8", "common.dot.dns.yandex.net"), ("quad9", "9.9.9.9", "dns.quad9.net")]

/-- `dnsServerFromProfile`. -/
def dnsServerFromProfile (profile : ResolverProfile) (tag detour : String) :
    Except String DnsServer :=
  let provider := textDefault profile.provider "cloudflare"
  let protocol := textDefault profile.protocol "doh"
  match publicDNSPresets.lookup provider with
  | none => .error ("unsupported public DNS provider " ++ quoted provider)
  | some (server, serverName) =>
    if protocol = "doh" then
      .ok ⟨tag, .https, server, detour, 0, "/dns-query", serverName, false⟩
    else if protocol = "dot" then
      .ok ⟨tag, .tls, server, detour, 853, "", serverName, false⟩
    else .error ("unsupported public DNS protocol " ++ quoted protocol)

/-! ### Rules -/

/-- Who answers the queries of a rule. -/
inductive DnsTarget where
  | router
  | direct
  | updates
  | tunnel (outbound : String)
  | reject
  deriving DecidableEq

/-- The server of a target; a rejecting rule has none. -/
def DnsTarget.server : DnsTarget → String
  | .router => "routeros-dns"
  | .direct => "direct-public-dns"
  | .updates => "subscription-update-dns"
  | .tunnel outbound => "policy-dns-" ++ outbound
  | .reject => ""

/-- `PolicyDNSSourceRule`. -/
structure DnsRule where
  inbound : List String
  sourceCIDR : List String
  authUser : List String
  domain : List String
  domainSuffix : List String
  ruleSet : List String
  target : DnsTarget
  deriving DecidableEq

/-- A rule for all queries of an identity. -/
def DnsRule.always (inbound sourceCIDR authUser : List String) (target : DnsTarget) : DnsRule where
  inbound := inbound
  sourceCIDR := sourceCIDR
  authUser := authUser
  domain := []
  domainSuffix := []
  ruleSet := []
  target := target

/-- A selector answers through its tunnel; everything else is rejected. -/
def tunnelOrReject (outbound : String) (available : List String) : DnsTarget :=
  if selectableNonDirect outbound available then .tunnel outbound else .reject

section Env

variable (env : Env)

section

variable (identity : DnsRule) (entity : Entity) (policy : Option Policy) (available : List String)

/-- The rule of a custom domain route; other kinds have no name. -/
def customDNSRule (policyID : String) (available : List String)
    (route : CustomRoute) : Except String (List DnsRule) :=
  if route.kind ≠ "domain" then .ok []
  else
    let rule := { identity with domainSuffix := [env.toLower (env.trimSpace route.value)] }
    if route.target = "wan" then .ok [{ rule with target := .direct }]
    else if route.target = "vless" then
      .ok [{ rule with target := tunnelOrReject policyID available }]
    else .error "custom domain route target must be WAN or VLESS"

/-- The rule of a service card. -/
def serviceDNSRule (service : String) (target : DnsTarget) : DnsRule :=
  { identity with ruleSet := serviceRuleSetIDs env.catalog service, target := target }

/-- The rules of the service cards that a priority policy steers by itself. -/
def candidateServiceDNSRules (policy : Policy) (available : List String) : List DnsRule :=
  ((candidateServiceIDs env policy).filter fun service =>
      available.contains (policyServiceSelectorTag env policy.id service) &&
        policy.mode == "priority").map fun service =>
    serviceDNSRule env identity service (.tunnel (policyServiceSelectorTag env policy.id service))

/-- The rule of the direct domains. -/
def directDomainDNSRules : List DnsRule :=
  let domains := directDomains env entity policy
  if domains = [] then []
  else
    let target :=
      if (policy.map Policy.trafficMode).getD "" = "wan_with_vless_exceptions" then
        tunnelOrReject ((policy.map Policy.id).getD "") available
      else .direct
    [{ identity with domainSuffix := domains, target := target }]

/-- The target of a service route. -/
def serviceRouteTarget (outbound : String) (available : List String) : DnsTarget :=
  if selectableNonDirect outbound available then .tunnel outbound
  else if outbound = "direct-wan" then .direct
  else .reject

/-- The rule of one explicit service route; a card that is always direct is left out. -/
def serviceRouteDNSRules (name outbound : String) : Except String (List DnsRule) := do
  let canonical ← canonicalServiceID env name
  let direct := ((env.catalog.byID canonical).map ServicePack.alwaysDirect).getD false
  if direct && ((policy.bind Policy.torrentDirect).getD true) then return []
  else return [serviceDNSRule env identity canonical (serviceRouteTarget outbound available)]

/-- The rules that both kinds of entities have. -/
def settingDNSRules : Except String (List DnsRule) := do
  let custom ← ((policy.map Policy.customRoutes).getD []).mapM
    (customDNSRule env identity ((policy.map Policy.id).getD "") available)
  let steered := (policy.map fun p => candidateServiceDNSRules env identity p available).getD []
  let direct ← directServices env entity policy
  let routed ← (serviceRouteTable entity policy).mapM fun (name, outbound) =>
    serviceRouteDNSRules env identity policy available name outbound
  return custom.flatten ++ steered ++
    direct.map (fun service => serviceDNSRule env identity service .direct) ++
    directDomainDNSRules env identity entity policy available ++ routed.flatten

/-- The target of a remote user's names that no setting decides. -/
def remoteFinalTarget : DnsTarget :=
  match policy with
  | none => .reject
  | some p =>
    if p.trafficMode = "wan_with_vless_exceptions" then .direct
    else tunnelOrReject p.id available

/-- The last rule of a local client: none if the baseline stands. -/
def localFinalDNSRules : List DnsRule :=
  let final := textDefault (localFinal entity policy) "direct"
  if final = "direct" ∨ final = "direct-wan" then []
  else [{ identity with target := tunnelOrReject final available }]

end

/-- The identity of a local client's rules. -/
def clientDNSIdentity (client : Client) : DnsRule :=
  DnsRule.always localTransparentInbounds client.sourceCIDRs [] .direct

section

variable (config : Config) (available : List String)

/-- The rules of a local client: the baseline, the settings and the last rule. -/
def clientDNSRules (client : Client) : Except String (List DnsRule) := do
  let policy := config.policyByID client.policyID
  let settings ← settingDNSRules env (clientDNSIdentity client) client.toEntity policy available
  return clientDNSIdentity client :: settings ++
    localFinalDNSRules (clientDNSIdentity client) client.toEntity policy available

/-- The identity of a remote user's rules. -/
def userDNSIdentity (user : User) (target : DnsTarget) : DnsRule :=
  DnsRule.always [] [] [user.id] target

/-- The rules of a remote user: the settings and the last rule. -/
def userDNSRules (user : User) : Except String (List DnsRule) := do
  let policy := config.policyByID user.policyID
  let final := userDNSIdentity user (remoteFinalTarget policy available)
  let settings ← settingDNSRules env final user.toEntity policy available
  return settings ++ [final]

/-! ### The whole source -/

/-- The rules of the internal zones: remote users reach them if they are fully trusted. -/
def internalZoneRules : List DnsRule :=
  if config.internalZones = [] then []
  else
    { DnsRule.always localTransparentInbounds [] [] .router with
      domainSuffix := config.internalZones } ::
    config.enabledUsers.map fun user =>
      { userDNSIdentity user (if user.role = "trusted-full" then .router else .reject) with
        domainSuffix := config.internalZones }

/-- `PolicyDNSSource`. -/
structure DnsSource where
  servers : List DnsServer
  rules : List DnsRule
  final : String
  deriving DecidableEq

/-- The selectors that rules refer to, in the order in which they appear. -/
def tunnelOutbounds (rules : List DnsRule) : List String :=
  unique (rules.filterMap fun rule =>
    match rule.target with
    | .tunnel outbound => some outbound
    | _ => none)

/-- `BuildPolicyDNSSource`; `available` are the rendered selectors. -/
def buildPolicyDNSSource : Except String DnsSource := do
  let internalServer := env.trimSpace config.internalServer
  if (parseAddr internalServer).isNone then
    throw "dns.internal_server must be a valid IP address"
  else
    let direct ← dnsServerFromProfile config.directResolver "direct-public-dns" "direct-wan"
    let updates ← dnsServerFromProfile config.vpnResolver "subscription-update-dns"
      "subscription-update-egress"
    let clients ← config.enabledLocalClientsSpecificFirst.mapM (clientDNSRules env config available)
    let users ← config.enabledUsers.mapM (userDNSRules env config available)
    let rules :=
      [DnsRule.always ["subscription-update-direct"] [] [] .direct,
        DnsRule.always ["subscription-update-vpn"] [] [] .updates] ++
      internalZoneRules config ++ clients.flatten ++ users.flatten
    let tunnels ← (tunnelOutbounds rules).mapM fun outbound =>
      dnsServerFromProfile config.vpnResolver ("policy-dns-" ++ outbound) outbound
    return {
      servers :=
        [⟨"routeros-dns", .udp, internalServer, "direct-wan", 0, "", "", false⟩,
          { direct with dotFallback := true }, updates] ++ tunnels
      rules := rules
      final := "direct-public-dns" }

end

end Env

end SbGateway.RuntimeConfig
