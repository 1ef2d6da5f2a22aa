import SbGateway.RuntimeConfig.DnsSource
import SbGateway.RuntimeConfig.XrayRules

namespace SbGateway.RuntimeConfig

open Lib

/-!
# Compiling DNS lanes (`internal/runtimeconfig/policy_dns.go`)

`compilePolicyDNS` collects the identities of the rules, compiles for each one a lane of the rules
that apply to it, and renders one Xray rule per identity that leads port 53 to the lane.  Lanes
with the same rules and the same final server are shared.

The identities are ordered: source prefixes first, the most specific list first.  A rule whose
conditions have no name sets the lane's final server, so the last such rule wins.

Rules with many names are interned by content here and written out in full again by
`MarshalPolicyDNS`; the model keeps them in full.
-/

/-! ### Identities -/

/-- `policyDNSIdentity`. -/
structure Identity where
  authUser : List String
  inbound : List String
  sourceCIDR : List String
  deriving DecidableEq

/-- It restricts nothing. -/
def Identity.isEmpty (identity : Identity) : Bool :=
  identity.authUser.isEmpty && identity.inbound.isEmpty && identity.sourceCIDR.isEmpty

/-- How many values it has. -/
def Identity.size (identity : Identity) : ℕ :=
  identity.authUser.length + identity.inbound.length + identity.sourceCIDR.length

/-- How many fields it uses. -/
def Identity.fields (identity : Identity) : ℕ :=
  (if identity.authUser = [] then 0 else 1) + (if identity.inbound = [] then 0 else 1) +
    (if identity.sourceCIDR = [] then 0 else 1)

/-- `ruleIdentity`. -/
def ruleIdentity (rule : DnsRule) : Identity where
  authUser := sortedUniqueStrings rule.authUser
  inbound := sortedUniqueStrings rule.inbound
  sourceCIDR := sortedUniqueStrings rule.sourceCIDR

/-- `policyDNSPrefixSpecificity`: the bits of the broadest prefix, `-1` if there is none. -/
def policyDNSPrefixSpecificity (cidrs : List String) : ℤ :=
  let bits := cidrs.foldl (fun bits cidr =>
    match parsePrefix cidr with
    | some p => if p.bits < bits then p.bits else bits
    | none => bits) 129
  if bits = 129 then -1 else bits

/-- The JSON text of an identity. -/
def Identity.text (env : Env) (identity : Identity) : String :=
  env.identityText identity.authUser identity.inbound identity.sourceCIDR

/-- The order of two identities. -/
def identityLess (env : Env) (a b : Identity) : Bool :=
  if a.sourceCIDR.isEmpty != b.sourceCIDR.isEmpty then !a.sourceCIDR.isEmpty
  else if !a.sourceCIDR.isEmpty &&
      policyDNSPrefixSpecificity a.sourceCIDR != policyDNSPrefixSpecificity b.sourceCIDR then
    decide (policyDNSPrefixSpecificity b.sourceCIDR < policyDNSPrefixSpecificity a.sourceCIDR)
  else if a.size != b.size then decide (b.size < a.size)
  else if a.fields != b.fields then decide (b.fields < a.fields)
  else decide (a.text env < b.text env)

/-- `collectPolicyDNSIdentities`; the last identity is that of everyone else. -/
def collectPolicyDNSIdentities (env : Env) (rules : List DnsRule) : List Identity :=
  (unique ((rules.map ruleIdentity).filter fun identity => !identity.isEmpty)).insertionSort
    (fun a b => identityLess env b a = false) ++ [⟨[], [], []⟩]

/-- `intersectsIfSet`. -/
def intersectsIfSet (expected actual : List String) : Bool :=
  expected.isEmpty || expected.any actual.contains

/-- `identityApplies`. -/
def identityApplies (expected actual : Identity) : Bool :=
  if expected.isEmpty then true
  else if actual.isEmpty then false
  else intersectsIfSet expected.authUser actual.authUser &&
    intersectsIfSet expected.inbound actual.inbound &&
    intersectsIfSet expected.sourceCIDR actual.sourceCIDR

/-! ### Lanes -/

/-- `PolicyDNSRule`. -/
structure DnsLaneRule where
  reject : Bool
  domain : List String
  domainSuffix : List String
  server : String
  deriving DecidableEq

/-- The content of a lane: what lanes are shared by. -/
structure DnsLane where
  final : String
  rules : List DnsLaneRule
  deriving DecidableEq

/-- `strings.Trim` of dots. -/
def trimDots (value : String) : String :=
  String.ofList ((value.toList.dropWhile (· == '.')).rdropWhile (· == '.'))

/-- `policyDNSRuleSetRule.nonDNSCondition`. -/
def RuleSetEntry.nonDNSCondition (entry : RuleSetEntry) : Bool :=
  !(entry.ipCIDR.getD []).isEmpty || !(entry.port.getD []).isEmpty ||
    !(entry.portRange.getD []).isEmpty || !entry.protocol.isEmpty || !entry.network.isEmpty

section Env

variable (env : Env)

/-- `normalizedDomains`. -/
def normalizedDomains (values : List String) : List String :=
  (values.map fun value => env.toLower (trimDots (env.trimSpace value))).filter (· ≠ "")

/-- `policyDNSCompiler.loadRuleSet`. -/
def loadDNSRuleSet (name : String) : Except String (List RuleSetEntry) :=
  if name = "" ∨ '/' ∈ name.toList then .error "invalid ruleset name" else env.readRuleSet name

/-- The entry has names, or the rule itself has. -/
def RuleSetEntry.named (raw : DnsRule) (entry : RuleSetEntry) : Bool :=
  !((entry.domain.getD []).isEmpty && (entry.domainSuffix.getD []).isEmpty &&
    raw.domain.isEmpty && raw.domainSuffix.isEmpty)

/-- The rule with the names of an entry in the place of its own. -/
def DnsRule.withEntry (raw : DnsRule) (entry : RuleSetEntry) : DnsRule :=
  { raw with
    domain := if (entry.domain.getD []).isEmpty then raw.domain else entry.domain.getD []
    domainSuffix :=
      if (entry.domainSuffix.getD []).isEmpty then raw.domainSuffix
      else entry.domainSuffix.getD [] }

/-- The rules of one rule set. -/
def expandDNSOne (raw : DnsRule) (name : String) : Except String (List DnsRule) :=
  match loadDNSRuleSet env name with
  | .error e => .error ("Xray candidate cannot inline ruleset " ++ quoted name ++ ": " ++ e)
  | .ok entries =>
    if (entries.filter (RuleSetEntry.named raw)).isEmpty &&
        !(entries.any fun entry => !entry.named raw && entry.nonDNSCondition) then
      .error ("Xray ruleset " ++ quoted name ++ " has no usable match conditions")
    else .ok ((entries.filter (RuleSetEntry.named raw)).map raw.withEntry)

/-- `policyDNSCompiler.expand`. -/
def expandDNS (raw : DnsRule) : Except String (List DnsRule) :=
  if raw.ruleSet = [] then .ok [raw]
  else do
    let expanded ← raw.ruleSet.mapM (expandDNSOne env raw)
    return expanded.flatten

/-- The server of a rule if there is one with that tag. -/
def knownServer (servers : List String) (target : DnsTarget) : String :=
  if servers.contains target.server then target.server else ""

/-- Add one expanded rule to the lane. -/
def DnsLane.add (servers : List String) (raw : DnsRule) (lane : DnsLane) (conditions : DnsRule) :
    DnsLane :=
  let suffixes := normalizedDomains env conditions.domainSuffix
  let exact := normalizedDomains env conditions.domain
  if suffixes = [] ∧ exact = [] then
    if raw.ruleSet ≠ [] then lane
    else if conditions.target = .reject then { lane with final := "reject" }
    else if servers.contains conditions.target.server then
      { lane with final := conditions.target.server }
    else lane
  else
    { lane with rules := lane.rules ++ [{
        reject := decide (conditions.target = .reject)
        domain := exact
        domainSuffix := suffixes
        server := knownServer servers conditions.target }] }

/-- The lane of a list of rules. -/
def laneOfRules (servers : List String) (final : String) (rules : List DnsRule) :
    Except String DnsLane :=
  rules.foldlM
    (fun lane raw => do
      let expanded ← expandDNS env raw
      return expanded.foldl (DnsLane.add env servers raw) lane)
    ⟨final, []⟩

/-- The rules that apply to an identity. -/
def rulesFor (source : DnsSource) (identity : Identity) : List DnsRule :=
  source.rules.filter fun rule => identityApplies (ruleIdentity rule) identity

/-- The lane of an identity. -/
def compileLane (servers : List String) (source : DnsSource) (identity : Identity) :
    Except String DnsLane :=
  laneOfRules env servers source.final (rulesFor source identity)

end Env

/-! ### The rendered artifacts -/

/-- `takePort`: the first free port from `start`. -/
def takePort (used : List ℕ) (start : ℕ) : Except String ℕ :=
  match (List.range (61000 - start)).find? fun i => !used.contains (start + i) with
  | some i => .ok (start + i)
  | none => .error "policy DNS exhausted local ports"

/-- The tag of a lane. -/
def laneTag (index : ℕ) : String := "dns-policy-lane-" ++ toString index

/-- The Xray rule of an identity. -/
def identityRule (identity : Identity) (tag : String) : XrayRule where
  inboundTag := identity.inbound
  user := identity.authUser
  ip := []
  source := identity.sourceCIDR
  protocol := []
  domain := []
  network := "tcp,udp"
  port := "53"
  target := tag
  balancer := false

/-- What the compilation of the identities has produced so far. -/
structure LaneState where
  lanes : List (DnsLane × ℕ)
  used : List ℕ
  rules : List XrayRule

/-- Give the lane of an identity its tag, the one of an equal lane if there is one. -/
def LaneState.place (state : LaneState) (identity : Identity) (lane : DnsLane) :
    Except String LaneState :=
  match state.lanes.findIdx? fun entry => entry.1 == lane with
  | some index => .ok { state with rules := state.rules ++ [identityRule identity (laneTag index)] }
  | none => do
    let index := state.lanes.length
    let port ← takePort state.used (30000 + index)
    return {
      lanes := state.lanes ++ [(lane, port)]
      used := port :: state.used
      rules := state.rules ++ [identityRule identity (laneTag index)] }

/-- The inbound of a tunnel to a DNS server: its number, its port and where it leads. -/
structure DnsTunnel where
  index : ℕ
  port : ℕ
  detour : String
  deriving DecidableEq

/-- The rule of a DNS server that is reached through a tunnel. -/
def DnsTunnel.rule (selectable : List String) (tunnel : DnsTunnel) : XrayRule where
  inboundTag := ["dns-upstream-" ++ toString tunnel.index]
  user := []
  ip := []
  source := []
  protocol := []
  domain := []
  network := ""
  port := ""
  target := tunnel.detour
  balancer := selectable.contains tunnel.detour

/-- The tunnels of the servers, in the order of their tags. -/
def compileTunnels (used : List ℕ) : List (DnsServer × ℕ) → Except String (List DnsTunnel)
  | [] => .ok []
  | (server, index) :: rest =>
    match server.type with
    | .udp => compileTunnels used rest
    | _ => do
      let port ← takePort used (32000 + index)
      let tunnels ← compileTunnels (port :: used) rest
      return ⟨index, port, textDefault server.detour "direct-wan"⟩ :: tunnels

/-- The servers by tag, the last one with a tag wins, sorted by tag. -/
def serversByTag (servers : List DnsServer) : List DnsServer :=
  (sortStrings (unique ((servers.map DnsServer.tag).filter (· ≠ "")))).filterMap fun tag =>
    servers.reverse.find? fun server => server.tag = tag

/-- The hosts of a rule that has host sources and no other identity. -/
def hostSources (rule : XrayRule) : Option (List Addr) :=
  if rule.source = [] ∨ rule.user ≠ [] ∨ rule.inboundTag ≠ [] then none
  else rule.source.mapM fun source =>
    (parsePrefix source).bind fun p =>
      if p.bits = p.addr.bitLen then some p.addr.unmap else none

/-- The state of the compaction: the rules, the groups by tag with their indices, the hosts. -/
structure CompactState where
  result : List XrayRule
  groups : List (String × ℕ)
  seen : List Addr

/-- Add a rule: host rules of one lane are grouped, any other rule ends the groups. -/
def CompactState.add (state : CompactState) (rule : XrayRule) : CompactState :=
  match hostSources rule with
  | none => ⟨state.result ++ [rule], [], []⟩
  | some hosts =>
    let overlap := hosts.any state.seen.contains
    let groups := if overlap then [] else state.groups
    let seen := hosts ++ if overlap then [] else state.seen
    match groups.lookup rule.target with
    | some index =>
      ⟨state.result.modify index fun r =>
        { r with source := r.source ++ rule.source }, groups, seen⟩
    | none => ⟨state.result ++ [rule], (rule.target, state.result.length) :: groups, seen⟩

/-- `compactPolicyDNSHostRules`. -/
def compactPolicyDNSHostRules (rules : List XrayRule) : List XrayRule :=
  (rules.foldl CompactState.add ⟨[], [], []⟩).result

/-- `PolicyDNSArtifacts`, as far as other parts read it. -/
structure DnsArtifacts where
  lanes : List (DnsLane × ℕ)
  servers : List DnsServer
  tunnels : List DnsTunnel
  rules : List XrayRule
  deriving DecidableEq

/-- The lanes of all identities. -/
def compileLanes (env : Env) (servers : List String) (source : DnsSource) (existing : List ℕ) :
    Except String LaneState :=
  (collectPolicyDNSIdentities env source.rules).foldlM
    (fun state identity => do
      let lane ← compileLane env servers source identity
      state.place identity lane)
    ⟨[], existing, []⟩

/-- `CompilePolicyDNS`. -/
def compilePolicyDNS (env : Env) (selectable : List String) (existing : List ℕ)
    (source : DnsSource) : Except String DnsArtifacts :=
  let servers := serversByTag source.servers
  if servers.isEmpty then .ok ⟨[], [], [], []⟩
  else if !(servers.map DnsServer.tag).contains source.final then
    .error "policy DNS final server is missing"
  else do
    let state ← compileLanes env (servers.map DnsServer.tag) source existing
    let tunnels ← compileTunnels state.used servers.zipIdx
    return {
      lanes := state.lanes
      servers
      tunnels
      rules := tunnels.map (DnsTunnel.rule selectable) ++ compactPolicyDNSHostRules state.rules }

/-- `RenderPolicyDNS` with the selectors that `RenderXrayCandidate` passes. -/
def renderPolicyDNS (env : Env) (config : Config) (selectable : List String) (existing : List ℕ) :
    Except String DnsArtifacts := do
  let source ← buildPolicyDNSSource env config selectable
  compilePolicyDNS env selectable existing source

end SbGateway.RuntimeConfig
