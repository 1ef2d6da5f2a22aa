import SbGateway.Lib.NetIP

namespace SbGateway.RuntimeConfig

open Lib

/-!
# The configuration and its accessors (`internal/runtimeconfig`)

The configuration is a JSON object that the renderers read through accessors with defaults
(`textValue`, `stringSlice`, `boolDefault`, `enabledObjects`).  The records here hold what these
accessors return; an optional field is one whose default the reader supplies.

`Env` groups what the renderers take from elsewhere: SHA-256, the text functions of the standard
library, the embedded service catalogue, the rule-set files and the matching of a selector
against a node's location.  No result depends on more than their being functions.
-/

/-! ### Text -/

/-- `strings.Split` at a one-character separator. -/
def splitText (sep : Char) (s : String) : List String :=
  (fieldsOf sep s.toList).map String.ofList

/-- `%q` for texts without control characters. -/
def quoted (s : String) : String :=
  let escape (c : Char) : List Char := if c = '"' ∨ c = '\\' then ['\\', c] else [c]
  "\"" ++ String.ofList (s.toList.flatMap escape) ++ "\""

/-- The values without repetitions, in their first order. -/
def uniqueFrom {α : Type} [DecidableEq α] (seen : List α) : List α → List α
  | [] => []
  | value :: rest =>
    if value ∈ seen then uniqueFrom seen rest else value :: uniqueFrom (value :: seen) rest

@[inherit_doc uniqueFrom]
def unique {α : Type} [DecidableEq α] (values : List α) : List α := uniqueFrom [] values

/-- `sort.Strings`. -/
def sortStrings (values : List String) : List String := values.insertionSort (· ≤ ·)

/-- `sortedUniqueStrings`. -/
def sortedUniqueStrings (values : List String) : List String :=
  sortStrings (unique (values.filter (fun value => value ≠ "")))

theorem mem_uniqueFrom [DecidableEq α] {x : α} :
    x ∈ uniqueFrom seen values ↔ x ∈ values ∧ x ∉ seen := by
  induction values generalizing seen with
  | nil => simp [uniqueFrom]
  | cons value rest ih =>
    unfold uniqueFrom
    split
    · rename_i hseen
      rw [ih, List.mem_cons]
      constructor
      · rintro ⟨hx, hn⟩
        exact ⟨.inr hx, hn⟩
      · rintro ⟨rfl | hx, hn⟩
        · exact absurd hseen hn
        · exact ⟨hx, hn⟩
    · rename_i hseen
      rw [List.mem_cons, ih, List.mem_cons, List.mem_cons]
      constructor
      · rintro (rfl | ⟨hx, hn⟩)
        · exact ⟨.inl rfl, hseen⟩
        · exact ⟨.inr hx, fun h => hn (.inr h)⟩
      · rintro ⟨rfl | hx, hn⟩
        · exact .inl rfl
        · by_cases hxv : x = value
          · exact .inl hxv
          · exact .inr ⟨hx, by rintro (h | h) <;> contradiction⟩

@[simp] theorem mem_unique [DecidableEq α] {x : α} : x ∈ unique values ↔ x ∈ values := by
  simp [unique, mem_uniqueFrom]

@[simp] theorem mem_sortStrings : x ∈ sortStrings values ↔ x ∈ values :=
  List.mem_insertionSort _

@[simp] theorem mem_sortedUniqueStrings : x ∈ sortedUniqueStrings values ↔ x ∈ values ∧ x ≠ "" := by
  simp [sortedUniqueStrings]

/-- `serviceIDPattern`: a letter or digit, then at most 63 letters, digits, dots, underscores
    and dashes. -/
def serviceIDPattern (s : String) : Bool :=
  let plain (c : Char) : Bool := ('a' ≤ c && c ≤ 'z') || ('0' ≤ c && c ≤ '9')
  match s.toList with
  | [] => false
  | c :: rest =>
    plain c && decide (rest.length ≤ 63) &&
      rest.all fun c => plain c || c == '.' || c == '_' || c == '-'

/-! ### Services -/

/-- `rulesets.ServicePack`, as far as routing reads it. -/
structure ServicePack where
  id : String
  sniffedProtocols : List String
  alwaysDirect : Bool
  includedPackIDs : List String

/-- The embedded catalogue; `Catalog` rejects duplicate ids. -/
structure Catalog where
  packs : List ServicePack
  nodup : (packs.map ServicePack.id).Nodup

/-- The pack of an id. -/
def Catalog.byID (catalog : Catalog) (id : String) : Option ServicePack :=
  catalog.packs.find? (fun pack => pack.id = id)

/-- The ids of the cards that are always direct. -/
def Catalog.alwaysDirect (catalog : Catalog) : List String :=
  sortStrings ((catalog.packs.filter ServicePack.alwaysDirect).map ServicePack.id)

/-- The loop of `serviceRuleSetIDs`: visit a pack and its dependencies, each once.  Every nested
    call has one more pack in the result, so the number of packs bounds the depth. -/
def Catalog.visit (catalog : Catalog) : ℕ → List String → String → List String
  | 0, result, _ => result
  | fuel + 1, result, current =>
    if current ∈ result then result
    else match catalog.byID current with
      | none => result
      | some pack => pack.includedPackIDs.foldl (catalog.visit fuel) (result ++ [current])

/-- `serviceRuleSetIDs`. -/
def serviceRuleSetIDs (catalog : Catalog) (id : String) : List String :=
  let result := catalog.visit (catalog.packs.length + 1) [] id
  if result = [] then [id] else result

/-- `serviceSniffedProtocols`. -/
def serviceSniffedProtocols (catalog : Catalog) (id : String) : List String :=
  unique ((serviceRuleSetIDs catalog id).flatMap fun dependency =>
    ((catalog.byID dependency).map ServicePack.sniffedProtocols).getD [])

/-- One object of a rule-set file; `none` is an absent key. -/
structure RuleSetEntry where
  domainSuffix : Option (List String)
  domain : Option (List String)
  domainKeyword : Option (List String)
  domainRegex : Option (List String)
  ipCIDR : Option (List String)
  port : Option (List String)
  portRange : Option (List String)
  network : List String
  /-- Only the DNS compiler looks at it. -/
  protocol : List String

/-! ### Configuration records -/

/-- A runtime node. -/
structure Node where
  enabled : Bool
  id : String
  protocol : String
  server : String
  subscriptionReserveID : String
  /-- Country, provider and label, which only the location selectors read. -/
  attributes : List (String × String)

/-- A network of the LAN inventory. -/
structure Network where
  enabled : Bool
  id : String
  kind : String
  cidrs : List String

/-- A custom route of a policy. -/
structure CustomRoute where
  kind : String
  value : String
  protocols : String
  network : String
  target : String

/-- A routing policy. -/
structure Policy where
  enabled : Bool
  id : String
  mode : String
  trafficMode : String
  final : String
  selectionOrder : List String
  customRoutes : List CustomRoute
  candidateServiceIDs : List String
  directServices : List String
  directDomains : List String
  serviceRoutes : AList (fun _ : String => String)
  torrentDirect : Option Bool

/-- What a remote user and a local client have in common. -/
structure Entity where
  enabled : Bool
  id : String
  policyID : String
  final : String
  directServices : List String
  directDomains : List String
  serviceRoutes : AList (fun _ : String => String)

/-- A remote user.  An allowed port that is no integer is `none`. -/
structure User extends Entity where
  role : String
  allowedCIDRs : List String
  allowedNetworkIDs : List String
  allowedPorts : List (Option ℤ)

/-- A local client. -/
structure Client extends Entity where
  sourceKind : String
  sourceScope : String
  sourceCIDRs : List String

/-- A transport, as far as routing reads it. -/
structure Transport where
  enabled : Bool
  kind : String

/-- The public resolver of a DNS profile. -/
structure ResolverProfile where
  provider : String
  protocol : String

/-- The control-plane configuration. -/
structure Config where
  networks : List Network
  policies : List Policy
  remoteUsers : List User
  localClients : List Client
  transports : List Transport
  hijackManagedClients : Option Bool
  strictDNS : Option Bool
  forceTCPForProxyServices : Option Bool
  allowRouterManagement : Option Bool
  routerAddresses : List String
  routerosGateway : String
  containerAddress : String
  tunAddress : String
  remoteIPv6Mode : String
  /-- The result of `requestedHealthProbeBatch`. -/
  probeBatch : ℕ
  internalServer : String
  internalZones : List String
  directResolver : ResolverProfile
  vpnResolver : ResolverProfile

/-- What the renderers take from outside the configuration. -/
structure Env where
  /-- The hexadecimal SHA-256 digest. -/
  sha : String → String
  /-- `strings.ToLower`. -/
  toLower : String → String
  /-- `strings.TrimSpace`. -/
  trimSpace : String → String
  normalizeDomainSuffix : String → String
  normalizeLocationSelector : String → String
  /-- `subscriptionNodeGroupMatches` and `locationSelectorMatches`. -/
  selectorMatches : Policy → String → Node → Bool
  catalog : Catalog
  /-- The rules of a rule-set file. -/
  readRuleSet : String → Except String (List RuleSetEntry)
  /-- `geoipasset.Ensure`. -/
  geoipReference : String → Except String String
  /-- `geoipasset.PublishDomains`. -/
  publishDomains : RuleSetEntry → Except String String
  /-- The JSON text of an identity: its users, inbounds and source prefixes. -/
  identityText : List String → List String → List String → String

/-! ### Accessors -/

/-- `textDefault`. -/
def textDefault (value fallback : String) : String := if value = "" then fallback else value

/-- `enabledObjects` of the policies. -/
def Config.enabledPolicies (config : Config) : List Policy := config.policies.filter Policy.enabled

/-- `enabledObjects` of the remote users. -/
def Config.enabledUsers (config : Config) : List User :=
  config.remoteUsers.filter fun user => user.enabled

/-- `enabledObjectsByID` of the policies: the last one with an id. -/
def Config.policyByID (config : Config) (id : String) : Option Policy :=
  if id = "" then none else config.enabledPolicies.reverse.find? (fun policy => policy.id = id)

/-- `networksByID`: the last enabled network with an id. -/
def Config.networkByID (config : Config) (id : String) : List String :=
  (((config.networks.filter Network.enabled).reverse.find? (fun network => network.id = id)).map
    Network.cidrs).getD []

/-- `enabledInternalCIDRs`. -/
def enabledInternalCIDRs (config : Config) : List String :=
  (config.networks.filter Network.enabled).flatMap fun network =>
    let kind := textDefault network.kind "internal"
    if kind = "internal" ∨ kind = "management" then network.cidrs else []

/-- `allLANClient`. -/
def allLANClient (client : Client) : Bool :=
  client.sourceKind == "lan" && client.sourceScope == "lan-all"

/-- `enabledLocalClientsSpecificFirst`: a stable sort that puts the broad LAN policies last. -/
def Config.enabledLocalClientsSpecificFirst (config : Config) : List Client :=
  let clients := config.localClients.filter fun client => client.enabled
  clients.filter (fun client => !allLANClient client) ++ clients.filter allLANClient

section Env

variable (env : Env)

/-- `canonicalServiceID`. -/
def canonicalServiceID (value : String) : Except String String :=
  let normalized := env.toLower value
  if serviceIDPattern normalized then .ok normalized
  else .error "service rule-set name is invalid"

/-- `candidateServiceIDs`. -/
def candidateServiceIDs (policy : Policy) : List String :=
  unique ((policy.candidateServiceIDs.map fun value => env.toLower (env.trimSpace value)).filter
    serviceIDPattern)

/-- `policyServiceSelectorTag`. -/
def policyServiceSelectorTag (policyID serviceID : String) : String :=
  "svc-" ++ String.ofList ((env.sha (policyID ++ "\x00" ++ serviceID)).toList.take 20)

/-- `directServices`; a missing policy is the zero value. -/
def directServices (entity : Entity) (policy : Option Policy) : Except String (List String) := do
  let listed ← (((policy.map Policy.directServices).getD []) ++ entity.directServices).mapM
    (canonicalServiceID env)
  let always := match policy with
    | none => []
    | some p =>
      if p.trafficMode = "vless_with_wan_exceptions" ∧ p.torrentDirect.getD true = true then
        env.catalog.alwaysDirect
      else []
  return unique (listed ++ always)

/-- `directDomains`. -/
def directDomains (entity : Entity) (policy : Option Policy) : List String :=
  unique (((((policy.map Policy.directDomains).getD []) ++ entity.directDomains).map
    env.normalizeDomainSuffix).filter (fun domain => domain ≠ ""))

/-- The members a selector claims from the nodes that are left. -/
def claimMembers (policy : Policy) (nodes : List Node) (claimed : List String)
    (selector : String) : List String :=
  unique (((nodes.filter fun node => node.enabled && env.selectorMatches policy selector node).map
    Node.id).filter fun id => id ≠ "" ∧ id ∉ claimed)

/-- The loop of `policyCandidateGroups`. -/
def candidateGroupsFrom (policy : Policy) (nodes : List Node) (claimed : List String) :
    List String → List (String × List String)
  | [] => []
  | selector :: rest =>
    let members := claimMembers env policy nodes claimed selector
    let groups := candidateGroupsFrom policy nodes (claimed ++ members) rest
    if members = [] then groups else (selector, members) :: groups

/-- `policyCandidateGroups`: the selectors of a policy with the nodes each one claims. -/
def policyCandidateGroups (policy : Policy) (nodes : List Node) : List (String × List String) :=
  candidateGroupsFrom env policy nodes []
    ((policy.selectionOrder.map env.normalizeLocationSelector).filter (fun s => s ≠ ""))

end Env

end SbGateway.RuntimeConfig
