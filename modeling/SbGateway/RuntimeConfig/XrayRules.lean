import SbGateway.RuntimeConfig.RouteSource
import SbGateway.Lib.Fallible

namespace SbGateway.RuntimeConfig

open Lib

/-!
# Xray routing rules (`internal/runtimeconfig/xray_rules.go`)

`convertXrayRules` turns the ordered source rules into Xray rules; a rule that refers to rule
sets becomes one Xray rule for every entry of their files.

A flow takes the first rule that matches it: all present fields must match and the entries of a
field are alternatives.  The inbounds sniff for routing only, so that a flow may have an address
and a name at once: address conditions see the one, domain conditions the other.  With the domain
strategy `IPIfNonMatch` an address condition sees the addresses of a name only if no rule matches
before.

* `hits` — a source rule matches a flow, through one of the rules it becomes;
* `routeExit_convertXrayRules` — the first matching Xray rule leads to the target of the first
  source rule that hits, and to `block` if there is none.
-/

/-! ### Rule sets -/

/-- The conditions of an Xray rule before the conversion. -/
structure Conditions where
  inbound : List String
  authUser : List String
  ipCIDR : List String
  sourceIPCIDR : List String
  protocol : List String
  domain : List String
  domainSuffix : List String
  domainKeyword : List String
  domainRegex : List String
  network : List String
  port : List String
  portRange : List String
  ipVersion : Option ℕ
  /-- `_sb_geosite_reference`. -/
  geositeReference : List String

/-- `stringOrList` of a port.  It has no case for a slice of integers. -/
def PortField.strings : PortField → List String
  | .absent => []
  | .int port => [toString port]
  | .ints _ => []
  | .text ports => if ports = "" then [] else [ports]

/-- The rule's own conditions. -/
def SourceRule.conditions (rule : SourceRule) : Conditions where
  inbound := rule.inbound
  authUser := rule.authUser
  ipCIDR := rule.ipCIDR
  sourceIPCIDR := rule.sourceIPCIDR
  protocol := rule.protocol
  domain := rule.domain
  domainSuffix := rule.domainSuffix
  domainKeyword := []
  domainRegex := []
  network := rule.network
  port := rule.port.strings
  portRange := []
  ipVersion := rule.ipVersion
  geositeReference := []

/-- `joinStringOrList`. -/
def joinValues (values : List String) : String := joinTexts "," values

/-- `hasDomainFields`. -/
def Conditions.hasDomainFields (c : Conditions) : Bool :=
  !(c.domain.isEmpty && c.domainSuffix.isEmpty && c.domainKeyword.isEmpty && c.domainRegex.isEmpty)

/-- `hasXrayMatchCondition`. -/
def Conditions.hasXrayMatchCondition (c : Conditions) : Bool :=
  [c.domainSuffix, c.domain, c.domainKeyword, c.domainRegex, c.ipCIDR, c.protocol, c.network,
    c.port, c.portRange].any fun values => joinValues values != ""

/-- The base conditions with the keys of a rule-set entry in their place. -/
def Conditions.merge (base : Conditions) (entry : RuleSetEntry) (reference : String) : Conditions :=
  { base with
    geositeReference :=
      if base.hasDomainFields = false ∧ reference ≠ "" then [reference]
      else base.geositeReference
    domainSuffix := entry.domainSuffix.getD base.domainSuffix
    domain := entry.domain.getD base.domain
    domainKeyword := entry.domainKeyword.getD base.domainKeyword
    domainRegex := entry.domainRegex.getD base.domainRegex
    ipCIDR := entry.ipCIDR.getD base.ipCIDR
    port := entry.port.getD base.port
    portRange := entry.portRange.getD base.portRange
    network := if joinValues entry.network = "" then base.network else entry.network }

/-- `domainset.ShareThreshold`. -/
def shareThreshold : ℕ := 64

/-- The number of domain conditions of an entry. -/
def RuleSetEntry.domainCount (entry : RuleSetEntry) : ℕ :=
  (entry.domain.getD []).length + (entry.domainSuffix.getD []).length +
    (entry.domainKeyword.getD []).length + (entry.domainRegex.getD []).length

/-- An entry that only lists addresses. -/
def RuleSetEntry.ofCIDRs (cidrs : List String) : RuleSetEntry where
  domainSuffix := none
  domain := none
  domainKeyword := none
  domainRegex := none
  ipCIDR := some cidrs
  port := none
  portRange := none
  network := []
  protocol := []

/-- Does the name start with `geoip-`? -/
def isGeoIP (name : String) : Bool := "geoip-".toList.isPrefixOf name.toList

section Env

variable (env : Env)

/-- The shared reference of an entry, `""` for none. -/
def shareDomains (entry : RuleSetEntry) : Except String (RuleSetEntry × String) :=
  if shareThreshold ≤ entry.domainCount then do
    let reference ← env.publishDomains entry
    return (entry, reference)
  else return (entry, "")

/-- `xrayRuleCompiler.load`: the entries of a rule set with their shared references. -/
def loadRuleSet (name : String) : Except String (List (RuleSetEntry × String)) :=
  if name = "" ∨ '/' ∈ name.toList then .error "invalid ruleset name"
  else if isGeoIP name then do
    let reference ← env.geoipReference name
    return [(RuleSetEntry.ofCIDRs [reference], "")]
  else do
    let entries ← env.readRuleSet name
    entries.mapM (shareDomains env)

/-- The entries that leave a usable condition. -/
def mergeEntries (base : Conditions) (entries : List (RuleSetEntry × String)) : List Conditions :=
  (entries.map fun entry => base.merge entry.1 entry.2).filter Conditions.hasXrayMatchCondition

/-- The rules of one rule set; it must have a usable condition. -/
def expandOne (base : Conditions) (name : String) : Except String (List Conditions) :=
  match loadRuleSet env name with
  | .error e => .error ("Xray candidate cannot inline ruleset " ++ quoted name ++ ": " ++ e)
  | .ok entries =>
    if (mergeEntries base entries).isEmpty then
      .error ("Xray ruleset " ++ quoted name ++ " has no usable match conditions")
    else .ok (mergeEntries base entries)

/-- `xrayRuleCompiler.expand`. -/
def expand (rule : SourceRule) : Except String (List Conditions) :=
  if rule.ruleSet = [] then .ok [rule.conditions]
  else do
    let expanded ← rule.ruleSet.mapM (expandOne env rule.conditions)
    return expanded.flatten

end Env

/-! ### Xray rules -/

/-- A domain condition of an Xray rule. -/
inductive DomainCondition where
  | domain (value : String)
  | full (value : String)
  | keyword (value : String)
  | regexp (value : String)
  | reference (value : String)
  deriving DecidableEq

/-- An Xray routing rule; an empty field is absent. -/
structure XrayRule where
  inboundTag : List String
  user : List String
  ip : List String
  source : List String
  protocol : List String
  domain : List DomainCondition
  network : String
  port : String
  target : String
  /-- The target is a balancer, not an outbound. -/
  balancer : Bool
  deriving DecidableEq

/-- The domain conditions of an Xray rule: the shared reference, or the single entries. -/
def Conditions.domains (c : Conditions) : List DomainCondition :=
  if c.geositeReference ≠ [] then c.geositeReference.map .reference
  else c.domainSuffix.map .domain ++ c.domain.map .full ++ c.domainKeyword.map .keyword ++
    c.domainRegex.map .regexp

/-- A port range in Xray's spelling. -/
def dashed (range : String) : String :=
  String.ofList (range.toList.map fun c => if c = ':' then '-' else c)

/-- `convertXrayRuleConditions`. -/
def convertXrayRuleConditions (selectable : List String) (target : String) (c : Conditions) :
    XrayRule where
  inboundTag := c.inbound
  user := c.authUser
  ip := c.ipCIDR ++ if c.ipVersion = some 6 then ["::/0"] else []
  source := c.sourceIPCIDR
  protocol := c.protocol
  domain := c.domains
  network := joinValues c.network
  port := joinValues (c.port ++ c.portRange.map dashed)
  target := target
  balancer := selectable.contains target

/-- The target of a source rule that is converted. -/
def Action.target : Action → Option String
  | .sniff => none
  | .hijackDNS => none
  | .reject => some "block"
  | .route outbound => some (textDefault outbound "block")

/-- The last rule: everything else is blocked. -/
def blockRest : XrayRule where
  inboundTag := []
  user := []
  ip := []
  source := []
  protocol := []
  domain := []
  network := "tcp,udp"
  port := ""
  target := "block"
  balancer := false

section Env

variable (env : Env)

/-- The Xray rules of one source rule. -/
def convertRule (selectable : List String) (rule : SourceRule) : Except String (List XrayRule) :=
  match rule.action.target with
  | none => .ok []
  | some target => do
    let expanded ← expand env rule
    return expanded.map (convertXrayRuleConditions selectable target)

/-- `ConvertXrayRules`. -/
def convertXrayRules (selectable : List String) (rules : List SourceRule) :
    Except String (List XrayRule) := do
  let converted ← rules.mapM (convertRule env selectable)
  return converted.flatten ++ [blockRest]

end Env

/-! ### Flows -/

/-- The destination of a flow: the address it is sent to, if it is sent to one, and the name that
    it is sent to or that sniffing has found.  There is one of them at least. -/
structure Destination where
  address : Option Addr
  name : Option String
  given : address.isSome || name.isSome
  deriving DecidableEq

/-- The network of a flow. -/
inductive NetworkKind where
  | tcp
  | udp
  deriving DecidableEq

/-- The name of a network in rules. -/
def NetworkKind.text : NetworkKind → String
  | .tcp => "tcp"
  | .udp => "udp"

/-- A flow as the router sees it. -/
structure Flow where
  inbound : String
  user : Option String
  source : Addr
  network : NetworkKind
  port : ℕ
  destination : Destination
  /-- The sniffed protocol. -/
  protocol : Option String

/-- What Xray resolves by itself: regular expressions and references to shared lists. -/
structure Xray where
  regexp : String → String → Bool
  domainReference : String → String → Bool
  ipReference : String → Addr → Bool

/-- An address entry: a prefix, an address, or a reference. -/
def ipMatches (xray : Xray) (entry : String) (address : Addr) : Bool :=
  match parsePrefix entry with
  | some p => p.contains address
  | none =>
    match parseAddr entry with
    | some a => decide (a = address)
    | none => entry != "" && xray.ipReference entry address

/-- A source entry: an address entry, or a host in its other form, plain or mapped to IPv6. -/
def sourceMatches (xray : Xray) (entry : String) (source : Addr) : Bool :=
  ipMatches xray entry source || (parsePrefix entry).any fun p =>
    p.bits = p.addr.bitLen && p.addr.unmap = source.unmap

/-- Is the name the suffix, or does it end in a dot and the suffix? -/
def suffixMatches (suffix name : String) : Bool :=
  name == suffix || ('.' :: suffix.toList).isSuffixOf name.toList

/-- A domain condition of a rule against a name. -/
def DomainCondition.matches (xray : Xray) (name : String) : DomainCondition → Bool
  | .domain value => suffixMatches value name
  | .full value => value == name
  | .keyword value => decide (value.toList <:+: name.toList)
  | .regexp value => xray.regexp value name
  | .reference value => xray.domainReference value name

/-- One item of a port list: a port or a range. -/
def portItem (item : String) (port : ℕ) : Bool :=
  match fieldsOf '-' item.toList with
  | [single] => readNumber 10 single == some port
  | [first, last] =>
    match readNumber 10 first, readNumber 10 last with
    | some lo, some hi => decide (lo ≤ port ∧ port ≤ hi)
    | _, _ => false
  | _ => false

/-- The addresses an address condition sees in the first pass. -/
def Destination.addresses (destination : Destination) : List Addr := destination.address.toList

/-- A domain condition holds of names only. -/
def Destination.satisfies (xray : Xray) (conditions : List DomainCondition)
    (destination : Destination) : Bool :=
  destination.name.any fun name => conditions.any (DomainCondition.matches xray name)

/-- Does the rule match the flow, when address conditions see `addresses`? -/
def XrayRule.matches (xray : Xray) (flow : Flow) (addresses : List Addr) (rule : XrayRule) : Bool :=
  (rule.inboundTag.isEmpty || rule.inboundTag.contains flow.inbound) &&
  (rule.user.isEmpty || flow.user.any rule.user.contains) &&
  (rule.ip.isEmpty || rule.ip.any fun entry => addresses.any (ipMatches xray entry)) &&
  (rule.source.isEmpty || rule.source.any fun entry => sourceMatches xray entry flow.source) &&
  (rule.protocol.isEmpty || flow.protocol.any fun p =>
    rule.protocol.any fun entry => entry.toList.isPrefixOf p.toList) &&
  (rule.domain.isEmpty || flow.destination.satisfies xray rule.domain) &&
  (rule.network == "" || (splitText ',' rule.network).contains flow.network.text) &&
  (rule.port == "" || (splitText ',' rule.port).any (portItem · flow.port))

/-- What it takes to match, field by field. -/
structure XrayRule.Matches (xray : Xray) (flow : Flow) (addresses : List Addr) (rule : XrayRule) :
    Prop where
  inbound : rule.inboundTag = [] ∨ flow.inbound ∈ rule.inboundTag
  user : rule.user = [] ∨ ∃ u, flow.user = some u ∧ u ∈ rule.user
  ip : rule.ip = [] ∨ ∃ entry ∈ rule.ip, ∃ a ∈ addresses, ipMatches xray entry a = true
  source : rule.source = [] ∨ ∃ entry ∈ rule.source, sourceMatches xray entry flow.source = true
  protocol : rule.protocol = [] ∨ ∃ p, flow.protocol = some p ∧
    ∃ entry ∈ rule.protocol, entry.toList.isPrefixOf p.toList = true
  domain : rule.domain = [] ∨ flow.destination.satisfies xray rule.domain = true
  network : rule.network = "" ∨ flow.network.text ∈ splitText ',' rule.network
  port : rule.port = "" ∨ ∃ item ∈ splitText ',' rule.port, portItem item flow.port = true

theorem XrayRule.matches_iff {rule : XrayRule} : rule.matches xray flow addresses = true ↔
      rule.Matches xray flow addresses := by
  unfold XrayRule.matches
  simp only [Bool.and_eq_true, Bool.or_eq_true, List.isEmpty_iff, List.contains_iff_mem,
    List.any_eq_true, beq_iff_eq, Option.any_eq_true]
  constructor
  · rintro ⟨⟨⟨⟨⟨⟨⟨h₁, h₂⟩, h₃⟩, h₄⟩, h₅⟩, h₆⟩, h₇⟩, h₈⟩
    exact ⟨h₁, h₂, h₃, h₄, h₅, h₆, h₇, h₈⟩
  · rintro ⟨h₁, h₂, h₃, h₄, h₅, h₆, h₇, h₈⟩
    exact ⟨⟨⟨⟨⟨⟨⟨h₁, h₂⟩, h₃⟩, h₄⟩, h₅⟩, h₆⟩, h₇⟩, h₈⟩

/-- The first matching rule.  A name is resolved only if no rule matches it. -/
def pickRule (xray : Xray) (resolve : String → List Addr) (rules : List XrayRule) (flow : Flow) :
    Option XrayRule :=
  match rules.find? (XrayRule.matches xray flow flow.destination.addresses) with
  | some rule => some rule
  | none => flow.destination.name.bind fun name =>
      rules.find? (XrayRule.matches xray flow (resolve name))

/-- Where a rule sends its flows. -/
inductive Exit where
  | outbound (tag : String)
  | balancer (tag : String)
  deriving DecidableEq

/-- The tag of an exit. -/
def Exit.tag : Exit → String
  | .outbound tag => tag
  | .balancer tag => tag

/-- The exit of a rule: its `balancerTag` or its `outboundTag`. -/
def XrayRule.exit (rule : XrayRule) : Exit :=
  if rule.balancer then .balancer rule.target else .outbound rule.target

/-- The exit a target stands for: a selector that was rendered is a balancer. -/
def exitOf (selectable : List String) (target : String) : Exit :=
  if selectable.contains target then .balancer target else .outbound target

@[simp] theorem exitOf_tag (selectable : List String) (target : String) :
    (exitOf selectable target).tag = target := by
  unfold exitOf
  split <;> rfl

/-- The exit of a flow. -/
def routeExit (xray : Xray) (resolve : String → List Addr) (rules : List XrayRule)
    (flow : Flow) : Option Exit :=
  (pickRule xray resolve rules flow).map XrayRule.exit

/-! ### The source rules of a flow -/

section Env

variable (env : Env) (xray : Xray)

/-- A source rule matches the flow, through one of the rules it becomes. -/
def hits (flow : Flow) (rule : SourceRule) : Bool :=
  match expand env rule with
  | .error _ => false
  | .ok expanded => expanded.any fun c =>
    (convertXrayRuleConditions [] "" c).matches xray flow flow.destination.addresses

/-- The target the rule gives to the flow, if it is a routing rule and matches. -/
def decision (flow : Flow) (rule : SourceRule) : Option String :=
  if hits env xray flow rule then rule.action.target else none

variable {env xray}

/-- The rules of one source rule give the flow its decision. -/
theorem findSome?_convertRule
    (h : convertRule env selectable rule = .ok xs) (xray : Xray) (flow : Flow) :
    (xs.find? (XrayRule.matches xray flow flow.destination.addresses)).map XrayRule.exit =
      (decision env xray flow rule).map (exitOf selectable) := by
  unfold convertRule at h
  unfold decision hits
  cases ht : rule.action.target with
  | none =>
    rw [ht] at h
    cases h
    simp
  | some target =>
    rw [ht] at h
    obtain ⟨expanded, hexp, hxs⟩ := bind_eq_ok h
    cases hxs
    rw [hexp]
    simp only [List.find?_map, Option.map_map]
    -- every rule of the expansion has the same exit
    have hexit : (XrayRule.exit ∘ convertXrayRuleConditions selectable target) =
        fun _ => exitOf selectable target := rfl
    rw [hexit]
    have hmatch : (XrayRule.matches xray flow flow.destination.addresses ∘
        convertXrayRuleConditions selectable target) = fun c =>
          (convertXrayRuleConditions [] "" c).matches xray flow flow.destination.addresses := rfl
    rw [hmatch]
    cases hfind : expanded.find? (fun c =>
        (convertXrayRuleConditions [] "" c).matches xray flow flow.destination.addresses) with
    | none =>
      rw [List.find?_eq_none] at hfind
      rw [if_neg]
      · rfl
      · simpa using hfind
    | some c =>
      have hc := List.find?_some hfind
      rw [if_pos]
      · rfl
      · exact List.any_eq_true.mpr ⟨c, List.mem_of_find?_eq_some hfind, hc⟩

/-- The last rule matches every flow. -/
theorem blockRest_matches (flow : Flow) (addresses : List Addr) :
    blockRest.matches xray flow addresses = true := by
  have hsplit : splitText ',' "tcp,udp" = ["tcp", "udp"] := by decide
  cases hn : flow.network <;> simp [XrayRule.matches, blockRest, hsplit, hn, NetworkKind.text]

/-- **First match.** A flow goes where the first source rule that hits it sends it, and is
    blocked if there is none. -/
theorem routeExit_convertXrayRules (h : convertXrayRules env selectable rules = .ok xs)
    (resolve : String → List Addr) (flow : Flow) : routeExit xray resolve xs flow =
      some (((rules.findSome? (decision env xray flow)).map (exitOf selectable)).getD
        (.outbound "block")) := by
  obtain ⟨converted, hconv, hxs⟩ := bind_eq_ok h
  cases hxs
  have hfind : (converted.flatten.find?
      (XrayRule.matches xray flow flow.destination.addresses)).map XrayRule.exit =
        (rules.findSome? (decision env xray flow)).map (exitOf selectable) := by
    have hall := mapM_eq_ok hconv
    clear hconv h
    induction hall with
    | nil => rfl
    | cons hrule hrest ih =>
      have hhead := findSome?_convertRule hrule xray flow
      rw [List.flatten_cons, List.find?_append, List.findSome?_cons]
      cases hdecision : decision env xray flow _ with
      | none =>
        rw [hdecision, Option.map_none, Option.map_eq_none_iff] at hhead
        rw [hhead]
        simpa using ih
      | some target =>
        rw [hdecision] at hhead
        obtain ⟨r, hr, hexit⟩ := Option.map_eq_some_iff.mp hhead
        rw [hr]
        simpa using hexit
  unfold routeExit pickRule
  rw [List.find?_append]
  cases hc : converted.flatten.find?
      (XrayRule.matches xray flow flow.destination.addresses) with
  | none =>
    rw [hc] at hfind
    rw [← hfind]
    simp [blockRest_matches]
    rfl
  | some r =>
    rw [hc] at hfind
    rw [← hfind]
    rfl

end Env

end SbGateway.RuntimeConfig
