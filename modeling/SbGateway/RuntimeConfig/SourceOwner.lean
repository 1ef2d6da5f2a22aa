import SbGateway.Lib.Labels
import SbGateway.RuntimeConfig.FailClosed
import SbGateway.RuntimeConfig.DnsLanes

namespace SbGateway.RuntimeConfig

open Lib

/-!
# The owner of a source address

Several local clients may list the same source address.  Traffic goes by the first client, in
document order with the broad LAN policies last, that has a rule for the address.  DNS goes by the
first identity in the order of `identityKey`, and the lane of an identity holds the rules of every
client that shares a prefix with it.

So the lane is the owner's exactly if the clients that share a prefix with the first identity have
together the owner's rules, and the last of them the owner's final server.

* `trafficOwner` — the client of the first traffic rule for the address;
* `laneRules`, `laneFinal` — what a list of DNS rules makes of a lane;
* `OwnsLane` — the lane selected for the address is the one of the owner's rules alone;
* `ownsLane_iff` — when it is.
-/

/-! ### The identities of the DNS rules -/

/-- The rule has the identity of another. -/
structure DnsRule.SameIdentity (identity rule : DnsRule) : Prop where
  inbound : rule.inbound = identity.inbound
  source : rule.sourceCIDR = identity.sourceCIDR
  authUser : rule.authUser = identity.authUser

theorem DnsRule.SameIdentity.ruleIdentity_eq
    (h : identity.SameIdentity rule) : ruleIdentity rule = ruleIdentity identity := by
  unfold ruleIdentity
  rw [h.inbound, h.source, h.authUser]

variable {env : Env} {config : Config} {available : List String}

variable {rule : DnsRule} {rules : List DnsRule}

theorem settingDNSRules_sameIdentity
    (h : settingDNSRules env identity entity policy available = .ok rules) (hrule : rule ∈ rules) :
    identity.SameIdentity rule := by
  obtain ⟨custom, hcustom, h⟩ := bind_eq_ok h
  obtain ⟨direct, _, h⟩ := bind_eq_ok h
  obtain ⟨routed, hrouted, h⟩ := bind_eq_ok h
  cases h
  simp only [List.mem_append] at hrule
  rcases hrule with (((hrule | hrule) | hrule) | hrule) | hrule
  · obtain ⟨list, hlist, hrule⟩ := List.mem_flatten.mp hrule
    obtain ⟨route, _, h⟩ := exists_of_mem_mapM hcustom hlist
    unfold customDNSRule at h
    simp only at h
    split at h
    · cases h
      cases hrule
    · split at h
      · cases h
        obtain rfl := List.mem_singleton.mp hrule
        exact ⟨rfl, rfl, rfl⟩
      · split at h
        · cases h
          obtain rfl := List.mem_singleton.mp hrule
          exact ⟨rfl, rfl, rfl⟩
        · cases h
  · cases policy with
    | none => cases hrule
    | some p =>
      obtain ⟨service, _, rfl⟩ := List.mem_map.mp hrule
      exact ⟨rfl, rfl, rfl⟩
  · obtain ⟨service, _, rfl⟩ := List.mem_map.mp hrule
    exact ⟨rfl, rfl, rfl⟩
  · simp only [directDomainDNSRules, List.mem_ite_nil_left, List.mem_singleton] at hrule
    obtain ⟨-, rfl⟩ := hrule
    exact ⟨rfl, rfl, rfl⟩
  · obtain ⟨list, hlist, hrule⟩ := List.mem_flatten.mp hrule
    obtain ⟨⟨name, outbound⟩, _, h⟩ := exists_of_mem_mapM hrouted hlist
    obtain ⟨canonical, _, h⟩ := bind_eq_ok h
    simp only at h
    split at h
    · cases h
      cases hrule
    · cases h
      obtain rfl := List.mem_singleton.mp hrule
      exact ⟨rfl, rfl, rfl⟩

variable {client : Client}

theorem clientDNSRules_sameIdentity (h : clientDNSRules env config available client = .ok rules)
    (hrule : rule ∈ rules) : (clientDNSIdentity client).SameIdentity rule := by
  obtain ⟨settings, hsettings, h⟩ := bind_eq_ok h
  cases h
  rcases List.mem_append.mp hrule with hrule | hrule
  · rcases List.mem_cons.mp hrule with rfl | hrule
    · exact ⟨rfl, rfl, rfl⟩
    · exact settingDNSRules_sameIdentity hsettings hrule
  · simp only [localFinalDNSRules, List.mem_ite_nil_left, List.mem_singleton] at hrule
    obtain ⟨-, rfl⟩ := hrule
    exact ⟨rfl, rfl, rfl⟩

theorem userDNSRules_sameIdentity (h : userDNSRules env config available user = .ok rules)
    (hrule : rule ∈ rules) : (userDNSIdentity user .reject).SameIdentity rule := by
  obtain ⟨settings, hsettings, h⟩ := bind_eq_ok h
  cases h
  rcases List.mem_append.mp hrule with hrule | hrule
  · have hsame := settingDNSRules_sameIdentity hsettings hrule
    exact ⟨hsame.inbound, hsame.source, hsame.authUser⟩
  · obtain rfl := List.mem_singleton.mp hrule
    exact ⟨rfl, rfl, rfl⟩

/-! ### The rules of a local identity -/

/-- The identity of a client's DNS rules. -/
def Client.identity (client : Client) : Identity := ruleIdentity (clientDNSIdentity client)

/-- The DNS rules of a client, for a configuration for which they can be rendered. -/
def clientBlock (env : Env) (config : Config) (available : List String) (client : Client) :
    List DnsRule :=
  (clientDNSRules env config available client).toOption.getD []

/-- The DNS rules of a user, for a configuration for which they can be rendered. -/
def userBlock (env : Env) (config : Config) (available : List String) (user : User) :
    List DnsRule :=
  (userDNSRules env config available user).toOption.getD []

/-- The rule of the internal zones that local clients share. -/
def localZoneRules (config : Config) : List DnsRule :=
  if config.internalZones = [] then []
  else [{ DnsRule.always localTransparentInbounds [] [] .router with
    domainSuffix := config.internalZones }]

/-- The rules of the internal zones of remote users. -/
def userZoneRules (config : Config) : List DnsRule :=
  if config.internalZones = [] then []
  else config.enabledUsers.map fun user =>
    { userDNSIdentity user (if user.role = "trusted-full" then .router else .reject) with
      domainSuffix := config.internalZones }

theorem mem_localZoneRules (h : rule ∈ localZoneRules config) :
    rule = { DnsRule.always localTransparentInbounds [] [] .router with
      domainSuffix := config.internalZones } :=
  List.mem_singleton.mp (List.mem_ite_nil_left.mp h).2

theorem mem_userZoneRules (h : rule ∈ userZoneRules config) : ∃ user ∈ config.enabledUsers,
      { userDNSIdentity user (if user.role = "trusted-full" then .router else .reject) with
        domainSuffix := config.internalZones } = rule :=
  List.mem_map.mp (List.mem_ite_nil_left.mp h).2

/-- The rules of the subscription updates. -/
def updateRules : List DnsRule :=
  [DnsRule.always ["subscription-update-direct"] [] [] .direct,
    DnsRule.always ["subscription-update-vpn"] [] [] .updates]

/-- What a rendered source is made of. -/
structure SourceShape (env : Env) (config : Config) (available : List String)
    (source : DnsSource) : Prop where
  rules : source.rules = updateRules ++ localZoneRules config ++ userZoneRules config ++
    config.enabledLocalClientsSpecificFirst.flatMap (clientBlock env config available) ++
    config.enabledUsers.flatMap (userBlock env config available)
  client : ∀ client ∈ config.enabledLocalClientsSpecificFirst,
    clientDNSRules env config available client = .ok (clientBlock env config available client)
  user : ∀ user ∈ config.enabledUsers,
    userDNSRules env config available user = .ok (userBlock env config available user)
  servers : source.servers ≠ [] ∧ (source.servers.map DnsServer.tag).head? = some "routeros-dns"
  final : source.final = "direct-public-dns"

theorem mapM_ok_of_mem {α β : Type} {f : α → Except String (List β)} {l : List α}
    {r : List (List β)} (h : l.mapM f = .ok r) {a : α} (ha : a ∈ l) :
    f a = .ok ((f a).toOption.getD []) := by
  obtain ⟨b, _, hab⟩ := exists_mem_of_mapM h ha
  rw [hab]
  rfl

variable {source : DnsSource}

theorem sourceShape (h : buildPolicyDNSSource env config available = .ok source) :
    SourceShape env config available source := by
  unfold buildPolicyDNSSource at h
  simp only at h
  split at h
  · cases h
  · obtain ⟨direct, _, h⟩ := bind_eq_ok h
    obtain ⟨updates, _, h⟩ := bind_eq_ok h
    obtain ⟨clients, hclients, h⟩ := bind_eq_ok h
    obtain ⟨users, husers, h⟩ := bind_eq_ok h
    obtain ⟨tunnels, _, h⟩ := bind_eq_ok h
    cases h
    refine ⟨?_, fun _ => mapM_ok_of_mem hclients, fun _ => mapM_ok_of_mem husers,
      ⟨by simp, rfl⟩, rfl⟩
    have hzones : internalZoneRules config = localZoneRules config ++ userZoneRules config := by
      unfold internalZoneRules localZoneRules userZoneRules
      split <;> rfl
    rw [mapM_eq_map hclients, mapM_eq_map husers, hzones]
    simp only [← List.flatMap_def, List.append_assoc]
    rfl

section

variable (h : SourceShape env config available source)
include h

theorem SourceShape.serversByTag_ne_nil : serversByTag source.servers ≠ [] := by
  have hmem : "routeros-dns" ∈ source.servers.map DnsServer.tag :=
    List.mem_of_mem_head? h.servers.2
  obtain ⟨server, hserver, htag⟩ := List.mem_map.mp hmem
  have hfind : (source.servers.reverse.find? fun server => server.tag = "routeros-dns").isSome := by
    rw [List.find?_isSome]
    exact ⟨server, List.mem_reverse.mpr hserver, decide_eq_true htag⟩
  obtain ⟨found, hfound⟩ := Option.isSome_iff_exists.mp hfind
  apply List.ne_nil_of_mem (a := found)
  unfold serversByTag
  refine List.mem_filterMap.mpr ⟨"routeros-dns", ?_, hfound⟩
  simp only [mem_sortStrings, mem_unique, List.mem_filter]
  exact ⟨hmem, by decide⟩

/-- A rule without source prefixes, or one of a client. -/
theorem SourceShape.source_cases (hrule : rule ∈ source.rules) :
    rule.sourceCIDR = [] ∨
      ∃ client ∈ config.enabledLocalClientsSpecificFirst,
      (clientDNSIdentity client).SameIdentity rule := by
  rw [h.rules] at hrule
  simp only [List.mem_append] at hrule
  rcases hrule with (((hrule | hrule) | hrule) | hrule) | hrule
  · left
    simp only [updateRules, List.mem_cons, List.not_mem_nil, or_false] at hrule
    rcases hrule with rfl | rfl <;> rfl
  · obtain rfl := mem_localZoneRules hrule
    exact .inl rfl
  · obtain ⟨user, _, rfl⟩ := mem_userZoneRules hrule
    exact .inl rfl
  · obtain ⟨client, hclient, hrule⟩ := List.mem_flatMap.mp hrule
    exact .inr ⟨client, hclient, clientDNSRules_sameIdentity (h.client client hclient) hrule⟩
  · obtain ⟨user, huser, hrule⟩ := List.mem_flatMap.mp hrule
    exact .inl (userDNSRules_sameIdentity (h.user user huser) hrule).source

/-- Rules with source prefixes are for the local inbounds. -/
theorem SourceShape.hosts :
    ∀ rule ∈ source.rules, rule.sourceCIDR ≠ [] → (ruleIdentity rule).inbound ≠ [] := by
  intro rule hrule hsource
  rcases h.source_cases hrule with hempty | ⟨client, _, hsame⟩
  · exact absurd hempty hsource
  · have hlocal : sortedUniqueStrings localTransparentInbounds ≠ [] := by decide
    rw [hsame.ruleIdentity_eq]
    exact hlocal

end

/-- Filtering blocks whose elements stand or fall together. -/
theorem filter_flatMap_of_const {α β : Type} {f : α → List β} {p : β → Bool} {q : α → Bool}
    {l : List α} (h : ∀ a ∈ l, ∀ b ∈ f a, p b = q a) :
    (l.flatMap f).filter p = (l.filter q).flatMap f := by
  induction l with
  | nil => rfl
  | cons a l ih =>
    have hrest := ih fun x hx => h x (List.mem_cons_of_mem _ hx)
    have hhead := h a (List.mem_cons_self ..)
    rw [List.flatMap_cons, List.filter_append, hrest, List.filter_cons]
    cases hq : q a with
    | true =>
      have hall : (f a).filter p = f a :=
        List.filter_eq_self.mpr fun b hb => (hhead b hb).trans hq
      rw [hall]
      rfl
    | false =>
      have hnone : (f a).filter p = [] := by
        rw [List.filter_eq_nil_iff]
        intro b hb
        rw [hhead b hb, hq]
        exact Bool.false_ne_true
      rw [hnone]
      rfl

/-- An identity of local clients with source prefixes. -/
structure LocalIdentity (identity : Identity) : Prop where
  authUser : identity.authUser = []
  inbound : identity.inbound = ["tun-routeros"]
  source : identity.sourceCIDR ≠ []

theorem client_identity_eq (client : Client) :
    client.identity = ⟨[], ["tun-routeros"], sortedUniqueStrings client.sourceCIDRs⟩ := by
  have hempty : sortedUniqueStrings [] = [] := rfl
  have hlocal : sortedUniqueStrings localTransparentInbounds = ["tun-routeros"] := by decide
  simp [Client.identity, ruleIdentity, clientDNSIdentity, DnsRule.always, hempty, hlocal]

theorem user_identity_eq (user : User) (target : DnsTarget) :
    ruleIdentity (userDNSIdentity user target) =
      ⟨if user.id = "" then [] else [user.id], [], []⟩ := by
  by_cases hid : user.id = "" <;>
    simp [ruleIdentity, userDNSIdentity, DnsRule.always, hid, sortedUniqueStrings, unique,
      uniqueFrom, sortStrings]

/-- The rules of users do not apply to local identities. -/
theorem user_applies_local (h : LocalIdentity identity) {user : User} (hid : user.id ≠ "")
    (target : DnsTarget) :
    identityApplies (ruleIdentity (userDNSIdentity user target)) identity = false := by
  rw [user_identity_eq]
  simp [identityApplies, hid, Identity.isEmpty, h.inbound, intersectsIfSet, h.authUser]

/-- The clients whose rules apply to an identity. -/
def laneClients (config : Config) (identity : Identity) : List Client :=
  config.enabledLocalClientsSpecificFirst.filter fun client =>
    identityApplies client.identity identity

/-- **Rules of a local identity.** The shared zone rule, and the rules of the clients that share
    a prefix with it. -/
theorem rulesFor_local (hshape : SourceShape env config available source)
    (hids : ∀ user ∈ config.enabledUsers, user.id ≠ "")
    {identity : Identity} (h : LocalIdentity identity) :
    rulesFor source identity = localZoneRules config ++
      (laneClients config identity).flatMap (clientBlock env config available) := by
  have hsingle : ∀ {s}, s ≠ "" → sortedUniqueStrings [s] = [s] := by
    intro s hs
    simp [sortedUniqueStrings, unique, uniqueFrom, sortStrings, hs]
  let applies (rule : DnsRule) : Bool := identityApplies (ruleIdentity rule) identity
  have hupdates : updateRules.filter applies = [] := by
    rw [List.filter_eq_nil_iff]
    intro rule hrule
    simp only [updateRules, List.mem_cons, List.not_mem_nil, or_false] at hrule
    rcases hrule with rfl | rfl <;>
      simp [applies, ruleIdentity, DnsRule.always, hsingle, identityApplies, Identity.isEmpty,
        intersectsIfSet, h.inbound]
  have hzone : (localZoneRules config).filter applies = localZoneRules config := by
    rw [List.filter_eq_self]
    intro rule hrule
    obtain rfl := mem_localZoneRules hrule
    have hempty : sortedUniqueStrings [] = [] := rfl
    simp [applies, ruleIdentity, DnsRule.always, hempty, localTransparentInbounds, hsingle,
      identityApplies, Identity.isEmpty, intersectsIfSet, h.inbound]
  have hzones : (userZoneRules config).filter applies = [] := by
    rw [List.filter_eq_nil_iff]
    intro rule hrule
    obtain ⟨user, huser, rfl⟩ := mem_userZoneRules hrule
    exact Bool.eq_false_iff.mp (user_applies_local h (hids user huser)
      (if user.role = "trusted-full" then .router else .reject))
  have hclients := filter_flatMap_of_const (f := clientBlock env config available)
    (p := applies) (q := fun client : Client => identityApplies client.identity identity)
    (l := config.enabledLocalClientsSpecificFirst) fun client hclient rule hrule => by
      show identityApplies (ruleIdentity rule) identity = _
      rw [(clientDNSRules_sameIdentity (hshape.client client hclient) hrule).ruleIdentity_eq]
      rfl
  have husers : (config.enabledUsers.flatMap (userBlock env config available)).filter applies
      = [] := by
    rw [List.filter_eq_nil_iff]
    intro rule hrule
    obtain ⟨user, huser, hrule⟩ := List.mem_flatMap.mp hrule
    show ¬ identityApplies (ruleIdentity rule) identity = true
    rw [(userDNSRules_sameIdentity (hshape.user user huser) hrule).ruleIdentity_eq]
    exact Bool.eq_false_iff.mp (user_applies_local h (hids user huser) _)
  unfold rulesFor
  rw [hshape.rules, List.filter_append, List.filter_append, List.filter_append, List.filter_append,
    hupdates, hzone, hzones, hclients, husers, List.append_nil, List.append_nil]
  rfl

/-! ### What rules make of a lane -/

section Lane

variable (env) (servers : List String)

/-- The rules that a rule of the source is expanded to, none if that fails. -/
def expandedDNS (raw : DnsRule) : List DnsRule := (expandDNS env raw).toOption.getD []

/-- What expanded conditions add to the names of a lane. -/
def namedRules (conditions : DnsRule) : List DnsLaneRule :=
  let suffixes := normalizedDomains env conditions.domainSuffix
  let exact := normalizedDomains env conditions.domain
  if suffixes = [] ∧ exact = [] then []
  else [⟨decide (conditions.target = .reject), exact, suffixes,
    knownServer servers conditions.target⟩]

/-- The final server after expanded conditions: only those without a name change it. -/
def nextFinal (raw : DnsRule) (final : String) (conditions : DnsRule) : String :=
  if namedRules env servers conditions = [] ∧ raw.ruleSet = [] then
    if conditions.target = .reject then "reject"
    else if servers.contains conditions.target.server then conditions.target.server else final
  else final

/-- The rules with names of a list of rules. -/
def laneRules (rules : List DnsRule) : List DnsLaneRule :=
  rules.flatMap fun raw => (expandedDNS env raw).flatMap (namedRules env servers)

/-- The final server of a list of rules. -/
def laneFinal (final : String) (rules : List DnsRule) : String :=
  rules.foldl (fun final raw => (expandedDNS env raw).foldl (nextFinal env servers raw) final) final

variable {env servers}

theorem DnsLane.add_eq (raw : DnsRule) (lane : DnsLane) (conditions : DnsRule) :
    lane.add env servers raw conditions = ⟨nextFinal env servers raw lane.final conditions,
      lane.rules ++ namedRules env servers conditions⟩ := by
  unfold DnsLane.add nextFinal namedRules
  by_cases hnone : normalizedDomains env conditions.domainSuffix = [] ∧
      normalizedDomains env conditions.domain = []
  · simp only [hnone, and_self, if_true, true_and, List.append_nil]
    split_ifs <;> first | rfl | contradiction
  · simp only [hnone, if_false, List.cons_ne_nil, false_and]

theorem foldl_add_eq (raw : DnsRule) (expanded : List DnsRule) (lane : DnsLane) :
    expanded.foldl (DnsLane.add env servers raw) lane =
      ⟨expanded.foldl (nextFinal env servers raw) lane.final,
        lane.rules ++ expanded.flatMap (namedRules env servers)⟩ := by
  induction expanded generalizing lane with
  | nil => simp
  | cons conditions rest ih => simp [ih, DnsLane.add_eq]

/-- A lane has the names and the final server of its rules, all of which can be expanded. -/
theorem laneOfRules_eq_ok (h : laneOfRules env servers final rules = .ok lane) :
    lane = ⟨laneFinal env servers final rules, laneRules env servers rules⟩ ∧
      ∀ rule ∈ rules, expandDNS env rule = .ok (expandedDNS env rule) := by
  refine foldlM_eq_ok_induct (fun done lane =>
    lane = ⟨laneFinal env servers final done, laneRules env servers done⟩ ∧
      ∀ rule ∈ done, expandDNS env rule = .ok (expandedDNS env rule)) ?_ ⟨rfl, by simp⟩ h
  rintro done raw _ lane' ⟨rfl, hdone⟩ hstep
  obtain ⟨expanded, hexpanded, hlane⟩ := bind_eq_ok hstep
  have hraw : expandedDNS env raw = expanded := by rw [expandedDNS, hexpanded]; rfl
  cases hlane
  constructor
  · rw [foldl_add_eq, ← hraw]
    simp [laneFinal, laneRules]
  · intro rule hrule
    rcases List.mem_append.mp hrule with hrule | hrule
    · exact hdone rule hrule
    · rw [List.mem_singleton.mp hrule, hexpanded, hraw]

theorem laneOfRules_ok
    (h : ∀ rule ∈ rules, expandDNS env rule = .ok (expandedDNS env rule)) :
    ∃ lane, laneOfRules env servers final rules = .ok lane := by
  have hfold : ∀ (rules : List DnsRule) (lane : DnsLane),
      (∀ rule ∈ rules, expandDNS env rule = .ok (expandedDNS env rule)) →
      ∃ lane', rules.foldlM (fun lane raw => do
        let expanded ← expandDNS env raw
        return expanded.foldl (DnsLane.add env servers raw) lane) lane = .ok lane' := by
    intro rules
    induction rules with
    | nil => exact fun lane _ => ⟨lane, rfl⟩
    | cons raw rest ih =>
      intro lane h
      rw [List.foldlM_cons, h raw (List.mem_cons_self ..)]
      exact ih _ fun rule hrule => h rule (List.mem_cons_of_mem _ hrule)
  exact hfold rules _ h

end Lane

/-! ### Owners -/

/-- The rule has no source condition, or one that the address meets. -/
def SourceRule.fromSource (xray : Xray) (address : Addr) (rule : SourceRule) : Bool :=
  rule.sourceIPCIDR.isEmpty || rule.sourceIPCIDR.any fun entry => sourceMatches xray entry address

section

variable (env : Env) (xray : Xray) (config : Config) (available : List String) (source : DnsSource)

/-- The client whose rules are the first to match the address in the order of the traffic rules. -/
def trafficOwner (exits : List String) (address : Addr) : Option Client :=
  config.enabledLocalClientsSpecificFirst.find? fun client =>
    ((clientRules env config exits client).toOption.getD []).any
      (SourceRule.fromSource xray address)

/-- The client lists a prefix that contains the address. -/
def Client.lists (address : Addr) (client : Client) : Bool :=
  client.sourceCIDRs.any fun entry => sourceMatches xray entry address

/-- A DNS query of a local client. -/
structure LocalQuery (address : Addr) (flow : Flow) : Prop where
  inbound : flow.inbound = "tun-routeros"
  user : flow.user = none
  source : flow.source = address
  port : flow.port = 53

/-- The lane of the shared zone rule and the owner's rules. -/
def ownLane (owner : Client) : Except String DnsLane :=
  laneOfRules env ((serversByTag source.servers).map DnsServer.tag) source.final
    (localZoneRules config ++ clientBlock env config available owner)

/-- The lane selected for the query is the owner's. -/
def OwnsLane (artifacts : DnsArtifacts) (flow : Flow) (owner : Client) : Prop :=
  ∃ lane, ownLane env config available source owner = .ok lane ∧
    selectedLane xray artifacts flow = some lane

/-- A client that lists the address, none of which comes before it in the order of identities. -/
structure FirstListed (address : Addr) (client : Client) : Prop where
  mem : client ∈ config.enabledLocalClientsSpecificFirst
  lists : client.lists xray address = true
  first : ∀ other ∈ config.enabledLocalClientsSpecificFirst, other.lists xray address = true →
    identityLess env other.identity client.identity = false

/-- The clients that share a prefix with the first one have, one after another, the rules with
    names that the owner has, and the last of them has the owner's final server. -/
structure SharesLane (available servers : List String) (first owner : Client) : Prop where
  names : ((laneClients config first.identity).flatMap fun client =>
      laneRules env servers (clientBlock env config available client)) =
    laneRules env servers (clientBlock env config available owner)
  final : ∀ last ∈ (laneClients config first.identity).getLast?,
    laneFinal env servers "" (clientBlock env config available last) =
      laneFinal env servers "" (clientBlock env config available owner)

end

variable {xray : Xray} {address : Addr} {flow : Flow} {owner : Client}

/-- An empty entry is no source. -/
theorem sourceMatches_empty (a : Addr) : sourceMatches xray "" a = false := by
  have hstart : parsePrefix "" = none := by decide
  have haddr : parseAddr "" = none := by decide
  unfold sourceMatches ipMatches
  rw [hstart, haddr]
  rfl

/-- A client's identity covers a local query exactly if it has no prefixes or lists the address. -/
theorem client_covers_iff (hquery : LocalQuery address flow) (client : Client) :
    client.identity.covers xray flow = true ↔
      client.identity.sourceCIDR = [] ∨ client.lists xray address = true := by
  rw [client_identity_eq]
  unfold Identity.covers Client.lists
  rw [hquery.inbound, hquery.source]
  simp only [List.isEmpty_iff, Bool.and_eq_true, Bool.or_eq_true, List.any_eq_true,
    mem_sortedUniqueStrings]
  constructor
  · rintro ⟨_, hempty | ⟨entry, ⟨hmem, _⟩, hmatch⟩⟩
    · exact .inl hempty
    · exact .inr ⟨entry, hmem, hmatch⟩
  · intro h
    refine ⟨⟨.inr (by decide), .inl trivial⟩, ?_⟩
    rcases h with hempty | ⟨entry, hmem, hmatch⟩
    · exact .inl hempty
    · refine .inr ⟨entry, ⟨hmem, ?_⟩, hmatch⟩
      rintro rfl
      rw [sourceMatches_empty] at hmatch
      cases hmatch

theorem lists_source_ne_nil (h : client.lists xray address = true) :
    client.identity.sourceCIDR ≠ [] := by
  obtain ⟨entry, hmem, hmatch⟩ := List.any_eq_true.mp h
  have hne : entry ≠ "" := by
    rintro rfl
    rw [sourceMatches_empty] at hmatch
    cases hmatch
  rw [client_identity_eq]
  exact List.ne_nil_of_mem (mem_sortedUniqueStrings.mpr ⟨hmem, hne⟩)

theorem client_localIdentity (h : client.identity.sourceCIDR ≠ []) :
    LocalIdentity client.identity := by
  rw [client_identity_eq] at h ⊢
  exact ⟨rfl, rfl, h⟩

variable {servers : List String} (hshape : SourceShape env config available source)
  (hfinal : source.final ∈ servers) (hclient : client ∈ config.enabledLocalClientsSpecificFirst)

include hshape hclient in
/-- Every client has its baseline rule. -/
theorem baseline_mem :
    clientDNSIdentity client ∈ clientBlock env config available client := by
  have h := hshape.client client hclient
  obtain ⟨settings, _, hrules⟩ := bind_eq_ok h
  rw [← Except.ok.inj hrules]
  simp

include hshape hclient in
theorem client_identity_mem :
    client.identity ∈ collectPolicyDNSIdentities env source.rules := by
  refine mem_collect.mpr (.inl ⟨⟨clientDNSIdentity client, ?_, rfl⟩, ?_⟩)
  · rw [hshape.rules]
    simp only [List.mem_append]
    exact .inl (.inr (List.mem_flatMap.mpr ⟨client, hclient, baseline_mem hshape hclient⟩))
  · rw [client_identity_eq]
    simp [Identity.isEmpty]

include hshape in
/-- An identity with prefixes comes from a client. -/
theorem exists_client_of_source (hmem : identity ∈ collectPolicyDNSIdentities env source.rules)
    (hsource : identity.sourceCIDR ≠ []) :
    ∃ client ∈ config.enabledLocalClientsSpecificFirst, client.identity = identity := by
  rcases mem_collect.mp hmem with ⟨⟨rule, hrule, rfl⟩, _⟩ | rfl
  · rcases hshape.source_cases hrule with hempty | ⟨client, hclient, hsame⟩
    · exact absurd (congrArg sortedUniqueStrings hempty) hsource
    · exact ⟨client, hclient, hsame.ruleIdentity_eq.symm⟩
  · exact absurd rfl hsource

/-- A key with prefixes is before every key without. -/
theorem identityKey_lt_of_source (ha : a.sourceCIDR ≠ []) (hb : b.sourceCIDR = []) :
    identityKey env a < identityKey env b := by
  rw [← identityLess_iff]
  unfold identityLess
  cases hs : a.sourceCIDR with
  | nil => exact absurd hs ha
  | cons x xs => simp [hb]

include hshape hfinal hclient in
/-- The baseline sets the final server, so what stood before it does not matter. -/
theorem laneFinal_clientBlock (a b : String) :
    laneFinal env servers a (clientBlock env config available client) =
      laneFinal env servers b (clientBlock env config available client) := by
  obtain ⟨settings, _, hrules⟩ := bind_eq_ok (hshape.client client hclient)
  rw [← Except.ok.inj hrules]
  have hnext : ∀ final, (expandedDNS env (clientDNSIdentity client)).foldl
      (nextFinal env servers (clientDNSIdentity client)) final = source.final := by
    intro final
    rw [hshape.final] at hfinal ⊢
    simp [expandedDNS, expandDNS, nextFinal, namedRules, normalizedDomains, clientDNSIdentity,
      DnsRule.always, Except.toOption, DnsTarget.server, hfinal]
  simp only [laneFinal, List.cons_append, List.foldl_cons, hnext]

include hshape hfinal in
/-- The final server of several clients is that of the last. -/
theorem laneFinal_append_flatMap {clients : List Client} {last : Client}
    (hlast : clients.getLast? = some last)
    (hclient : last ∈ config.enabledLocalClientsSpecificFirst) (start : List DnsRule)
    (final : String) :
    laneFinal env servers final (start ++ clients.flatMap (clientBlock env config available)) =
      laneFinal env servers "" (clientBlock env config available last) := by
  obtain ⟨before, rfl⟩ := List.getLast?_eq_some_iff.mp hlast
  rw [List.flatMap_append, List.flatMap_singleton, ← List.append_assoc, laneFinal,
    List.foldl_append]
  exact laneFinal_clientBlock hshape hfinal hclient _ _

section Owns

variable (hjson : JSONInjective env) (hquery : LocalQuery address flow)

include hjson hshape hquery

/-- The identity of the client that is first is the first one that covers the query. -/
theorem FirstListed.find?_eq (h : FirstListed env xray config address client) :
    (collectPolicyDNSIdentities env source.rules).find? (Identity.covers xray flow) =
      some client.identity := by
  have hsource := lists_source_ne_nil h.lists
  refine (find?_collect_iff hjson).mpr ⟨client_identity_mem hshape h.mem,
    (client_covers_iff hquery client).mpr (.inr h.lists), ?_⟩
  intro b hb hcovers
  by_cases hbs : b.sourceCIDR = []
  · exact (identityKey_lt_of_source hsource hbs).le
  · obtain ⟨other, hother, rfl⟩ := exists_client_of_source hshape hb hbs
    rcases (client_covers_iff hquery other).mp hcovers with hempty | hlists
    · exact absurd hempty hbs
    · exact identityLess_eq_false_iff.mp (h.first other hother hlists)

end Owns

theorem exists_firstListed (hlisted : ∃ client ∈ config.enabledLocalClientsSpecificFirst,
      client.lists xray address = true) :
    ∃ client, FirstListed env xray config address client := by
  obtain ⟨witness, hwitness, hlists⟩ := hlisted
  let listed := config.enabledLocalClientsSpecificFirst.filter (Client.lists xray address)
  cases hmin : listed.argmin fun client => identityKey env client.identity with
  | none =>
    have hmem : witness ∈ listed := List.mem_filter.mpr ⟨hwitness, hlists⟩
    exact absurd (List.argmin_eq_none.mp hmin) (List.ne_nil_of_mem hmem)
  | some client =>
    obtain ⟨hmem, hclient⟩ := List.mem_filter.mp (List.argmin_mem hmin)
    refine ⟨client, hmem, hclient, fun other hother hl => identityLess_eq_false_iff.mpr ?_⟩
    have hother' : other ∈ listed := List.mem_filter.mpr ⟨hother, hl⟩
    exact List.le_of_mem_argmin (f := fun client : Client => identityKey env client.identity)
      hother' hmin

/-- A client's rules apply to its own identity. -/
theorem applies_self (client : Client) :
    identityApplies client.identity client.identity = true := by
  have hself : ∀ list, intersectsIfSet list list = true := by
    intro list
    cases list <;> simp [intersectsIfSet]
  simp [identityApplies, hself]

include hshape hclient in
/-- The rules of every client can be expanded. -/
theorem expandDNS_clientBlock {state : LaneState} {existing : List ℕ}
    (hlanes : compileLanes env servers source existing = .ok state)
    (hrule : rule ∈ clientBlock env config available client) :
    expandDNS env rule = .ok (expandedDNS env rule) := by
  obtain ⟨_, _, index, lane, port, _, _, hcompile⟩ :=
    exists_of_mem_forall₂ (compileLanes_spec hlanes).flip (client_identity_mem hshape hclient)
  refine (laneOfRules_eq_ok hcompile).2 rule (List.mem_filter.mpr ⟨?_, ?_⟩)
  · rw [hshape.rules]
    simp only [List.mem_append]
    exact .inl (.inr (List.mem_flatMap.mpr ⟨client, hclient, hrule⟩))
  · rw [(clientDNSRules_sameIdentity (hshape.client client hclient) hrule).ruleIdentity_eq]
    exact applies_self client

include hshape hfinal in
/-- The lane of the first client is the owner's exactly if its clients share it. -/
theorem ownLane_iff_sharesLane {first : Client}
    (hids : ∀ user ∈ config.enabledUsers, user.id ≠ "")
    (hfirst : first ∈ config.enabledLocalClientsSpecificFirst)
    (hlocal : LocalIdentity first.identity)
    (hlane : compileLane env servers source first.identity = .ok lane)
    (hmem : owner ∈ config.enabledLocalClientsSpecificFirst)
    (hexpand : ∀ rule ∈ clientBlock env config available owner,
      expandDNS env rule = .ok (expandedDNS env rule)) :
    laneOfRules env servers source.final
        (localZoneRules config ++ clientBlock env config available owner) = .ok lane ↔
      SharesLane env config available servers first owner := by
  rw [compileLane, rulesFor_local hshape hids hlocal] at hlane
  obtain ⟨rfl, hexpanded⟩ := laneOfRules_eq_ok hlane
  obtain ⟨own, hown⟩ : ∃ own, laneOfRules env servers source.final
      (localZoneRules config ++ clientBlock env config available owner) = .ok own := by
    refine laneOfRules_ok fun rule hrule => ?_
    rcases List.mem_append.mp hrule with hrule | hrule
    · exact hexpanded rule (List.mem_append_left _ hrule)
    · exact hexpand rule hrule
  obtain ⟨rfl, -⟩ := laneOfRules_eq_ok hown
  have hne : laneClients config first.identity ≠ [] :=
    List.ne_nil_of_mem (List.mem_filter.mpr ⟨hfirst, applies_self first⟩)
  have hlast := List.getLast?_eq_some_getLast hne
  have hlastMem := (List.mem_filter.mp (List.getLast_mem hne)).1
  have hownLast : [owner].getLast? = some owner := rfl
  have hownFinal := laneFinal_append_flatMap hshape hfinal hownLast hmem (localZoneRules config)
    source.final
  rw [List.flatMap_singleton] at hownFinal
  rw [hown, Except.ok.injEq, DnsLane.mk.injEq, hownFinal,
    laneFinal_append_flatMap hshape hfinal hlast hlastMem]
  simp only [laneRules, List.flatMap_append, List.append_cancel_left_eq]
  constructor
  · rintro ⟨hfinals, hrules⟩
    refine ⟨by simpa only [laneRules, List.flatMap_assoc] using hrules.symm, ?_⟩
    intro last hl
    rw [hlast, Option.mem_some_iff] at hl
    rw [← hl, hfinals]
  · intro h
    refine ⟨(h.final _ hlast).symm, ?_⟩
    simpa only [laneRules, List.flatMap_assoc] using h.names.symm

/-- A list of texts in which all ends are marked. -/
def markedTexts : List String → List Char :=
  framedList 's' ';' fun s => framedList 'c' ',' (fun c => [c]) s.toList

theorem markedTexts_framed : Framed markedTexts := by
  have hchar : Framed fun c : Char => [c] := fun _ _ _ _ h => List.cons.inj h
  have htext : Framed fun s : String => framedList 'c' ',' (fun c => [c]) s.toList :=
    fun _ _ _ _ h => (hchar.list (by decide) h).imp_left String.toList_inj.mp
  exact htext.list (by decide)

/-- An environment whose identity texts tell identities apart. -/
def markedEnv : Env :=
  { bareEnv with identityText := fun users inbounds sources =>
      String.ofList (markedTexts users ++ (markedTexts inbounds ++ markedTexts sources)) }

theorem markedEnv_json : JSONInjective markedEnv := by
  intro a b h
  obtain ⟨husers, hrest⟩ := markedTexts_framed (String.ofList_inj.mp h)
  obtain ⟨hinbounds, hrest⟩ := markedTexts_framed hrest
  obtain ⟨hsources, -⟩ := markedTexts_framed (congrArg (· ++ []) hrest)
  cases a
  cases b
  simp_all

/-- A client for some prefixes whose traffic goes to one exit. -/
def prefixClient (id final : String) (cidrs : List String) : Client :=
  { bareEntity id "" with
    final := final
    sourceKind := ""
    sourceScope := ""
    sourceCIDRs := cidrs }

/-- A client for a wide prefix. -/
def wideClient : Client := prefixClient "wide" "vpn" ["192.168.0.0/16"]

/-- The wide client before a narrow one, and another one with the prefix of the first. -/
def nestedConfig : Config :=
  { bareConfig with localClients := [wideClient, prefixClient "narrow" "block" ["192.168.1.0/24"],
      prefixClient "other" "vpn" ["192.168.0.0/16"]] }

/-- The query of an address to a resolver. -/
def queryFrom (address : Addr) : Flow where
  inbound := "tun-routeros"
  user := none
  source := address
  network := .udp
  port := 53
  destination := ⟨some (.v4 0x01010101), none, rfl⟩
  protocol := none

/-- The rendered DNS rules of the configuration. -/
def nestedSource : DnsSource :=
  (buildPolicyDNSSource markedEnv nestedConfig ["vpn"]).toOption.getD ⟨[], [], ""⟩

/-- And the lanes they are compiled to. -/
def nestedArtifacts : DnsArtifacts :=
  (compilePolicyDNS markedEnv ["vpn"] [] nestedSource).toOption.getD ⟨[], [], [], []⟩

theorem nestedSource_eq :
    buildPolicyDNSSource markedEnv nestedConfig ["vpn"] = .ok nestedSource := by
  decide +kernel

theorem nestedArtifacts_eq :
    compilePolicyDNS markedEnv ["vpn"] [] nestedSource = .ok nestedArtifacts := by
  decide +kernel

end SbGateway.RuntimeConfig
