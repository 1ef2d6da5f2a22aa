import SbGateway.RuntimeConfig.Settings

namespace SbGateway.RuntimeConfig

open Lib

/-!
# The routes of remote users

Where the rendered rules send a flow of a remote inbound, read off the configuration: a trusted
grant comes first, then the protection of the router and the LAN, then the settings of the
flow's own user in their order.  `remoteTarget` is this reading, `remoteTarget_eq` says that the
rules follow it.

* `RemoteFlow` — a flow of a remote inbound that is not DNS;
* `findSome?_grantRules`, `findSome?_protectionRules`, `findSome?_userRules` — what each part of
  the rules does to such a flow;
* `remoteTarget_eq` — the first matching rule of a remote flow.
-/

/-! ### Rules that remote flows pass -/

/-- A flow of a remote inbound, not to a DNS port. -/
structure RemoteFlow (config : Config) (flow : Flow) : Prop where
  inbound_mem : flow.inbound ∈ remoteInbounds config
  port_ne_53 : flow.port ≠ 53
  port_ne_853 : flow.port ≠ 853

variable {env : Env} {xray : Xray} {config : Config} {flow : Flow}

theorem mem_remoteInbounds (h : tag ∈ remoteInbounds config) :
    tag ∈ "vless-xhttp-reality" :: baseRemoteInbounds := by
  unfold remoteInbounds at h
  rcases List.mem_append.mp h with h | h
  · exact List.mem_cons_of_mem _ h
  · split at h
    · rw [List.mem_singleton] at h
      simp [h]
    · cases h

/-- The inbounds of remote users differ from all others by their first letter. -/
theorem remote_head (h : tag ∈ remoteInbounds config) :
    tag.toList.head? = some 'v' ∨ tag.toList.head? = some 'h' := by
  have hall : ∀ t ∈ "vless-xhttp-reality" :: baseRemoteInbounds,
      t.toList.head? = some 'v' ∨ t.toList.head? = some 'h' := by decide
  exact hall tag (mem_remoteInbounds h)

theorem remote_ne (h : tag ∈ remoteInbounds config)
    (hv : other.toList.head? ≠ some 'v') (hh : other.toList.head? ≠ some 'h') : tag ≠ other := by
  rintro rfl
  rcases remote_head h with h | h
  · exact hv h
  · exact hh h

theorem head_of_mem_lanes (h : tag ∈ healthProbeLaneTags config count) :
    tag.toList.head? = some 'o' := by
  unfold healthProbeLaneTags at h
  rcases List.mem_cons.mp h with rfl | h
  · decide
  · obtain ⟨i, _, rfl⟩ := List.mem_map.mp h
    split
    · decide
    · rw [String.toList_append, List.head?_append]
      have : "outbound-health-background-".toList.head? = some 'o' := by decide
      rw [this]
      rfl

theorem remote_notMem_lanes (h : tag ∈ remoteInbounds config) :
    tag ∉ healthProbeLaneTags config count := by
  intro hlane
  have hhead := head_of_mem_lanes hlane
  rcases remote_head h with h | h <;> rw [hhead] at h <;> simp at h

theorem remote_notMem_local (h : tag ∈ remoteInbounds config) : tag ∉ localTransparentInbounds := by
  intro hlocal
  rw [localTransparentInbounds, List.mem_singleton] at hlocal
  exact remote_ne h (by decide) (by decide) hlocal

/-- A rule without a target passes every flow on. -/
theorem decision_eq_none_of_target (h : rule.action.target = none) :
    decision env xray flow rule = none := by
  unfold decision
  rw [h, ite_self]

/-- A rule with a target decides the flows it hits. -/
theorem decision_eq_ite (hhits : hits env xray flow rule = b)
    (htarget : rule.action.target = some target) :
    decision env xray flow rule = if b then some target else none := by
  unfold decision
  rw [hhits, htarget]

/-- A flow of none of their inbounds passes the rules of DNS, subscription updates and probes. -/
theorem serviceInboundRules_pass_of_notMem (nodes : List Node) (available : List String)
    (hsub : flow.inbound ∉ ["subscription-update-direct", "subscription-update-vpn"])
    (hlanes : flow.inbound ∉ healthProbeLaneTags config (healthProbeInventoryCount nodes))
    (hport853 : flow.port ≠ 853) :
    ∀ rule ∈ serviceInboundRules config nodes available, decision env xray flow rule = none := by
  intro rule hrule
  unfold serviceInboundRules at hrule
  simp only [List.mem_append, List.mem_cons, List.not_mem_nil, or_false] at hrule
  rcases hrule with (((rfl | rfl | rfl | rfl | rfl) | hlane) | hdns) | hstrict
  · exact decision_eq_none_of_target rfl
  · exact decision_eq_none_of_target rfl
  · apply decision_eq_none_of_inbound
    · simp
    · intro hmem
      rcases List.mem_append.mp hmem with hmem | hmem
      · exact hsub hmem
      · exact hlanes hmem
  · apply decision_eq_none_of_inbound
    · simp
    · intro hmem
      exact hsub (by simp_all)
  · apply decision_eq_none_of_inbound
    · simp
    · intro hmem
      exact hsub (by simp_all)
  · obtain ⟨lane, hmem, rfl⟩ := List.mem_map.mp hlane
    apply decision_eq_none_of_inbound
    · simp
    · intro heq
      rw [List.mem_singleton] at heq
      have hmem := (List.mem_filter.mp hmem).1
      rw [← heq] at hmem
      exact hlanes hmem
  · split at hdns
    · rw [List.mem_singleton] at hdns
      exact decision_eq_none_of_target (by rw [hdns]; rfl)
    · cases hdns
  · split at hstrict
    · rw [List.mem_singleton] at hstrict
      unfold decision
      rw [if_neg]
      -- the rule is for the port of DNS over TLS
      rw [hits_plain (by rw [hstrict]; rfl), XrayRule.matches_iff]
      intro hm
      have hport : (convertXrayRuleConditions [] "" rule.conditions).port = "853" := by
        rw [hstrict]
        show joinValues ([toString 853] ++ [].map dashed) = "853"
        decide
      have hitem := hm.port
      have hsplit : splitText ',' "853" = ["853"] := by decide
      have hfields : fieldsOf '-' "853".toList = ["853".toList] := by decide
      have hnum : readNumber 10 "853".toList = some 853 := by decide
      rw [hport, hsplit] at hitem
      simp only [List.mem_singleton, exists_eq_left, portItem, hfields, hnum] at hitem
      rcases hitem with h | h
      · exact absurd h (by decide)
      · exact hport853 (by simpa using Eq.symm (by simpa using h))
    · cases hstrict

/-- Remote flows pass the rules of DNS, subscription updates and probes. -/
theorem serviceInboundRules_pass (hflow : RemoteFlow config flow) (nodes : List Node)
    (available : List String) :
    ∀ rule ∈ serviceInboundRules config nodes available, decision env xray flow rule = none := by
  have hin := hflow.inbound_mem
  apply serviceInboundRules_pass_of_notMem nodes available
  · intro hmem
    have hhead : ∀ t ∈ ["subscription-update-direct", "subscription-update-vpn"],
        t.toList.head? ≠ some 'v' ∧ t.toList.head? ≠ some 'h' := by decide
    exact remote_ne hin (hhead _ hmem).1 (hhead _ hmem).2 rfl
  · exact remote_notMem_lanes hin
  · exact hflow.port_ne_853

theorem xrayNodeLoopRule_pass (hflow : RemoteFlow config flow) (nodes : List Node) :
    ∀ rule ∈ xrayNodeLoopRule nodes, decision env xray flow rule = none := by
  intro rule hrule
  unfold xrayNodeLoopRule at hrule
  simp only at hrule
  split at hrule
  · cases hrule
  · rw [List.mem_singleton] at hrule
    rw [hrule]
    apply decision_eq_none_of_inbound
    · simp [localTransparentInbounds]
    · exact remote_notMem_local hflow.inbound_mem

/-! ### Grants and protection -/

/-- The management targets of a configuration for which they can be rendered. -/
def managementTargets (config : Config) : List String :=
  match xrayManagementTargets config with
  | .ok targets => targets
  | .error _ => []

/-- The destinations a user's trust opens. -/
def grantTargets (config : Config) (user : User) : List String :=
  let role := textDefault user.role "limited"
  if role = "trusted-full" then trustedFullNetworks config ++ managementTargets config
  else if role = "trusted-limited" then allowedCIDRs config user
  else []

/-- The user is the one of the flow. -/
def User.owns (user : User) (flow : Flow) : Bool := decide (flow.user = some user.id)

/-- A trusted grant of the flow's user lists the destination. -/
def granted (xray : Xray) (config : Config) (flow : Flow) : Bool :=
  config.enabledUsers.any fun user => user.owns flow && listed xray flow (grantTargets config user)

/-- The destination belongs to the router or to the LAN. -/
def shielded (xray : Xray) (config : Config) (flow : Flow) : Bool :=
  (!config.allowRouterManagement.getD false && listed xray flow (managementTargets config)) ||
    listed xray flow (trustedFullNetworks config)

@[simp] theorem listed_append (xs ys : List String) :
    listed xray flow (xs ++ ys) = (listed xray flow xs || listed xray flow ys) :=
  List.any_append

@[simp] theorem listed_nil : listed xray flow [] = false := rfl

theorem listed_iff : listed xray flow entries = true ↔
    ∃ entry ∈ entries, ∃ a ∈ flow.destination.addresses, ipMatches xray entry a = true := by
  simp [listed]

/-- A rule for the remote inbounds with a list of addresses, for one user or for all. -/
theorem hits_addresses (hflow : RemoteFlow config flow)
    (hsets : rule.ruleSet = []) (hin : rule.inbound = remoteInbounds config)
    (hip : rule.ipCIDR ≠ []) (hport : rule.port.strings = [])
    (hrest : rule.sourceIPCIDR = [] ∧ rule.protocol = [] ∧ rule.domain = [] ∧
      rule.domainSuffix = [] ∧ rule.network = [] ∧ rule.ipVersion = none) :
    hits env xray flow rule = true ↔
      (rule.authUser = [] ∨ ∃ u, flow.user = some u ∧ u ∈ rule.authUser) ∧
        listed xray flow rule.ipCIDR = true := by
  obtain ⟨hsource, hprotocol, hdomain, hsuffix, hnetwork, hversion⟩ := hrest
  have hjoin : joinValues [] = "" := rfl
  have hip' : (convertXrayRuleConditions [] "" rule.conditions).ip = rule.ipCIDR := by
    simp [convertXrayRuleConditions, SourceRule.conditions, hversion]
  rw [hits_plain hsets, XrayRule.matches_iff, listed_iff]
  constructor
  · intro hm
    refine ⟨hm.user, ?_⟩
    have h := hm.ip
    rw [hip'] at h
    exact h.resolve_left hip
  · rintro ⟨huser, hlisted⟩
    refine ⟨.inr ?_, huser, .inr ?_, .inl hsource, .inl hprotocol, .inl ?_, .inl ?_, .inl ?_⟩
    · show flow.inbound ∈ rule.inbound
      rw [hin]
      exact hflow.inbound_mem
    · rw [hip']
      exact hlisted
    · simp [convertXrayRuleConditions, Conditions.domains, SourceRule.conditions, hdomain, hsuffix]
    · simp [convertXrayRuleConditions, SourceRule.conditions, hnetwork, hjoin]
    · simp [convertXrayRuleConditions, SourceRule.conditions, hport, hjoin]

theorem owns_iff {user : User} : user.owns flow = true ↔ flow.user = some user.id := by
  simp [User.owns]

/-- A grant rule opens its targets to its user. -/
theorem decision_grant (hflow : RemoteFlow config flow) (user : User)
    (hne : targets ≠ []) (port : PortField) (hport : port.strings = []) :
    decision env xray flow { userIdentity config user with
        ipCIDR := targets, port := port, action := .route "direct-wan" } =
      if user.owns flow && listed xray flow targets then some "direct-wan" else none := by
  refine decision_eq_ite (Bool.eq_iff_iff.mpr ?_) rfl
  refine (hits_addresses hflow rfl rfl hne hport ⟨rfl, rfl, rfl, rfl, rfl, rfl⟩).trans ?_
  rw [Bool.and_eq_true, owns_iff]
  simp [userIdentity]

/-- The grants of one user. -/
theorem findSome?_grantRules (hflow : RemoteFlow config flow)
    (h : grantRules config (managementTargets config) user = .ok rules) :
    rules.findSome? (decision env xray flow) =
      if user.owns flow && listed xray flow (grantTargets config user) then some "direct-wan"
      else none := by
  have hgrant : ∀ targets : List String, List.findSome? (decision env xray flow)
      (if targets = [] then [] else [{ userIdentity config user with
        ipCIDR := targets, action := .route "direct-wan" }]) =
        if user.owns flow && listed xray flow targets then some "direct-wan" else none := by
    intro targets
    split
    · rename_i hempty
      simp [hempty]
    · rename_i hne
      rw [List.findSome?_singleton]
      exact decision_grant hflow user hne .absent rfl
  unfold grantRules at h
  unfold grantTargets
  simp only at h ⊢
  split at h
  · rename_i hrole
    cases h
    rw [if_pos hrole, List.findSome?_append, hgrant, hgrant, listed_append]
    cases user.owns flow <;> cases listed xray flow (trustedFullNetworks config) <;> simp
  · rename_i hfull
    rw [if_neg hfull]
    split at h
    · rename_i hrole
      rw [if_pos hrole]
      split at h
      · rename_i hempty
        cases h
        simp [hempty]
      · rename_i hne
        split at h
        · cases h
        · rename_i ports _
          cases h
          rw [List.map_singleton, List.findSome?_singleton]
          apply decision_grant hflow user hne
          split <;> rfl
    · rename_i hlimited
      cases h
      simp [hlimited]

theorem findSome?_protectionRules (hflow : RemoteFlow config flow) :
    (protectionRules config (managementTargets config)).findSome? (decision env xray flow) =
      if shielded xray config flow then some "block" else none := by
  have hrule : ∀ (action : Action) (targets : List String), targets ≠ [] →
      action.target = some "block" →
      decision env xray flow { SourceRule.always action with
        inbound := remoteInbounds config, ipCIDR := targets } =
          if listed xray flow targets then some "block" else none := by
    intro action targets hne htarget
    refine decision_eq_ite (Bool.eq_iff_iff.mpr ?_) htarget
    refine (hits_addresses hflow rfl rfl hne rfl ⟨rfl, rfl, rfl, rfl, rfl, rfl⟩).trans ?_
    simp [SourceRule.always]
  unfold protectionRules shielded
  rw [List.findSome?_append]
  have hlan : List.findSome? (decision env xray flow)
      (if trustedFullNetworks config = [] then [] else [{ SourceRule.always (.route "block") with
        inbound := remoteInbounds config, ipCIDR := trustedFullNetworks config }]) =
        if listed xray flow (trustedFullNetworks config) then some "block" else none := by
    split
    · rename_i hempty
      simp [hempty]
    · rename_i hne
      rw [List.findSome?_singleton]
      exact hrule _ _ hne rfl
  rw [hlan]
  split
  · rename_i hskip
    rcases hskip with hempty | hallow
    · simp [hempty]
    · simp [hallow]
  · rename_i hkeep
    rw [not_or] at hkeep
    rw [List.findSome?_singleton, hrule _ _ hkeep.1 rfl]
    have hallow : config.allowRouterManagement.getD false = false := by simpa using hkeep.2
    rw [hallow]
    cases listed xray flow (managementTargets config) <;> simp

/-! ### The user's own rules -/

/-- The destination is an IPv6 literal, whatever name sniffing has found. -/
def Destination.isIPv6 (destination : Destination) : Bool :=
  destination.address.any fun address => !address.is4

/-- Where IPv6 literals of a user go. -/
def ipv6Exit (config : Config) (available : List String) (user : User) : String :=
  if textDefault config.remoteIPv6Mode "proxy_only" = "proxy_only" ∧
      selectableNonDirect user.policyID available = true then user.policyID
  else "block"

/-- The rules of the user's settings, for a configuration for which they can be rendered. -/
def userSettings (env : Env) (config : Config) (available : List String) (user : User) :
    List SourceRule :=
  match settingRules env (config.forceTCPForProxyServices.getD false) (userIdentity config user)
      user.toEntity (config.policyByID user.policyID) available with
  | .ok rules => rules
  | .error _ => []

/-- Where the user's own rules send a flow of theirs. -/
def userTarget (env : Env) (xray : Xray) (config : Config) (available : List String) (user : User)
    (flow : Flow) : String :=
  if flow.destination.isIPv6 then ipv6Exit config available user
  else ((userSettings env config available user).findSome? (decision env xray flow)).getD
    (remoteFinal (config.policyByID user.policyID) available)

theorem ipMatches_ipv6 (a : Addr) : ipMatches xray "::/0" a = !a.is4 := by
  have hparse : parsePrefix "::/0" = some ⟨.v6 0, 0, by decide⟩ := by decide +kernel
  unfold ipMatches
  rw [hparse]
  show Prefix.contains _ a = _
  rw [Bool.eq_iff_iff, Prefix.contains_iff]
  cases a with
  | v4 x => simp [Addr.is4]
  | v6 x =>
    have hx := x.isLt
    simp [Addr.is4, Addr.high, Addr.toNat, Addr.bitLen]
    omega

/-- The IPv6 rule of a user decides the IPv6 literals of that user. -/
theorem decision_ipv6Rule (hflow : RemoteFlow config flow) (available : List String)
    (howns : user.owns flow = true) : decision env xray flow (ipv6Rule config available user) =
      if flow.destination.isIPv6 then some (ipv6Exit config available user) else none := by
  apply decision_eq_ite
  · rw [hits_plain rfl, Bool.eq_iff_iff, XrayRule.matches_iff]
    constructor
    · intro hm
      rcases hm.ip with h | ⟨entry, hentry, a, ha, hmatch⟩
      · cases h
      · have hentry : entry ∈ [] ++ ["::/0"] := hentry
        simp only [List.nil_append, List.mem_singleton] at hentry
        rw [hentry, ipMatches_ipv6] at hmatch
        simpa [Destination.isIPv6, Option.mem_toList.mp ha] using hmatch
    · intro hv6
      refine ⟨.inr hflow.inbound_mem, .inr ⟨user.id, owns_iff.mp howns, by simp [ipv6Rule,
        userIdentity, convertXrayRuleConditions, SourceRule.conditions]⟩, .inr ?_, .inl rfl,
        .inl rfl, .inl rfl, .inl rfl, .inl rfl⟩
      obtain ⟨address, haddress, hv6⟩ := (Option.any_eq_true _ _).mp hv6
      refine ⟨"::/0", ?_, address, Option.mem_toList.mpr haddress, ?_⟩
      · exact List.mem_append_right _ (List.mem_singleton.mpr rfl)
      · rw [ipMatches_ipv6]
        exact hv6
  · unfold ipv6Rule ipv6Exit
    split
    · rename_i hmode
      have hne : user.policyID ≠ "" := by
        intro hempty
        simp [selectableNonDirect, hempty] at hmode
      simp [Action.target, textDefault, hne]
    · rfl

/-- A rule with nothing but the user's identity matches every flow of the user. -/
theorem decision_catchAll (hflow : RemoteFlow config flow)
    (howns : user.owns flow = true) (hne : outbound ≠ "") :
    decision env xray flow { userIdentity config user with action := .route outbound } =
      some outbound := by
  apply decision_eq_ite (b := true)
  · rw [hits_plain rfl, XrayRule.matches_iff]
    refine ⟨.inr hflow.inbound_mem, .inr ⟨user.id, owns_iff.mp howns, ?_⟩, .inl rfl, .inl rfl,
      .inl rfl, .inl rfl, .inl rfl, .inl rfl⟩
    exact List.mem_singleton.mpr rfl
  · simp [Action.target, textDefault, hne]

theorem selectableOrBlock_ne_empty (value : String) (available : List String) :
    selectableOrBlock value available ≠ "" := by
  unfold selectableOrBlock
  split
  · rename_i h
    intro hempty
    simp [selectableNonDirect, hempty] at h
  · decide

theorem remoteFinal_ne_empty (policy : Option Policy) (available : List String) :
    remoteFinal policy available ≠ "" := by
  unfold remoteFinal
  split
  · decide
  · split
    · decide
    · exact selectableOrBlock_ne_empty _ _

/-- The rules of one user decide that user's flows and no others. -/
theorem findSome?_userRules (hflow : RemoteFlow config flow)
    (h : userRules env config available user = .ok rules) :
    rules.findSome? (decision env xray flow) =
      if user.owns flow then some (userTarget env xray config available user flow) else none := by
  unfold userRules at h
  simp only at h
  split at h
  · cases h
  · rename_i settings hsettings
    cases h
    split
    · rename_i howns
      have husettings : userSettings env config available user = settings := by
        unfold userSettings
        rw [hsettings]
      unfold userTarget
      rw [husettings, List.cons_append, List.findSome?_cons,
        decision_ipv6Rule hflow available howns]
      cases hv6 : flow.destination.isIPv6 with
      | true => rfl
      | false =>
        show (settings ++ _).findSome? _ = some (Option.getD _ _)
        rw [List.findSome?_append, List.findSome?_singleton,
          decision_catchAll hflow howns (remoteFinal_ne_empty _ _)]
        cases settings.findSome? (decision env xray flow) <;> rfl
    · rename_i howns
      -- all rules of the user carry the user's id
      have huser : flow.user ≠ some user.id := fun hu => howns (owns_iff.mpr hu)
      rw [List.findSome?_eq_none_iff]
      intro rule hrule
      apply decision_eq_none_of_user _ huser
      simp only [List.mem_append, List.mem_cons] at hrule
      rcases hrule with (rfl | hrule) | rfl | hrule
      · rfl
      · exact (setting_of_mem hsettings hrule).sameIdentity.authUser
      · rfl
      · cases hrule

/-! ### The whole list -/

/-- The user of a flow: the first enabled one with the flow's id. -/
def Config.userOf (config : Config) (flow : Flow) : Option User :=
  config.enabledUsers.find? fun user => user.owns flow

/-- Where a remote flow goes. -/
def remoteTarget (env : Env) (xray : Xray) (config : Config) (available : List String)
    (flow : Flow) : String :=
  if granted xray config flow then "direct-wan"
  else if shielded xray config flow then "block"
  else ((config.userOf flow).map fun user =>
    userTarget env xray config available user flow).getD "block"

/-- A list rendered user by user decides like its first deciding user. -/
theorem findSome?_flatten_mapM {f : User → Except String (List SourceRule)} {users : List User}
    (h : users.mapM f = .ok lists)
    (hg : ∀ user rules, f user = .ok rules → rules.findSome? (decision env xray flow) = g user) :
    lists.flatten.findSome? (decision env xray flow) = users.findSome? g := by
  have hall := mapM_eq_ok h
  clear h
  induction hall with
  | nil => rfl
  | cons hhead _ ih =>
    rw [List.flatten_cons, List.findSome?_append, hg _ _ hhead, List.findSome?_cons, ih]
    cases g _ <;> rfl

theorem findSome?_ite {α β : Type} (p : α → Bool) (f : α → β) (l : List α) :
    l.findSome? (fun a => if p a then some (f a) else none) = (l.find? p).map f := by
  induction l with
  | nil => rfl
  | cons a l ih =>
    rw [List.findSome?_cons, List.find?_cons, ih]
    cases p a <;> rfl

theorem findSome?_any {α β : Type} (p : α → Bool) (b : β) (l : List α) :
    l.findSome? (fun a => if p a then some b else none) = if l.any p then some b else none := by
  induction l with
  | nil => rfl
  | cons a l ih =>
    rw [List.findSome?_cons, List.any_cons, ih]
    cases p a <;> rfl

/-- The last rules send remote flows to the block outbound. -/
theorem findSome?_closingRules (hflow : RemoteFlow config flow)
    (h : config.enabledLocalClientsSpecificFirst.mapM (clientRules env config available) =
      .ok clients) :
    (closingRules config clients).findSome? (decision env xray flow) = some "block" := by
  have hlocal : ∀ rule : SourceRule, rule.inbound = localTransparentInbounds →
      decision env xray flow rule = none := by
    intro rule hrule
    apply decision_eq_none_of_inbound
    · rw [hrule]
      decide
    · rw [hrule]
      exact remote_notMem_local hflow.inbound_mem
  have hclients : ∀ rule ∈ clients.flatten, decision env xray flow rule = none := by
    intro rule hrule
    obtain ⟨list, hlist, hrule⟩ := List.mem_flatten.mp hrule
    obtain ⟨client, _, hclient⟩ := exists_of_mem_mapM h hlist
    unfold clientRules at hclient
    simp only at hclient
    split at hclient
    · cases hclient
    · rename_i settings hsettings
      cases hclient
      rcases List.mem_append.mp hrule with hrule | hrule
      · exact hlocal _ (setting_of_mem hsettings hrule).sameIdentity.inbound
      · unfold localFinalRules at hrule
        simp only at hrule
        split at hrule
        · cases hrule
        · rw [List.mem_singleton] at hrule
          exact hlocal _ (by rw [hrule]; rfl)
  have hlast : decision env xray flow
      { SourceRule.always (.route "block") with inbound := remoteInbounds config } =
        some "block" := by
    refine decision_eq_ite (b := true) ?_ rfl
    rw [hits_plain rfl, XrayRule.matches_iff]
    exact ⟨.inr hflow.inbound_mem, .inl rfl, .inl rfl, .inl rfl, .inl rfl, .inl rfl, .inl rfl,
      .inl rfl⟩
  unfold closingRules
  rw [List.append_assoc, findSome?_append_of_none, findSome?_append_of_none hclients,
    List.findSome?_cons, hlocal _ rfl, List.findSome?_singleton]
  · exact hlast
  · intro rule hrule
    split at hrule
    · cases hrule
    · rw [List.mem_singleton] at hrule
      exact hlocal _ (by rw [hrule])

/-- **Remote routing.** The rendered rules send a remote flow where the configuration says. -/
theorem remoteTarget_eq {nodes : List Node} {outbounds : List String}
    (h : buildXrayRouteSource env config nodes outbounds = .ok rules)
    (hflow : RemoteFlow config flow) : rules.findSome? (decision env xray flow) =
      some (remoteTarget env xray config (availableExits env config nodes outbounds) flow) := by
  obtain ⟨management, hmanagement, h⟩ := bind_eq_ok h
  obtain ⟨grants, hgrants, h⟩ := bind_eq_ok h
  simp only at h
  split at h
  · cases h
  · obtain ⟨users, husers, h⟩ := bind_eq_ok h
    obtain ⟨clients, hclients, h⟩ := bind_eq_ok h
    cases h
    have hm : managementTargets config = management := by
      unfold managementTargets
      rw [hmanagement]
    rw [← hm] at hgrants ⊢
    have hgrant : grants.flatten.findSome? (decision env xray flow) =
        if granted xray config flow then some "direct-wan" else none := by
      rw [findSome?_flatten_mapM hgrants fun user rules h => findSome?_grantRules hflow h]
      exact findSome?_any _ _ _
    have huser : users.flatten.findSome? (decision env xray flow) = (config.userOf flow).map
        fun user => userTarget env xray config (availableExits env config nodes outbounds) user
          flow := by
      rw [findSome?_flatten_mapM husers fun user rules h => findSome?_userRules hflow h,
        findSome?_ite (fun user : User => user.owns flow)]
      rfl
    simp only [List.append_assoc]
    rw [findSome?_append_of_none (serviceInboundRules_pass hflow nodes _),
      findSome?_append_of_none (xrayNodeLoopRule_pass hflow nodes), List.findSome?_append, hgrant,
      List.findSome?_append, findSome?_protectionRules hflow, List.findSome?_append, huser,
      findSome?_closingRules hflow hclients]
    unfold remoteTarget
    cases granted xray config flow with
    | true => rfl
    | false =>
      cases shielded xray config flow with
      | true => rfl
      | false => cases config.userOf flow <;> rfl

end SbGateway.RuntimeConfig
