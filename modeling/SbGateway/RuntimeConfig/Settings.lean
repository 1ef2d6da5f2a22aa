import SbGateway.RuntimeConfig.XrayRules

namespace SbGateway.RuntimeConfig

open Lib

/-!
# Matching source rules, and the rules of a user's or client's settings

* `hits_plain`, `hits_inbound`, `hits_user`, `hits_source` — what it takes for a source rule to
  match a flow;
* `Setting` — the five kinds of rules that the settings of a user or a client give, and
  `setting_of_mem`, that there are no others;
* `Setting.sameIdentity` — every such rule has the identity it was rendered for.
-/

variable {env : Env} {xray : Xray} {flow : Flow} {rule : SourceRule}

/-- Some entry of the list contains the destination address. -/
def listed (xray : Xray) (flow : Flow) (entries : List String) : Bool :=
  entries.any fun entry => flow.destination.addresses.any (ipMatches xray entry)

/-- A rule without rule sets is one Xray rule. -/
theorem hits_plain (h : rule.ruleSet = []) : hits env xray flow rule =
      (convertXrayRuleConditions [] "" rule.conditions).matches xray flow
        flow.destination.addresses := by
  unfold hits expand
  rw [if_pos h]
  simp

/-- Rule sets do not touch the identity of a rule. -/
theorem mem_expand (h : expand env rule = .ok expanded) (hc : c ∈ expanded) :
    c.inbound = rule.inbound ∧ c.authUser = rule.authUser ∧ c.sourceIPCIDR = rule.sourceIPCIDR := by
  unfold expand at h
  split at h
  · cases h
    obtain rfl := List.mem_singleton.mp hc
    exact ⟨rfl, rfl, rfl⟩
  · obtain ⟨sets, hsets, h⟩ := bind_eq_ok h
    cases h
    obtain ⟨set, hset, hc⟩ := List.mem_flatten.mp hc
    obtain ⟨name, _, hone⟩ := exists_of_mem_mapM hsets hset
    unfold expandOne at hone
    split at hone
    · cases hone
    · split at hone
      · cases hone
      · cases hone
        obtain ⟨_, _, rfl⟩ := List.mem_map.mp (List.mem_filter.mp hc).1
        exact ⟨rfl, rfl, rfl⟩

section

variable (h : hits env xray flow rule = true)
include h

/-- A rule that matches does so through one of its expansions. -/
theorem exists_of_hits :
    ∃ c, c.inbound = rule.inbound ∧ c.authUser = rule.authUser ∧
      c.sourceIPCIDR = rule.sourceIPCIDR ∧
      (convertXrayRuleConditions [] "" c).matches xray flow flow.destination.addresses = true := by
  unfold hits at h
  split at h
  · cases h
  · rename_i expanded hexp
    obtain ⟨c, hc, hm⟩ := List.any_eq_true.mp h
    obtain ⟨h₁, h₂, h₃⟩ := mem_expand hexp hc
    exact ⟨c, h₁, h₂, h₃, hm⟩

theorem hits_inbound (hne : rule.inbound ≠ []) : flow.inbound ∈ rule.inbound := by
  obtain ⟨c, hc, _, _, hm⟩ := exists_of_hits h
  rcases (XrayRule.matches_iff.mp hm).inbound with h | h
  · exact absurd (hc.symm.trans h) hne
  · rw [← hc]
    exact h

theorem hits_user {id : String} (hid : rule.authUser = [id]) : flow.user = some id := by
  obtain ⟨c, _, hc, _, hm⟩ := exists_of_hits h
  have huser : c.authUser = [] ∨ ∃ u, flow.user = some u ∧ u ∈ c.authUser :=
    (XrayRule.matches_iff.mp hm).user
  rw [hc, hid] at huser
  simpa using huser

end

theorem decision_eq_none_of_inbound (hne : rule.inbound ≠ []) (h : flow.inbound ∉ rule.inbound) :
    decision env xray flow rule = none := by
  unfold decision
  rw [if_neg]
  exact fun hh => h (hits_inbound hh hne)

theorem decision_eq_none_of_user {id : String} (hid : rule.authUser = [id])
    (h : flow.user ≠ some id) : decision env xray flow rule = none := by
  unfold decision
  rw [if_neg]
  exact fun hh => h (hits_user hh hid)

/-- A list whose rules all pass a flow on decides nothing. -/
theorem findSome?_append_of_none {α β : Type} {f : α → Option β} {xs ys : List α}
    (h : ∀ x ∈ xs, f x = none) : (xs ++ ys).findSome? f = ys.findSome? f := by
  rw [List.findSome?_append, List.findSome?_eq_none_iff.mpr h]
  rfl

/-! ### The kinds of settings -/

/-- The rules that the settings of a user or a client give. -/
inductive Setting (env : Env) (forceTCP : Bool) (identity : SourceRule) (entity : Entity)
    (policy : Option Policy) (available : List String) : SourceRule → Prop where
  | custom {p : Policy} {route : CustomRoute} {rule : SourceRule} (hp : policy = some p)
      (hroute : route ∈ p.customRoutes)
      (h : customRule env identity p.id available route = .ok rule) :
      Setting env forceTCP identity entity policy available rule
  | steered {p : Policy} {service canonical : String} {rule : SourceRule} (hp : policy = some p)
      (hservice : service ∈ candidateServiceIDs env p)
      (hselector : policyServiceSelectorTag env p.id service ∈ available)
      (hrule : rule ∈ serviceRules env forceTCP identity canonical
        (policyServiceSelectorTag env p.id service)) :
      Setting env forceTCP identity entity policy available rule
  | directService {services : List String} {service canonical : String} {rule : SourceRule}
      (hservices : directServices env entity policy = .ok services) (hservice : service ∈ services)
      (hcanonical : canonicalServiceID env service = .ok canonical)
      (hrule : rule ∈ serviceRules env forceTCP identity canonical "direct-wan") :
      Setting env forceTCP identity entity policy available rule
  | directDomain {rule : SourceRule}
      (hrule : rule ∈ directDomainRules env identity entity policy available) :
      Setting env forceTCP identity entity policy available rule
  | serviceRoute {name outbound canonical : String} {rule : SourceRule}
      (hroute : (name, outbound) ∈ serviceRouteTable entity policy)
      (hcanonical : canonicalServiceID env name = .ok canonical)
      (hrule : rule ∈ serviceRules env forceTCP identity canonical
        (serviceRouteExit outbound available)) :
      Setting env forceTCP identity entity policy available rule

theorem setting_of_mem_steered
    (h : candidateServiceRules env forceTCP identity p available = .ok rules)
    (hrule : rule ∈ rules) :
    Setting env forceTCP identity entity (some p) available rule := by
  unfold candidateServiceRules at h
  split at h
  · obtain ⟨lists, hlists, h⟩ := bind_eq_ok h
    cases h
    obtain ⟨list, hlist, hrule⟩ := List.mem_flatten.mp hrule
    obtain ⟨service, hservice, h⟩ := exists_of_mem_mapM hlists hlist
    simp only at h
    split at h
    · rename_i hselector
      obtain ⟨canonical, _, h⟩ := bind_eq_ok h
      cases h
      exact .steered rfl hservice (List.contains_iff_mem.mp hselector) hrule
    · cases h
      cases hrule
  · cases h
    cases hrule

theorem setting_of_mem_routes (hroute : (name, outbound) ∈ serviceRouteTable entity policy)
    (h : serviceRouteRules env forceTCP identity policy available name outbound = .ok rules)
    (hrule : rule ∈ rules) : Setting env forceTCP identity entity policy available rule := by
  obtain ⟨canonical, hcanonical, h⟩ := bind_eq_ok h
  simp only at h
  split at h
  · cases h
    cases hrule
  · cases h
    exact .serviceRoute hroute hcanonical hrule

/-- **Inversion.** Every rule of the settings is of one of the five kinds. -/
theorem setting_of_mem (h : settingRules env forceTCP identity entity policy available = .ok rules)
    (hrule : rule ∈ rules) : Setting env forceTCP identity entity policy available rule := by
  obtain ⟨custom, hcustom, h⟩ := bind_eq_ok h
  obtain ⟨steered, hsteered, h⟩ := bind_eq_ok h
  obtain ⟨services, hservices, h⟩ := bind_eq_ok h
  obtain ⟨direct, hdirect, h⟩ := bind_eq_ok h
  obtain ⟨routed, hrouted, h⟩ := bind_eq_ok h
  cases h
  simp only [List.mem_append] at hrule
  rcases hrule with (((hrule | hrule) | hrule) | hrule) | hrule
  · obtain ⟨route, hroute, h⟩ := exists_of_mem_mapM hcustom hrule
    cases policy with
    | none => cases hroute
    | some p => exact .custom rfl hroute h
  · cases policy with
    | none =>
      cases hsteered
      cases hrule
    | some p => exact setting_of_mem_steered hsteered hrule
  · obtain ⟨list, hlist, hrule⟩ := List.mem_flatten.mp hrule
    obtain ⟨service, hservice, h⟩ := exists_of_mem_mapM hdirect hlist
    obtain ⟨canonical, hcanonical, h⟩ := bind_eq_ok h
    cases h
    exact .directService hservices hservice hcanonical hrule
  · exact .directDomain hrule
  · obtain ⟨list, hlist, hrule⟩ := List.mem_flatten.mp hrule
    obtain ⟨⟨name, outbound⟩, hroute, h⟩ := exists_of_mem_mapM hrouted hlist
    exact setting_of_mem_routes hroute h hrule

/-- The rule has the inbounds, the users and the sources of the identity. -/
structure SourceRule.SameIdentity (identity rule : SourceRule) : Prop where
  inbound : rule.inbound = identity.inbound
  authUser : rule.authUser = identity.authUser
  source : rule.sourceIPCIDR = identity.sourceIPCIDR

theorem mem_serviceRules (h : rule ∈ serviceRules env forceTCP identity canonical outbound) :
    identity.SameIdentity rule ∧ (rule.action = .route outbound ∨ rule.action = .reject) := by
  simp only [serviceRules, List.mem_append, List.mem_singleton, List.mem_ite_nil_left,
    List.mem_ite_nil_right] at h
  rcases h with (⟨-, rfl⟩ | ⟨-, rfl⟩) | rfl
  · exact ⟨⟨rfl, rfl, rfl⟩, .inl rfl⟩
  · exact ⟨⟨rfl, rfl, rfl⟩, .inr rfl⟩
  · exact ⟨⟨rfl, rfl, rfl⟩, .inl rfl⟩

/-- A custom route adds conditions to the identity. -/
theorem customConditions_eq_ok (h : customConditions env identity route = .ok (rule, value)) :
    ∃ domainSuffix ipCIDR protocol network port,
      rule = { identity with domainSuffix, ipCIDR, protocol, network, port } := by
  unfold customConditions at h
  simp only at h
  split at h
  · cases h
    exact ⟨_, _, _, _, _, rfl⟩
  · split at h
    · split at h
      · cases h
        exact ⟨_, _, _, _, _, rfl⟩
      · split at h
        · cases h
          exact ⟨_, _, _, _, _, rfl⟩
        · cases h
    · split at h
      · obtain ⟨-, h⟩ := check_eq_ok h
        cases h
        exact ⟨_, _, _, _, _, rfl⟩
      · cases h

/-- The rule of a custom route: its conditions and its exit. -/
theorem customRule_eq_ok (h : customRule env identity policyID available route = .ok rule) :
    ∃ base value outbound, customConditions env identity route = .ok (base, value) ∧
      customTarget route policyID available = .ok outbound ∧
      rule = { base with action := .route outbound } := by
  obtain ⟨⟨base, value⟩, hbase, h⟩ := bind_eq_ok h
  simp only at h
  split at h
  · cases h
  · obtain ⟨-, h⟩ := check_eq_ok h
    obtain ⟨outbound, hout, h⟩ := bind_eq_ok h
    cases h
    exact ⟨base, value, outbound, hbase, hout, rfl⟩

/-- Every rule of the settings has the identity it was rendered for. -/
theorem Setting.sameIdentity (h : Setting env forceTCP identity entity policy available rule) :
    identity.SameIdentity rule := by
  cases h with
  | custom _ _ h =>
    obtain ⟨base, value, outbound, hbase, _, rfl⟩ := customRule_eq_ok h
    obtain ⟨_, _, _, _, _, rfl⟩ := customConditions_eq_ok hbase
    exact ⟨rfl, rfl, rfl⟩
  | steered _ _ _ hrule | directService _ _ _ hrule => exact (mem_serviceRules hrule).1
  | directDomain hrule =>
    simp only [directDomainRules, List.mem_ite_nil_left, List.mem_singleton] at hrule
    obtain ⟨-, rfl⟩ := hrule
    exact ⟨rfl, rfl, rfl⟩
  | serviceRoute _ _ hrule => exact (mem_serviceRules hrule).1

end SbGateway.RuntimeConfig
