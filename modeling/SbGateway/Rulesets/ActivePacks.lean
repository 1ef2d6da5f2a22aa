import SbGateway.Lib.Visit
import SbGateway.RuntimeConfig.FailClosed

namespace SbGateway.Rulesets

open Lib RuntimeConfig

/-!
# The cards that are kept up to date

The worker refreshes the cards that `ActivePacks` collects from the active configuration.  The route
source collects the cards that its rules refer to.

* `references_buildXrayRouteSource` — the rule sets of the rendered rules, by the settings they come
  from;
* `mem_activePacks_iff` — the cards of the worker are those that can be reached from a card that a
  policy, a client or a user lists;
* `kept_up_to_date_iff` — all routed cards are kept up to date exactly if the candidate services are
  listed as well.
-/

/-! ### The worker -/

/-- An object of `service_packs`. -/
structure CustomEntry where
  enabled : Bool
  id : String
  upstreamName : String

/-- The active configuration, with what only the worker reads. -/
structure ActiveConfig extends Config where
  servicePacks : List CustomEntry
  /-- `traffic_mode` of a client or a user. -/
  entityTrafficMode : Entity → String

/-- `geoIPNamePattern` -/
def geoIPNamePattern (s : String) : Bool :=
  match s.toList with
  | ['g', 'e', 'o', 'i', 'p', '-', a, b] => ('a' ≤ a && a ≤ 'z') && ('a' ≤ b && b ≤ 'z')
  | _ => false

/-- The catalogue with one more pack, unless it has one with this id. -/
def withPack (catalog : Catalog) (pack : ServicePack) : Catalog :=
  if h : pack.id ∈ catalog.packs.map ServicePack.id then catalog
  else
    { packs := catalog.packs ++ [pack]
      nodup := by
        rw [List.map_append]
        exact catalog.nodup.append (List.nodup_singleton _)
          (List.disjoint_singleton.mpr h) }

/-- The successors in a visit of the packs. -/
def dependencies (index : Catalog) (id : String) : Option (List String) :=
  (index.byID id).map ServicePack.includedPackIDs

/-- `dependencyIDs` -/
def dependencyIDs (id : String) (index : Catalog) : List String :=
  index.visit (index.packs.length + 1) [] id

section Env

variable (env : Env)

/-- `CustomPack`: the pack, without its name. -/
def customPack (upstream : String) : Option ServicePack :=
  let normalized := env.toLower (env.trimSpace upstream)
  if !serviceIDPattern normalized then none
  else if "geoip-".toList.isPrefixOf normalized.toList && !geoIPNamePattern normalized then none
  else
    some { id := normalized, sniffedProtocols := [], alwaysDirect := false, includedPackIDs := [] }

/-- The loop of `customPacksFromConfig`. -/
def addCustomPack (known : Catalog) (entry : CustomEntry) : Catalog :=
  let id := env.toLower (env.trimSpace entry.id)
  let given := env.toLower (env.trimSpace entry.upstreamName)
  let upstream := if given = "" then id else given
  if entry.enabled = false ∨ id = "" ∨ id ≠ upstream ∨ serviceIDPattern id = false then known
  else if (known.byID id).isSome then known
  else match customPack env upstream with
    | none => known
    | some pack => withPack known pack

/-- The catalogue and the custom packs. -/
def availablePacks (config : ActiveConfig) : Catalog :=
  config.servicePacks.foldl (addCustomPack env) env.catalog

/-- `collect` for an enabled object. -/
def collect (directServices : List String) (serviceRoutes : AList (fun _ : String => String))
    (trafficMode : String) : List String :=
  directServices.map (fun service => env.toLower (env.trimSpace service)) ++
  serviceRoutes.keys.map (fun service => env.toLower (env.trimSpace service)) ++
  if trafficMode = "vless_with_wan_exceptions" then
    (env.catalog.packs.filter ServicePack.alwaysDirect).map ServicePack.id
  else []

/-- The services of a user or a client. -/
def collectEntity (config : ActiveConfig) (entity : Entity) : List String :=
  collect env entity.directServices entity.serviceRoutes (config.entityTrafficMode entity)

/-- The ids that the configuration selects. -/
def selectedIDs (config : ActiveConfig) : List String :=
  config.enabledPolicies.flatMap (fun policy =>
    collect env policy.directServices policy.serviceRoutes policy.trafficMode) ++
  (config.localClients.filter fun client => client.enabled).flatMap (fun client =>
    collectEntity env config client.toEntity) ++
  config.enabledUsers.flatMap fun user => collectEntity env config user.toEntity

/-- `ActivePacks`.  The loop over the selected ids may meet ids that it added itself; their
    dependencies are among those of the ids that they were added for. -/
def activePacks (config : ActiveConfig) : List ServicePack :=
  let available := availablePacks env config
  let selected := selectedIDs env config
  let ids := selected ++ selected.flatMap fun id => dependencyIDs id available
  (sortStrings (unique ids)).filterMap available.byID

end Env

/-! ### Dependencies -/

/-- The visit of the catalogue is that of a graph. -/
theorem catalogVisit_eq (catalog : Catalog) (fuel : ℕ) (result : List String) (id : String) :
    catalog.visit fuel result id = Graph.visit (dependencies catalog) fuel result id := by
  induction fuel generalizing result id with
  | zero => rfl
  | succ fuel ih =>
    have hstep : catalog.visit fuel = Graph.visit (dependencies catalog) fuel :=
      funext fun result => funext fun id => ih result id
    rw [Catalog.visit, Graph.visit, dependencies, hstep]
    cases catalog.byID id <;> rfl

variable {pack : ServicePack} {id : String} {catalog : Catalog}

theorem id_of_byID (h : catalog.byID id = some pack) : pack.id = id := by
  simpa using List.find?_some h

/-- A visit of packs finds those that can be reached. -/
theorem mem_visit_packs (hnext : ∀ a, (next a).isSome = true → (catalog.byID a).isSome = true) :
    x ∈ Graph.visit next (catalog.packs.length + 1) [] id ↔ Graph.Reaches next id x := by
  have hnodes : ∀ a, (next a).isSome = true → a ∈ (catalog.packs.map ServicePack.id).toFinset := by
    intro a ha
    obtain ⟨pack, hpack⟩ := Option.isSome_iff_exists.mp (hnext a ha)
    rw [List.mem_toFinset, List.mem_map]
    exact ⟨pack, List.mem_of_find?_eq_some hpack, id_of_byID hpack⟩
  have hcard := List.toFinset_card_le (catalog.packs.map ServicePack.id)
  rw [List.length_map] at hcard
  exact Graph.mem_visit_iff hnodes (by omega)

theorem mem_dependencyIDs :
    x ∈ dependencyIDs id catalog ↔ Graph.Reaches (dependencies catalog) id x := by
  rw [dependencyIDs, catalogVisit_eq]
  exact mem_visit_packs fun a ha => by rwa [dependencies, Option.isSome_map] at ha

/-- **Closure.** The rule sets of a service are those of the packs that can be reached from it, in
    cyclic catalogues too; an unknown service has its own id alone. -/
theorem mem_serviceRuleSetIDs (catalog : Catalog) (start x : String) :
    x ∈ serviceRuleSetIDs catalog start ↔ Graph.Reaches (dependencies catalog) start x ∨
      catalog.byID start = none ∧ x = start := by
  show x ∈ (if dependencyIDs start catalog = [] then [start] else dependencyIDs start catalog) ↔ _
  rw [← mem_dependencyIDs]
  cases hpack : catalog.byID start with
  | none => simp [dependencyIDs, Catalog.visit, hpack]
  | some pack =>
    have hmem : start ∈ dependencyIDs start catalog :=
      mem_dependencyIDs.mpr (.refl (by simp [dependencies, hpack]))
    simp [List.ne_nil_of_mem hmem]

/-- Packs keep their place when others are added. -/
theorem byID_withPack (h : catalog.byID id = some other) :
    (withPack catalog pack).byID id = some other := by
  unfold withPack
  split
  · exact h
  · rw [Catalog.byID, List.find?_append]
    rw [Catalog.byID] at h
    rw [h]
    rfl

theorem byID_addCustomPack (h : known.byID id = some pack) :
    (addCustomPack env known entry).byID id = some pack := by
  unfold addCustomPack
  extract_lets id given upstream
  split
  · exact h
  · split
    · exact h
    · split
      · exact h
      · exact byID_withPack h

/-- The packs of the catalogue stay available. -/
theorem byID_availablePacks (config : ActiveConfig) (h : env.catalog.byID id = some pack) :
    (availablePacks env config).byID id = some pack :=
  List.foldlRecOn (motive := fun known => known.byID id = some pack) config.servicePacks
    (addCustomPack env) h fun _ hknown _ _ => byID_addCustomPack hknown

variable {env : Env} {config : ActiveConfig} {x : String}

/-- An available pack that can be reached from a listed one. -/
def Covered (env : Env) (config : ActiveConfig) (x : String) : Prop :=
  ∃ listed ∈ selectedIDs env config,
    Graph.Reaches (dependencies (availablePacks env config)) listed x

/-- **Active packs.** They are those that can be reached from a listed one. -/
theorem mem_activePacks_iff :
    x ∈ (activePacks env config).map ServicePack.id ↔ Covered env config x := by
  have hexists : x ∈ (activePacks env config).map ServicePack.id ↔
      ((availablePacks env config).byID x).isSome = true ∧
        (x ∈ selectedIDs env config ∨ ∃ listed ∈ selectedIDs env config,
          x ∈ dependencyIDs listed (availablePacks env config)) := by
    simp only [activePacks, List.mem_map, List.mem_filterMap, mem_sortStrings, mem_unique,
      List.mem_append, List.mem_flatMap]
    constructor
    · rintro ⟨pack, ⟨id, hid, hpack⟩, rfl⟩
      rw [id_of_byID hpack]
      exact ⟨by rw [hpack]; rfl, hid⟩
    · rintro ⟨hsome, hid⟩
      obtain ⟨pack, hpack⟩ := Option.isSome_iff_exists.mp hsome
      exact ⟨pack, ⟨x, hid, hpack⟩, id_of_byID hpack⟩
  have hnode : (dependencies (availablePacks env config) x).isSome =
      ((availablePacks env config).byID x).isSome := Option.isSome_map
  rw [hexists]
  constructor
  · rintro ⟨hsome, hselected | ⟨listed, hlisted, hx⟩⟩
    · exact ⟨x, hselected, .refl (hnode.trans hsome)⟩
    · exact ⟨listed, hlisted, mem_dependencyIDs.mp hx⟩
  · rintro ⟨listed, hlisted, hx⟩
    exact ⟨hnode.symm.trans hx.target, .inr ⟨listed, hlisted, mem_dependencyIDs.mpr hx⟩⟩

/-- The rule sets of a listed service are covered. -/
theorem covered_of_ruleSet (hservice : service ∈ selectedIDs env config)
    (hx : x ∈ serviceRuleSetIDs env.catalog service)
    (hsome : ((availablePacks env config).byID x).isSome = true) : Covered env config x := by
  refine ⟨service, hservice, ?_⟩
  rw [serviceRuleSetIDs] at hx
  split at hx
  · rw [← List.mem_singleton.mp hx]
    exact .refl (Option.isSome_map.trans hsome)
  · refine Graph.Reaches.mono ?_ (mem_dependencyIDs.mp hx)
    intro id successors hid
    obtain ⟨pack, hpack, rfl⟩ := Option.map_eq_some_iff.mp hid
    rw [dependencies, byID_availablePacks config hpack]
    rfl

/-! ### The rule sets of the route source -/

/-- A rule refers to the rule set. -/
def References (rules : List SourceRule) (x : String) : Prop := ∃ rule ∈ rules, x ∈ rule.ruleSet

/-- What the texts and the catalogue are like: lower case is applied letter by letter and leaves ids
    alone, a text that becomes an id has no blanks around it, and the catalogue has ids only. -/
structure PlainTexts (env : Env) : Prop where
  lower : ∀ value, serviceIDPattern value = true → env.toLower value = value
  trim : ∀ value, serviceIDPattern (env.toLower value) = true → env.trimSpace value = value
  catalog : ∀ pack ∈ env.catalog.packs, serviceIDPattern pack.id = true

section References

variable {x : String}

theorem references_append :
    References (rules ++ others) x ↔ References rules x ∨ References others x := by
  simp only [References, List.mem_append, or_and_right, exists_or]

/-- Rules without rule sets. -/
def Plain (rules : List SourceRule) : Prop := ∀ rule ∈ rules, rule.ruleSet = []

theorem Plain.nil : Plain [] := fun _ hrule => (List.not_mem_nil hrule).elim

theorem Plain.singleton (h : rule.ruleSet = []) : Plain [rule] :=
  fun _ hrule => List.mem_singleton.mp hrule ▸ h

theorem Plain.append (h : Plain rules) (hothers : Plain others) : Plain (rules ++ others) :=
  fun rule hrule => (List.mem_append.mp hrule).elim (h rule) (hothers rule)

theorem Plain.ite [Decidable p] (h : Plain rules)
    (hothers : Plain others) : Plain (if p then rules else others) := by
  split
  · exact h
  · exact hothers

theorem Plain.flatten {α : Type} {f : α → Except String (List SourceRule)} {values : List α}
    (h : values.mapM f = .ok lists)
    (hf : ∀ a rules, f a = .ok rules → Plain rules) : Plain lists.flatten := by
  intro rule hrule
  obtain ⟨rules, hrules, hrule⟩ := List.mem_flatten.mp hrule
  obtain ⟨a, -, hfa⟩ := exists_of_mem_mapM h hrules
  exact hf a rules hfa rule hrule

variable {rules : List SourceRule}

theorem Plain.not_references (h : Plain rules) : ¬ References rules x := by
  rintro ⟨rule, hrule, hx⟩
  rw [h rule hrule] at hx
  cases hx

theorem Plain.references_append (h : Plain rules) :
    References (rules ++ others) x ↔ References others x := by
  rw [Rulesets.references_append, or_iff_right h.not_references]

theorem Plain.append_references (h : Plain others) :
    References (rules ++ others) x ↔ References rules x := by
  rw [Rulesets.references_append, or_iff_left h.not_references]

/-! Loops that may fail, by what each round refers to. -/

variable {α : Type} {f : α → Except String (List SourceRule)} {values : List α}
  {lists : List (List SourceRule)}

theorem exists_of_references_flatten (h : values.mapM f = .ok lists)
    (hx : References lists.flatten x) :
    ∃ a ∈ values, ∃ rules, f a = .ok rules ∧ References rules x := by
  obtain ⟨rule, hrule, hx⟩ := hx
  obtain ⟨rules, hrules, hrule⟩ := List.mem_flatten.mp hrule
  obtain ⟨a, ha, hfa⟩ := exists_of_mem_mapM h hrules
  exact ⟨a, ha, rules, hfa, rule, hrule, hx⟩

theorem references_flatten_of_mem (h : values.mapM f = .ok lists) (ha : a ∈ values)
    (hf : ∀ rules, f a = .ok rules → References rules x) : References lists.flatten x := by
  obtain ⟨rules, hrules, hfa⟩ := exists_mem_of_mapM h ha
  obtain ⟨rule, hrule, hx⟩ := hf rules hfa
  exact ⟨rule, List.mem_flatten.mpr ⟨rules, hrules, hrule⟩, hx⟩

variable {env : Env} {forceTCP : Bool} {identity : SourceRule} {available : List String}

theorem canonicalServiceID_eq_ok (h : canonicalServiceID env value = .ok canonical) :
    serviceIDPattern canonical = true ∧ env.toLower value = canonical := by
  unfold canonicalServiceID at h
  simp only at h
  split at h
  · cases h
    exact ⟨by assumption, rfl⟩
  · cases h

theorem references_serviceRules (hidentity : identity.ruleSet = []) (canonical outbound : String) :
    References (serviceRules env forceTCP identity canonical outbound) x ↔
      x ∈ serviceRuleSetIDs env.catalog canonical := by
  constructor
  · rintro ⟨rule, hrule, hx⟩
    simp only [serviceRules, List.mem_append, List.mem_singleton, List.mem_ite_nil_left,
      List.mem_ite_nil_right] at hrule
    rcases hrule with (⟨-, rfl⟩ | ⟨-, rfl⟩) | rfl
    · rw [hidentity] at hx
      cases hx
    · exact hx
    · exact hx
  · intro hx
    exact ⟨_, List.mem_append_right _ (List.mem_singleton_self _), hx⟩

/-- A service that the policy steers by itself. -/
structure Steered (env : Env) (available : List String) (policy : Policy) (service : String) :
    Prop where
  mode : policy.mode = "priority"
  candidate : service ∈ candidateServiceIDs env policy
  selector : policyServiceSelectorTag env policy.id service ∈ available

theorem references_candidateServiceRules (henv : PlainTexts env) (hidentity : identity.ruleSet = [])
    (h : candidateServiceRules env forceTCP identity policy available = .ok rules) :
    References rules x ↔
      ∃ service, Steered env available policy service ∧
        x ∈ serviceRuleSetIDs env.catalog service := by
  unfold candidateServiceRules at h
  split at h
  next hmode =>
    obtain ⟨lists, hlists, h⟩ := bind_eq_ok h
    cases h
    have hpattern : ∀ service ∈ candidateServiceIDs env policy, env.toLower service = service := by
      intro service hservice
      rw [candidateServiceIDs, mem_unique, List.mem_filter] at hservice
      exact henv.lower service hservice.2
    constructor
    · intro hx
      obtain ⟨service, hservice, rules, hrules, hx⟩ := exists_of_references_flatten hlists hx
      simp only at hrules
      split at hrules
      next hselector =>
        obtain ⟨canonical, hcanonical, hrules⟩ := bind_eq_ok hrules
        cases hrules
        have hsame := (canonicalServiceID_eq_ok hcanonical).2
        rw [hpattern service hservice] at hsame
        rw [references_serviceRules hidentity, ← hsame] at hx
        exact ⟨service, ⟨hmode, hservice, List.contains_iff_mem.mp hselector⟩, hx⟩
      next =>
        cases hrules
        exact (Plain.nil.not_references hx).elim
    · rintro ⟨service, hsteered, hx⟩
      refine references_flatten_of_mem hlists hsteered.candidate fun rules hrules => ?_
      simp only [List.contains_iff_mem.mpr hsteered.selector, if_true] at hrules
      obtain ⟨canonical, hcanonical, hrules⟩ := bind_eq_ok hrules
      cases hrules
      have hsame := (canonicalServiceID_eq_ok hcanonical).2
      rw [hpattern service hsteered.candidate] at hsame
      rw [references_serviceRules hidentity, ← hsame]
      exact hx
  next hmode =>
    cases h
    refine ⟨fun hx => (Plain.nil.not_references hx).elim, ?_⟩
    rintro ⟨service, hsteered, -⟩
    exact (hmode hsteered.mode).elim

theorem customRule_ruleSet (hidentity : identity.ruleSet = [])
    (h : customRule env identity policyID available route = .ok rule) : rule.ruleSet = [] := by
  obtain ⟨base, value, outbound, hbase, -, rfl⟩ := customRule_eq_ok h
  obtain ⟨_, _, _, _, _, rfl⟩ := customConditions_eq_ok hbase
  exact hidentity

/-- A service that the entity or its policy lists, for which there are rules. -/
inductive Listed (env : Env) (entity : Entity) (policy : Option Policy) (service : String) :
    Prop where
  | direct {services : List String} (hservices : directServices env entity policy = .ok services)
      (hservice : service ∈ services)
  | route {name outbound : String} (hroute : (name, outbound) ∈ serviceRouteTable entity policy)
      (hcanonical : canonicalServiceID env name = .ok service)

variable {policy : Option Policy} {entity : Entity}

theorem mem_alwaysDirect :
    id ∈ catalog.alwaysDirect ↔ ∃ pack ∈ catalog.packs, pack.alwaysDirect = true ∧
      pack.id = id := by
  simp [Catalog.alwaysDirect, and_assoc]

/-- A direct service is its own canonical id. -/
theorem canonical_of_directServices (henv : PlainTexts env)
    (h : directServices env entity policy = .ok services)
    (hservice : service ∈ services) (hcanonical : canonicalServiceID env service = .ok canonical) :
    canonical = service := by
  have hpattern : serviceIDPattern service = true := by
    rcases mem_directServices h hservice with ⟨value, -, hvalue⟩ | ⟨p, -, -, -, halways⟩
    · exact (canonicalServiceID_eq_ok hvalue).1
    · obtain ⟨pack, hpack, -, rfl⟩ := mem_alwaysDirect.mp halways
      exact henv.catalog pack hpack
  rw [← (canonicalServiceID_eq_ok hcanonical).2, henv.lower service hpattern]

/-- The rule sets that the settings of an entity refer to: those of steered services, and some of
    those of listed services. -/
theorem references_settingRules (henv : PlainTexts env) (hidentity : identity.ruleSet = [])
    (h : settingRules env forceTCP identity entity policy available = .ok rules) :
    (References rules x →
      (∃ p service, policy = some p ∧ Steered env available p service ∧
        x ∈ serviceRuleSetIDs env.catalog service) ∨
      ∃ service, Listed env entity policy service ∧ x ∈ serviceRuleSetIDs env.catalog service) ∧
    ((∃ p service, policy = some p ∧ Steered env available p service ∧
      x ∈ serviceRuleSetIDs env.catalog service) → References rules x) := by
  obtain ⟨custom, hcustom, h⟩ := bind_eq_ok h
  obtain ⟨steered, hsteered, h⟩ := bind_eq_ok h
  obtain ⟨services, hservices, h⟩ := bind_eq_ok h
  obtain ⟨direct, hdirect, h⟩ := bind_eq_ok h
  obtain ⟨routed, hrouted, h⟩ := bind_eq_ok h
  cases h
  have hplain : Plain custom := by
    intro rule hrule
    obtain ⟨route, -, hroute⟩ := exists_of_mem_mapM hcustom hrule
    exact customRule_ruleSet hidentity hroute
  have hdomains : Plain (directDomainRules env identity entity policy available) :=
    .ite .nil (.singleton hidentity)
  rw [references_append, hdomains.append_references, references_append, hplain.references_append]
  constructor
  · rintro ((hx | hx) | hx)
    · cases policy with
      | none =>
        cases hsteered
        exact (Plain.nil.not_references hx).elim
      | some p =>
        obtain ⟨service, hservice, hx⟩ :=
          (references_candidateServiceRules henv hidentity hsteered).mp hx
        exact .inl ⟨p, service, rfl, hservice, hx⟩
    · obtain ⟨service, hservice, rules, hrules, hx⟩ := exists_of_references_flatten hdirect hx
      obtain ⟨canonical, hcanonical, hrules⟩ := bind_eq_ok hrules
      cases hrules
      rw [references_serviceRules hidentity,
        canonical_of_directServices henv hservices hservice hcanonical] at hx
      exact .inr ⟨service, .direct hservices hservice, hx⟩
    · obtain ⟨⟨name, outbound⟩, hroute, rules, hrules, hx⟩ :=
        exists_of_references_flatten hrouted hx
      obtain ⟨canonical, hcanonical, hrules⟩ := bind_eq_ok hrules
      simp only at hrules
      split at hrules
      · cases hrules
        exact (Plain.nil.not_references hx).elim
      · cases hrules
        rw [references_serviceRules hidentity] at hx
        exact .inr ⟨canonical, .route hroute hcanonical, hx⟩
  · rintro ⟨p, service, rfl, hservice⟩
    exact .inl (.inl
      ((references_candidateServiceRules henv hidentity hsteered).mpr ⟨service, hservice⟩))

/-- An enabled user or client. -/
inductive EnabledEntity (config : Config) (entity : Entity) : Prop where
  | user {user : User} (h : user ∈ config.enabledUsers) (hentity : user.toEntity = entity)
  | client {client : Client} (h : client ∈ config.localClients) (henabled : client.enabled = true)
      (hentity : client.toEntity = entity)

/-- A rule set of a service that the policy of the entity steers. -/
def SteeredSet (env : Env) (config : Config) (available : List String) (entity : Entity)
    (x : String) : Prop :=
  ∃ p service, config.policyByID entity.policyID = some p ∧ Steered env available p service ∧
    x ∈ serviceRuleSetIDs env.catalog service

/-- A rule set of a service that the entity or its policy lists. -/
def ListedSet (env : Env) (config : Config) (entity : Entity) (x : String) : Prop :=
  ∃ service, Listed env entity (config.policyByID entity.policyID) service ∧
    x ∈ serviceRuleSetIDs env.catalog service

variable {config : Config}

theorem references_userRules (henv : PlainTexts env)
    (h : userRules env config available user = .ok rules) :
    (References rules x → SteeredSet env config available user.toEntity x ∨
      ListedSet env config user.toEntity x) ∧
    (SteeredSet env config available user.toEntity x → References rules x) := by
  unfold userRules at h
  simp only at h
  split at h
  · cases h
  next settings hsettings =>
    cases h
    have hipv6 : Plain [ipv6Rule config available user] := .singleton rfl
    have hfinal : ∀ action, Plain [{ userIdentity config user with action }] :=
      fun action => .singleton rfl
    rw [(hfinal _).append_references, ← List.singleton_append, hipv6.references_append]
    exact references_settingRules henv rfl hsettings

theorem references_clientRules (henv : PlainTexts env)
    (h : clientRules env config available client = .ok rules) :
    (References rules x → SteeredSet env config available client.toEntity x ∨
      ListedSet env config client.toEntity x) ∧
    (SteeredSet env config available client.toEntity x → References rules x) := by
  unfold clientRules at h
  simp only at h
  split at h
  · cases h
  next settings hsettings =>
    cases h
    have hfinal : Plain (localFinalRules (clientIdentity client) client.toEntity
        (config.policyByID client.policyID) available) := .ite .nil (.singleton rfl)
    rw [hfinal.append_references]
    exact references_settingRules henv rfl hsettings

/-! The rules that do not belong to a user or a client refer to no rule sets. -/

theorem plain_serviceInboundRules (nodes : List RuntimeConfig.Node) :
    Plain (serviceInboundRules config nodes available) := by
  refine .append (.append (.append ?_ ?_) (.ite (.singleton rfl) .nil)) (.ite (.singleton rfl) .nil)
  · intro rule hrule
    simp only [List.mem_cons, List.not_mem_nil, or_false] at hrule
    rcases hrule with rfl | rfl | rfl | rfl | rfl <;> rfl
  · intro rule hrule
    obtain ⟨lane, -, rfl⟩ := List.mem_map.mp hrule
    rfl

theorem plain_xrayNodeLoopRule (nodes : List RuntimeConfig.Node) : Plain (xrayNodeLoopRule nodes) :=
  .ite .nil (.singleton rfl)

theorem plain_protectionRules (management : List String) :
    Plain (protectionRules config management) :=
  .append (.ite .nil (.singleton rfl)) (.ite .nil (.singleton rfl))

theorem plain_grantRules (h : grantRules config management user = .ok rules) : Plain rules := by
  have hgrant : ∀ targets, Plain (if targets = [] then [] else
      [{ userIdentity config user with ipCIDR := targets, action := .route "direct-wan" }]) :=
    fun targets => .ite .nil (.singleton rfl)
  unfold grantRules at h
  simp only at h
  split at h
  · cases h
    exact .append (hgrant _) (hgrant _)
  · split at h
    · split at h
      · cases h
        exact .nil
      · split at h
        · cases h
        · cases h
          intro rule hrule
          obtain ⟨base, hbase, rfl⟩ := List.mem_map.mp hrule
          rw [List.mem_singleton.mp hbase]
          rfl
    · cases h
      exact .nil

/-- **Rule sets.** The rules refer to all rule sets of steered services, and apart from them to rule
    sets of listed services only. -/
theorem references_buildXrayRouteSource (henv : PlainTexts env)
    {outbounds : List String} (h : buildXrayRouteSource env config nodes outbounds = .ok rules) :
    (References rules x → ∃ entity, EnabledEntity config entity ∧
      (SteeredSet env config (availableExits env config nodes outbounds) entity x ∨
        ListedSet env config entity x)) ∧
    ∀ entity, EnabledEntity config entity →
      SteeredSet env config (availableExits env config nodes outbounds) entity x →
        References rules x := by
  obtain ⟨management, -, h⟩ := bind_eq_ok h
  obtain ⟨grants, hgrants, h⟩ := bind_eq_ok h
  simp only at h
  split at h
  · cases h
  obtain ⟨users, husers, h⟩ := bind_eq_ok h
  obtain ⟨clients, hclients, h⟩ := bind_eq_ok h
  cases h
  have hfirst : Plain (serviceInboundRules config nodes
      (availableExits env config nodes outbounds) ++ xrayNodeLoopRule nodes ++ grants.flatten ++
        protectionRules config management) :=
    (((plain_serviceInboundRules nodes).append (plain_xrayNodeLoopRule nodes)).append
      (.flatten hgrants fun _ _ => plain_grantRules)).append (plain_protectionRules management)
  have hinternal : Plain (if enabledInternalCIDRs config = [] then []
      else [{ SourceRule.always (.route "direct-wan") with
        inbound := localTransparentInbounds
        ipCIDR := enabledInternalCIDRs config }]) := .ite .nil (.singleton rfl)
  have hlast : Plain [{ SourceRule.always (.route "direct-wan") with
      inbound := localTransparentInbounds },
      { SourceRule.always (.route "block") with inbound := remoteInbounds config }] :=
    .append (.singleton rfl) (.singleton rfl)
  have hclient : ∀ client, client ∈ config.enabledLocalClientsSpecificFirst ↔
      client ∈ config.localClients ∧ client.enabled = true := by
    intro client
    simp only [Config.enabledLocalClientsSpecificFirst, List.mem_append, List.mem_filter,
      Bool.not_eq_eq_eq_not, Bool.not_true]
    cases allLANClient client <;> simp
  have hclosing : References (closingRules config clients) x ↔ References clients.flatten x :=
    hlast.append_references.trans hinternal.references_append
  rw [references_append, hfirst.references_append, hclosing]
  constructor
  · rintro (hx | hx)
    · obtain ⟨user, huser, rules, hrules, hx⟩ := exists_of_references_flatten husers hx
      exact ⟨user.toEntity, .user huser rfl, (references_userRules henv hrules).1 hx⟩
    · obtain ⟨client, hmem, rules, hrules, hx⟩ := exists_of_references_flatten hclients hx
      obtain ⟨hmem, henabled⟩ := (hclient client).mp hmem
      exact ⟨client.toEntity, .client hmem henabled rfl, (references_clientRules henv hrules).1 hx⟩
  · intro entity hentity hx
    cases hentity with
    | user hmem hentity =>
      subst hentity
      exact .inl (references_flatten_of_mem husers hmem fun rules hrules =>
        (references_userRules henv hrules).2 hx)
    | client hmem henabled hentity =>
      subst hentity
      exact .inr (references_flatten_of_mem hclients ((hclient _).mpr ⟨hmem, henabled⟩)
        fun rules hrules => (references_clientRules henv hrules).2 hx)

end References

/-! ### Routed cards -/

/-- What the policy of an entity lists is selected. -/
theorem mem_selectedIDs_of_policy (hp : config.policyByID id = some p)
    (hservice : service ∈ collect env p.directServices p.serviceRoutes p.trafficMode) :
    service ∈ selectedIDs env config :=
  List.mem_append_left _ (List.mem_append_left _
    (List.mem_flatMap.mpr ⟨p, (policyByID_eq_some hp).1, hservice⟩))

/-- What an entity lists is selected. -/
theorem mem_selectedIDs_of_entity (hentity : EnabledEntity config.toConfig entity)
    (hservice : service ∈ collectEntity env config entity) : service ∈ selectedIDs env config := by
  cases hentity with
  | user huser hentity =>
    subst hentity
    exact List.mem_append_right _ (List.mem_flatMap.mpr ⟨_, huser, hservice⟩)
  | client hclient henabled hentity =>
    subst hentity
    exact List.mem_append_left _ (List.mem_append_right _
      (List.mem_flatMap.mpr ⟨_, List.mem_filter.mpr ⟨hclient, henabled⟩, hservice⟩))

/-- The worker takes a canonical id as the route source does. -/
theorem canonical_eq_trimmed (henv : PlainTexts env)
    (h : canonicalServiceID env value = .ok canonical) :
    env.toLower (env.trimSpace value) = canonical := by
  obtain ⟨hpattern, hlower⟩ := canonicalServiceID_eq_ok h
  rw [henv.trim value (hlower ▸ hpattern), hlower]

variable {serviceRoutes : AList (fun _ : String => String)}

theorem mem_collect_direct (henv : PlainTexts env) {directServices : List String}
    (hvalue : value ∈ directServices) (h : canonicalServiceID env value = .ok canonical) :
    canonical ∈ collect env directServices serviceRoutes trafficMode :=
  List.mem_append_left _ (List.mem_append_left _
    (List.mem_map.mpr ⟨value, hvalue, canonical_eq_trimmed henv h⟩))

theorem mem_collect_route (henv : PlainTexts env) {directServices : List String}
    (hname : name ∈ serviceRoutes.keys) (h : canonicalServiceID env name = .ok canonical) :
    canonical ∈ collect env directServices serviceRoutes trafficMode :=
  List.mem_append_left _ (List.mem_append_right _
    (List.mem_map.mpr ⟨name, hname, canonical_eq_trimmed henv h⟩))

/-- A service with rules that the entity or its policy lists is selected. -/
theorem Listed.mem_selectedIDs (henv : PlainTexts env)
    (hentity : EnabledEntity config.toConfig entity)
    (h : Listed env entity (config.policyByID entity.policyID) service) :
    service ∈ selectedIDs env config := by
  cases h with
  | direct hservices hservice =>
    rcases mem_directServices hservices hservice with
      ⟨value, hvalue | ⟨p, hp, hvalue⟩, hcanonical⟩ | ⟨p, hp, hmode, -, halways⟩
    · exact mem_selectedIDs_of_entity hentity (mem_collect_direct henv hvalue hcanonical)
    · exact mem_selectedIDs_of_policy hp (mem_collect_direct henv hvalue hcanonical)
    · obtain ⟨pack, hpack, hdirect, rfl⟩ := mem_alwaysDirect.mp halways
      refine mem_selectedIDs_of_policy hp (List.mem_append_right _ ?_)
      rw [if_pos hmode]
      exact List.mem_map.mpr ⟨pack, List.mem_filter.mpr ⟨hpack, hdirect⟩, rfl⟩
  | @route name outbound hroute hcanonical =>
    have hname : name ∈ entity.serviceRoutes ∪
        ((config.policyByID entity.policyID).map Policy.serviceRoutes).getD ∅ := by
      simp only [serviceRouteTable, List.mem_map, mem_sortStrings, Prod.mk.injEq] at hroute
      obtain ⟨_, hkey, rfl, -⟩ := hroute
      exact hkey
    rcases AList.mem_union.mp hname with hname | hname
    · exact mem_selectedIDs_of_entity hentity (mem_collect_route henv hname hcanonical)
    · cases hp : config.policyByID entity.policyID with
      | none => simp [hp] at hname
      | some p =>
        rw [hp] at hname
        exact mem_selectedIDs_of_policy hp (mem_collect_route henv hname hcanonical)

/-- Every routed card that exists is kept up to date. -/
def KeptUpToDate (env : Env) (config : ActiveConfig) (rules : List SourceRule) : Prop :=
  ∀ x, References rules x → ((availablePacks env config).byID x).isSome = true →
    x ∈ (activePacks env config).map ServicePack.id

/-- The rule sets of the services that the policies in use steer are also those of services that are
    listed. -/
def CandidatesListed (env : Env) (config : ActiveConfig) (available : List String) : Prop :=
  ∀ entity, EnabledEntity config.toConfig entity → ∀ x,
    SteeredSet env config.toConfig available entity x →
      ((availablePacks env config).byID x).isSome = true → Covered env config x

/-- **Refreshed cards.** All routed cards are kept up to date exactly if the cards of steered
    services are listed as well: `ActivePacks` does not read the candidate services. -/
theorem kept_up_to_date_iff (env : Env) (henv : PlainTexts env) (config : ActiveConfig)
    (nodes : List RuntimeConfig.Node) (outbounds : List String) (rules : List SourceRule)
    (hbuild : buildXrayRouteSource env config.toConfig nodes outbounds = .ok rules) :
    KeptUpToDate env config rules ↔
      CandidatesListed env config (availableExits env config.toConfig nodes outbounds) := by
  constructor
  · intro hkept entity hentity x hx hsome
    have hreference := (references_buildXrayRouteSource henv hbuild).2 entity hentity hx
    exact mem_activePacks_iff.mp (hkept x hreference hsome)
  · intro hlisted x hx hsome
    obtain ⟨entity, hentity, hx | ⟨service, hservice, hx⟩⟩ :=
      (references_buildXrayRouteSource henv hbuild).1 hx
    · exact mem_activePacks_iff.mpr (hlisted entity hentity x hx hsome)
    · exact mem_activePacks_iff.mpr
        (covered_of_ruleSet (hservice.mem_selectedIDs henv hentity) hx hsome)

/-! ### Samples -/

def samplePack : ServicePack where
  id := "claude"
  sniffedProtocols := []
  alwaysDirect := false
  includedPackIDs := []

/-- A catalogue with one card. -/
def sampleEnv : Env := { bareEnv with catalog := ⟨[samplePack], List.nodup_singleton _⟩ }

/-- A priority policy that steers the card, and lists some services as direct. -/
def samplePolicy (direct : List String) : Policy where
  enabled := true
  id := "europe"
  mode := "priority"
  trafficMode := ""
  final := ""
  selectionOrder := ["node-a"]
  customRoutes := []
  candidateServiceIDs := ["claude"]
  directServices := direct
  directDomains := []
  serviceRoutes := ∅
  torrentDirect := none

/-- A user with this policy. -/
def sampleUser : User :=
  { bareEntity "alice" "europe" with
    role := ""
    allowedCIDRs := []
    allowedNetworkIDs := []
    allowedPorts := [] }

def sampleConfig (direct : List String) : ActiveConfig :=
  { bareConfig with
    policies := [samplePolicy direct]
    remoteUsers := [sampleUser]
    servicePacks := []
    entityTrafficMode := fun _ => "" }

/-- A selector serves the pack. -/
def sampleOutbounds : List String :=
  ["direct-wan", "block", "node-a", "europe", policyServiceSelectorTag sampleEnv "europe" "claude"]

theorem sampleEnv_plainTexts : PlainTexts sampleEnv where
  lower _ _ := rfl
  trim _ _ := rfl
  catalog := by
    intro pack hpack
    rw [List.mem_singleton.mp hpack]
    decide

theorem sample_built (direct : List String) (hdirect : direct = [] ∨ direct = ["claude"]) :
    ∃ rules, buildXrayRouteSource sampleEnv (sampleConfig direct).toConfig openNodes
      sampleOutbounds = .ok rules := by
  rcases hdirect with rfl | rfl <;> exact exists_of_isOk rfl

/-- The policy steers the card. -/
theorem sample_steered : SteeredSet sampleEnv (sampleConfig []).toConfig
    (availableExits sampleEnv (sampleConfig []).toConfig openNodes sampleOutbounds)
    sampleUser.toEntity "claude" :=
  ⟨samplePolicy [], "claude", rfl, ⟨rfl, by decide, by decide +kernel⟩, by decide +kernel⟩

/-- A card that is direct as well is kept up to date. -/
theorem sample_kept : ∃ rules,
    buildXrayRouteSource sampleEnv (sampleConfig ["claude"]).toConfig openNodes sampleOutbounds =
      .ok rules ∧ KeptUpToDate sampleEnv (sampleConfig ["claude"]) rules := by
  obtain ⟨rules, hrules⟩ := sample_built ["claude"] (.inr rfl)
  refine ⟨rules, hrules, (kept_up_to_date_iff sampleEnv sampleEnv_plainTexts _ _ _ rules hrules).mpr
    fun entity _ x _ hsome => ?_⟩
  obtain ⟨pack, hpack⟩ := Option.isSome_iff_exists.mp hsome
  have hx : x = "claude" := by
    rw [← id_of_byID hpack, List.mem_singleton.mp (List.mem_of_find?_eq_some hpack)]
    rfl
  subst hx
  exact ⟨"claude", by decide, .refl rfl⟩

/-- A card that is only steered is routed and not kept up to date. -/
theorem sample_not_kept : ∃ rules,
    buildXrayRouteSource sampleEnv (sampleConfig []).toConfig openNodes sampleOutbounds =
        .ok rules ∧
      References rules "claude" ∧
      ((availablePacks sampleEnv (sampleConfig [])).byID "claude").isSome = true ∧
      activePacks sampleEnv (sampleConfig []) = [] ∧
      ¬ KeptUpToDate sampleEnv (sampleConfig []) rules := by
  obtain ⟨rules, hrules⟩ := sample_built [] (.inl rfl)
  have hentity : EnabledEntity (sampleConfig []).toConfig sampleUser.toEntity :=
    .user (List.mem_filter.mpr ⟨List.mem_singleton_self _, rfl⟩) rfl
  have hreference := (references_buildXrayRouteSource sampleEnv_plainTexts hrules).2 _ hentity
    sample_steered
  have hactive : activePacks sampleEnv (sampleConfig []) = [] := rfl
  refine ⟨rules, hrules, hreference, rfl, hactive, fun hkept => ?_⟩
  have hmem := hkept "claude" hreference rfl
  rw [hactive] at hmem
  cases hmem

end SbGateway.Rulesets
