import SbGateway.RuntimeConfig.DnsCompile

namespace SbGateway.RuntimeConfig

open Lib

/-!
# The lane of a query

The identities are in the order of `identityKey`; the first one that covers a query decides which
lane answers it.

* `identityLess_iff` — the comparison of identities is that of their keys;
* `find?_collect_iff` — the first identity with a property;
* `compileLanes_spec`, `selectedLane_eq` — the rendered rules lead a query to the lane of the
  first identity that covers it.
-/

/-! ### The order of identities -/

/-- The broadest prefix of an identity with sources, `0` for one without. -/
def Identity.breadth (identity : Identity) : ℤ :=
  if identity.sourceCIDR = [] then 0 else -policyDNSPrefixSpecificity identity.sourceCIDR

/-- What identities are ordered by. -/
def identityKey (env : Env) (a : Identity) : Bool ×ₗ ℤ ×ₗ ℤ ×ₗ ℤ ×ₗ String :=
  toLex (a.sourceCIDR.isEmpty, toLex (a.breadth, toLex (-(a.size : ℤ), toLex (-(a.fields : ℤ),
    a.text env))))

variable {env : Env}

/-- One stage of the comparison: more comes first, equal goes on. -/
theorem descending_iff (h : rest = true ↔ p) :
    (if x != y then decide (y < x) else rest) = true ↔ -x < -y ∨ -x = -y ∧ p := by
  by_cases hxy : x = y
  · simp [hxy, h]
  · have hne : -x ≠ -y := fun heq => hxy (neg_injective heq)
    simp [hxy, hne]

theorem descendingNat_iff {x y : ℕ} (h : rest = true ↔ p) :
    (if x != y then decide (y < x) else rest) = true ↔
      -(x : ℤ) < -(y : ℤ) ∨ -(x : ℤ) = -(y : ℤ) ∧ p := by
  rw [← descending_iff h]
  simp

theorem identityLess_iff : identityLess env a b = true ↔ identityKey env a < identityKey env b := by
  have htail := descendingNat_iff (x := a.size) (y := b.size) (descendingNat_iff (x := a.fields)
    (y := b.fields) (p := a.text env < b.text env) decide_eq_true_iff)
  unfold identityLess identityKey Identity.breadth
  simp only [Prod.Lex.toLex_lt_toLex]
  cases ha : a.sourceCIDR with
  | nil =>
    cases hb : b.sourceCIDR with
    | nil => simpa using htail
    | cons y ys => simp
  | cons x xs =>
    cases hb : b.sourceCIDR with
    | nil => simp
    | cons y ys =>
      have h := descending_iff (x := policyDNSPrefixSpecificity (x :: xs))
        (y := policyDNSPrefixSpecificity (y :: ys)) htail
      simpa using h

theorem identityLess_eq_false_iff :
    identityLess env b a = false ↔ identityKey env a ≤ identityKey env b := by
  rw [← not_lt, ← identityLess_iff, Bool.not_eq_true]

instance : Std.Total (fun a b : Identity => identityLess env b a = false) where
  total a b := by
    rw [identityLess_eq_false_iff, identityLess_eq_false_iff]
    exact le_total _ _

instance : IsTrans Identity (fun a b => identityLess env b a = false) where
  trans a b c := by
    rw [identityLess_eq_false_iff, identityLess_eq_false_iff, identityLess_eq_false_iff]
    exact le_trans

/-- The identities of the rules, and that of everyone else. -/
theorem mem_collect : identity ∈ collectPolicyDNSIdentities env rules ↔
      (∃ rule ∈ rules, ruleIdentity rule = identity) ∧ identity.isEmpty = false ∨
        identity = ⟨[], [], []⟩ := by
  unfold collectPolicyDNSIdentities
  rw [List.mem_append, List.mem_insertionSort, mem_unique, List.mem_filter, List.mem_map,
    List.mem_singleton, Bool.not_eq_true']

/-- Everyone else comes last. -/
theorem identityKey_le_rest (a : Identity) : identityKey env a ≤ identityKey env ⟨[], [], []⟩ := by
  rw [← identityLess_eq_false_iff]
  unfold identityLess
  cases ha : a.sourceCIDR with
  | cons x xs => simp
  | nil =>
    by_cases hsize : a.size = 0
    · have hlists : a.authUser = [] ∧ a.inbound = [] := by
        simp only [Identity.size, ha, List.length_nil, Nat.add_zero, Nat.add_eq_zero_iff,
          List.length_eq_zero_iff] at hsize
        exact hsize
      have heq : a = ⟨[], [], []⟩ := by
        cases a
        simp_all
      simp [heq]
    · have hrest : (⟨[], [], []⟩ : Identity).size = 0 := rfl
      simp [hrest, Ne.symm hsize]

/-- The identities are in the order of their keys. -/
theorem pairwise_collect (rules : List DnsRule) : (collectPolicyDNSIdentities env rules).Pairwise
      (fun a b => identityKey env a ≤ identityKey env b) := by
  unfold collectPolicyDNSIdentities
  rw [List.pairwise_append]
  refine ⟨?_, List.pairwise_singleton _ _, ?_⟩
  · exact (List.pairwise_insertionSort _ _).imp identityLess_eq_false_iff.mp
  · intro a _ b hb
    rw [List.mem_singleton.mp hb]
    exact identityKey_le_rest a

/-- The JSON text tells identities apart. -/
def JSONInjective (env : Env) : Prop := ∀ a b : Identity, a.text env = b.text env → a = b

theorem identityKey_injective (hjson : JSONInjective env) :
    Function.Injective (identityKey env) := by
  intro a b h
  apply hjson
  simpa [identityKey] using congrArg (fun k => (ofLex (ofLex (ofLex (ofLex k).2).2).2).2) h

/-- **First identity.** The first identity with a property is the one with the least key. -/
theorem find?_collect_iff (hjson : JSONInjective env)
    : (collectPolicyDNSIdentities env rules).find? p = some a ↔
      a ∈ collectPolicyDNSIdentities env rules ∧ p a = true ∧
        ∀ b ∈ collectPolicyDNSIdentities env rules, p b = true →
          identityKey env a ≤ identityKey env b := by
  have hleast : ∀ c, (collectPolicyDNSIdentities env rules).find? p = some c →
      ∀ b ∈ collectPolicyDNSIdentities env rules, p b = true →
        identityKey env c ≤ identityKey env b := by
    intro c hc b hb hpb
    obtain ⟨_, before, after, hsplit, hbefore⟩ := List.find?_eq_some_iff_append.mp hc
    have hsorted : (collectPolicyDNSIdentities env rules).Pairwise
        (fun a b => identityKey env a ≤ identityKey env b) := pairwise_collect rules
    rw [hsplit] at hb hsorted
    rcases List.mem_append.mp hb with hb | hb
    · have hnot := hbefore b hb
      rw [hpb] at hnot
      cases hnot
    · rcases List.mem_cons.mp hb with rfl | hb
      · exact le_rfl
      · exact (List.pairwise_cons.mp (List.pairwise_append.mp hsorted).2.1).1 b hb
  constructor
  · intro h
    exact ⟨List.mem_of_find?_eq_some h, List.find?_some h, hleast a h⟩
  · rintro ⟨hmem, hp, hle⟩
    cases hfind : (collectPolicyDNSIdentities env rules).find? p with
    | none => exact absurd hp (List.find?_eq_none.mp hfind a hmem)
    | some c =>
      have hca := hleast c hfind a hmem hp
      have hac := hle c (List.mem_of_find?_eq_some hfind) (List.find?_some hfind)
      rw [identityKey_injective hjson (le_antisymm hca hac)]

/-! ### The rendered lanes -/

/-- The rule leads its identity to the lane that was compiled for it. -/
def LeadsTo (env : Env) (servers : List String) (source : DnsSource) (lanes : List (DnsLane × ℕ))
    (identity : Identity) (rule : XrayRule) : Prop :=
  ∃ index lane port, rule = identityRule identity (laneTag index) ∧
    lanes[index]? = some (lane, port) ∧ compileLane env servers source identity = .ok lane

/-- Placing a lane adds the rule of its identity and keeps the lanes before it. -/
theorem place_spec {state state' : LaneState} (h : state.place identity lane = .ok state') :
    (∃ index port, state'.rules = state.rules ++ [identityRule identity (laneTag index)] ∧
      state'.lanes[index]? = some (lane, port)) ∧ state.lanes <+: state'.lanes := by
  unfold LaneState.place at h
  split at h
  · rename_i index hindex
    cases h
    obtain ⟨hlt, heq, _⟩ := List.findIdx?_eq_some_iff_getElem.mp hindex
    refine ⟨⟨index, (state.lanes[index]).2, rfl, ?_⟩, List.prefix_rfl⟩
    rw [List.getElem?_eq_getElem hlt]
    congr 1
    exact Prod.ext (beq_iff_eq.mp heq) rfl
  · obtain ⟨port, _, h⟩ := bind_eq_ok h
    cases h
    refine ⟨⟨state.lanes.length, port, rfl, ?_⟩, List.prefix_append _ _⟩
    exact List.getElem?_concat_length

theorem LeadsTo.mono (hle : lanes <+: lanes') (h : LeadsTo env servers source lanes identity rule) :
    LeadsTo env servers source lanes' identity rule := by
  obtain ⟨index, lane, port, hrule, hlane, hcompile⟩ := h
  obtain ⟨rest, rfl⟩ := hle
  have hlt : index < lanes.length := (List.getElem?_eq_some_iff.mp hlane).1
  refine ⟨index, lane, port, hrule, ?_, hcompile⟩
  rw [List.getElem?_append_left hlt]
  exact hlane

/-- **Lanes.** The rules are those of the identities, in order, each leading to its lane. -/
theorem compileLanes_spec {servers : List String}
    (h : compileLanes env servers source existing = .ok state) :
    List.Forall₂ (LeadsTo env servers source state.lanes)
      (collectPolicyDNSIdentities env source.rules) state.rules := by
  refine foldlM_eq_ok_induct
    (fun done state => List.Forall₂ (LeadsTo env servers source state.lanes)
    done state.rules) ?_ List.Forall₂.nil h
  intro done identity state state' hdone hstep
  obtain ⟨lane, hlane, hplace⟩ := bind_eq_ok hstep
  obtain ⟨⟨index, port, hrules, hindex⟩, hstart⟩ := place_spec hplace
  rw [hrules]
  apply List.rel_append (hdone.imp fun _ _ => LeadsTo.mono hstart)
  exact .cons ⟨index, lane, port, rfl, hindex, hlane⟩ .nil

/-- Rules that are not for hosts alone are not compacted. -/
theorem compact_eq_self (h : ∀ rule ∈ rules, hostSources rule = none) :
    compactPolicyDNSHostRules rules = rules := by
  have hfold : ∀ (rules done : List XrayRule), (∀ rule ∈ rules, hostSources rule = none) →
      ∀ groups seen, (rules.foldl CompactState.add ⟨done, groups, seen⟩).result = done ++
        rules := by
    intro rules
    induction rules with
    | nil =>
      intro done _ groups seen
      simp
    | cons rule rest ih =>
      intro done hrules groups seen
      have hstep : CompactState.add ⟨done, groups, seen⟩ rule = ⟨done ++ [rule], [], []⟩ := by
        unfold CompactState.add
        rw [hrules rule (List.mem_cons_self ..)]
      rw [List.foldl_cons, hstep, ih _ fun r hr => hrules r (List.mem_cons_of_mem _ hr)]
      simp
  exact hfold rules [] h [] []

/-! ### The lane of a query -/

/-- The identity covers the flow. -/
def Identity.covers (xray : Xray) (flow : Flow) (identity : Identity) : Bool :=
  (identity.inbound.isEmpty || identity.inbound.contains flow.inbound) &&
    (identity.authUser.isEmpty || flow.user.any identity.authUser.contains) &&
    (identity.sourceCIDR.isEmpty || identity.sourceCIDR.any fun entry =>
      sourceMatches xray entry flow.source)

/-- The lane with a tag. -/
def DnsArtifacts.laneOf (artifacts : DnsArtifacts) (tag : String) : Option DnsLane :=
  (artifacts.lanes.zipIdx.find? fun entry => laneTag entry.2 = tag).map fun entry => entry.1.1

/-- The lane that the first matching rule of the artifacts leads a query to. -/
def selectedLane (xray : Xray) (artifacts : DnsArtifacts) (flow : Flow) : Option DnsLane :=
  (artifacts.rules.find? fun rule => rule.matches xray flow flow.destination.addresses).bind
    fun rule => artifacts.laneOf rule.target

/-- The rule of an identity matches the queries that the identity covers. -/
theorem identityRule_matches (hport : flow.port = 53) (identity : Identity) (tag : String)
    (addresses : List Addr) :
    (identityRule identity tag).matches xray flow addresses = identity.covers xray flow := by
  have hnetwork : splitText ',' "tcp,udp" = ["tcp", "udp"] := by decide
  have hports : splitText ',' "53" = ["53"] := by decide
  have hitem : portItem "53" 53 = true := by decide
  unfold XrayRule.matches identityRule Identity.covers
  cases hn : flow.network <;> simp [hnetwork, hports, hitem, hport, NetworkKind.text]

theorem laneTag_injective (h : laneTag i = laneTag j) : i = j := by
  unfold laneTag at h
  exact Nat.repr_inj.mp (String.append_right_inj _ |>.mp h)

/-- The only element with a property is the one that is found. -/
theorem find?_eq_some_of_unique {α : Type} {p : α → Bool} {l : List α} {a : α} (hmem : a ∈ l)
    (hp : p a = true) (hunique : ∀ b ∈ l, p b = true → b = a) : l.find? p = some a := by
  cases hfind : l.find? p with
  | none => exact absurd hp (List.find?_eq_none.mp hfind a hmem)
  | some b => rw [hunique b (List.mem_of_find?_eq_some hfind) (List.find?_some hfind)]

/-- The lane with the tag of an index is the one at the index. -/
theorem laneOf_laneTag {artifacts : DnsArtifacts} {index port : ℕ} {lane : DnsLane}
    (h : artifacts.lanes[index]? = some (lane, port)) :
    artifacts.laneOf (laneTag index) = some lane := by
  have hfind : (artifacts.lanes.zipIdx.find? fun entry => laneTag entry.2 = laneTag index) =
      some ((lane, port), index) := by
    apply find?_eq_some_of_unique (List.mem_zipIdx_iff_getElem?.mpr h) (decide_eq_true rfl)
    intro entry hentry htag
    have hindex : entry.2 = index := laneTag_injective (of_decide_eq_true htag)
    have hlane := List.mem_zipIdx_iff_getElem?.mp hentry
    rw [hindex, h] at hlane
    exact Prod.ext (Option.some.inj hlane).symm hindex
  unfold DnsArtifacts.laneOf
  rw [hfind]
  rfl

/-- A flow of another inbound passes the tunnels. -/
theorem DnsTunnel.rule_matches_false (hinbound : flow.inbound.toList.head? ≠ some 'd')
    (selectable : List String) (tunnel : DnsTunnel) (addresses : List Addr) :
    (tunnel.rule selectable).matches xray flow addresses = false := by
  rw [← Bool.not_eq_true, XrayRule.matches_iff]
  intro hm
  rcases hm.inbound with h | h
  · cases h
  · have heq : flow.inbound = "dns-upstream-" ++ toString tunnel.index := List.mem_singleton.mp h
    apply hinbound
    rw [heq, String.toList_append, List.head?_append]
    have hd : "dns-upstream-".toList.head? = some 'd' := by decide
    rw [hd]
    rfl

/-- The first hit of one list is related to the first hit of the other. -/
theorem find?_forall₂ {α β : Type} {R : α → β → Prop} {p : α → Bool} {q : β → Bool}
    {as : List α} {bs : List β} (h : List.Forall₂ R as bs)
    (hpq : ∀ a b, R a b → q b = p a) {a : α} (ha : as.find? p = some a) :
    ∃ b, bs.find? q = some b ∧ R a b := by
  induction h with
  | nil => cases ha
  | @cons x y as bs hxy _ ih =>
    rw [List.find?_cons] at ha ⊢
    rw [hpq x y hxy]
    cases hp : p x with
    | true =>
      rw [hp] at ha
      cases ha
      exact ⟨y, rfl, hxy⟩
    | false =>
      rw [hp] at ha
      exact ih ha

/-- What a successful compilation is made of. -/
theorem compilePolicyDNS_ok {selectable : List String} {existing : List ℕ}
    {artifacts : DnsArtifacts} (h : compilePolicyDNS env selectable existing source = .ok artifacts)
    (hservers : serversByTag source.servers ≠ []) :
    source.final ∈ (serversByTag source.servers).map DnsServer.tag ∧ ∃ state tunnels,
      compileLanes env ((serversByTag source.servers).map DnsServer.tag) source existing =
        .ok state ∧
      compileTunnels state.used (serversByTag source.servers).zipIdx = .ok tunnels ∧
      artifacts = ⟨state.lanes, serversByTag source.servers, tunnels,
        tunnels.map (DnsTunnel.rule selectable) ++ compactPolicyDNSHostRules state.rules⟩ := by
  unfold compilePolicyDNS at h
  simp only at h
  split at h
  · rename_i hempty
    exact absurd (List.isEmpty_iff.mp hempty) hservers
  · split at h
    · cases h
    · rename_i hfinal
      obtain ⟨state, hstate, h⟩ := bind_eq_ok h
      obtain ⟨tunnels, htunnels, h⟩ := bind_eq_ok h
      cases h
      exact ⟨by simpa using hfinal, state, tunnels, hstate, htunnels, rfl⟩

/-- **Selected lane.** A query goes to the lane that was compiled for the first identity that
    covers it. -/
theorem selectedLane_eq {selectable : List String} {existing : List ℕ}
    {artifacts : DnsArtifacts} (h : compilePolicyDNS env selectable existing source = .ok artifacts)
    (hservers : serversByTag source.servers ≠ [])
    (hhosts : ∀ rule ∈ source.rules, rule.sourceCIDR ≠ [] → (ruleIdentity rule).inbound ≠ [])
    (hport : flow.port = 53) (hinbound : flow.inbound.toList.head? ≠ some 'd') {identity : Identity}
    (hfirst : (collectPolicyDNSIdentities env source.rules).find? (Identity.covers xray flow) =
      some identity) :
    ∃ lane, compileLane env ((serversByTag source.servers).map DnsServer.tag) source identity =
      .ok lane ∧ selectedLane xray artifacts flow = some lane := by
  obtain ⟨-, state, tunnels, hstate, -, rfl⟩ := compilePolicyDNS_ok h hservers
  have hspec := compileLanes_spec hstate
  have hcompact : compactPolicyDNSHostRules state.rules = state.rules := by
    apply compact_eq_self
    intro rule hrule
    obtain ⟨a, ha, index, lane, port, rfl, _⟩ := exists_of_mem_forall₂ hspec hrule
    unfold hostSources
    rw [if_pos]
    show a.sourceCIDR = [] ∨ a.authUser ≠ [] ∨ a.inbound ≠ []
    rcases mem_collect.mp ha with ⟨⟨r, hr, rfl⟩, _⟩ | rfl
    · by_cases hsource : r.sourceCIDR = []
      · left
        simp [ruleIdentity, hsource, sortedUniqueStrings, sortStrings, unique, uniqueFrom]
      · exact .inr (.inr (hhosts r hr hsource))
    · exact .inl rfl
  have hpass : ∀ rule ∈ tunnels.map (DnsTunnel.rule selectable),
      ¬ rule.matches xray flow flow.destination.addresses = true := by
    intro rule hrule
    obtain ⟨tunnel, -, rfl⟩ := List.mem_map.mp hrule
    rw [tunnel.rule_matches_false hinbound]
    exact Bool.false_ne_true
  obtain ⟨rule, hfind, index, lane, port, rfl, hlane, hcompile⟩ := find?_forall₂ hspec
    (q := fun rule => rule.matches xray flow flow.destination.addresses)
    (fun a b hab => by
      obtain ⟨index, lane, port, rfl, _⟩ := hab
      exact identityRule_matches hport a _ _) hfirst
  refine ⟨lane, hcompile, ?_⟩
  unfold selectedLane
  rw [hcompact, List.find?_append, List.find?_eq_none.mpr hpass, Option.none_or, hfind]
  exact laneOf_laneTag hlane

end SbGateway.RuntimeConfig
