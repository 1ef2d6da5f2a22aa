import SbGateway.RuntimeConfig.FailClosed
import SbGateway.RuntimeConfig.Listeners

namespace SbGateway.RuntimeConfig.Listeners

open Lib

/-!
# Conflicts between listeners

The validation compares the configured ports with each other and with a list of internal ones.  That
list is not complete, and not all transports are compared with it.

* `Accepted.shares` — configured ports are only shared within nginx;
* `internal_eq` — the internal listeners have different ports;
* `no_conflict_iff` — where an accepted configuration has no conflicts.
-/

/-! ### What the validation has checked -/

/-- Two registrations of one port are both of nginx. -/
def Registration.Shares (a b : Registration) : Prop :=
  a.udp = b.udp → a.port = b.port → validPort a.port → a.nginx = true ∧ b.nginx = true

theorem Registration.Shares.symm {a b : Registration} (h : a.Shares b) : b.Shares a := by
  intro hudp hport hvalid
  exact (h hudp.symm hport.symm (hport ▸ hvalid)).symm

/-- The entry for a port. -/
abbrev lookup (table : List Registration) (r : Registration) : Option Registration :=
  table.find? fun old => old.udp = r.udp && old.port = r.port

/-- The table after some registrations: the entry for the port of each of them is of its kind. -/
structure Tabled (done table : List Registration) : Prop where
  shares : done.Pairwise Registration.Shares
  entry : ∀ r ∈ done, validPort r.port → ∃ old, lookup table r = some old ∧ old.nginx = r.nginx

variable {done table table' : List Registration} {new : Registration}

/-- One more registration, with an entry in a table that only grows. -/
theorem Tabled.snoc (h : Tabled done table)
    (hkept : ∀ r old, lookup table r = some old → lookup table' r = some old)
    (hshares : validPort new.port → ∀ old, lookup table new = some old →
      old.nginx = true ∧ new.nginx = true)
    (hentry : validPort new.port → ∃ old, lookup table' new = some old ∧ old.nginx = new.nginx) :
    Tabled (done ++ [new]) table' := by
  refine ⟨List.pairwise_append.mpr ⟨h.shares, List.pairwise_singleton _ _, ?_⟩, ?_⟩
  · intro r hr r' hr'
    rw [List.mem_singleton.mp hr']
    intro hudp hport hvalid
    obtain ⟨old, hold, hnginx⟩ := h.entry r hr hvalid
    rw [lookup, hudp, hport] at hold
    obtain ⟨holdNginx, hnewNginx⟩ := hshares (hport ▸ hvalid) old hold
    exact ⟨hnginx ▸ holdNginx, hnewNginx⟩
  · intro r hr hvalid
    rcases List.mem_append.mp hr with hr | hr
    · obtain ⟨old, hold, hnginx⟩ := h.entry r hr hvalid
      exact ⟨old, hkept r old hold, hnginx⟩
    · rw [List.mem_singleton.mp hr] at hvalid ⊢
      exact hentry hvalid

theorem Tabled.register (h : Tabled done table) (hnew : register shared table new = .ok table') :
    Tabled (done ++ [new]) table' := by
  unfold Listeners.register at hnew
  split at hnew
  next hinvalid =>
    cases hnew
    have hnot : ¬ validPort new.port := by
      unfold validPort
      omega
    exact h.snoc (fun _ _ hold => hold) (fun hvalid => absurd hvalid hnot)
      fun hvalid => absurd hvalid hnot
  next =>
    split at hnew
    · cases hnew
    · split at hnew
      next old hfind =>
        split at hnew
        next hnginx =>
          cases hnew
          obtain ⟨hnewNginx, holdNginx⟩ := Bool.and_eq_true_iff.mp hnginx
          refine h.snoc (fun _ _ hold => hold) (fun _ old' hold' => ?_)
            fun _ => ⟨old, hfind, holdNginx.trans hnewNginx.symm⟩
          cases hfind.symm.trans hold'
          exact ⟨holdNginx, hnewNginx⟩
        next => cases hnew
      next hfind =>
        cases hnew
        refine h.snoc (fun r old hold => ?_) (fun _ old hold => ?_) fun _ => ⟨new, ?_, rfl⟩
        · rw [lookup] at hold ⊢
          rw [List.find?_append, hold]
          rfl
        · cases hfind.symm.trans hold
        · simp [lookup, List.find?_append, hfind]

variable {trim : String → String} {base : Config} {config : Ingress}

/-- **Configured ports.** A port is only registered twice if both are of nginx. -/
theorem Accepted.shares (h : Accepted trim base config) :
    (registrations trim config).Pairwise Registration.Shares := by
  obtain ⟨table, htable⟩ := h.registered
  have htabled := foldlM_eq_ok_induct Tabled (fun _ _ _ _ hI hstep => hI.register hstep)
    ⟨.nil, by simp⟩ htable
  exact htabled.shares

/-- Two transports. -/
theorem Accepted.shares_transports (h : Accepted trim base config)
    (ht : t ∈ config.enabledTransports) (ht' : t' ∈ config.enabledTransports) (hne : t ≠ t')
    (ha : a ∈ transportRegistrations config t)
    (hb : b ∈ transportRegistrations config t') : a.Shares b := by
  have hpairs := (List.pairwise_flatMap.mp (List.pairwise_append.mp h.shares).1).2
  have : Std.Symm fun x y : Transport => ∀ a ∈ transportRegistrations config x,
      ∀ b ∈ transportRegistrations config y, a.Shares b :=
    ⟨fun _ _ hxy b hb a ha => (hxy a ha b hb).symm⟩
  exact hpairs.forall ht ht' hne a ha b hb

/-- A transport and the ingress. -/
theorem Accepted.shares_ingress (h : Accepted trim base config) (ht : t ∈ config.enabledTransports)
    (ha : a ∈ transportRegistrations config t) (hb : b ∈ ingressRegistrations trim config) :
    a.Shares b :=
  (List.pairwise_append.mp h.shares).2.2 a (List.mem_flatMap.mpr ⟨t, ht, ha⟩) b hb

theorem refuseFirst_eq_ok {items : List α} :
    refuseFirst refused items = .ok () ↔ ∀ item ∈ items, refused item = none := by
  unfold refuseFirst
  split
  next message hfirst =>
    obtain ⟨item, hitem, hsome⟩ := List.exists_of_findSome?_eq_some hfirst
    constructor
    · intro h
      cases h
    · intro h
      rw [h item hitem] at hsome
      cases hsome
  next hnone => exact ⟨fun _ => List.findSome?_eq_none_iff.mp hnone, fun _ => rfl⟩

/-- What `ValidateSharedIngress` has checked. -/
structure SharedChecked (base : Config) (config : Ingress) : Prop where
  policies : ∀ port ∈ policyPorts config, reserved base port = false
  managed : ∀ t ∈ config.enabledTransports, t.listenPort ≠ 1053
  reality : ∀ t ∈ config.enabledTransports, t.kind.isReality = true →
    reserved base t.listenPort = false
  sharedPolicies : config.sharedTCP443 = true → ∀ port ∈ policyPorts config,
    ¬ (16443 ≤ port ∧ port ≤ 16448)
  sharedTransports : config.sharedTCP443 = true → ∀ t ∈ config.enabledTransports,
    t.kind ≠ .hysteria2 → ¬ (16443 ≤ t.listenPort ∧ t.listenPort ≤ 16448)

theorem sharedChecked (h : validateSharedIngress base config = .ok ()) :
    SharedChecked base config := by
  obtain ⟨_, hpolicies, h⟩ := bind_eq_ok h
  obtain ⟨_, htransports, h⟩ := bind_eq_ok h
  rw [refuseFirst_eq_ok] at hpolicies htransports
  have hpolicies : ∀ port ∈ policyPorts config, reserved base port = false := by
    intro port hport
    simpa using hpolicies port hport
  have hmanaged : ∀ t ∈ config.enabledTransports, t.listenPort ≠ 1053 := by
    intro t ht hport
    simpa [hport] using htransports t ht
  have hreality : ∀ t ∈ config.enabledTransports, t.kind.isReality = true →
      reserved base t.listenPort = false := by
    intro t ht hkind
    simpa [hmanaged t ht, hkind] using htransports t ht
  by_cases hshared : config.sharedTCP443 = true
  · rw [if_pos hshared] at h
    obtain ⟨_, hsharedPolicies, hsharedTransports⟩ := bind_eq_ok h
    rw [refuseFirst_eq_ok] at hsharedPolicies hsharedTransports
    refine ⟨hpolicies, hmanaged, hreality, fun _ port hport => ?_, fun _ t ht hkind => ?_⟩
    · simpa using hsharedPolicies port hport
    · simpa [hkind] using hsharedTransports t ht
  · exact ⟨hpolicies, hmanaged, hreality, fun h => (hshared h).elim, fun h => (hshared h).elim⟩

theorem byKind_spec (h : config.byKind kind = some t) :
    t ∈ config.enabledTransports ∧ t.kind = kind :=
  ⟨List.mem_reverse.mp (List.mem_of_find?_eq_some h), by simpa using List.find?_some h⟩

/-- The ports of the deployments that nginx serves. -/
theorem exists_of_mem_origins (h : port ∈ [Kind.ws, .grpc, .httpupgrade, .xhttp].flatMap fun kind =>
      ((config.byKind kind).map Transport.originPorts).getD []) :
    ∃ t ∈ config.enabledTransports, t.kind.behindNginx = true ∧ port ∈ t.originPorts := by
  obtain ⟨kind, hkind, hport⟩ := List.mem_flatMap.mp h
  cases hfound : config.byKind kind with
  | none => simp [hfound] at hport
  | some t =>
    rw [hfound] at hport
    obtain ⟨ht, rfl⟩ := byKind_spec hfound
    refine ⟨t, ht, ?_, hport⟩
    simp only [List.mem_cons, List.not_mem_nil, or_false] at hkind
    rcases hkind with hkind | hkind | hkind | hkind <;> rw [hkind] <;> rfl

/-- The public ports of nginx are those of policies. -/
theorem mem_policyPorts (htrim : trim "" = "") (h : port ∈ publicPorts trim config) :
    port ∈ policyPorts config := by
  have hne : ∀ host, trim host ≠ "" → host ≠ "" := by
    intro host hhost hempty
    rw [hempty] at hhost
    exact hhost htrim
  rw [publicPorts, List.mem_append, List.mem_append] at h
  rw [policyPorts, List.mem_append, List.mem_append]
  rcases h with (h | h) | h
  · obtain ⟨t, ht, hkind, hport⟩ := exists_of_mem_origins h
    exact .inl (.inl (List.mem_flatMap.mpr ⟨t, List.mem_filter.mpr ⟨ht, hkind⟩, hport⟩))
  · refine .inl (.inr ?_)
    split at h
    next hhost => rwa [if_pos (hne _ hhost)]
    next => cases h
  · refine .inr ?_
    split at h
    next hhost =>
      simp only [Bool.and_eq_true, decide_eq_true_eq] at hhost
      rwa [if_pos (by simp [hhost.1.1, hhost.1.2, hne _ hhost.2])]
    next => cases h

/-! ### Internal and public listeners -/

/-- The internal listeners with a constant port. -/
def internalTable : List Listener :=
  [⟨.transparent, .any, true, true, 12345⟩, ⟨.updateVPN, .loopback, true, false, 19080⟩,
    ⟨.updateDirect, .loopback, true, false, 19081⟩, ⟨.transport .ws, .loopback, true, false, 11001⟩,
    ⟨.transport .grpc, .loopback, true, false, 11002⟩,
    ⟨.transport .httpupgrade, .loopback, true, false, 11003⟩,
    ⟨.transport .xhttp, .loopback, true, false, 11004⟩,
    ⟨.transport .reality, .loopback, true, false, 16444⟩,
    ⟨.transport .realityGrpc, .loopback, true, false, 16445⟩,
    ⟨.transport .xhttpReality, .loopback, true, false, 16446⟩,
    ⟨.managedDNS, .container, true, true, 1053⟩, ⟨.api, .loopback, true, false, 10085⟩,
    ⟨.nginxShared, .loopback, true, false, 16443⟩, ⟨.nginxClosed, .loopback, true, false, 16447⟩,
    ⟨.nginxManagement, .any, true, false, 9443⟩, ⟨.nginxHealth, .any, true, false, 9080⟩,
    ⟨.nginxRelay, .any, true, false, 9081⟩, ⟨.nginxCover, .loopback, true, false, 16448⟩]

/-- The transports behind nginx with their ports. -/
abbrev loopbackTable : List (Kind × ℕ) :=
  [(.ws, 11001), (.grpc, 11002), (.httpupgrade, 11003), (.xhttp, 11004)]

/-- The ports between nginx and Xray that are in use. -/
def loopbackPorts (config : Ingress) : List ℕ :=
  loopbackTable.filterMap fun entry =>
    if (config.byKind entry.1).isSome then some entry.2 else none

/-- The listener of a probe lane. -/
def probeListener (index : ℕ) : Listener := ⟨.probe index, .loopback, true, false, 19082 + index⟩

/-- Ports of internal services with which the port of a gRPC transport with its own certificate is
    not compared. -/
def uncheckedPorts (base : Config) (config : Ingress) (candidates : ℕ) : List ℕ :=
  [9080, 9443, 19080, 19081] ++
  (List.range (backgroundLanes base candidates + 1)).map (19082 + ·) ++ loopbackPorts config ++
  if covered config then [16448] else []

/-- The relay of nginx, the API of Xray and the transparent inbound. -/
def forgottenPorts : List ℕ := [9081, 10085, 12345]

/-- The listeners of internal services. -/
def constants (base : Config) (candidates : ℕ) : List Listener :=
  internalTable ++ (List.range (backgroundLanes base candidates + 1)).map probeListener

/-- The ports of internal services that are in use. -/
def constantPorts (base : Config) (config : Ingress) (candidates : ℕ) : List ℕ :=
  uncheckedPorts base config candidates ++ forgottenPorts ++
  1053 :: if config.sharedTCP443 then [16443, 16444, 16445, 16446, 16447] else []

/-- A transport that is reached from outside without nginx. -/
structure Direct (config : Ingress) (t : Transport) : Prop where
  found : config.byKind t.kind = some t
  kind : t.kind = .grpcTLS ∨ t.kind.isReality = true
  unshared : ¬ (config.sharedTCP443 = true ∧ t.listenPort = 443 ∧ t.kind.isReality = true)

/-- A transport on its own TCP port. -/
def directListener (t : Transport) : Listener :=
  ⟨.transport t.kind, .any, true, false, t.listenPort⟩

/-- A transport on its UDP port. -/
def hysteriaListener (t : Transport) : Listener :=
  ⟨.transport .hysteria2, .any, false, true, t.listenPort⟩

theorem Direct.mem (h : Direct config t) : t ∈ config.enabledTransports := (byKind_spec h.found).1

attribute [local simp] Kind.isReality Kind.realityBackendPort internalTable

theorem Direct.kind_ne (h : Direct config t) :
    t.kind ≠ .hysteria2 ∧ t.kind.behindNginx = false := by
  rcases h.kind with hkind | hkind
  · rw [hkind]
    decide
  · cases hk : t.kind <;> simp [hk] at hkind ⊢ <;> rfl

/-- The listener of a direct transport is that of its inbound. -/
theorem Direct.listener (h : Direct config t) : transportListener config t = directListener t := by
  unfold transportListener directListener
  rcases h.kind with hkind | hkind
  · rw [hkind]
  · have hshared : (config.sharedTCP443 && decide (t.listenPort = 443)) = false := by
      rw [Bool.eq_false_iff]
      intro hs
      rw [Bool.and_eq_true, decide_eq_true_eq] at hs
      exact h.unshared ⟨hs.1, hs.2, hkind⟩
    cases hk : t.kind <;> simp [hk] at hkind <;>
      simp [hshared]

theorem direct_of_grpcTLS (h : config.byKind .grpcTLS = some t) : Direct config t := by
  have hkind := (byKind_spec h).2
  refine ⟨hkind ▸ h, .inl hkind, fun hshared => ?_⟩
  rw [hkind] at hshared
  exact absurd hshared.2.2 (by decide)

theorem hysteria_listener (h : config.byKind .hysteria2 = some t) :
    transportListener config t = hysteriaListener t := by
  rw [transportListener, (byKind_spec h).2, hysteriaListener]

section Classes

variable (trim : String → String) (base : Config) (config : Ingress) (candidates : ℕ)
  (dns : List Listener)

/-- An internal listener, with what its presence says. -/
inductive Internal (l : Listener) : Prop where
  | constant (hl : l ∈ constants base candidates)
      (hport : l.port ∈ constantPorts base config candidates)
  | dns (hl : l ∈ dns)

/-- A listener that is reached from outside. -/
inductive Public (l : Listener) : Prop where
  | nginx {port : ℕ} (hport : port ∈ publicPorts trim config)
      (hunshared : ¬ (config.sharedTCP443 = true ∧ port = 443))
      (hl : l = ⟨.nginxPublic, .any, true, false, port⟩)
  | stream (hroutes : streamRoutes config = true) (hl : l = ⟨.nginxStream, .any, true, false, 443⟩)
  | direct {t : Transport} (ht : Direct config t) (hl : l = directListener t)
  | hysteria {t : Transport} (ht : config.byKind .hysteria2 = some t) (hl : l = hysteriaListener t)

variable {trim base config candidates dns}

/-- A listener of the table. -/
theorem Internal.fixed (htable : l ∈ internalTable)
    (hport : l.port ∈ constantPorts base config candidates) :
    Internal base config candidates dns l :=
  .constant (List.mem_append_left _ htable) hport

section

variable (hentry : (kind, port) ∈ loopbackTable) (h : (config.byKind kind).isSome = true)
include hentry h

theorem mem_loopbackPorts : port ∈ loopbackPorts config :=
  List.mem_filterMap.mpr ⟨(kind, port), hentry, by rw [if_pos h]⟩

/-- The listener of a transport behind nginx. -/
theorem internal_loopback :
    Internal base config candidates dns ⟨.transport kind, .loopback, true, false, port⟩ := by
  have hmem := mem_loopbackPorts hentry h
  simp only [List.mem_cons, Prod.mk.injEq, List.not_mem_nil, or_false] at hentry
  refine .fixed ?_ (by simp [constantPorts, uncheckedPorts, hmem])
  rcases hentry with ⟨rfl, rfl⟩ | ⟨rfl, rfl⟩ | ⟨rfl, rfl⟩ | ⟨rfl, rfl⟩ <;> simp

end

/-- The listener of a REALITY transport. -/
theorem reality_cases (h : config.byKind t.kind = some t) (hkind : t.kind.isReality = true) :
    Internal base config candidates dns (transportListener config t) ∨
      Public trim config (transportListener config t) := by
  by_cases hshared : config.sharedTCP443 = true ∧ t.listenPort = 443
  · have hkinds : t.kind = .reality ∨ t.kind = .realityGrpc ∨ t.kind = .xhttpReality := by
      cases hk : t.kind <;> simp [hk] at hkind ⊢
    left
    unfold transportListener
    rcases hkinds with hk | hk | hk <;> rw [hk] <;>
      exact .fixed (by simp [hshared])
        (by simp [hshared, constantPorts])
  · have hdirect : Direct config t := ⟨h, .inr hkind, fun hs => hshared ⟨hs.1, hs.2.1⟩⟩
    exact .inr (.direct hdirect hdirect.listener)

/-- The listener of a transport. -/
theorem transportListener_cases (h : config.byKind kind = some t) :
    Internal base config candidates dns (transportListener config t) ∨
      Public trim config (transportListener config t) := by
  obtain ⟨-, hkind⟩ := byKind_spec h
  have hbehind : ∀ {port : ℕ},
      transportListener config t = ⟨.transport kind, .loopback, true, false, port⟩ →
      (kind, port) ∈ loopbackTable →
        Internal base config candidates dns (transportListener config t) ∨
        Public trim config (transportListener config t) :=
    fun hl hentry => .inl (hl ▸ internal_loopback hentry (Option.isSome_of_eq_some h))
  cases kind with
  | ws | grpc | httpupgrade | xhttp =>
    exact hbehind (by rw [transportListener, hkind]) (by simp [loopbackTable])
  | grpcTLS =>
    have hdirect := direct_of_grpcTLS h
    exact .inr (.direct hdirect hdirect.listener)
  | hysteria2 => exact .inr (.hysteria h (hysteria_listener h))
  | reality | realityGrpc | xhttpReality => exact reality_cases (hkind ▸ h) (by rw [hkind]; rfl)

/-- A public port of nginx. -/
theorem publicListener_cases (h : port ∈ publicPorts trim config) :
    Internal base config candidates dns (publicListener config port) ∨
      Public trim config (publicListener config port) := by
  unfold publicListener
  split
  next hshared =>
    simp only [Bool.and_eq_true, decide_eq_true_eq] at hshared
    exact .inl (.fixed (by simp) (by simp [constantPorts, hshared.1]))
  next hshared =>
    simp only [Bool.and_eq_true, decide_eq_true_eq] at hshared
    exact .inr (.nginx h hshared rfl)

/-- Every listener is internal or public. -/
theorem internal_or_public (h : l ∈ listeners trim base config candidates dns) :
    Internal base config candidates dns l ∨ Public trim config l := by
  have halways : ∀ l ∈ internalTable,
      l.port ∈ [9080, 9443, 19080, 19081, 9081, 10085, 12345, 1053] →
      Internal base config candidates dns l ∨ Public trim config l := by
    intro l hl hport
    refine .inl (.fixed hl ?_)
    simp only [List.mem_cons, List.not_mem_nil, or_false] at hport
    simp only [constantPorts, uncheckedPorts, forgottenPorts, List.mem_append, List.mem_cons]
    tauto
  rw [listeners, List.mem_append, List.mem_append, List.mem_append] at h
  rcases h with ((h | h) | h) | h
  · rw [xrayInbounds, List.mem_append, List.mem_append] at h
    rcases h with (h | h) | h
    · simp only [List.mem_cons, List.not_mem_nil, or_false] at h
      rcases h with rfl | rfl | rfl <;> exact halways _ (by simp) (by simp)
    · obtain ⟨index, hindex, rfl⟩ := List.mem_map.mp h
      have hport : (probeListener index).port ∈ uncheckedPorts base config candidates :=
        List.mem_append_left _ (List.mem_append_left _ (List.mem_append_right _
          (List.mem_map.mpr ⟨index, hindex, rfl⟩)))
      exact .inl (.constant (List.mem_append_right _ h)
        (List.mem_append_left _ (List.mem_append_left _ hport)))
    · obtain ⟨kind, -, h⟩ := List.mem_flatMap.mp h
      obtain ⟨t, ht, rfl⟩ := Option.map_eq_some_iff.mp (Option.mem_toList.mp h)
      exact transportListener_cases ht
  · rw [xrayServiceInbounds, List.mem_append, List.mem_singleton] at h
    rcases h with h | rfl
    · split at h
      · rw [List.mem_singleton.mp h]
        exact halways _ (by simp) (by simp)
      · cases h
    · exact halways _ (by simp) (by simp)
  · rw [nginxListeners, List.mem_append, List.mem_append, List.mem_append] at h
    rcases h with ((h | h) | h) | h
    · obtain ⟨port, hport, rfl⟩ := List.mem_map.mp h
      exact publicListener_cases hport
    · split at h
      next hroutes =>
        simp only [List.mem_cons, List.not_mem_nil, or_false] at h
        rcases h with rfl | rfl
        · have hshared : config.sharedTCP443 = true := (Bool.and_eq_true_iff.mp hroutes).1
          exact .inl (.fixed (by simp) (by simp [constantPorts, hshared]))
        · exact .inr (.stream hroutes rfl)
      next => cases h
    · simp only [List.mem_cons, List.not_mem_nil, or_false] at h
      rcases h with rfl | rfl | rfl <;> exact halways _ (by simp) (by simp)
    · split at h
      next hcover =>
        rw [List.mem_singleton.mp h]
        exact .inl (.fixed (by simp)
          (by simp [constantPorts, uncheckedPorts, hcover]))
      next => cases h
  · exact .inl (.dns h)

/-- The ports that the DNS allocator knows. -/
def existingPorts (base : Config) (config : Ingress) (candidates : ℕ) : List ℕ :=
  (xrayInbounds base config candidates).map Listener.port

theorem mem_existingPorts_probe
    (h : l ∈ (List.range (backgroundLanes base candidates + 1)).map probeListener) :
    l.port ∈ existingPorts base config candidates :=
  List.mem_map_of_mem (List.mem_append_left _ (List.mem_append_right _ h))

/-- The listener of every kind is among the inbounds. -/
theorem mem_xrayInbounds (h : config.byKind kind = some t) (hl : transportListener config t = l) :
    l ∈ xrayInbounds base config candidates := by
  refine List.mem_append_right _ (List.mem_flatMap.mpr ⟨kind, ?_, ?_⟩)
  · cases kind <;> simp [inboundKinds]
  · rw [h]
    simp [hl]

theorem mem_existingPorts (h : config.byKind kind = some t) (hl : transportListener config t = l) :
    l.port ∈ existingPorts base config candidates :=
  List.mem_map_of_mem (mem_xrayInbounds h hl)

theorem table_port_lt : ∀ port ∈ internalTable.map Listener.port, port < 19082 := by
  decide

theorem constants_nodup : ((constants base candidates).map Listener.port).Nodup := by
  rw [constants, List.map_append, List.map_map]
  refine List.Nodup.append (by decide) (List.nodup_range.map fun _ _ => Nat.add_left_cancel) ?_
  intro port hport hprobe
  obtain ⟨index, -, rfl⟩ := List.mem_map.mp hprobe
  exact absurd (table_port_lt _ hport) (by simp [probeListener])

/-- The allocator keeps the DNS ports apart from those of internal services. -/
theorem DnsFresh.port_ne (hdns : DnsFresh (existingPorts base config candidates) dns)
    (hl : l ∈ constants base candidates) (hl' : l' ∈ dns) : l.port ≠ l'.port := by
  obtain ⟨hhigh, hnew⟩ := hdns.fresh l' hl'
  intro hport
  rcases List.mem_append.mp hl with htable | hprobe
  · have hlow := table_port_lt l.port (List.mem_map_of_mem htable)
    omega
  · exact hnew (hport ▸ mem_existingPorts_probe hprobe)

/-- **Internal listeners.** They have different ports. -/
theorem internal_eq (hdns : DnsFresh (existingPorts base config candidates) dns)
    (hl : Internal base config candidates dns l) (hl' : Internal base config candidates dns l')
    (hport : l.port = l'.port) : l = l' := by
  cases hl with
  | constant hl =>
    cases hl' with
    | constant hl' => exact List.inj_on_of_nodup_map constants_nodup hl hl' hport
    | dns hl' => exact absurd hport (hdns.port_ne hl hl')
  | dns hl =>
    cases hl' with
    | constant hl' => exact absurd hport.symm (hdns.port_ne hl' hl)
    | dns hl' => exact List.inj_on_of_nodup_map hdns.nodup hl hl' hport

end Classes

/-! ### Where there are no conflicts -/

/-- The ports are apart where the validation does not look. -/
structure PortsApart (trim : String → String) (base : Config) (config : Ingress) (candidates : ℕ)
    (dns : List Listener) : Prop where
  nginx : ∀ port ∈ publicPorts trim config, port ∉ forgottenPorts ∧ port ∉ dns.map Listener.port
  direct : ∀ t, Direct config t → t.listenPort ∉ forgottenPorts
  hysteria : ∀ t, config.byKind .hysteria2 = some t → t.listenPort ≠ 12345
  grpcTLS : ∀ t, config.byKind .grpcTLS = some t →
    t.listenPort ∉ uncheckedPorts base config candidates
  blank : ∀ t, config.byKind .grpcTLS = some t → t.listenPort = 443 →
    config.sharedTCP443 = true → config.statusHostname ≠ "" → trim config.statusHostname = "" →
      config.statusListenPort ≠ 443

theorem Listener.Conflicts.symm {l l' : Listener} (h : l.Conflicts l') : l'.Conflicts l := by
  refine ⟨h.port.symm, ?_, ?_⟩
  · have := h.protocol
    rwa [Bool.and_comm l'.tcp, Bool.and_comm l'.udp]
  · have := h.address
    simp only [Address.overlaps, Bool.or_eq_true, decide_eq_true_eq] at this ⊢
    tauto

/-- A port that is neither unchecked, nor forgotten, nor of the shared ingress is not that of an
    internal listener with a constant port or of a probe. -/
theorem internal_port_ne (hunchecked : port ∉ uncheckedPorts base config candidates)
    (hforgotten : port ∉ forgottenPorts) (hmanaged : port ≠ 1053)
    (hshared : config.sharedTCP443 = true → ¬ (16443 ≤ port ∧ port ≤ 16448))
    (hl : Internal base config candidates dns l) (hdns : l ∉ dns) : l.port ≠ port := by
  rintro rfl
  cases hl with
  | constant _ hport =>
    rw [constantPorts, List.mem_append, List.mem_append, List.mem_cons] at hport
    rcases hport with (hport | hport) | hport | hport
    · exact hunchecked hport
    · exact hforgotten hport
    · exact hmanaged hport
    · split at hport
      next hs =>
        have := hshared hs
        simp only [List.mem_cons, List.not_mem_nil, or_false] at hport
        omega
      next => cases hport
  | dns hmem => exact hdns hmem

/-- The reserved ports are more than the unchecked ones. -/
theorem notMem_unchecked_of_reserved (h : reserved base port = false) :
    port ∉ uncheckedPorts base config candidates ∧ port ≠ 1053 := by
  simp only [reserved, Bool.or_eq_false_iff, Bool.and_eq_false_iff, decide_eq_false_iff_not] at h
  simp only [uncheckedPorts, loopbackPorts, List.mem_append, List.mem_map, List.mem_range,
    List.mem_filterMap, List.mem_cons, List.not_mem_nil, or_false]
  refine ⟨?_, by omega⟩
  rintro (((hmem | ⟨index, hindex, rfl⟩) | ⟨⟨kind, entry⟩, hentry, hsome⟩) | hmem)
  · omega
  · have hbatch : backgroundLanes base candidates ≤ base.probeBatch := Nat.min_le_left _ _
    omega
  · simp only [Prod.mk.injEq] at hentry
    split at hsome <;> cases hsome
    omega
  · split at hmem
    · rw [List.mem_singleton] at hmem
      omega
    · cases hmem

/-- Only two internal listeners take UDP. -/
theorem internal_udp (hl : Internal base config candidates dns l) (hdns : l ∉ dns)
    (hudp : l.udp = true) : l.port = 12345 ∨ l.port = 1053 := by
  cases hl with
  | constant hl =>
    rcases List.mem_append.mp hl with htable | hprobe
    · have hall : ∀ l ∈ internalTable, l.udp = true → l.port = 12345 ∨ l.port = 1053 := by decide
      exact hall l htable hudp
    · obtain ⟨index, -, rfl⟩ := List.mem_map.mp hprobe
      cases hudp
  | dns hmem => exact (hdns hmem).elim

/-- A direct transport has no port of an internal listener. -/
theorem Direct.internal_port_ne (hchecked : SharedChecked base config)
    (hapart : PortsApart trim base config candidates dns) (h : Direct config t)
    (hl : Internal base config candidates dns l) (hdns : l ∉ dns) : l.port ≠ t.listenPort := by
  have hshared := fun hs => hchecked.sharedTransports hs t h.mem h.kind_ne.1
  rcases h.kind with hkind | hkind
  · have hfound := hkind ▸ h.found
    exact Listeners.internal_port_ne (hapart.grpcTLS t hfound) (hapart.direct t h)
      (hchecked.managed t h.mem) hshared hl hdns
  · obtain ⟨hunchecked, hmanaged⟩ :=
      notMem_unchecked_of_reserved (hchecked.reality t h.mem hkind)
    exact Listeners.internal_port_ne hunchecked (hapart.direct t h) hmanaged hshared hl hdns

/-- **Internal and public listeners** do not conflict. -/
theorem internal_public_apart (htrim : trim "" = "") (hchecked : SharedChecked base config)
    (hfresh : DnsFresh (existingPorts base config candidates) dns)
    (hapart : PortsApart trim base config candidates dns)
    (hl : Internal base config candidates dns l) (hl' : Public trim config l') :
    ¬ l.Conflicts l' := by
  intro hconflict
  have hport := hconflict.port
  cases hl' with
  | @nginx port hpublic _ heq =>
    have hport : l.port = port := by rw [hport, heq]
    by_cases hdns : l ∈ dns
    · exact (hapart.nginx port hpublic).2 (hport ▸ List.mem_map_of_mem hdns)
    · have hpolicy := mem_policyPorts htrim hpublic
      obtain ⟨hunchecked, hmanaged⟩ :=
        notMem_unchecked_of_reserved (hchecked.policies port hpolicy)
      exact internal_port_ne hunchecked (hapart.nginx port hpublic).1 hmanaged
        (fun hs => hchecked.sharedPolicies hs port hpolicy) hl hdns hport
  | stream _ heq =>
    rw [heq] at hport
    by_cases hdns : l ∈ dns
    · have := (hfresh.fresh l hdns).1
      simp only at hport
      omega
    · have hunchecked : 443 ∉ uncheckedPorts base config candidates :=
        (notMem_unchecked_of_reserved (by simp [reserved])).1
      exact internal_port_ne hunchecked (by decide) (by decide) (by omega) hl hdns hport
  | @direct t ht heq =>
    rw [heq] at hport
    by_cases hdns : l ∈ dns
    · refine (hfresh.fresh l hdns).2 ?_
      rw [hport]
      exact mem_existingPorts ht.found ht.listener
    · exact ht.internal_port_ne hchecked hapart hl hdns hport
  | @hysteria t ht heq =>
    have hprotocol := hconflict.protocol
    rw [heq] at hport hprotocol
    by_cases hdns : l ∈ dns
    · refine (hfresh.fresh l hdns).2 ?_
      rw [hport]
      exact mem_existingPorts ht (hysteria_listener ht)
    · have hudp : l.udp = true := by simpa [hysteriaListener] using hprotocol
      rcases internal_udp hl hdns hudp with hconstant | hconstant
      · exact hapart.hysteria t ht (hport.symm.trans hconstant)
      · exact hchecked.managed t (byKind_spec ht).1 (hport.symm.trans hconstant)

/-- What a direct transport registers. -/
theorem Direct.registration (h : Direct config t) :
    ⟨false, t.listenPort, false⟩ ∈ transportRegistrations config t := by
  have hflag : (config.sharedTCP443 && decide (t.listenPort = 443) && t.kind.isReality) =
    false := by
    rw [Bool.eq_false_iff]
    intro hs
    rw [Bool.and_eq_true, Bool.and_eq_true, decide_eq_true_eq] at hs
    exact h.unshared ⟨hs.1.1, hs.1.2, hs.2⟩
  rw [transportRegistrations, h.kind_ne.2, hflag]
  simp [h.kind_ne.1]

/-- The port of a direct transport is registered for nothing else. -/
theorem Direct.sole (haccepted : Accepted trim base config) (h : Direct config t)
    (hr : (∃ t' ∈ config.enabledTransports, t' ≠ t ∧
      r ∈ transportRegistrations config t') ∨ r ∈ ingressRegistrations trim config)
    (hudp : r.udp = false) : r.port ≠ t.listenPort := by
  have hshares : Registration.Shares ⟨false, t.listenPort, false⟩ r := by
    rcases hr with ⟨t', ht', hne, hr⟩ | hr
    · exact haccepted.shares_transports h.mem ht' hne.symm h.registration hr
    · exact haccepted.shares_ingress h.mem h.registration hr
  have hvalid := haccepted.listen t (List.mem_of_mem_filter h.mem)
  intro hport
  exact absurd (hshares hudp.symm hport.symm hvalid).1 Bool.false_ne_true

/-- What a transport behind nginx registers. -/
theorem mem_registrations_of_origin (hkind : t.kind.behindNginx = true)
    (hport : port ∈ t.originPorts) : ⟨false, port, true⟩ ∈ transportRegistrations config t := by
  rw [transportRegistrations, if_pos hkind]
  exact List.mem_map.mpr ⟨port, hport, rfl⟩

theorem ne_of_behindNginx (h : Direct config t) (hkind : t'.kind.behindNginx = true) : t' ≠ t := by
  rintro rfl
  rw [h.kind_ne.2] at hkind
  cases hkind

/-- The port is registered for nginx. -/
inductive OfNginx (trim : String → String) (config : Ingress) (port : ℕ) : Prop where
  | transport {t : Transport} (ht : t ∈ config.enabledTransports)
      (hkind : t.kind.behindNginx = true) (hport : port ∈ t.originPorts)
  | ingress (h : ⟨false, port, true⟩ ∈ ingressRegistrations trim config)

theorem Direct.nginx_port_ne (haccepted : Accepted trim base config) (h : Direct config t)
    (hport : OfNginx trim config port) : port ≠ t.listenPort := by
  cases hport with
  | @transport t' ht' hkind hport =>
    exact h.sole haccepted (.inl ⟨t', ht', ne_of_behindNginx h hkind,
      mem_registrations_of_origin hkind hport⟩) rfl
  | ingress hport => exact h.sole haccepted (.inr hport) rfl

theorem ofNginx_status (h : trim config.statusHostname ≠ "") :
    OfNginx trim config config.statusListenPort := by
  refine .ingress (List.mem_append_left _ ?_)
  rw [if_pos h]
  exact List.mem_singleton_self _

theorem ofNginx_subscription (henabled : config.subscriptionEnabled = true)
    (hdedicated : config.subscriptionDedicated = true) :
    OfNginx trim config config.subscriptionListenPort := by
  refine .ingress (List.mem_append_right _ ?_)
  rw [if_pos (by rw [henabled, hdedicated]; rfl)]
  exact List.mem_singleton_self _

/-- The public ports of nginx are registered. -/
theorem ofNginx_of_public (h : port ∈ publicPorts trim config) : OfNginx trim config port := by
  rw [publicPorts, List.mem_append, List.mem_append] at h
  rcases h with (h | h) | h
  · obtain ⟨t, ht, hkind, hport⟩ := exists_of_mem_origins h
    exact .transport ht hkind hport
  · split at h
    next hhost => exact List.mem_singleton.mp h ▸ ofNginx_status hhost
    next => cases h
  · split at h
    next henabled =>
      simp only [Bool.and_eq_true] at henabled
      exact List.mem_singleton.mp h ▸ ofNginx_subscription henabled.1.1 henabled.1.2
    next => cases h

/-- The ports of policies are registered, except that of a blank host. -/
theorem ofNginx_of_policy (h : port ∈ policyPorts config) :
    OfNginx trim config port ∨ config.statusHostname ≠ "" ∧ trim config.statusHostname = "" ∧
      config.statusListenPort = port := by
  rw [policyPorts, List.mem_append, List.mem_append] at h
  rcases h with (h | h) | h
  · obtain ⟨t, ht, hport⟩ := List.mem_flatMap.mp h
    obtain ⟨ht, hkind⟩ := List.mem_filter.mp ht
    exact .inl (.transport ht hkind hport)
  · split at h
    next hhost =>
      have hport := List.mem_singleton.mp h
      by_cases htrimmed : trim config.statusHostname = ""
      · exact .inr ⟨hhost, htrimmed, hport.symm⟩
      · exact .inl (hport ▸ ofNginx_status htrimmed)
    next => cases h
  · split at h
    next henabled =>
      simp only [Bool.and_eq_true] at henabled
      exact .inl (List.mem_singleton.mp h ▸ ofNginx_subscription henabled.1.1 henabled.2)
    next => cases h

section

variable (haccepted : Accepted trim base config)
  (hapart : PortsApart trim base config candidates dns)
include haccepted hapart

/-- The stream of nginx and a direct transport have different ports. -/
theorem Direct.port_ne_of_stream (hroutes : streamRoutes config = true) (h : Direct config t) :
    t.listenPort ≠ 443 := by
  intro hport
  rw [streamRoutes, Bool.and_eq_true, Bool.or_eq_true] at hroutes
  obtain ⟨hshared, hroutes⟩ := hroutes
  have hkind : t.kind = .grpcTLS := h.kind.resolve_right fun hreality =>
    h.unshared ⟨hshared, hport, hreality⟩
  rcases hroutes with hpolicy | hreality
  · rcases ofNginx_of_policy (List.contains_iff_mem.mp hpolicy) with
      hnginx | ⟨hhost, hblank, hstatus⟩
    · exact h.nginx_port_ne haccepted hnginx hport.symm
    · exact hapart.blank t (hkind ▸ h.found) hport hshared hhost hblank hstatus
  · obtain ⟨t', ht', hreality⟩ := List.any_eq_true.mp hreality
    rw [Bool.and_eq_true, decide_eq_true_eq] at hreality
    have hne : t' ≠ t := by
      rintro rfl
      rw [hkind] at hreality
      exact absurd hreality.2 (by decide)
    have hregistered : ⟨false, t'.listenPort,
        config.sharedTCP443 && t'.listenPort = 443 && t'.kind.isReality⟩ ∈
        transportRegistrations config t' := by
      have hkind' : t'.kind.behindNginx = false ∧ t'.kind ≠ .hysteria2 := by
        cases hk : t'.kind <;>
          simp [hk] at hreality ⊢ <;> rfl
      rw [transportRegistrations, hkind'.1]
      simp [hkind'.2]
    exact h.sole haccepted (.inl ⟨t', ht', hne, hregistered⟩) rfl (hreality.1.trans hport.symm)

/-- A direct transport and another public listener. -/
theorem Direct.public_apart (h : Direct config t) (hl : Public trim config l)
    (hne : l ≠ directListener t) : ¬ l.Conflicts (directListener t) := by
  intro hconflict
  have hport : l.port = t.listenPort := hconflict.port
  cases hl with
  | nginx hpublic _ heq =>
    rw [heq] at hport
    exact h.nginx_port_ne haccepted (ofNginx_of_public hpublic) hport
  | stream hroutes heq =>
    rw [heq] at hport
    exact h.port_ne_of_stream haccepted hapart hroutes hport.symm
  | @direct t' ht' heq =>
    have hother : t' ≠ t := by
      rintro rfl
      exact hne heq
    rw [heq] at hport
    exact h.sole haccepted (.inl ⟨t', ht'.mem, hother, ht'.registration⟩) rfl hport
  | hysteria _ heq =>
    have hprotocol := hconflict.protocol
    rw [heq] at hprotocol
    exact absurd hprotocol (by simp [hysteriaListener, directListener])

/-- **Public listeners** do not conflict with each other. -/
theorem public_apart {l l' : Listener} (hl : Public trim config l) (hl' : Public trim config l')
    (hne : l ≠ l') : ¬ l.Conflicts l' := by
  intro hconflict
  have hport := hconflict.port
  have hprotocol := hconflict.protocol
  have hstreamed : streamRoutes config = true → config.sharedTCP443 = true :=
    fun hroutes => (Bool.and_eq_true_iff.mp hroutes).1
  by_cases hdirect : ∃ t, Direct config t ∧ l' = directListener t
  · obtain ⟨t, ht, rfl⟩ := hdirect
    exact ht.public_apart haccepted hapart hl hne hconflict
  -- all others are told apart by their protocol or their port
  cases hl with
  | direct ht heq =>
    subst heq
    exact ht.public_apart haccepted hapart hl' hne.symm hconflict.symm
  | nginx _ hunshared heq =>
    cases hl' with
    | direct ht' heq' => exact hdirect ⟨_, ht', heq'⟩
    | nginx _ _ heq' =>
      rw [heq, heq'] at hport
      simp only at hport
      rw [heq, heq', hport] at hne
      exact hne rfl
    | stream hroutes heq' =>
      rw [heq, heq'] at hport
      exact hunshared ⟨hstreamed hroutes, hport⟩
    | hysteria _ heq' => simp [heq, heq', hysteriaListener] at hprotocol
  | stream hroutes heq =>
    cases hl' with
    | direct ht' heq' => exact hdirect ⟨_, ht', heq'⟩
    | nginx _ hunshared' heq' =>
      rw [heq, heq'] at hport
      exact hunshared' ⟨hstreamed hroutes, hport.symm⟩
    | stream _ heq' => exact hne (heq.trans heq'.symm)
    | hysteria _ heq' => simp [heq, heq', hysteriaListener] at hprotocol
  | hysteria ht heq =>
    cases hl' with
    | direct ht' heq' => exact hdirect ⟨_, ht', heq'⟩
    | nginx _ _ heq' | stream _ heq' => simp [heq, heq', hysteriaListener] at hprotocol
    | hysteria ht' heq' =>
      rw [ht, Option.some_inj] at ht'
      exact hne (heq.trans (ht' ▸ heq'.symm))

end

/-! Listeners that are there. -/

theorem mem_of_inbound (h : l ∈ xrayInbounds base config candidates) :
    l ∈ listeners trim base config candidates dns :=
  List.mem_append_left _ (List.mem_append_left _ (List.mem_append_left _ h))

theorem Direct.mem_listeners (h : Direct config t) :
    directListener t ∈ listeners trim base config candidates dns :=
  mem_of_inbound (mem_xrayInbounds h.found h.listener)

theorem mem_of_nginx (h : l ∈ nginxListeners trim config) :
    l ∈ listeners trim base config candidates dns :=
  List.mem_append_left _ (List.mem_append_right _ h)

theorem mem_of_template
    (h : l ∈ [⟨.nginxManagement, .any, true, false, 9443⟩, ⟨.nginxHealth, .any, true, false, 9080⟩,
      ⟨.nginxRelay, .any, true, false, 9081⟩]) : l ∈ listeners trim base config candidates dns :=
  mem_of_nginx (List.mem_append_left _ (List.mem_append_right _ h))

theorem mem_of_constant
    (h : l ∈ [⟨.transparent, .any, true, true, 12345⟩, ⟨.updateVPN, .loopback, true, false, 19080⟩,
      ⟨.updateDirect, .loopback, true, false, 19081⟩]) :
    l ∈ listeners trim base config candidates dns :=
  mem_of_inbound (List.mem_append_left _ (List.mem_append_left _ h))

theorem mem_api :
    ⟨.api, .loopback, true, false, 10085⟩ ∈ listeners trim base config candidates dns :=
  List.mem_append_left _ (List.mem_append_left _ (List.mem_append_right _
    (List.mem_append_right _ (List.mem_singleton_self _))))

/-- Without conflicts, a public TCP listener has no port of another one. -/
theorem NoConflict.port_ne (hno : NoConflict all)
    (hl : l ∈ all) (hl' : l' ∈ all) (haddress : l.address = .any)
    (htcp : l.tcp = true) (htcp' : l'.tcp = true) (howner : l.owner ≠ l'.owner) :
    l.port ≠ l'.port := by
  intro hport
  refine hno l hl l' hl' (fun heq => howner (heq ▸ rfl)) ⟨hport, ?_, ?_⟩
  · rw [htcp, htcp']
    rfl
  · rw [haddress]
    rfl

/-- Without conflicts, a public TCP listener has no forgotten port. -/
theorem NoConflict.notMem_forgotten (hno : NoConflict (listeners trim base config candidates dns))
    (hl : l ∈ listeners trim base config candidates dns) (haddress : l.address = .any)
    (htcp : l.tcp = true) (howner : l.owner ∉ [.nginxRelay, .api, .transparent]) :
      l.port ∉ forgottenPorts := by
  simp only [List.mem_cons, List.not_mem_nil, or_false, not_or] at howner
  have hrelay := hno.port_ne hl (mem_of_template (l := ⟨.nginxRelay, .any, true, false, 9081⟩)
    (by simp)) haddress htcp rfl howner.1
  have hapi := hno.port_ne hl mem_api haddress htcp rfl howner.2.1
  have htransparent := hno.port_ne hl (mem_of_constant
    (l := ⟨.transparent, .any, true, true, 12345⟩) (by simp)) haddress htcp rfl howner.2.2
  simp only [forgottenPorts, List.mem_cons, List.not_mem_nil, or_false, not_or]
  exact ⟨hrelay, hapi, htransparent⟩

/-- Without conflicts, a gRPC transport has no port of an internal service. -/
theorem NoConflict.notMem_unchecked (hno : NoConflict (listeners trim base config candidates dns))
    (h : Direct config t) (hkind : t.kind = .grpcTLS) :
    t.listenPort ∉ uncheckedPorts base config candidates := by
  have hne : ∀ l ∈ listeners trim base config candidates dns, l.tcp = true →
      l.owner ≠ .transport .grpcTLS → t.listenPort ≠ l.port := by
    intro l hl htcp howner
    refine hno.port_ne h.mem_listeners hl rfl rfl htcp fun heq => howner ?_
    rw [← heq, ← hkind]
    rfl
  simp only [uncheckedPorts, List.mem_append, List.mem_cons, List.not_mem_nil, or_false, not_or]
  refine ⟨⟨⟨⟨?_, ?_, ?_, ?_⟩, ?_⟩, ?_⟩, ?_⟩
  · exact hne ⟨.nginxHealth, .any, true, false, 9080⟩ (mem_of_template (by simp)) rfl (by simp)
  · exact hne ⟨.nginxManagement, .any, true, false, 9443⟩ (mem_of_template (by simp)) rfl (by simp)
  · exact hne ⟨.updateVPN, .loopback, true, false, 19080⟩ (mem_of_constant (by simp)) rfl (by simp)
  · exact hne ⟨.updateDirect, .loopback, true, false, 19081⟩ (mem_of_constant (by simp)) rfl
      (by simp)
  · intro hmem
    obtain ⟨index, hindex, hport⟩ := List.mem_map.mp hmem
    have hprobe : probeListener index ∈ xrayInbounds base config candidates :=
      List.mem_append_left _ (List.mem_append_right _ (List.mem_map.mpr ⟨index, hindex, rfl⟩))
    exact hne (probeListener index) (mem_of_inbound hprobe) rfl (by simp [probeListener]) hport.symm
  · intro hmem
    obtain ⟨⟨kind, port⟩, hentry, hsome⟩ := List.mem_filterMap.mp hmem
    split at hsome
    next hfound =>
      have hport : port = t.listenPort := Option.some.inj hsome
      obtain ⟨t', ht'⟩ := Option.isSome_iff_exists.mp hfound
      have hlistener : transportListener config t' =
          ⟨.transport kind, .loopback, true, false, port⟩ := by
        have hkind' : t'.kind = kind := (byKind_spec ht').2
        rw [transportListener, hkind']
        simp only [List.mem_cons, Prod.mk.injEq, List.not_mem_nil, or_false] at hentry
        rcases hentry with ⟨rfl, rfl⟩ | ⟨rfl, rfl⟩ | ⟨rfl, rfl⟩ | ⟨rfl, rfl⟩ <;> rfl
      have hkind' : kind ≠ .grpcTLS := by
        rintro rfl
        simp at hentry
      exact hne _ (mem_of_inbound (mem_xrayInbounds ht' hlistener)) rfl
        (by simpa using hkind') hport.symm
    next => cases hsome
  · split
    next hcover =>
      rw [List.mem_singleton]
      refine hne ⟨.nginxCover, .loopback, true, false, 16448⟩ (mem_of_nginx ?_) rfl (by simp)
      refine List.mem_append_right _ ?_
      rw [if_pos hcover]
      exact List.mem_singleton_self _
    next => exact List.not_mem_nil

/-- **Listeners.** An accepted configuration has no conflicting listeners exactly if its ports are
    apart where the validation does not look. -/
theorem no_conflict_iff (env : Env) (trim : String → String) (htrim : trim "" = "") (base : Config)
    (config : Ingress) (haccepted : Accepted trim base config) (candidates : ℕ)
    (selectable : List String) (dns : List Listener)
    (hdns : dnsListeners env base selectable (existingPorts base config candidates) = .ok dns) :
    NoConflict (listeners trim base config candidates dns) ↔
      PortsApart trim base config candidates dns := by
  have hfresh := dnsListeners_fresh hdns
  have hchecked := sharedChecked haccepted.shared
  constructor
  · intro hno
    constructor
    · intro port hport
      by_cases hshared : config.sharedTCP443 = true ∧ port = 443
      · rw [hshared.2]
        refine ⟨by decide, fun hmem => ?_⟩
        obtain ⟨l, hl, hlport⟩ := List.mem_map.mp hmem
        have := (hfresh.fresh l hl).1
        omega
      · have hl : (⟨.nginxPublic, .any, true, false, port⟩ : Listener) ∈
            listeners trim base config candidates dns := by
          refine mem_of_nginx (List.mem_append_left _ (List.mem_append_left _
            (List.mem_append_left _ (List.mem_map.mpr ⟨port, hport, ?_⟩))))
          rw [publicListener, if_neg (by simpa using hshared)]
        refine ⟨hno.notMem_forgotten hl rfl rfl (by simp), fun hmem => ?_⟩
        obtain ⟨l', hl', hlport⟩ := List.mem_map.mp hmem
        obtain ⟨hloopback, htcp⟩ := hfresh.loopback l' hl'
        refine hno _ hl l' (List.mem_append_right _ hl') (fun heq => ?_) ⟨hlport.symm, ?_, rfl⟩
        · rw [← heq] at hloopback
          cases hloopback
        · rw [htcp]
          rfl
    · intro t ht
      exact hno.notMem_forgotten ht.mem_listeners rfl rfl (by simp [directListener])
    · intro t ht hport
      refine hno _ (mem_of_inbound (mem_xrayInbounds ht (hysteria_listener ht)))
        ⟨.transparent, .any, true, true, 12345⟩ (mem_of_constant (by simp))
          (by simp [hysteriaListener]) ⟨hport, rfl, rfl⟩
    · intro t ht
      exact hno.notMem_unchecked (direct_of_grpcTLS ht) (byKind_spec ht).2
    · intro t ht hport hshared hhost _ hstatus
      have hroutes : streamRoutes config = true := by
        have hpolicy : 443 ∈ policyPorts config := by
          refine List.mem_append_left _ (List.mem_append_right _ ?_)
          rw [if_pos hhost, hstatus]
          exact List.mem_singleton_self _
        rw [streamRoutes, hshared, List.contains_iff_mem.mpr hpolicy]
        rfl
      have hstream : (⟨.nginxStream, .any, true, false, 443⟩ : Listener) ∈
          listeners trim base config candidates dns := by
        refine mem_of_nginx (List.mem_append_left _ (List.mem_append_left _
          (List.mem_append_right _ ?_)))
        rw [if_pos hroutes]
        simp
      exact hno.port_ne (direct_of_grpcTLS ht).mem_listeners hstream rfl rfl rfl
        (by simp [directListener]) hport
  · intro hapart l hl l' hl' hne
    rcases internal_or_public hl with hl | hl
    · rcases internal_or_public hl' with hl' | hl'
      · exact fun hconflict => hne (internal_eq hfresh hl hl' hconflict.port)
      · exact internal_public_apart htrim hchecked hfresh hapart hl hl'
    · rcases internal_or_public hl' with hl' | hl'
      · exact fun hconflict =>
          internal_public_apart htrim hchecked hfresh hapart hl' hl hconflict.symm
      · exact public_apart haccepted hapart hl hl' hne

/-! ### Samples -/

def sampleTransport (port : ℕ) : Transport where
  enabled := true
  kind := .grpcTLS
  listenPort := port
  deployments := []
  hop := none
  cover := false

/-- A gRPC transport with its own certificate, and nothing else. -/
def sampleIngress (port : ℕ) : Ingress where
  transports := [sampleTransport port]
  sharedTCP443 := false
  statusHostname := ""
  statusListenPort := 443
  subscriptionEnabled := true
  subscriptionDedicated := true
  subscriptionHostname := ""
  subscriptionListenPort := 443

theorem sampleIngress_accepted (hport : port = 2445 ∨ port = 19080) :
    Accepted id bareConfig (sampleIngress port) where
  listen := by
    rcases hport with rfl | rfl <;> simp [sampleIngress, sampleTransport, validPort]
  origin := by
    intro t ht hkind
    rw [List.mem_singleton.mp (List.mem_of_mem_filter ht)] at hkind
    cases hkind
  status := by simp [sampleIngress, validPort]
  subscription := by simp [sampleIngress, validPort]
  helper := by
    rcases hport with rfl | rfl <;> simp [sampleIngress, sampleTransport]
  registered := by
    rcases hport with rfl | rfl <;> exact exists_of_isOk rfl
  shared := by
    rcases hport with rfl | rfl <;> rfl

theorem sampleIngress_dns (port : ℕ) (hport : port = 2445 ∨ port = 19080) : ∃ dns,
    dnsListeners bareEnv bareConfig [] (existingPorts bareConfig (sampleIngress port) 1) =
      .ok dns := by
  rcases hport with rfl | rfl <;> exact exists_of_isOk (by decide +kernel)

/-- The default port of the transport is free. -/
theorem sampleIngress_apart : ∃ dns,
    dnsListeners bareEnv bareConfig [] (existingPorts bareConfig (sampleIngress 2445) 1) = .ok dns ∧
      NoConflict (listeners id bareConfig (sampleIngress 2445) 1 dns) := by
  obtain ⟨dns, hdns⟩ := sampleIngress_dns 2445 (.inl rfl)
  have hfound : ∀ kind t, (sampleIngress 2445).byKind kind = some t → t = sampleTransport 2445 :=
    fun kind t ht => List.mem_singleton.mp (List.mem_of_mem_filter (byKind_spec ht).1)
  refine ⟨dns, hdns, (no_conflict_iff bareEnv id rfl bareConfig (sampleIngress 2445)
    (sampleIngress_accepted (.inl rfl)) 1 [] dns hdns).mpr ⟨?_, ?_, ?_, ?_, ?_⟩⟩
  · intro port hport
    have hnone : publicPorts id (sampleIngress 2445) = [] := rfl
    rw [hnone] at hport
    cases hport
  · intro t ht
    rw [hfound _ t ht.found]
    decide
  · intro t ht
    rw [hfound _ t ht]
    decide
  · intro t ht
    rw [hfound _ t ht]
    decide
  · intro t _ _ hshared
    cases hshared

/-- The port of the subscription updates is accepted and conflicts with them. -/
theorem sampleIngress_conflict : ∃ dns, Accepted id bareConfig (sampleIngress 19080) ∧
      dnsListeners bareEnv bareConfig [] (existingPorts bareConfig (sampleIngress 19080) 1) =
        .ok dns ∧
      ¬ NoConflict (listeners id bareConfig (sampleIngress 19080) 1 dns) := by
  obtain ⟨dns, hdns⟩ := sampleIngress_dns 19080 (.inr rfl)
  refine ⟨dns, sampleIngress_accepted (.inr rfl), hdns, fun hno => ?_⟩
  have hdirect : Direct (sampleIngress 19080) (sampleTransport 19080) := direct_of_grpcTLS rfl
  exact hno.port_ne hdirect.mem_listeners
    (mem_of_constant (l := ⟨.updateVPN, .loopback, true, false, 19080⟩) (by simp)) rfl rfl rfl
    (by simp [directListener]) rfl

end SbGateway.RuntimeConfig.Listeners
