import SbGateway.RuntimeConfig.DnsCompile

namespace SbGateway.RuntimeConfig.Listeners

open Lib

/-!
# The listeners of the container

Xray, nginx and the DNS service of the policies listen in one network namespace.  Some ports are
chosen by the configuration, some are constants, and the DNS ports are taken from a first-free
allocator that only knows the ports of the Xray inbounds.

* `listeners` — the listeners of a rendered configuration;
* `Accepted` — the checks of the validation that look at ports;
* `dnsListeners_fresh` — the allocator keeps the DNS ports apart from each other and from the Xray
  inbounds.
-/

/-! ### The configuration, as far as it is about ports -/

/-- The transports. -/
inductive Kind where
  | ws
  | grpc
  | httpupgrade
  | xhttp
  | reality
  | realityGrpc
  | xhttpReality
  | grpcTLS
  | hysteria2
  deriving DecidableEq

/-- `tlsTransportKinds`: nginx ends the TLS connection. -/
def Kind.behindNginx : Kind → Bool
  | .ws | .grpc | .httpupgrade | .xhttp => true
  | _ => false

/-- `RealityBackendPort` -/
def Kind.realityBackendPort : Kind → ℕ
  | .reality => 16444
  | .realityGrpc => 16445
  | .xhttpReality => 16446
  | _ => 0

/-- The REALITY kinds, which have a backend of their own. -/
def Kind.isReality (kind : Kind) : Bool := kind.realityBackendPort ≠ 0

/-- An object of `cdn_deployments`. -/
structure Deployment where
  enabled : Bool
  originPort : ℕ

/-- A transport of the ingress. -/
structure Transport where
  enabled : Bool
  kind : Kind
  listenPort : ℕ
  deployments : List Deployment
  /-- The ranges of `ParseHysteriaUDPHop`, if hopping is enabled. -/
  hop : Option (List (ℕ × ℕ))
  /-- An API cover for a name that is not blank. -/
  cover : Bool

/-- The ingress section. -/
structure Ingress where
  transports : List Transport
  sharedTCP443 : Bool
  statusHostname : String
  statusListenPort : ℕ
  /-- `SubscriptionEndpointEnabled` -/
  subscriptionEnabled : Bool
  /-- The mode is `separate`, `direct` or `direct-and-cdn`. -/
  subscriptionDedicated : Bool
  subscriptionHostname : String
  subscriptionListenPort : ℕ

section

variable (config : Ingress)

/-- The transports that are rendered. -/
def Ingress.enabledTransports : List Transport := config.transports.filter Transport.enabled

/-- The enabled transport of a kind; the last one wins. -/
def Ingress.byKind (kind : Kind) : Option Transport :=
  config.enabledTransports.reverse.find? fun transport => transport.kind = kind

end

/-! ### Listeners -/

/-- The addresses that listeners are bound to. -/
inductive Address where
  | any
  | loopback
  | container
  deriving DecidableEq

/-- A packet to one of the addresses may be one to the other. -/
def Address.overlaps (a b : Address) : Bool := a = .any || b = .any || a = b

/-- Who listens; the server blocks of nginx on one public port are one listener. -/
inductive Owner where
  | transparent
  | updateVPN
  | updateDirect
  | probe (index : ℕ)
  | transport (kind : Kind)
  | managedDNS
  | api
  | tunnel (index : ℕ)
  | lane (index : ℕ)
  | nginxPublic
  | nginxShared
  | nginxStream
  | nginxClosed
  | nginxManagement
  | nginxHealth
  | nginxRelay
  | nginxCover
  deriving DecidableEq

/-- An open port. -/
structure Listener where
  owner : Owner
  address : Address
  tcp : Bool
  udp : Bool
  port : ℕ
  deriving DecidableEq

/-- Two listeners that cannot both be opened. -/
structure Listener.Conflicts (l l' : Listener) : Prop where
  port : l.port = l'.port
  protocol : (l.tcp && l'.tcp || l.udp && l'.udp) = true
  address : l.address.overlaps l'.address = true

/-- No two of the listeners conflict. -/
def NoConflict (listeners : List Listener) : Prop :=
  ∀ l ∈ listeners, ∀ l' ∈ listeners, l ≠ l' → ¬ l.Conflicts l'

/-! ### Xray -/

section Xray

variable (base : Config) (config : Ingress) (candidates : ℕ)

/-- `xrayHealthProbeLanesForConfig`: the number of lanes in the background. -/
def backgroundLanes : ℕ := min base.probeBatch (max 1 candidates)

/-- The listener of a transport. -/
def transportListener (transport : Transport) : Listener :=
  match transport.kind with
  | .ws => ⟨.transport .ws, .loopback, true, false, 11001⟩
  | .grpc => ⟨.transport .grpc, .loopback, true, false, 11002⟩
  | .httpupgrade => ⟨.transport .httpupgrade, .loopback, true, false, 11003⟩
  | .xhttp => ⟨.transport .xhttp, .loopback, true, false, 11004⟩
  | .grpcTLS => ⟨.transport .grpcTLS, .any, true, false, transport.listenPort⟩
  | .hysteria2 => ⟨.transport .hysteria2, .any, false, true, transport.listenPort⟩
  | kind =>
    if config.sharedTCP443 && transport.listenPort = 443 then
      ⟨.transport kind, .loopback, true, false, kind.realityBackendPort⟩
    else ⟨.transport kind, .any, true, false, transport.listenPort⟩

/-- The kinds in the order of the inbounds. -/
def inboundKinds : List Kind :=
  [.ws, .grpc, .grpcTLS, .httpupgrade, .xhttp, .xhttpReality, .reality, .realityGrpc, .hysteria2]

/-- `BuildXrayInboundSource` and `ConvertXrayInbound`: the listeners. -/
def xrayInbounds : List Listener :=
  [⟨.transparent, .any, true, true, 12345⟩, ⟨.updateVPN, .loopback, true, false, 19080⟩,
    ⟨.updateDirect, .loopback, true, false, 19081⟩] ++
  (List.range (backgroundLanes base candidates + 1)).map (fun index =>
    ⟨.probe index, .loopback, true, false, 19082 + index⟩) ++
  inboundKinds.flatMap fun kind => ((config.byKind kind).map (transportListener config)).toList

/-- `ManagedDNSPort` on the address of the container, and the API of Xray. -/
def xrayServiceInbounds : List Listener :=
  (if base.hijackManagedClients.getD true then [⟨.managedDNS, .container, true, true, 1053⟩]
  else []) ++
  [⟨.api, .loopback, true, false, 10085⟩]

end Xray

/-! ### DNS -/

/-- The listeners of the DNS service. -/
def laneListeners (lanes : List (DnsLane × ℕ)) : List Listener :=
  lanes.zipIdx.map fun entry => ⟨.lane entry.2, .loopback, true, true, entry.1.2⟩

/-- The listeners of Xray for the DNS service. -/
def tunnelListeners (tunnels : List DnsTunnel) : List Listener :=
  tunnels.map fun tunnel => ⟨.tunnel tunnel.index, .loopback, true, false, tunnel.port⟩

/-- The listeners of the rendered lanes and tunnels. -/
def dnsListeners (env : Env) (base : Config) (selectable : List String) (existing : List ℕ) :
    Except String (List Listener) := do
  let artifacts ← renderPolicyDNS env base selectable existing
  return laneListeners artifacts.lanes ++ tunnelListeners artifacts.tunnels

/-! ### nginx -/

section Nginx

variable (trim : String → String) (config : Ingress)

/-- The ports of the enabled deployments of a transport. -/
def Transport.originPorts (transport : Transport) : List ℕ :=
  (transport.deployments.filter Deployment.enabled).map Deployment.originPort

/-- The public ports of nginx. -/
def publicPorts : List ℕ :=
  [Kind.ws, .grpc, .httpupgrade, .xhttp].flatMap (fun kind =>
    ((config.byKind kind).map Transport.originPorts).getD []) ++
  (if trim config.statusHostname ≠ "" then [config.statusListenPort] else []) ++
  (if config.subscriptionEnabled && config.subscriptionDedicated &&
      trim config.subscriptionHostname ≠ "" then [config.subscriptionListenPort] else [])

/-- The ports of `OriginPolicies`. -/
def policyPorts : List ℕ :=
  (config.enabledTransports.filter fun transport => transport.kind.behindNginx).flatMap
    Transport.originPorts ++
  (if config.statusHostname ≠ "" then [config.statusListenPort] else []) ++
  (if config.subscriptionEnabled && config.subscriptionHostname ≠ "" &&
      config.subscriptionDedicated then [config.subscriptionListenPort] else [])

/-- `nginxSharedStream` has routes. -/
def streamRoutes : Bool :=
  config.sharedTCP443 && ((policyPorts config).contains 443 ||
    config.enabledTransports.any fun transport =>
      transport.listenPort = 443 && transport.kind.isReality)

/-- The listener of a public port; `nginxSharedHTTP` moves 443 behind the stream. -/
def publicListener (port : ℕ) : Listener :=
  if config.sharedTCP443 && port = 443 then ⟨.nginxShared, .loopback, true, false, 16443⟩
  else ⟨.nginxPublic, .any, true, false, port⟩

/-- A REALITY transport has an API cover. -/
def covered : Bool :=
  config.enabledTransports.any fun transport => transport.kind.isReality && transport.cover

/-- The listeners of nginx: the public ones, the stream, those of the template, the cover. -/
def nginxListeners : List Listener :=
  (publicPorts trim config).map (publicListener config) ++
  (if streamRoutes config then
    [⟨.nginxClosed, .loopback, true, false, 16447⟩, ⟨.nginxStream, .any, true, false, 443⟩]
  else []) ++
  [⟨.nginxManagement, .any, true, false, 9443⟩, ⟨.nginxHealth, .any, true, false, 9080⟩,
    ⟨.nginxRelay, .any, true, false, 9081⟩] ++
  (if covered config then [⟨.nginxCover, .loopback, true, false, 16448⟩] else [])

end Nginx

/-- All listeners; `dns` are the DNS ports. -/
def listeners (trim : String → String) (base : Config) (config : Ingress) (candidates : ℕ)
    (dns : List Listener) : List Listener :=
  xrayInbounds base config candidates ++ xrayServiceInbounds base ++ nginxListeners trim config ++
    dns

/-! ### The validation -/

/-- An entry of the table of listeners; only those of nginx may be shared. -/
structure Registration where
  udp : Bool
  port : ℕ
  nginx : Bool

/-- `register`: the table with one more listener, or the code of the complaint. -/
def register (shared : Bool) (table : List Registration) (new : Registration) :
    Except String (List Registration) :=
  if new.port < 1 ∨ 65535 < new.port then .ok table
  else if shared && !new.udp && decide (16443 ≤ new.port) && decide (new.port ≤ 16448) then
    .error "port_conflict"
  else match table.find? fun old => old.udp = new.udp && old.port = new.port with
    | some old => if new.nginx && old.nginx then .ok table else .error "port_conflict"
    | none => .ok (table ++ [new])

section Validation

variable (trim : String → String) (base : Config) (config : Ingress)

/-- What an enabled transport registers. -/
def transportRegistrations (transport : Transport) : List Registration :=
  if transport.kind.behindNginx then transport.originPorts.map fun port => ⟨false, port, true⟩
  else if transport.kind = .hysteria2 then
    match transport.hop with
    | some ranges => ranges.flatMap fun range =>
        (List.range' range.1 (range.2 + 1 - range.1)).map fun port => ⟨true, port, false⟩
    | none => [⟨true, transport.listenPort, false⟩]
  else
    [⟨false, transport.listenPort,
      config.sharedTCP443 && transport.listenPort = 443 && transport.kind.isReality⟩]

/-- What the ingress registers. -/
def ingressRegistrations : List Registration :=
  (if trim config.statusHostname ≠ "" then [⟨false, config.statusListenPort, true⟩] else []) ++
  (if config.subscriptionEnabled && config.subscriptionDedicated then
    [⟨false, config.subscriptionListenPort, true⟩] else [])

/-- All registrations, in the order of the validation. -/
def registrations : List Registration :=
  config.enabledTransports.flatMap (transportRegistrations config) ++
    ingressRegistrations trim config

/-- The ports of internal services in `ValidateSharedIngress`. -/
def reserved (port : ℕ) : Bool :=
  port = 1053 || port = 8080 || port = 9080 || port = 9443 || port = 18081 || port = 16448 ||
    (11001 ≤ port && port ≤ 11004) || (19080 ≤ port && port ≤ 19082 + base.probeBatch)

/-- The first item that a check refuses. -/
def refuseFirst {α : Type} (refused : α → Option String) (items : List α) : Except String Unit :=
  match items.findSome? refused with
  | some message => .error message
  | none => .ok ()

/-- The complaint about a reserved port. -/
def reservedMessage (port : ℕ) : String :=
  "TCP port " ++ toString port ++ " is reserved for an internal gateway service"

/-- `ValidateSharedIngress`, as far as it is about ports. -/
def validateSharedIngress : Except String Unit := do
  refuseFirst (fun port => if reserved base port then some (reservedMessage port) else none)
    (policyPorts config)
  refuseFirst (fun transport : Transport =>
      if transport.listenPort = 1053 then some "port 1053 is reserved for managed DNS"
      else if transport.kind.isReality && reserved base transport.listenPort then
        some (reservedMessage transport.listenPort)
      else none)
    config.enabledTransports
  if config.sharedTCP443 then
    refuseFirst (fun port =>
        if 16443 ≤ port ∧ port ≤ 16448 then
          some "TCP ports 16443–16448 are reserved for internal ingress"
        else none)
      (policyPorts config)
    refuseFirst (fun transport : Transport =>
        if transport.kind ≠ .hysteria2 ∧ 16443 ≤ transport.listenPort ∧
            transport.listenPort ≤ 16448 then
          some "TCP ports 16443–16448 are reserved for internal ingress"
        else none)
      config.enabledTransports
  else .ok ()

/-- A port in the range that the validation admits. -/
def validPort (port : ℕ) : Prop := 1 ≤ port ∧ port ≤ 65535

/-- The checks of the validation that look at ports. -/
structure Accepted : Prop where
  listen : ∀ transport ∈ config.transports, validPort transport.listenPort
  origin : ∀ transport ∈ config.enabledTransports, transport.kind.behindNginx = true →
    ∀ deployment ∈ transport.deployments, validPort deployment.originPort
  status : validPort config.statusListenPort ∧ config.statusListenPort ≠ 18081
  subscription : validPort config.subscriptionListenPort ∧ config.subscriptionListenPort ≠ 18081
  helper : ∀ transport ∈ config.transports, transport.kind ≠ .hysteria2 →
    transport.listenPort ≠ 18081
  registered : ∃ table, (registrations trim config).foldlM (register config.sharedTCP443) [] =
    .ok table
  shared : validateSharedIngress base config = .ok ()

end Validation

/-! ### The ports of the DNS service -/

/-- A taken port is not below the start, and new. -/
theorem takePort_spec {used : List ℕ} {start port : ℕ} (h : takePort used start = .ok port) :
    start ≤ port ∧ port ∉ used := by
  unfold takePort at h
  split at h
  next i hfind =>
    cases h
    have hfree := List.find?_some hfind
    exact ⟨Nat.le_add_right _ _, by simpa using hfree⟩
  · cases h

/-- The lanes so far: their ports are new, apart from each other, and used. -/
structure LanesFresh (existing : List ℕ) (state : LaneState) : Prop where
  nodup : (state.lanes.map Prod.snd).Nodup
  fresh : ∀ port ∈ state.lanes.map Prod.snd, 30000 ≤ port ∧ port ∉ existing
  used : ∀ port, port ∈ state.lanes.map Prod.snd ∨ port ∈ existing → port ∈ state.used

/-- Placing a lane takes one more port, or none. -/
theorem LanesFresh.place (hfresh : LanesFresh existing state)
    (h : state.place identity lane = .ok state') : LanesFresh existing state' := by
  unfold LaneState.place at h
  split at h
  · cases h
    exact ⟨hfresh.nodup, hfresh.fresh, hfresh.used⟩
  · obtain ⟨port, hport, h⟩ := bind_eq_ok h
    cases h
    obtain ⟨hstart, hnew⟩ := takePort_spec hport
    constructor
    · rw [List.map_append]
      refine hfresh.nodup.append (List.nodup_singleton _)
        (List.disjoint_singleton.mpr fun hmem => ?_)
      exact hnew (hfresh.used port (.inl hmem))
    · intro p hp
      rw [List.map_append, List.mem_append] at hp
      rcases hp with hp | hp
      · exact hfresh.fresh p hp
      · rw [List.mem_singleton.mp hp]
        exact ⟨by omega, fun hmem => hnew (hfresh.used port (.inr hmem))⟩
    · intro p hp
      rw [List.map_append, List.mem_append, or_assoc] at hp
      rcases hp with hp | hp | hp
      · exact List.mem_cons_of_mem _ (hfresh.used p (.inl hp))
      · rw [List.mem_singleton.mp hp]
        exact List.mem_cons_self
      · exact List.mem_cons_of_mem _ (hfresh.used p (.inr hp))

/-- The lanes of all identities. -/
theorem compileLanes_fresh (h : compileLanes env servers source existing = .ok state) :
    LanesFresh existing state := by
  have hinit : LanesFresh existing ⟨[], existing, []⟩ :=
    ⟨List.nodup_nil, fun _ hmem => (List.not_mem_nil hmem).elim,
      fun _ hmem => hmem.resolve_left List.not_mem_nil⟩
  refine foldlM_eq_ok_induct (fun _ state => LanesFresh existing state) ?_ hinit h
  intro _ identity state state' hfresh hstep
  obtain ⟨lane, -, hplace⟩ := bind_eq_ok hstep
  exact hfresh.place hplace

/-- The tunnels: their ports are apart from each other and from the used ones. -/
theorem compileTunnels_fresh {used : List ℕ} {servers : List (DnsServer × ℕ)}
    {tunnels : List DnsTunnel} (h : compileTunnels used servers = .ok tunnels) :
    (tunnels.map DnsTunnel.port).Nodup ∧
      ∀ port ∈ tunnels.map DnsTunnel.port, 32000 ≤ port ∧ port ∉ used := by
  induction servers generalizing used tunnels with
  | nil =>
    cases h
    exact ⟨List.nodup_nil, fun _ hmem => (List.not_mem_nil hmem).elim⟩
  | cons entry rest ih =>
    obtain ⟨server, index⟩ := entry
    unfold compileTunnels at h
    split at h
    · exact ih h
    · obtain ⟨port, hport, h⟩ := bind_eq_ok h
      obtain ⟨others, hothers, h⟩ := bind_eq_ok h
      cases h
      obtain ⟨hstart, hnew⟩ := takePort_spec hport
      obtain ⟨hnodup, hfresh⟩ := ih hothers
      constructor
      · rw [List.map_cons, List.nodup_cons]
        exact ⟨fun hmem => (hfresh port hmem).2 List.mem_cons_self, hnodup⟩
      · intro p hp
        rw [List.map_cons, List.mem_cons] at hp
        rcases hp with rfl | hp
        · exact ⟨by omega, hnew⟩
        · exact ⟨(hfresh p hp).1, fun hmem => (hfresh p hp).2 (List.mem_cons_of_mem _ hmem)⟩

/-- What is known about the DNS listeners. -/
structure DnsFresh (existing : List ℕ) (dns : List Listener) : Prop where
  nodup : (dns.map Listener.port).Nodup
  loopback : ∀ l ∈ dns, l.address = .loopback ∧ l.tcp = true
  fresh : ∀ l ∈ dns, 30000 ≤ l.port ∧ l.port ∉ existing

/-- The lanes listen on their ports. -/
theorem laneListeners_port (lanes : List (DnsLane × ℕ)) :
    (laneListeners lanes).map Listener.port = lanes.map Prod.snd := by
  have hmap : (laneListeners lanes).map Listener.port =
      (lanes.zipIdx.map Prod.fst).map Prod.snd := by
    rw [laneListeners, List.map_map, List.map_map]
    rfl
  rw [hmap, List.zipIdx_map_fst]

/-- The tunnels listen on their ports. -/
theorem tunnelListeners_port (tunnels : List DnsTunnel) :
    (tunnelListeners tunnels).map Listener.port = tunnels.map DnsTunnel.port := by
  rw [tunnelListeners, List.map_map]
  rfl

/-- **DNS ports.** The allocator keeps them apart from each other and from the Xray inbounds. -/
theorem dnsListeners_fresh (h : dnsListeners env base selectable existing = .ok dns) :
    DnsFresh existing dns := by
  obtain ⟨artifacts, hrender, h⟩ := bind_eq_ok h
  obtain ⟨source, -, hrender⟩ := bind_eq_ok hrender
  cases h
  unfold compilePolicyDNS at hrender
  simp only at hrender
  split at hrender
  · cases hrender
    exact ⟨List.nodup_nil, fun _ hmem => (List.not_mem_nil hmem).elim,
      fun _ hmem => (List.not_mem_nil hmem).elim⟩
  · split at hrender
    · cases hrender
    obtain ⟨state, hstate, hrender⟩ := bind_eq_ok hrender
    obtain ⟨tunnels, htunnels, hrender⟩ := bind_eq_ok hrender
    cases hrender
    have hlanes := compileLanes_fresh hstate
    obtain ⟨hnodup, hfresh⟩ := compileTunnels_fresh htunnels
    have hports : (laneListeners state.lanes ++ tunnelListeners tunnels).map Listener.port =
        state.lanes.map Prod.snd ++ tunnels.map DnsTunnel.port := by
      rw [List.map_append, laneListeners_port, tunnelListeners_port]
    constructor
    · rw [hports]
      refine hlanes.nodup.append hnodup fun port hlane htunnel => ?_
      exact (hfresh port htunnel).2 (hlanes.used port (.inl hlane))
    · intro l hl
      rcases List.mem_append.mp hl with hl | hl
      · obtain ⟨entry, -, rfl⟩ := List.mem_map.mp hl
        exact ⟨rfl, rfl⟩
      · obtain ⟨entry, -, rfl⟩ := List.mem_map.mp hl
        exact ⟨rfl, rfl⟩
    · intro l hl
      have hport : l.port ∈ state.lanes.map Prod.snd ++ tunnels.map DnsTunnel.port :=
        hports ▸ List.mem_map_of_mem hl
      rcases List.mem_append.mp hport with hport | hport
      · exact hlanes.fresh l.port hport
      · obtain ⟨hstart, hnew⟩ := hfresh l.port hport
        exact ⟨by omega, fun hmem => hnew (hlanes.used l.port (.inr hmem))⟩

end SbGateway.RuntimeConfig.Listeners
