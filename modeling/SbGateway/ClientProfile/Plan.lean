import SbGateway.Lib.NetIP

namespace SbGateway.ClientProfile

open Lib

/-!
# The route plan of a client profile

A client profile sends the traffic of a user's device directly or through the gateway.  The plan
says what goes where; three writers turn it into the formats of three clients.  This module has the
plan, the flows that the clients see, and the names in both.

* `clientDomain` — a domain as the writers take it;
* `clientDomain_of_under` — a domain that covers a host name is taken as it is;
* `clientDirectPrivateCIDRs` — the private ranges that the gateway does not reach.
-/

/-- A text as its characters. -/
abbrev Text := List Char

/-! ### Names -/

/-- The characters of host names as they are sent. -/
def hostChar (c : Char) : Bool :=
  ('a' ≤ c && c ≤ 'z') || ('0' ≤ c && c ≤ '9') || c = '-' || c = '_' || c = '.'

/-- A host name: labels that are not empty between dots. -/
structure HostName where
  text : Text
  chars : ∀ c ∈ text, hostChar c = true
  nonempty : text ≠ []
  first : text.head? ≠ some '.'
  last : text.getLast? ≠ some '.'
  inner : ¬ ['.', '.'] <:+: text

/-- The operations on Unicode texts; both leave host names alone. -/
structure TextOps where
  lower : Text → Text
  trim : Text → Text
  lower_host : ∀ s, (∀ c ∈ s, hostChar c = true) → lower s = s
  trim_host : ∀ s, (∀ c ∈ s, hostChar c = true) → trim s = s

/-- The name is the domain, or below it. -/
def under (name domain : Text) : Bool := name = domain || ('.' :: domain).isSuffixOf name

theorem under_iff : under name domain = true ↔ name = domain ∨ '.' :: domain <:+ name := by
  simp [under]

/-- The text without something at its beginning. -/
def trimStart (start text : Text) : Text := (text.dropPrefix? start).getD text

/-- A domain as the writers take it; others are left out. -/
def clientDomain (ops : TextOps) (value : Text) : Option Text :=
  let value := trimStart ['.'] (trimStart ['*', '.'] (ops.lower (ops.trim value)))
  if value ≠ [] ∧ (value.any ['/', ':', '?', '#', '@', ' '].contains) = false then some value
  else none

/-- `sortedClientStrings` -/
def sortedClientStrings (values : List Text) : List Text :=
  ((values.filter (· ≠ [])).dedup).mergeSort fun a b => decide (a ≤ b)

/-- The valid domains, sorted, each once. -/
def normalizedClientDomains (ops : TextOps) (values : List Text) : List Text :=
  sortedClientStrings (values.filterMap (clientDomain ops))

theorem mem_sortedClientStrings :
    value ∈ sortedClientStrings values ↔ value ∈ values ∧ value ≠ [] := by
  simp [sortedClientStrings, List.mem_mergeSort]

theorem mem_normalizedClientDomains : domain ∈ normalizedClientDomains ops values ↔
      ∃ value ∈ values, clientDomain ops value = some domain := by
  rw [normalizedClientDomains, mem_sortedClientStrings, List.mem_filterMap]
  refine ⟨fun h => h.1, fun h => ⟨h, ?_⟩⟩
  obtain ⟨value, -, hvalue⟩ := h
  rw [clientDomain] at hvalue
  split at hvalue
  · rename_i hkept
    obtain rfl := Option.some.inj hvalue
    exact hkept.1
  · cases hvalue

/-! ### Host names under a domain -/

variable {name : HostName} {domain : Text}

/-- A domain that covers a host name is a part of it. -/
theorem suffix_of_under (h : under name.text domain = true) : domain <:+ name.text := by
  rcases under_iff.mp h with heq | hsuffix
  · rw [heq]
  · exact (List.suffix_cons '.' domain).trans hsuffix

theorem ne_nil_of_under (h : under name.text domain = true) : domain ≠ [] := by
  rintro rfl
  rcases under_iff.mp h with heq | hsuffix
  · exact name.nonempty heq
  · obtain ⟨before, heq⟩ := hsuffix
    exact name.last (by rw [← heq]; simp)

theorem head_ne_dot_of_under (h : under name.text domain = true) (rest : Text) :
    domain ≠ '.' :: rest := by
  rintro rfl
  rcases under_iff.mp h with heq | ⟨before, heq⟩
  · exact name.first (by rw [heq]; rfl)
  · exact name.inner ⟨before, rest, by rw [← heq]; simp⟩

/-- **Domains of host names.** A domain that covers a host name is taken as it is. -/
theorem clientDomain_of_under (ops : TextOps) (h : under name.text domain = true) :
    clientDomain ops domain = some domain := by
  have hsuffix := suffix_of_under h
  have hchars : ∀ c ∈ domain, hostChar c = true := fun c hc => name.chars c (hsuffix.subset hc)
  have hstar : trimStart ['*', '.'] domain = domain := by
    rw [trimStart]
    cases hdrop : domain.dropPrefix? ['*', '.'] with
    | none => rfl
    | some rest =>
      obtain ⟨start, heq, hstart⟩ := List.dropPrefix?_eq_some_iff.mp hdrop
      obtain rfl := eq_of_beq hstart
      have hhost := hchars '*' (by simp [heq])
      cases hhost
  have hdot : trimStart ['.'] domain = domain := by
    rw [trimStart]
    cases hdrop : domain.dropPrefix? ['.'] with
    | none => rfl
    | some rest =>
      obtain ⟨start, heq, hstart⟩ := List.dropPrefix?_eq_some_iff.mp hdrop
      obtain rfl := eq_of_beq hstart
      exact absurd heq (head_ne_dot_of_under h rest)
  rw [clientDomain, ops.trim_host _ hchars, ops.lower_host _ hchars, hstar, hdot]
  refine if_pos ⟨ne_nil_of_under h, List.any_eq_false.mpr fun c hmem hc => ?_⟩
  have hhost := hchars c hmem
  simp only [List.contains_eq_mem, List.mem_cons, List.not_mem_nil, or_false,
    decide_eq_true_eq] at hc
  rcases hc with rfl | rfl | rfl | rfl | rfl | rfl <;> cases hhost

/-! ### Plans -/

/-- Where a route sends its traffic. -/
inductive Target where
  | direct
  | proxy
  deriving DecidableEq

/-- A port, or a range of ports. -/
inductive PortSpec where
  | single (port : ℕ)
  | range (first last : ℕ)
  deriving DecidableEq

namespace PortSpec

/-- The port is one of them. -/
def contains : PortSpec → ℕ → Bool
  | single n, port => n = port
  | range first last, port => first ≤ port && port ≤ last

/-- The text of a port or range, as `sortedClientPorts` leaves it. -/
def text : PortSpec → Text
  | single n => Nat.toDigits 10 n
  | range first last => Nat.toDigits 10 first ++ '-' :: Nat.toDigits 10 last

end PortSpec

/-- The conditions of a route. -/
structure RouteMatch where
  domains : List Text
  ipCIDRs : List Prefix
  protocols : List Text
  tcpPorts : List PortSpec
  udpPorts : List PortSpec

/-- A route and its target. -/
structure CustomRoute where
  route : RouteMatch
  target : Target

/-- When Xray looks for the addresses of a name. -/
inductive DomainStrategy where
  | asIs
  | ipIfNonMatch
  | ipOnDemand
  deriving DecidableEq

/-- `conservativeClientAdblock` -/
def conservativeClientAdblock : List Text :=
  ["adnxs.com", "adsrvr.org", "app-measurement.com", "criteo.com", "criteo.net", "doubleclick.net",
    "google-analytics.com", "googleadservices.com", "googlesyndication.com",
    "scorecardresearch.com"].map String.toList

/-- The route plan.  The exceptions of an individual plan are from its default. -/
structure Plan where
  individual : Bool
  exceptionTarget : Target
  defaultTarget : Target
  domainStrategy : DomainStrategy
  exceptions : RouteMatch
  customRoutes : List CustomRoute
  allowedLANCIDRs : List Prefix
  allowedLANPorts : List ℕ
  adblock : Bool
  nodeDomains : List Text
  /-- Whether there are zones for the internal name server. -/
  internalDNS : Bool
  targets : individual = true → defaultTarget ≠ exceptionTarget

/-- The names that are blocked. -/
def Plan.adblockDomains (plan : Plan) : List Text :=
  if plan.adblock then conservativeClientAdblock else []

/-! ### Private ranges -/

/-- The address with a bit set. -/
def setBit (a : Addr) (bit : ℕ) : Addr :=
  match a with
  | .v4 value => .v4 (value ||| 1#32 <<< (31 - bit))
  | .v6 value => .v6 (value ||| 1#128 <<< (127 - bit))

theorem bitLen_setBit (a : Addr) (bit : ℕ) : (setBit a bit).bitLen = a.bitLen := by
  cases a <;> rfl

/-- The two halves of a prefix. -/
def splitClientPrefix (p : Prefix) (h : p.bits < p.addr.bitLen) : Prefix × Prefix :=
  (⟨p.masked.addr, p.bits + 1, by simpa [Prefix.masked] using h⟩,
    ⟨setBit p.masked.addr p.bits, p.bits + 1, by simpa [Prefix.masked, bitLen_setBit] using h⟩)

/-- What is left of a prefix without another one. -/
def subtractClientPrefix (base cut : Prefix) : List Prefix :=
  if base.addr.bitLen ≠ cut.addr.bitLen ∨ base.contains cut.masked.addr = false then
    [base.masked]
  else if cut.bits ≤ base.bits then []
  else if h : base.bits < base.addr.bitLen then
    subtractClientPrefix (splitClientPrefix base h).1 cut ++
      subtractClientPrefix (splitClientPrefix base h).2 cut
  else []
termination_by cut.bits - base.bits
decreasing_by all_goals simp only [splitClientPrefix]; omega

/-- `clientPrivateCIDRs` -/
def clientPrivateCIDRs : List Prefix :=
  [⟨.v4 0x0A000000, 8, by decide⟩, ⟨.v4 0x64400000, 10, by decide⟩, ⟨.v4 0x7F000000, 8, by decide⟩,
    ⟨.v4 0xA9FE0000, 16, by decide⟩, ⟨.v4 0xAC100000, 12, by decide⟩,
    ⟨.v4 0xC0A80000, 16, by decide⟩, ⟨.v6 1, 128, by decide⟩,
    ⟨.v6 (0xFC00 <<< 112), 7, by decide⟩, ⟨.v6 (0xFE80 <<< 112), 10, by decide⟩]

/-- The private ranges without those that the gateway reaches; their order does not matter to the
    writers. -/
def clientDirectPrivateCIDRs (remoteLAN : List Prefix) : List Prefix :=
  clientPrivateCIDRs.flatMap fun base =>
    remoteLAN.foldl (fun parts cut => parts.flatMap fun part => subtractClientPrefix part cut)
      [base.masked]

/-! ### Flows -/

/-- The protocol of a flow. -/
inductive Network where
  | tcp
  | udp
  deriving DecidableEq

/-- A connection as a client sees it: the name, if it has one, the addresses that are known, and the
    protocol that was sniffed. -/
structure Flow where
  name : Option HostName
  addresses : List Addr
  sniffed : Option Text
  network : Network
  port : ℕ

namespace Flow

variable (flow : Flow)

/-- The name is one of the domains, or below. -/
def inDomains (domains : List Text) : Bool :=
  flow.name.any fun name => domains.any (under name.text)

/-- The name is one of the names. -/
def isNamed (names : List Text) : Bool := flow.name.any fun name => names.contains name.text

/-- An address is in one of the prefixes. -/
def inPrefixes (prefixes : List Prefix) : Bool :=
  flow.addresses.any fun address => prefixes.any (·.contains address)

/-- The sniffed protocol is one of the protocols. -/
def inProtocols (protocols : List Text) : Bool := flow.sniffed.any protocols.contains

/-- The port of the flow is in one of the ranges. -/
def inPorts (ports : List PortSpec) : Bool := ports.any (·.contains flow.port)

/-- The ports of the network are among those of the match. -/
def inPortsOf (route : RouteMatch) : Bool :=
  match flow.network with
  | .tcp => flow.inPorts route.tcpPorts
  | .udp => flow.inPorts route.udpPorts

/-- The flow is in the union of what the match lists. -/
def inUnion (route : RouteMatch) : Bool :=
  flow.inDomains route.domains || flow.inPrefixes route.ipCIDRs ||
    flow.inProtocols route.protocols || flow.inPortsOf route

end Flow

end SbGateway.ClientProfile
