import SbGateway.Lib.NetText

namespace SbGateway.RuntimeConfig.Endpoints

open Lib

/-!
# The servers that bypass the tunnel

Traffic to the servers of the nodes must not enter the tunnel again.  RouterOS keeps their IPv4
addresses in an address list, and the committed RouterOS source has a block that sets the list.

* `routerOSEndpointBypass` — the addresses for a configuration and its nodes;
* `updateRouterOSEndpointSource` — the source with the block of other addresses;
* `mem_endpoints_iff` — the addresses are those of the nodes with an IPv4 literal;
* `updateRouterOSEndpointSource_unchanged` — if the source stays the same, the addresses do.
-/

/-! ### The nodes of a runtime -/

/-- What is read from configurations `γ` and nodes `ν`. -/
structure Source (γ ν : Type) where
  id : ν → String
  server : ν → String
  /-- The nodes of the enabled subscription reserves, at most three. -/
  reserves : γ → List ν
  /-- The WireGuard and Reverse VLESS exits. -/
  exits : γ → Except String (List ν)
  /-- The checks of `BuildRouterOSRenderModel` that are not about the bypass list. -/
  renderError : γ → List ν → Option String

variable {γ ν : Type} (src : Source γ ν)

/-- A node without an id is left out; an id must not come twice. -/
def appendNode (result : List ν) (node : ν) : Except String (List ν) :=
  if src.id node = "" then .ok result
  else if src.id node ∈ result.map src.id then
    .error ("duplicate runtime node id \"" ++ src.id node ++ "\"")
  else .ok (result ++ [node])

/-- The nodes with reserves and exits. -/
def augmentRuntimeNodes (config : γ) (provider : List ν) : Except String (List ν) := do
  let result ← (provider ++ src.reserves config).foldlM (appendNode src) []
  (← src.exits config).foldlM (appendNode src) result

/-! ### The address list -/

/-- A prefix, or the error. -/
def readCIDR (raw : String) : Except String Prefix :=
  match parsePrefix raw with
  | some p => .ok p
  | none => .error ("invalid CIDR \"" ++ raw ++ "\"")

/-- IPv4 and IPv6 prefixes, each without duplicates and in order. -/
def splitRouterOSCIDRs (values : List String) : Except String (List String × List String) := do
  let prefixes ← values.mapM readCIDR
  let texts (four : Bool) : List String :=
    ((prefixes.filter fun p => p.addr.is4 == four).map fun p => p.masked.text).dedup.mergeSort
  return (texts true, texts false)

/-- The servers that are given by their addresses. -/
def serverPrefixes (nodes : List ν) : List String :=
  nodes.filterMap fun node => (parseAddr (src.server node)).map fun a => (Prefix.single a).text

/-- The addresses that bypass the gateway. -/
def routerOSEndpointBypass (config : γ) (nodes : List ν) : Except String (List String) := do
  let augmented ← augmentRuntimeNodes src config nodes
  match src.renderError config augmented with
  | some e => .error e
  | none => return (← splitRouterOSCIDRs (serverPrefixes src augmented)).1

/-- The IPv4 literals among the servers. -/
def ipv4Server (node : ν) : Option String :=
  match parseAddr (src.server node) with
  | some (.v4 value) => some (Prefix.single (.v4 value)).text
  | _ => none

theorem masked_single (a : Addr) : (Prefix.single a).masked = Prefix.single a := by
  cases a <;> simp [Prefix.single, Prefix.masked, Addr.mask, Addr.bitLen]

/-- The texts of prefixes are all read. -/
theorem splitRouterOSCIDRs_texts (prefixes : List Prefix) :
    splitRouterOSCIDRs (prefixes.map Prefix.text) =
      .ok (((prefixes.filter fun p => p.addr.is4 == true).map fun p =>
        p.masked.text).dedup.mergeSort,
        ((prefixes.filter fun p => p.addr.is4 == false).map fun p =>
          p.masked.text).dedup.mergeSort) := by
  have hread : (prefixes.map Prefix.text).mapM readCIDR = .ok prefixes := by
    induction prefixes with
    | nil => rfl
    | cons p rest ih =>
      rw [List.map_cons, List.mapM_cons, readCIDR, parsePrefix_text, ih]
      rfl
  rw [splitRouterOSCIDRs, hread]
  rfl

/-- **The bypass list.** It has the addresses of the nodes whose server is an IPv4 literal. -/
theorem mem_endpoints_iff (h : routerOSEndpointBypass src config nodes = .ok endpoints) :
    ∃ augmented, augmentRuntimeNodes src config nodes = .ok augmented ∧
      ∀ text, text ∈ endpoints ↔ ∃ node ∈ augmented, ipv4Server src node = some text := by
  unfold routerOSEndpointBypass at h
  cases haugmented : augmentRuntimeNodes src config nodes with
  | error e => simp [haugmented, bind, Except.bind] at h
  | ok augmented =>
    refine ⟨augmented, rfl, fun text => ?_⟩
    simp only [haugmented, bind, Except.bind] at h
    split at h
    · cases h
    · -- all servers are read back
      have hservers : serverPrefixes src augmented =
          (augmented.filterMap fun node =>
            (parseAddr (src.server node)).map Prefix.single).map Prefix.text := by
        simp [serverPrefixes, List.map_filterMap, Function.comp_def]
      rw [hservers, splitRouterOSCIDRs_texts] at h
      cases h
      simp only [List.mem_mergeSort, List.mem_dedup, List.mem_map, List.mem_filter,
        List.mem_filterMap]
      constructor
      · rintro ⟨p, ⟨⟨node, hnode, hp⟩, hfour⟩, rfl⟩
        refine ⟨node, hnode, ?_⟩
        cases hparse : parseAddr (src.server node) with
        | none => simp [hparse] at hp
        | some a =>
          obtain rfl : Prefix.single a = p := by simpa [hparse] using hp
          cases a with
          | v4 value => simp [ipv4Server, hparse, masked_single]
          | v6 value => simp [Prefix.single, Addr.is4] at hfour
      · rintro ⟨node, hnode, htext⟩
        unfold ipv4Server at htext
        split at htext
        · next value hparse =>
          refine ⟨Prefix.single (.v4 value), ⟨⟨node, hnode, by simp [hparse]⟩, rfl⟩, ?_⟩
          rw [masked_single]
          exact Option.some.inj htext
        · cases htext

/-! ### The block in the source -/

/-- How often a text occurs, without overlaps; the first `skip` characters belong to the last
    occurrence. -/
def occurrences (needle : List Char) : ℕ → List Char → ℕ
  | _, [] => 0
  | skip + 1, _ :: cs => occurrences needle skip cs
  | 0, c :: cs =>
    if needle.isPrefixOf (c :: cs) then 1 + occurrences needle (needle.length - 1) cs
    else occurrences needle 0 cs

/-- Replace the first occurrence. -/
def replaceFirst (old new : List Char) : List Char → List Char
  | [] => []
  | c :: cs =>
    if old.isPrefixOf (c :: cs) then new ++ (c :: cs).drop old.length
    else c :: replaceFirst old new cs

theorem eq_of_replaceFirst_eq
    (hcount : occurrences old 0 text ≠ 0) (h : replaceFirst old new text = text) : old = new := by
  induction text with
  | nil => exact absurd rfl hcount
  | cons c cs ih =>
    rw [replaceFirst] at h
    split at h
    · next hfirst =>
      obtain ⟨rest, hrest⟩ := List.isPrefixOf_iff_prefix.mp hfirst
      rw [← hrest, List.drop_left] at h
      exact (List.append_cancel_right h).symm
    · next hnot =>
      rw [occurrences, if_neg hnot] at hcount
      exact ih hcount (List.cons.inj h).2

/-- A RouterOS array of texts. -/
def routerOSArray (values : List String) : String :=
  if values = [] then "[:toarray \"\"]"
  else "\x7b" ++ joinTexts ";" (values.map fun value => "\"" ++ value ++ "\"") ++ "\x7d"

/-- The script that makes a list equal to the values. -/
def renderRouterOSAddressList (variable_ name comment : String) (values : List String) :
    List String :=
  let wanted := "wanted" ++ variable_
  let commentVariable := "comment" ++ variable_
  [":local " ++ commentVariable ++ " \"" ++ comment ++ "\"",
   ":local " ++ wanted ++ " " ++ routerOSArray values,
   ":foreach entry in=[/ip/firewall/address-list/find where list=\"" ++ name ++
    "\" and comment=$" ++ commentVariable ++ "] do=\x7b",
   "  :local entryAddress [/ip/firewall/address-list/get $entry address]",
   "  :local keep false",
   "  :foreach expected in=$" ++ wanted ++
    " do=\x7b :if ($expected = $entryAddress) do=\x7b :set keep true \x7d \x7d",
   "  :if ($keep = false) do=\x7b /ip/firewall/address-list/remove $entry \x7d",
   "\x7d",
   ":foreach candidateAddress in=$" ++ wanted ++ " do=\x7b",
   "  :if ([:len [/ip/firewall/address-list/find where list=\"" ++ name ++
    "\" and address=$candidateAddress]] = 0) do=\x7b /ip/firewall/address-list/add list=\"" ++
    name ++ "\" address=$candidateAddress comment=$" ++ commentVariable ++ " \x7d",
   "\x7d"]

/-- The block that sets the bypass list. -/
def bypassBlock (values : List String) : String :=
  joinTexts "\n" (renderRouterOSAddressList "Bypass" "SB_BYPASS_ENDPOINTS" "SB-GATEWAY loop bypass"
    values) ++ "\n"

/-- A host address, as the bypass list needs it. -/
def validEndpoint (value : String) : Bool :=
  match parsePrefix value with
  | some p => p.addr.is4 && p.bits == 32
  | none => false

/-- Only the block of the bypass list is replaced, and only if it is the committed one. -/
def updateRouterOSEndpointSource (committed : String) (previous desired : List String) :
    Except String String :=
  if (previous ++ desired).all validEndpoint = false then
    .error "invalid subscription endpoint source address"
  else if occurrences (bypassBlock previous).toList 0 committed.toList ≠ 1 ∨
      occurrences ":local wantedBypass ".toList 0 committed.toList ≠ 1 then
    .error "committed subscription endpoint block missing or inconsistent"
  else .ok (String.ofList (replaceFirst (bypassBlock previous).toList (bypassBlock desired).toList
    committed.toList))

/-! ### Texts of endpoints -/

theorem quoted_inj (h : "\"" ++ a ++ "\"" = "\"" ++ b ++ "\"") : a = b := by
  have hchars := congrArg String.toList h
  simp only [String.toList_append] at hchars
  exact String.toList_inj.mp (List.append_cancel_left (List.append_cancel_right hchars))

theorem routerOSArray_nonempty (h : values ≠ []) : (routerOSArray values).toList =
      '\x7b' :: ((joinTexts ";" (values.map fun value => "\"" ++ value ++ "\"")).toList ++
        ['\x7d']) := by
  rw [routerOSArray, if_neg h, String.toList_append, String.toList_append]
  rfl

/-- Arrays of different texts are different, if no text has a separator. -/
theorem routerOSArray_inj (hvalues : ∀ v ∈ values, ';' ∉ v.toList)
    (hother : ∀ v ∈ other, ';' ∉ v.toList) (h : routerOSArray values = routerOSArray other) :
    values = other := by
  have hempty : (routerOSArray []).toList.head? = some '[' := by decide
  by_cases hv : values = []
  · by_cases ho : other = []
    · rw [hv, ho]
    · rw [← hv, h, routerOSArray_nonempty ho] at hempty
      simp at hempty
  · by_cases ho : other = []
    · rw [← ho, ← h, routerOSArray_nonempty hv] at hempty
      simp at hempty
    · have hchars := congrArg String.toList h
      rw [routerOSArray_nonempty hv, routerOSArray_nonempty ho] at hchars
      have hjoined := List.append_cancel_right (List.cons.inj hchars).2
      -- the parts are read back from the joined texts
      have hquoted : ∀ {xs : List String}, (∀ v ∈ xs, ';' ∉ v.toList) →
          ∀ part ∈ xs.map (fun value => "\"" ++ value ++ "\""), ';' ∉ part.toList := by
        intro xs hxs part hpart
        obtain ⟨v, hv, rfl⟩ := List.mem_map.mp hpart
        simpa [String.toList_append] using hxs v hv
      have hfields := congrArg (fieldsOf ';') hjoined
      have hsame := (fieldsOf_joinTexts (by simpa using hv) (hquoted hvalues)).symm.trans
        (hfields.trans (fieldsOf_joinTexts (by simpa using ho) (hquoted hother)))
      have hmaps := (List.map_injective_iff.mpr fun a b => String.toList_inj.mp) hsame
      exact (List.map_injective_iff.mpr fun a b => quoted_inj) hmaps

theorem bypassBlock_inj (hvalues : ∀ v ∈ values, ';' ∉ v.toList)
    (hother : ∀ v ∈ other, ';' ∉ v.toList) (h : bypassBlock values = bypassBlock other) :
    values = other := by
  -- only the array depends on the values
  have hchars := congrArg String.toList h
  simp only [bypassBlock, renderRouterOSAddressList, joinTexts, String.toList_append,
    List.append_assoc, List.append_cancel_left_eq] at hchars
  exact routerOSArray_inj hvalues hother (String.toList_inj.mp (List.append_cancel_right hchars))

/-- The endpoints of nodes are texts of prefixes. -/
theorem semicolon_notMem_endpoints (h : routerOSEndpointBypass src config nodes = .ok endpoints) :
    ∀ text ∈ endpoints, ';' ∉ text.toList := by
  intro text htext
  obtain ⟨augmented, -, hmem⟩ := mem_endpoints_iff src h
  obtain ⟨node, -, hserver⟩ := (hmem text).mp htext
  unfold ipv4Server at hserver
  split at hserver
  · next value _ =>
    cases hserver
    intro hchar
    rw [Prefix.text, String.toList_append, String.toList_append, List.mem_append,
      List.mem_append] at hchar
    rcases hchar with (hchar | hchar) | hchar
    · rcases Addr.mem_text hchar with h | h | h <;> cases h
    · simp at hchar
    · rw [toList_toString] at hchar
      exact notMem_toDigits (by omega) (by omega) (by decide) hchar
  · cases hserver

/-- **Unchanged sources.** If the update does not change the source, the addresses are the same. -/
theorem updateRouterOSEndpointSource_unchanged
    (hprevious : routerOSEndpointBypass src config nodes = .ok endpoints)
    (hdesired : routerOSEndpointBypass src config desired = .ok desiredEndpoints)
    (h : updateRouterOSEndpointSource committed endpoints desiredEndpoints = .ok committed) :
    endpoints = desiredEndpoints := by
  unfold updateRouterOSEndpointSource at h
  split at h
  · cases h
  · split at h
    · cases h
    · next hcount =>
      rw [not_or, not_not] at hcount
      have hsame : replaceFirst (bypassBlock endpoints).toList (bypassBlock desiredEndpoints).toList
          committed.toList = committed.toList := by
        have hchars := congrArg String.toList (Except.ok.inj h)
        rwa [String.toList_ofList] at hchars
      have hblocks := eq_of_replaceFirst_eq (by rw [hcount.1]; decide) hsame
      exact bypassBlock_inj (semicolon_notMem_endpoints src hprevious)
        (semicolon_notMem_endpoints src hdesired) (String.toList_inj.mp hblocks)

/-! ### A source that is the block alone -/

theorem occurrences_skipped (needle : List Char) (cs : List Char) :
    occurrences needle cs.length cs = 0 := by
  induction cs with
  | nil => rfl
  | cons c cs ih => exact ih

theorem occurrences_self (h : text ≠ []) : occurrences text 0 text = 1 := by
  cases text with
  | nil => exact absurd rfl h
  | cons c cs =>
    rw [occurrences, if_pos (List.isPrefixOf_iff_prefix.mpr (List.prefix_refl _)),
      List.length_cons, Nat.add_sub_cancel, occurrences_skipped]

theorem replaceFirst_self (h : text ≠ []) (new : List Char) : replaceFirst text new text = new := by
  cases text with
  | nil => exact absurd rfl h
  | cons c cs =>
    rw [replaceFirst, if_pos (List.isPrefixOf_iff_prefix.mpr (List.prefix_refl _)),
      List.drop_length,
      List.append_nil]

theorem updateRouterOSEndpointSource_block (hvalid : (previous ++ desired).all validEndpoint = true)
    (hblock : (bypassBlock previous).toList ≠ [])
    (honce : occurrences ":local wantedBypass ".toList 0 (bypassBlock previous).toList = 1) :
    updateRouterOSEndpointSource (bypassBlock previous) previous desired =
      .ok (bypassBlock desired) := by
  unfold updateRouterOSEndpointSource
  rw [if_neg (by rw [hvalid]; decide), if_neg (by rw [occurrences_self hblock, honce]; decide),
    replaceFirst_self hblock, String.ofList_toList]

theorem validEndpoint_single (value : BitVec 32) :
    validEndpoint (Prefix.single (.v4 value)).text = true := by
  rw [validEndpoint, parsePrefix_text]
  rfl

/-- The bypass list of a node without reserves and exits. -/
theorem routerOSEndpointBypass_single
    (hid : src.id node ≠ "") (hserver : src.server node = (Addr.v4 value).text)
    (hreserves : src.reserves config = []) (hexits : src.exits config = .ok [])
    (hrender : src.renderError config [node] = none) :
    routerOSEndpointBypass src config [node] = .ok [(Prefix.single (.v4 value)).text] := by
  have haugment : augmentRuntimeNodes src config [node] = .ok [node] := by
    simp [augmentRuntimeNodes, hreserves, hexits, appendNode, hid, bind, Except.bind, pure,
      Except.pure]
  have hservers : serverPrefixes src [node] = [Prefix.single (.v4 value)].map Prefix.text := by
    simp [serverPrefixes, hserver, parseAddr, parseAddrZone_text]
  have hsplit : splitRouterOSCIDRs (serverPrefixes src [node]) =
      .ok ([(Prefix.single (.v4 value)).text], []) := by
    have hfour : (Prefix.single (Addr.v4 value)).addr.is4 = true := rfl
    rw [hservers, splitRouterOSCIDRs_texts]
    simp [masked_single, hfour]
  simp [routerOSEndpointBypass, haugment, hrender, hsplit, bind, Except.bind, pure, Except.pure]

end SbGateway.RuntimeConfig.Endpoints
