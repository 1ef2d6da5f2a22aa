import SbGateway.Lib.Json
import SbGateway.Lib.NetText

namespace SbGateway.ControlPlane.SubscriptionIdentity

open Lib
open Lib.Json

/-!
# The identity of subscription nodes

A refresh replaces the nodes of a subscription by those of a feed.  A node of the feed takes over
the id and the selection identity of a previous node: of the one with its stable identity, else of
the only one with its endpoint, else of the only one with its name.  Ids that are in use already
are avoided.

* `publish_ids_nodup` — the ids that a refresh stores are different, whatever the feed;
* `publish_of_apart` — where no two nodes claim one id, each gets what it claims, in any order;
* `identity_stable_iff` — the identities are stable exactly where no two nodes claim one id or one
  selection identity.
-/

variable (digest : Json → List Char)

/-! ### The three identities -/

/-- A credential, or a reference to one. -/
def credentialKey (key : String) : Bool :=
  ['_'].isPrefixOf key.toList || "_secret_ref".toList.isSuffixOf key.toList

/-- What the stable identity leaves out. -/
def stableExcluded : List String :=
  ["id", "enabled", "subscription_id", "subscription_display_name", "selection_identity",
    "selection_key", "legacy_selection_key", "stable_identity", "country", "city", "city_source"]

/-- What the endpoint identity leaves out. -/
def endpointExcluded : List String :=
  ["id", "label", "enabled", "subscription_id", "subscription_display_name", "selection_identity",
    "selection_key", "legacy_selection_key", "stable_identity", "credential_identity", "country",
    "city", "city_source"]

/-- The fields of a node that an identity is made of. -/
def identityFields (excluded : List String) (node : Fields) : Fields :=
  node.filter fun field => !credentialKey field.1 && !excluded.contains field.1

section

variable (node : Fields)

/-- A digest without credentials and what the panel adds. -/
def stableSubscriptionIdentity : List Char :=
  (digest (.object (identityFields stableExcluded node))).take 24

/-- A digest without the label, too. -/
def subscriptionEndpointIdentity : List Char :=
  digest (.object (identityFields endpointExcluded node))

/-- The protocol, with its security. -/
def subscriptionNodeProtocol : List Char :=
  let protocol := textOr "vless".toList (get node "protocol")
  let tls := ((get node "tls").fields?).getD []
  let reality := (get tls "reality").fields?
  if protocol = "vless".toList ∧ reality.any (fun fields => !(get fields "enabled").isFalse) then
    "reality".toList
  else protocol

/-- The transport of a node. -/
def subscriptionTransport : List Char :=
  textOr "tcp".toList (get (((get node "transport").fields?).getD []) "type")

/-- A digest of label, protocol and transport. -/
def subscriptionLogicalIdentity : List Char :=
  digest (.array [.text (get node "label").textOf, .text (subscriptionNodeProtocol node),
    .text (subscriptionTransport node)])

end

/-- Removes hyphens at the end. -/
def trimHyphens (text : List Char) : List Char := (text.reverse.dropWhile (· = '-')).reverse

/-- The characters of a lowered label that stay in a slug. -/
def slugChar (c : Char) : Bool := c.isDigit || ('a' ≤ c && c ≤ 'z')

/-- Replaces each run of other characters by a hyphen. -/
def hyphenate : List Char → List Char
  | [] => []
  | c :: cs =>
    if slugChar c then c :: hyphenate cs
    else
      match cs with
      | d :: _ => if slugChar d then '-' :: hyphenate cs else hyphenate cs
      | [] => ['-']

/-- `setSubscriptionNodeID`; `lower` is the lower case of a text. -/
def setSubscriptionNodeID (lower : List Char → List Char) (node : Fields) : Fields :=
  let slug := trimHyphens ((hyphenate (lower (get node "label").textOf)).dropWhile (· = '-'))
  let slug := if 48 < slug.length then trimHyphens (slug.take 48) else slug
  let slug := if slug = [] then "node".toList else slug
  set node "id" (.text (slug ++ '-' :: (stableSubscriptionIdentity digest node).take 10))

/-! ### The previous nodes -/

/-- What a refresh finds: the nodes that are stored for the subscription, and the nodes of the
    active revision. -/
structure Inventory where
  subscriptionID : List Char
  displayName : Json
  stored : List Fields
  active : List Fields

/-- The nodes of the active revision that are of the subscription, under their stored ids. -/
def Inventory.applied (inventory : Inventory) : List Fields :=
  inventory.active.filterMap fun old =>
    if (get old "subscription_id").textOf = inventory.subscriptionID then
      ((get old "id").textOf.dropPrefix? (inventory.subscriptionID ++ ['-'])).map fun id =>
        set old "id" (.text id)
    else none

/-- The previous nodes by their stable identity; an applied node replaces a stored one. -/
def Inventory.previous (inventory : Inventory) : AList fun _ : List Char => Fields :=
  (inventory.stored ++ inventory.applied).foldl
    (fun nodes old => nodes.insert (stableSubscriptionIdentity digest old) old) ∅

/-- The only previous node with the key of a node, if the key is ambiguous nowhere. -/
def Inventory.onlyWith (inventory : Inventory) (key : Fields → List Char) (feed : List Fields)
    (node : Fields) : Option Fields :=
  let same := fun other => decide (key other = key node)
  if feed.countP same = 1 ∧ inventory.stored.countP same ≤ 1 ∧
      inventory.applied.countP same ≤ 1 then
    match ((inventory.previous digest).entries.map Sigma.snd).filter same with
    | [old] => some old
    | _ => none
  else none

/-- A node of the feed with its own identities. -/
def mark (source : Fields) : Fields :=
  let identity := stableSubscriptionIdentity digest source
  set (set source "stable_identity" (.text identity)) "selection_identity" (.text identity)

/-- The previous node that a node of the feed continues. -/
def Inventory.oldFor (inventory : Inventory) (feed : List Fields) (source : Fields) :
    Option Fields :=
  let node := mark digest source
  (((inventory.previous digest).lookup (stableSubscriptionIdentity digest source)).or
    (inventory.onlyWith digest (subscriptionEndpointIdentity digest) feed node)).or
    (inventory.onlyWith digest (subscriptionLogicalIdentity digest) feed node)

/-! ### The new nodes -/

/-- The id of a node. -/
def idOf (node : Fields) : List Char := (get node "id").textOf

/-- What selections refer to. -/
def selectionOf (node : Fields) : List Char := (get node "selection_identity").textOf

/-- An id with a number. -/
def suffixed (base : List Char) (suffix : ℕ) : List Char := base ++ '-' :: Nat.toDigits 10 suffix

/-- Numbers an id until it is not in use. -/
def renumber (used : List (List Char)) (base : List Char) : ℕ → ℕ → List Char → List Char
  | 0, _, id => id
  | fuel + 1, suffix, id =>
    if id ∈ used then renumber used base fuel (suffix + 1) (suffixed base suffix) else id

/-- The id, or one with a number if it is in use. -/
def freeID (used : List (List Char)) (id : Json) : Json :=
  if id.textOf ∈ used then .text (renumber used id.textOf (used.length + 1) 2 id.textOf) else id

/-- A node of the feed with its identities; `used` are the ids of the nodes before it. -/
def identify (old : Option Fields) (used : List (List Char)) (source : Fields) : Fields :=
  let node := match old with
    | some old =>
      if idOf old ∈ used then mark digest source
      else set (set (mark digest source) "id" (get old "id")) "selection_identity"
        (.text (textOr (stableSubscriptionIdentity digest source) (get old "selection_identity")))
    | none => mark digest source
  set node "id" (freeID used (get node "id"))

/-- The loop over the feed. -/
def publish (oldFor : Fields → Option Fields) : List (List Char) → List Fields → List Fields
  | _, [] => []
  | used, source :: feed =>
    let node := identify digest (oldFor source) used source
    node :: publish oldFor (idOf node :: used) feed

/-- A secret that is to be stored. -/
structure PendingSecret where
  reference : List Char
  value : List Char

/-- Where the credentials of a generation of nodes are kept. -/
structure Vault where
  subscriptionID : List Char
  generation : List Char
  /-- The text of a value. -/
  sprint : Json → List Char

/-- Where a credential of a node is kept. -/
def Vault.reference (vault : Vault) (node : Fields) (kind : String) : List Char :=
  "subscriptions/".toList ++ vault.subscriptionID ++ "/generations/".toList ++ vault.generation ++
    '/' :: vault.sprint (get node "id") ++ '.' :: kind.toList

/-- Moves the credential `key` of a node to the vault and leaves a reference. -/
def Vault.keep (vault : Vault) (key kind referenceKey : String) (node : Fields) :
    Fields × PendingSecret :=
  let reference := vault.reference node kind
  (set (drop node key) referenceKey (.text reference), ⟨reference, vault.sprint (get node key)⟩)

/-- Moves the credentials of a node to the vault. -/
def Vault.keepAll (vault : Vault) (node : Fields) : Fields × List PendingSecret :=
  if (get node "protocol").textOf = "hysteria2".toList then
    let (node, password) :=
      vault.keep "_password" "hysteria2-password" "password_secret_ref" node
    if (get node "_obfs_password").textOf = [] then (node, [password])
    else
      let (node, obfs) :=
        vault.keep "_obfs_password" "hysteria2-obfs-password" "obfs_password_secret_ref" node
      (node, [password, obfs])
  else
    let (node, uuid) := vault.keep "_uuid" "uuid" "uuid_secret_ref" node
    (node, [uuid])

/-- A node as it is stored, and its credentials. -/
def Inventory.store (inventory : Inventory) (vault : Vault) (node : Fields) :
    Fields × List PendingSecret :=
  let (node, secrets) := vault.keepAll node
  (set (set node "subscription_id" (.text inventory.subscriptionID)) "subscription_display_name"
    (.text (textOr inventory.subscriptionID inventory.displayName)), secrets)

/-- `commitSubscriptionNodes`, once the stores are read: the nodes to store and their
    credentials. -/
def Inventory.commitSubscriptionNodes (inventory : Inventory) (vault : Vault)
    (feed : List Fields) : List Fields × List PendingSecret :=
  let nodes := publish digest (inventory.oldFor digest feed) [] feed
  let kept := nodes.map (inventory.store vault)
  (kept.map Prod.fst, kept.flatMap Prod.snd)

/-! ### Free ids -/

theorem suffixed_injective (base : List Char) : Function.Injective (suffixed base) := by
  intro m n h
  have hdigits : Nat.toDigits 10 m = Nat.toDigits 10 n := by
    simpa [suffixed] using h
  have hread := readNumber_toDigits (show 1 < 10 by decide) (by decide) m
  rw [hdigits, readNumber_toDigits (by decide) (by decide)] at hread
  exact (Option.some.inj hread).symm

/-- As long as every id is in use, the ids that were tried are in use. -/
theorem renumber_mem :
    ∀ (fuel suffix : ℕ) (id : List Char), renumber used base fuel suffix id ∈ used →
      id ∈ used ∧ ∀ k < fuel, suffixed base (suffix + k) ∈ used
  | 0, _, _, h => ⟨h, by simp⟩
  | fuel + 1, suffix, id, h => by
    rw [renumber] at h
    split at h
    · rename_i hid
      obtain ⟨hfirst, hrest⟩ := renumber_mem fuel (suffix + 1) _ h
      refine ⟨hid, fun k hk => ?_⟩
      rcases k with _ | k
      · exact hfirst
      · have := hrest k (by omega)
        rwa [Nat.add_right_comm, Nat.add_assoc] at this
    · exact absurd h ‹_›

/-- There are more numbers than ids in use. -/
theorem renumber_not_mem (used : List (List Char)) (base id : List Char) (suffix : ℕ) :
    renumber used base (used.length + 1) suffix id ∉ used := by
  intro h
  have htried := (renumber_mem _ _ _ h).2
  -- the numbered ids are different, and all of them are in use
  have hsub : (List.range (used.length + 1)).map (fun k => suffixed base (suffix + k)) ⊆ used := by
    intro x hx
    obtain ⟨k, hk, rfl⟩ := List.mem_map.mp hx
    exact htried k (List.mem_range.mp hk)
  have hnodup : ((List.range (used.length + 1)).map fun k => suffixed base (suffix + k)).Nodup :=
    List.nodup_range.map fun m n hmn => Nat.add_left_cancel (suffixed_injective base hmn)
  have hlength := (hnodup.subperm hsub).length_le
  simp at hlength

theorem freeID_not_mem (used : List (List Char)) (id : Json) : (freeID used id).textOf ∉ used := by
  rw [freeID]
  split
  · exact renumber_not_mem _ _ _ _
  · assumption

theorem freeID_of_not_mem {id : Json} (h : id.textOf ∉ used) : freeID used id = id := if_neg h

/-! ### What a node of the feed gets -/

/-- The id that a node claims: that of its previous node, or its own. -/
def claimedID (oldFor : Fields → Option Fields) (source : Fields) : List Char :=
  match oldFor source with
  | some old => idOf old
  | none => idOf source

/-- The selection identity that a node claims. -/
def claimedSelection (oldFor : Fields → Option Fields) (source : Fields) : List Char :=
  match oldFor source with
  | some old => textOr (stableSubscriptionIdentity digest source) (get old "selection_identity")
  | none => stableSubscriptionIdentity digest source

section Publish

variable {digest}

theorem idOf_mark (source : Fields) : idOf (mark digest source) = idOf source := by
  rw [idOf, mark, get_set_ne _ _ (by decide), get_set_ne _ _ (by decide), idOf]

theorem idOf_identify_not_mem (old : Option Fields) (used : List (List Char)) (source : Fields) :
    idOf (identify digest old used source) ∉ used := by
  simp only [identify, idOf, get_set_self]
  exact freeID_not_mem _ _

/-- The ids before a node matter only if it claims one of them. -/
theorem identify_of_not_mem {source : Fields} (h : claimedID oldFor source ∉ used) :
    identify digest (oldFor source) used source = identify digest (oldFor source) [] source := by
  rw [claimedID] at h
  cases hold : oldFor source with
  | none =>
    rw [hold] at h
    have hid : (get (mark digest source) "id").textOf ∉ used := by
      rw [← idOf, idOf_mark]
      exact h
    simp only [identify, freeID_of_not_mem hid, freeID_of_not_mem List.not_mem_nil]
  | some old =>
    rw [hold] at h
    have hid : (get old "id").textOf ∉ used := h
    have hget := get_set_ne (set (mark digest source) "id" (get old "id"))
      (.text (textOr (stableSubscriptionIdentity digest source) (get old "selection_identity")))
      (show "id" ≠ "selection_identity" by decide)
    rw [get_set_self] at hget
    simp only [identify, if_neg h, List.not_mem_nil, if_false, hget, freeID_of_not_mem hid,
      freeID_of_not_mem List.not_mem_nil]

/-- A node that is alone gets the id that it claims. -/
theorem idOf_identify (source : Fields) :
    idOf (identify digest (oldFor source) [] source) = claimedID oldFor source := by
  rw [claimedID]
  cases oldFor source with
  | none =>
    simp only [identify, idOf, get_set_self, freeID_of_not_mem List.not_mem_nil]
    exact idOf_mark source
  | some old =>
    simp only [identify, idOf, get_set_self, freeID_of_not_mem List.not_mem_nil, List.not_mem_nil,
      if_false]
    rw [get_set_ne _ _ (by decide), get_set_self]

/-- A node that is alone gets the selection identity that it claims. -/
theorem selectionOf_identify (source : Fields) :
    selectionOf (identify digest (oldFor source) [] source) =
      claimedSelection digest oldFor source := by
  rw [claimedSelection]
  cases oldFor source with
  | none =>
    simp only [identify, selectionOf]
    rw [get_set_ne _ _ (by decide), mark, get_set_self, textOf_text]
  | some old =>
    simp only [identify, selectionOf, List.not_mem_nil, if_false]
    rw [get_set_ne _ _ (by decide), get_set_self, textOf_text]

/-- A node carries its stable identity. -/
theorem stable_identify (old : Option Fields) (used : List (List Char)) (source : Fields) :
    (get (identify digest old used source) "stable_identity").textOf =
      stableSubscriptionIdentity digest source := by
  have hmark : get (mark digest source) "stable_identity" =
      .text (stableSubscriptionIdentity digest source) := by
    rw [mark, get_set_ne _ _ (by decide), get_set_self]
  simp only [identify]
  rw [get_set_ne _ _ (by decide)]
  cases old with
  | none => rw [hmark, textOf_text]
  | some old =>
    dsimp only
    split
    · rw [hmark, textOf_text]
    · rw [get_set_ne _ _ (by decide), get_set_ne _ _ (by decide), hmark, textOf_text]

/-- **Different ids.** The ids of the new nodes are different, and none was in use before. -/
theorem publish_ids_nodup (used : List (List Char)) (feed : List Fields) :
    ((publish digest oldFor used feed).map idOf).Nodup ∧
      ∀ node ∈ publish digest oldFor used feed, idOf node ∉ used := by
  induction feed generalizing used with
  | nil => simp [publish]
  | cons source feed ih =>
    obtain ⟨hnodup, hfresh⟩ := ih (idOf (identify digest (oldFor source) used source) :: used)
    rw [publish]
    refine ⟨?_, ?_⟩
    · rw [List.map_cons, List.nodup_cons]
      refine ⟨fun hmem => ?_, hnodup⟩
      obtain ⟨node, hnode, heq⟩ := List.mem_map.mp hmem
      exact hfresh node hnode (heq ▸ List.mem_cons_self)
    · rw [List.forall_mem_cons]
      exact ⟨idOf_identify_not_mem _ _ _,
        fun node hnode hused => hfresh node hnode (List.mem_cons_of_mem _ hused)⟩

/-- The new nodes carry the stable identities of the feed. -/
theorem map_stable_publish (used : List (List Char)) (feed : List Fields) :
    (publish digest oldFor used feed).map (fun node => (get node "stable_identity").textOf) =
      feed.map (stableSubscriptionIdentity digest) := by
  induction feed generalizing used with
  | nil => rfl
  | cons source feed ih => rw [publish, List.map_cons, List.map_cons, stable_identify, ih]

theorem length_publish (used : List (List Char)) (feed : List Fields) :
    (publish digest oldFor used feed).length = feed.length := by
  induction feed generalizing used with
  | nil => rfl
  | cons source feed ih => rw [publish, List.length_cons, List.length_cons, ih]

/-- **Claims that are apart.** Where no two nodes claim one id, each gets what it claims. -/
theorem publish_of_apart (hnodup : (feed.map (claimedID oldFor)).Nodup)
    (hused : ∀ source ∈ feed, claimedID oldFor source ∉ used) : publish digest oldFor used feed =
      feed.map fun source => identify digest (oldFor source) [] source := by
  induction feed generalizing used with
  | nil => rfl
  | cons source feed ih =>
    rw [List.map_cons, List.nodup_cons] at hnodup
    rw [List.forall_mem_cons] at hused
    rw [publish, identify_of_not_mem hused.1, List.map_cons, idOf_identify, ih hnodup.2]
    intro other hother hmem
    rcases List.mem_cons.mp hmem with heq | hmem
    · exact hnodup.1 (heq ▸ List.mem_map_of_mem hother)
    · exact hused.2 other hother hmem

end Publish

/-! ### What is stored of a node -/

/-- The fields that storing a node changes. -/
def storedKeys : List String :=
  ["_password", "password_secret_ref", "_obfs_password", "obfs_password_secret_ref", "_uuid",
    "uuid_secret_ref", "subscription_id", "subscription_display_name"]

theorem Vault.get_keep (vault : Vault) (node : Fields)
    (hkey : other ≠ key) (hreference : other ≠ referenceKey) :
    get (vault.keep key kind referenceKey node).1 other = get node other := by
  rw [Vault.keep, get_set_ne _ _ hreference, get_drop_ne _ hkey]

theorem Inventory.get_store (inventory : Inventory) (vault : Vault) (node : Fields)
    (h : key ∉ storedKeys) : get (inventory.store vault node).1 key = get node key := by
  simp only [storedKeys, List.mem_cons, List.not_mem_nil, or_false, not_or] at h
  have hkeep : get (vault.keepAll node).1 key = get node key := by
    rw [Vault.keepAll]
    split
    · dsimp only
      split <;> simp [vault.get_keep, h]
    · simp [vault.get_keep, h]
  simp [Inventory.store, get_set_ne, hkeep, h]

/-- What a stored node says of its identities. -/
def assignment (node : Fields) : List Char × List Char × List Char :=
  ((get node "stable_identity").textOf, idOf node, selectionOf node)

theorem assignment_store (inventory : Inventory) (vault : Vault) (node : Fields) :
    assignment (inventory.store vault node).1 = assignment node := by
  have hstable := inventory.get_store vault node (show "stable_identity" ∉ storedKeys by decide)
  have hid := inventory.get_store vault node (show "id" ∉ storedKeys by decide)
  have hselection :=
    inventory.get_store vault node (show "selection_identity" ∉ storedKeys by decide)
  simp only [assignment, idOf, selectionOf, hstable, hid, hselection]

/-! ### Stable identities -/

section Stable

variable {digest} (inventory : Inventory) (vault : Vault)

/-- A new node has the id of the previous node that it continues. -/
def Inherits (oldFor : Fields → Option Fields) (old source node : Fields) : Prop :=
  oldFor source = some old ∧ idOf node = idOf old

/-- The identities that a refresh stores are different, continue those of the previous nodes and
    do not depend on the order of the feed. -/
structure IdentityStable (digest : Json → List Char) (inventory : Inventory) (vault : Vault)
    (feed : List Fields) : Prop where
  ids : ((inventory.commitSubscriptionNodes digest vault feed).1.map idOf).Nodup
  selections : ((inventory.commitSubscriptionNodes digest vault feed).1.map selectionOf).Nodup
  kept : List.Forall₂ (fun source node => ∀ old,
      (inventory.previous digest).lookup (stableSubscriptionIdentity digest source) = some old →
        idOf node = idOf old ∧ selectionOf node =
          textOr (stableSubscriptionIdentity digest source) (get old "selection_identity"))
    feed (inventory.commitSubscriptionNodes digest vault feed).1
  inherited : ∀ old, (feed.zip (inventory.commitSubscriptionNodes digest vault feed).1).Pairwise
    fun x y => ¬ (Inherits (inventory.oldFor digest feed) old x.1 x.2 ∧
      Inherits (inventory.oldFor digest feed) old y.1 y.2)
  orderless : ∀ feed', feed'.Perm feed →
    ((inventory.commitSubscriptionNodes digest vault feed').1.map assignment).Perm
      ((inventory.commitSubscriptionNodes digest vault feed).1.map assignment)

/-- No two nodes of a feed claim one id or one selection identity. -/
def Apart (digest : Json → List Char) (inventory : Inventory) (feed : List Fields) : Prop :=
  (feed.map (claimedID (inventory.oldFor digest feed))).Nodup ∧
    (feed.map (claimedSelection digest (inventory.oldFor digest feed))).Nodup

/-- The previous nodes that the nodes of a feed continue do not depend on its order. -/
theorem Inventory.oldFor_perm (h : feed'.Perm feed) :
    inventory.oldFor digest feed' = inventory.oldFor digest feed := by
  funext source
  simp only [Inventory.oldFor, Inventory.onlyWith, h.countP_eq]

/-- Storing a node changes no identity. -/
theorem map_assignment_commit (feed : List Fields) :
    (inventory.commitSubscriptionNodes digest vault feed).1.map assignment =
      (publish digest (inventory.oldFor digest feed) [] feed).map assignment := by
  simp [Inventory.commitSubscriptionNodes, assignment_store]

theorem map_idOf_commit (feed : List Fields) :
    (inventory.commitSubscriptionNodes digest vault feed).1.map idOf =
      (publish digest (inventory.oldFor digest feed) [] feed).map idOf := by
  have h := congrArg (List.map fun a => a.2.1) (@map_assignment_commit digest inventory
    vault feed)
  simpa [assignment, Function.comp_def] using h

theorem map_selectionOf_commit (feed : List Fields) :
    (inventory.commitSubscriptionNodes digest vault feed).1.map selectionOf =
      (publish digest (inventory.oldFor digest feed) [] feed).map selectionOf := by
  have h := congrArg (List.map fun a => a.2.2) (@map_assignment_commit digest inventory
    vault feed)
  simpa [assignment, Function.comp_def] using h

variable {inventory vault}

/-- Where the claims are apart, the assignment is the claims. -/
theorem Apart.map_assignment_commit (h : Apart digest inventory feed) (hperm : feed'.Perm feed) :
    (inventory.commitSubscriptionNodes digest vault feed').1.map assignment =
      feed'.map fun source => (stableSubscriptionIdentity digest source,
        claimedID (inventory.oldFor digest feed) source,
        claimedSelection digest (inventory.oldFor digest feed) source) := by
  rw [SubscriptionIdentity.map_assignment_commit, inventory.oldFor_perm hperm,
    publish_of_apart ((hperm.map _).nodup_iff.mpr h.1) (by simp), List.map_map]
  refine List.map_congr_left fun source _ => ?_
  simp only [Function.comp_apply, assignment, stable_identify, idOf_identify, selectionOf_identify]

/-- Each new node has its own id, so that no two continue one node. -/
theorem inherited_pairwise (feed : List Fields) (old : Fields) :
    (feed.zip (inventory.commitSubscriptionNodes digest vault feed).1).Pairwise fun x y =>
      ¬ (Inherits (inventory.oldFor digest feed) old x.1 x.2 ∧
        Inherits (inventory.oldFor digest feed) old y.1 y.2) := by
  have hids := (@publish_ids_nodup digest (inventory.oldFor digest feed) [] feed).1
  rw [← map_idOf_commit inventory vault] at hids
  have hlength : (inventory.commitSubscriptionNodes digest vault feed).1.length ≤ feed.length := by
    simp [Inventory.commitSubscriptionNodes, length_publish]
  rw [← List.map_snd_zip hlength, List.map_map] at hids
  refine (List.pairwise_map.mp hids).imp fun hne hboth => hne ?_
  exact hboth.1.2.trans hboth.2.2.symm

/-- **Sufficiency.** Claims that are apart make the identities stable. -/
theorem Apart.identityStable (h : Apart digest inventory feed) :
    IdentityStable digest inventory vault feed where
  ids := by
    rw [map_idOf_commit]
    exact (publish_ids_nodup [] feed).1
  selections := by
    have hmap := congrArg (List.map fun a => a.2.2)
      (@Apart.map_assignment_commit digest inventory vault
      _ _ h (.refl feed))
    rw [List.map_map, List.map_map] at hmap
    exact hmap ▸ h.2
  kept := by
    have hnodes : (inventory.commitSubscriptionNodes digest vault feed).1 = feed.map fun source =>
        (inventory.store vault
          (identify digest (inventory.oldFor digest feed source) [] source)).1 := by
      simp [Inventory.commitSubscriptionNodes, publish_of_apart h.1]
    rw [hnodes, List.forall₂_map_right_iff, List.forall₂_same]
    intro source _ old hlookup
    have hold : inventory.oldFor digest feed source = some old := by
      simp [Inventory.oldFor, hlookup]
    have hassigned := assignment_store inventory vault
      (identify digest (inventory.oldFor digest feed source) [] source)
    simp only [assignment, Prod.mk.injEq, idOf_identify, selectionOf_identify] at hassigned
    rw [hassigned.2.1, hassigned.2.2, claimedID, claimedSelection, hold]
    exact ⟨rfl, rfl⟩
  inherited := inherited_pairwise feed
  orderless := fun feed' hperm => by
    rw [h.map_assignment_commit hperm, h.map_assignment_commit (.refl feed)]
    exact hperm.map _

/-- Two nodes that claim one id: the one that comes first gets it. -/
theorem not_orderless (hperm : feed.Perm (source :: other :: rest))
    (hstable : (feed.map (stableSubscriptionIdentity digest)).Nodup)
    (hclaim : claimedID (inventory.oldFor digest feed) source =
      claimedID (inventory.oldFor digest feed) other) :
    ¬ ∀ feed', feed'.Perm feed →
      ((inventory.commitSubscriptionNodes digest vault feed').1.map assignment).Perm
        ((inventory.commitSubscriptionNodes digest vault feed).1.map assignment) := by
  intro h
  have hswap : (other :: source :: rest).Perm feed := (List.Perm.swap _ _ _).trans hperm.symm
  have hfirst := h _ hperm.symm
  have hsecond := h _ hswap
  rw [map_assignment_commit, inventory.oldFor_perm hperm.symm] at hfirst
  rw [map_assignment_commit, inventory.oldFor_perm hswap] at hsecond
  generalize inventory.oldFor digest feed = oldFor at *
  -- where it comes first, `other` gets what it claims
  have hgets : assignment (identify digest (oldFor other) [] other) ∈
      (publish digest oldFor [] (source :: other :: rest)).map assignment := by
    refine (hfirst.trans hsecond.symm).mem_iff.mpr ?_
    exact List.mem_cons_self
  -- after `source` it gets another id
  have hother : assignment (identify digest (oldFor other) [claimedID oldFor source] other) ∈
      (publish digest oldFor [] (source :: other :: rest)).map assignment := by
    rw [publish, publish, idOf_identify]
    exact List.mem_cons_of_mem _ List.mem_cons_self
  have hnodup : (((publish digest oldFor [] (source :: other :: rest)).map
      assignment).map Prod.fst).Nodup := by
    rw [List.map_map]
    have hmap := @map_stable_publish digest oldFor [] (source :: other :: rest)
    exact hmap ▸ (hperm.map _).nodup_iff.mp hstable
  have hsame := List.inj_on_of_nodup_map hnodup hgets hother (by
    simp only [assignment, stable_identify])
  have hid := congrArg (fun a => a.2.1) hsame
  simp only [assignment, idOf_identify] at hid
  refine @idOf_identify_not_mem digest (oldFor other) [claimedID oldFor source] other ?_
  rw [← hid, hclaim]
  exact List.mem_singleton_self _

/-- **Necessity.** Where the identities are stable, the claims are apart. -/
theorem IdentityStable.apart (hstable : (feed.map (stableSubscriptionIdentity digest)).Nodup)
    (h : IdentityStable digest inventory vault feed) : Apart digest inventory feed := by
  have hids : (feed.map (claimedID (inventory.oldFor digest feed))).Nodup := by
    by_contra hdup
    obtain ⟨id, hduplicate⟩ := List.exists_duplicate_iff_not_nodup.mpr hdup
    obtain ⟨pair, hpair, hmap⟩ :=
      List.sublist_map_iff.mp (List.duplicate_iff_sublist.mp hduplicate)
    obtain ⟨source, other, rfl⟩ : ∃ source other, pair = [source, other] := by
      rw [← List.length_eq_two]
      simpa using (congrArg List.length hmap).symm
    obtain ⟨rest, hperm⟩ := hpair.exists_perm_append
    refine not_orderless hperm hstable ?_ h.orderless
    simp only [List.map_cons, List.cons.injEq] at hmap
    exact hmap.1.symm.trans hmap.2.1
  refine ⟨hids, ?_⟩
  have hselections := h.selections
  rw [map_selectionOf_commit, publish_of_apart hids (by simp), List.map_map] at hselections
  have hmap : feed.map (selectionOf ∘ fun source =>
      identify digest (inventory.oldFor digest feed source) [] source) =
      feed.map (claimedSelection digest (inventory.oldFor digest feed)) :=
    List.map_congr_left fun source _ => selectionOf_identify source
  rwa [hmap] at hselections

/-! ### Nothing is lost -/

/-- The fields that identify a node in the inventory. -/
def identityKeys : List String := ["id", "stable_identity", "selection_identity"]

/-- The credentials of a node, each with the field that refers to it. -/
def credentialsOf (node : Fields) : List (String × String) :=
  if (get node "protocol").textOf = "hysteria2".toList then
    ("_password", "password_secret_ref") ::
      if (get node "_obfs_password").textOf = [] then []
      else [("_obfs_password", "obfs_password_secret_ref")]
  else [("_uuid", "uuid_secret_ref")]

/-- A node of the feed as it is stored: with all its other fields, and with each credential under
    the reference that the stored node has. -/
structure StoredAs (vault : Vault) (secrets : List PendingSecret) (source node : Fields) :
    Prop where
  fields : ∀ key, key ∉ identityKeys → key ∉ storedKeys → get node key = get source key
  credentials : ∀ field ∈ credentialsOf source, ∃ reference, get node field.2 = .text reference ∧
    ⟨reference, vault.sprint (get source field.1)⟩ ∈ secrets

theorem get_identify (old : Option Fields) (used : List (List Char)) (source : Fields)
    (h : key ∉ identityKeys) : get (identify digest old used source) key = get source key := by
  simp only [identityKeys, List.mem_cons, List.not_mem_nil, or_false, not_or] at h
  cases old with
  | none => simp [identify, mark, get_set_ne, h]
  | some old =>
    simp only [identify]
    split <;> simp [mark, get_set_ne, h]

/-- The credentials of a node are kept, and the stored node refers to them. -/
theorem Inventory.store_credentials (node : Fields) : ∀ field ∈ credentialsOf node,
    ∃ reference, get (inventory.store vault node).1 field.2 = .text reference ∧
      ⟨reference, vault.sprint (get node field.1)⟩ ∈ (inventory.store vault node).2 := by
  intro field hfield
  rw [credentialsOf] at hfield
  simp only [Inventory.store, Vault.keepAll]
  split at hfield
  next hprotocol =>
    have hobfs : get (vault.keep "_password" "hysteria2-password" "password_secret_ref" node).1
        "_obfs_password" = get node "_obfs_password" :=
      vault.get_keep node (by decide) (by decide)
    simp only [if_pos hprotocol, hobfs]
    split at hfield
    next hempty =>
      obtain rfl := List.mem_singleton.mp hfield
      exact ⟨vault.reference node "hysteria2-password",
        by simp [Vault.keep, get_set_ne, hempty], by simp [Vault.keep, hempty]⟩
    next hobfuscated =>
      simp only [if_neg hobfuscated]
      rcases List.mem_cons.mp hfield with rfl | hfield
      · exact ⟨vault.reference node "hysteria2-password",
          by simp [Vault.keep, get_set_ne, get_drop_ne], by simp [Vault.keep]⟩
      · obtain rfl := List.mem_singleton.mp hfield
        refine ⟨_, by simp only [Vault.keep, get_set_ne, get_set_self, ne_eq,
          String.reduceEq, not_false_iff]; rfl, ?_⟩
        rw [← hobfs]
        exact List.mem_cons_of_mem _ List.mem_cons_self
  next hprotocol =>
    obtain rfl := List.mem_singleton.mp hfield
    simp only [if_neg hprotocol]
    exact ⟨_, by simp [Vault.keep, get_set_ne], List.mem_cons_self⟩

theorem storedAs_identify (old : Option Fields) (used : List (List Char)) (source : Fields)
    (h : (inventory.store vault (identify digest old used source)).2 ⊆ secrets) :
    StoredAs vault secrets source
      (inventory.store vault (identify digest old used source)).1 := by
  have hget : ∀ key, key ∉ identityKeys →
      get (identify digest old used source) key = get source key :=
    fun key => get_identify old used source
  have hsame : credentialsOf (identify digest old used source) = credentialsOf source := by
    simp only [credentialsOf, hget _ (show "protocol" ∉ identityKeys by decide),
      hget _ (show "_obfs_password" ∉ identityKeys by decide)]
  refine ⟨fun key hkey hstored => ?_, fun field hfield => ?_⟩
  · rw [inventory.get_store vault _ hstored, hget key hkey]
  · have hcredential : field.1 ∉ identityKeys := by
      have hall : ∀ field ∈ credentialsOf source, field.1 ∉ identityKeys := by
        unfold credentialsOf
        split
        · split <;> decide
        · decide
      exact hall field hfield
    obtain ⟨reference, href, hmem⟩ :=
      Inventory.store_credentials (identify digest old used source) field (hsame ▸ hfield)
    rw [hget _ hcredential] at hmem
    exact ⟨reference, href, h hmem⟩

/-- The loop over the feed stores node by node. -/
theorem storedAs_publish (used : List (List Char)) (feed : List Fields)
    (h : ∀ node ∈ publish digest oldFor used feed, (inventory.store vault node).2 ⊆ secrets) :
    List.Forall₂ (StoredAs vault secrets) feed
      ((publish digest oldFor used feed).map fun node => (inventory.store vault node).1) := by
  induction feed generalizing used with
  | nil => exact .nil
  | cons source feed ih =>
    rw [publish] at h ⊢
    rw [List.forall_mem_cons] at h
    exact .cons (storedAs_identify _ _ _ h.1) (ih _ h.2)

end Stable

/-- The inventories that refreshes reach. -/
inductive Reached (subscriptionID : List Char) (displayName : Json) : List Fields → Prop where
  | start : Reached subscriptionID displayName []
  | refresh {stored : List Fields} (h : Reached subscriptionID displayName stored)
      (active : List Fields) (vault : Vault) (feed : List Fields) :
      Reached subscriptionID displayName
        ((Inventory.mk subscriptionID displayName stored active).commitSubscriptionNodes
          digest vault
          feed).1

/-- **Stable identities.** For every inventory, those that refreshes reach among them, and every
    feed with different stable identities: the identities are stable exactly where no two nodes
    of the feed claim one id or one selection identity. -/
theorem identity_stable_iff (inventory : Inventory) (vault : Vault) (feed : List Fields)
    (hstable : (feed.map (stableSubscriptionIdentity digest)).Nodup) :
    IdentityStable digest inventory vault feed ↔ Apart digest inventory feed :=
  ⟨fun h => h.apart hstable, fun h => h.identityStable⟩

/-! A provider renames a node and later offers it under both names. -/

/-- Digests that tell the two names apart. -/
def sampleDigest : Json → List Char
  | .object fields =>
    List.replicate 64 (if (get fields "label").textOf = ['r', 'i', 'o'] then 'a'
      else if (get fields "label").textOf = ['l', 'i', 'm', 'a'] then 'b' else 'c')
  | .array (label :: _) =>
    List.replicate 64 (if label.textOf = ['r', 'i', 'o'] then 'd' else 'e')
  | _ => List.replicate 64 'f'

/-- A node of the feed. -/
def sampleNode (label : List Char) : Fields :=
  setSubscriptionNodeID sampleDigest id
    [("protocol", .text ['v', 'l', 'e', 's', 's']), ("server", .text ['h']), ("server_port",
      .number 443), ("label", .text label), ("_uuid", .text ['u'])]

/-- References are plain texts. -/
def sampleVault : Vault := ⟨['s'], ['g'], textOf⟩

/-- The inventory after some feeds. -/
def sampleStored : List (List Fields) → List Fields
  | [] => []
  | feed :: feeds =>
    ((Inventory.mk ['s'] .null (sampleStored feeds) []).commitSubscriptionNodes sampleDigest
      sampleVault feed).1

theorem sampleStored_reached (feeds : List (List Fields)) :
    Reached sampleDigest ['s'] .null (sampleStored feeds) := by
  induction feeds with
  | nil => exact .start
  | cons feed feeds ih => exact ih.refresh [] sampleVault feed

/-- The inventory after the rename. -/
def sampleRenamed : Inventory :=
  ⟨['s'], .null, sampleStored [[sampleNode ['l', 'i', 'm', 'a']], [sampleNode ['r', 'i', 'o']]], []⟩

/-- The renamed node alone keeps its identities. -/
theorem sampleRenamed_stable :
    IdentityStable sampleDigest sampleRenamed sampleVault [sampleNode ['l', 'i', 'm', 'a']] :=
  (identity_stable_iff sampleDigest sampleRenamed sampleVault _ (by decide +kernel)).mpr
    ⟨by decide +kernel, by decide +kernel⟩

/-- Under both names it does not: the old name comes back with its own selection identity, which
    the new name has taken over. -/
theorem sampleRenamed_unstable : Reached sampleDigest ['s'] .null sampleRenamed.stored ∧
      ([sampleNode ['l', 'i', 'm', 'a'], sampleNode ['r', 'i', 'o']].map
        (stableSubscriptionIdentity sampleDigest)).Nodup ∧
      ¬ IdentityStable sampleDigest sampleRenamed sampleVault
        [sampleNode ['l', 'i', 'm', 'a'], sampleNode ['r', 'i', 'o']] := by
  have hstable : ([sampleNode ['l', 'i', 'm', 'a'], sampleNode ['r', 'i', 'o']].map
      (stableSubscriptionIdentity sampleDigest)).Nodup := by decide +kernel
  refine ⟨sampleStored_reached _, hstable, fun h => ?_⟩
  have hselections := (h.apart hstable).2
  revert hselections
  decide +kernel

end SbGateway.ControlPlane.SubscriptionIdentity
