import SbGateway.PolicyDns.Message

namespace SbGateway.PolicyDns

/-!
# The response cache

Responses are kept in a map from keys to the elements of a list, which has the most recently used
element first.  Elements are identified by numbers, and `value` is what they point to.

* `get`, `getStale`, `putOwned` — the operations; `putOwned` has no result if it reaches the end of
  an empty list;
* `Linked` — the map, the list and the byte count agree;
* `evict_linked` — the eviction stops before the newest entry;
* `responseCache_consistent` — after any operations the cache is linked and within its limits, and
  what it accepts is there.
-/

/-- An element of the list. -/
abbrev Element := ℕ

/-- A kept response. -/
structure CacheEntry where
  key : Key
  response : Message
  weight : ℤ
  stored : Time
  expires : Time
  staleAt : Time
  deriving Inhabited

/-- The cache: a map, and a list from the latest use on. -/
structure ResponseCache where
  limit : ℤ
  byteLimit : ℤ
  used : ℤ
  staleTTL : Time
  entries : Key → Option Element
  order : List Element
  value : Element → CacheEntry
  /-- The elements from here on were never used. -/
  fresh : Element

/-- An empty cache. -/
def newResponseCache (limit byteLimit : ℤ) (staleTTL : Time) : ResponseCache where
  limit := limit
  byteLimit := byteLimit
  used := 0
  staleTTL := staleTTL
  entries := fun _ => none
  order := []
  value := fun _ => default
  fresh := 0

namespace ResponseCache

variable (c : ResponseCache)

/-- The element was used. -/
def moveToFront (element : Element) : ResponseCache :=
  { c with order := element :: c.order.erase element }

/-- Take an element out of the list, and its key out of the map. -/
def unlink (element : Element) (key : Key) : ResponseCache :=
  { c with
    used := c.used - (c.value element).weight
    entries := Function.update c.entries key none
    order := c.order.erase element }

/-- A fresh response; an expired one may be dropped. -/
def get (key : Key) (queryID : Message) (now : Time) : Option Message × ResponseCache :=
  match c.entries key with
  | none => (none, c)
  | some element =>
    let entry := c.value element
    if entry.expires ≤ now then
      if entry.staleAt ≤ now then (none, c.unlink element key) else (none, c)
    else
      (some (cachedResponse entry.response queryID (now - entry.stored) 0), c.moveToFront element)

/-- An expired response that may still be used. -/
def getStale (key : Key) (queryID : Message) (now : Time) : Option Message × ResponseCache :=
  if c.staleTTL ≤ 0 then (none, c)
  else
    match c.entries key with
    | none => (none, c)
    | some element =>
      let entry := c.value element
      if now < entry.expires ∨ entry.staleAt ≤ now then (none, c)
      else (some (cachedResponse entry.response queryID 0 30), c.moveToFront element)

/-- The bytes that are counted for an entry. -/
def entryWeight (key : Key) (response : Message) : ℤ := 128 + key.length + response.length

/-- The response is worth keeping, and fits. -/
def Accepts (key : Key) (response : Message) (ttl : Time) : Prop :=
  0 < c.limit ∧ 0 < c.byteLimit ∧ entryWeight key response ≤ c.byteLimit ∧ 0 < ttl ∧
    2 ≤ response.length

instance (key : Key) (response : Message) (ttl : Time) :
    Decidable (c.Accepts key response ttl) := by
  unfold Accepts
  infer_instance

/-- The entry of a response. -/
def newEntry (key : Key) (response : Message) (ttl now : Time) : CacheEntry where
  key := key
  response := response.withoutID
  weight := entryWeight key response
  stored := now
  expires := now + ttl
  staleAt := now + (ttl + c.staleTTL)

/-- An entry that is there is overwritten. -/
def overwrite (element : Element) (entry : CacheEntry) : ResponseCache :=
  { c with
    used := c.used - (c.value element).weight + entry.weight
    value := Function.update c.value element { entry with key := (c.value element).key }
    order := element :: c.order.erase element }

/-- A new element is put in front. -/
def pushFront (key : Key) (entry : CacheEntry) : ResponseCache :=
  { c with
    used := c.used + entry.weight
    entries := Function.update c.entries key (some c.fresh)
    value := Function.update c.value c.fresh entry
    order := c.fresh :: c.order
    fresh := c.fresh + 1 }

/-- The entry of a key is replaced or added. -/
def insert (key : Key) (entry : CacheEntry) : ResponseCache :=
  match c.entries key with
  | some element => c.overwrite element entry
  | none => c.pushFront key entry

/-- A limit is exceeded. -/
def Overfull : Prop := c.limit < c.order.length ∨ c.byteLimit < c.used

instance : Decidable c.Overfull := by
  unfold Overfull
  infer_instance

/-- The eviction loop, with the elements of the list from its end.  There is no last element to look
    at when they are used up. -/
def evict : List Element → ResponseCache → Option ResponseCache
  | [], c => if c.Overfull then none else some c
  | oldest :: newer, c =>
    if c.Overfull then evict newer (c.unlink oldest (c.value oldest).key) else some c

/-- A response is kept, and the oldest make room. -/
def putOwned (key : Key) (response : Message) (ttl now : Time) : Option ResponseCache :=
  if c.Accepts key response ttl then
    let stored := c.insert key (c.newEntry key response ttl now)
    evict stored.order.reverse stored
  else some c

/-! ### The invariant -/

/-- The sum of the weights of some elements. -/
def weights (elements : List Element) : ℤ := (elements.map fun e => (c.value e).weight).sum

/-- The map, the list and the byte count agree. -/
structure Linked : Prop where
  nodup : c.order.Nodup
  listed : ∀ key element, c.entries key = some element ↔
    element ∈ c.order ∧ (c.value element).key = key
  used : c.used = c.weights c.order
  fits : ∀ element ∈ c.order, 0 ≤ (c.value element).weight ∧
    (c.value element).weight ≤ c.byteLimit
  old : ∀ element ∈ c.order, element < c.fresh

/-- The cache is also within its limits; one without room is empty. -/
structure Consistent : Prop extends Linked c where
  count : (c.order.length : ℤ) ≤ max c.limit 0
  bytes : c.used ≤ max c.byteLimit 0

variable {c}

theorem linked_new (limit byteLimit : ℤ) (staleTTL : Time) :
    (newResponseCache limit byteLimit staleTTL).Consistent where
  nodup := List.nodup_nil
  listed := by simp [newResponseCache]
  used := rfl
  fits := by simp [newResponseCache]
  old := by simp [newResponseCache]
  count := by simp [newResponseCache]
  bytes := by simp [newResponseCache]

/-- Two elements of the list have different keys. -/
theorem Linked.key_inj (h : c.Linked) (he : e ∈ c.order) (he' : e' ∈ c.order)
    (hkey : (c.value e).key = (c.value e').key) : e = e' := by
  have hfirst := (h.listed _ e).mpr ⟨he, rfl⟩
  have hsecond := (h.listed _ e').mpr ⟨he', rfl⟩
  rw [hkey, hsecond] at hfirst
  exact (Option.some.inj hfirst).symm

theorem weights_perm (h : elements.Perm elements') : c.weights elements = c.weights elements' :=
  (h.map _).sum_eq

theorem weights_erase (h : e ∈ elements) :
    c.weights elements = (c.value e).weight + c.weights (elements.erase e) := by
  rw [weights_perm (List.perm_cons_erase h)]
  simp [weights]

theorem Linked.moveToFront (h : c.Linked) (he : e ∈ c.order) : (c.moveToFront e).Linked := by
  have hperm : (e :: c.order.erase e).Perm c.order := (List.perm_cons_erase he).symm
  refine ⟨hperm.nodup_iff.mpr h.nodup, fun key element => ?_, ?_, fun element hmem => ?_,
    fun element hmem => ?_⟩
  · exact (h.listed key element).trans (and_congr_left fun _ => hperm.mem_iff.symm)
  · exact h.used.trans (weights_perm hperm.symm)
  · exact h.fits element (hperm.mem_iff.mp hmem)
  · exact h.old element (hperm.mem_iff.mp hmem)

theorem Linked.unlink (h : c.Linked) (he : e ∈ c.order) : (c.unlink e (c.value e).key).Linked := by
  have hsub : ∀ {element}, element ∈ c.order.erase e → element ∈ c.order := fun hmem =>
    List.mem_of_mem_erase hmem
  refine ⟨h.nodup.erase e, fun key element => ?_, ?_, fun element hmem => h.fits _ (hsub hmem),
    fun element hmem => h.old _ (hsub hmem)⟩
  · show Function.update c.entries (c.value e).key none key = some element ↔
      element ∈ c.order.erase e ∧ _
    rw [h.nodup.mem_erase_iff]
    by_cases hkey : key = (c.value e).key
    · subst hkey
      rw [Function.update_self]
      refine iff_of_false (by simp) ?_
      rintro ⟨⟨hne, hmem⟩, hsame⟩
      exact hne (h.key_inj hmem he hsame)
    · rw [Function.update_of_ne hkey, h.listed key element]
      refine ⟨fun hmem => ⟨⟨?_, hmem.1⟩, hmem.2⟩, fun hmem => ⟨hmem.1.2, hmem.2⟩⟩
      rintro rfl
      exact hkey hmem.2.symm
  · show c.used - (c.value e).weight = c.weights (c.order.erase e)
    rw [h.used, weights_erase he]
    omega

theorem weights_update (he : e ∉ elements) :
    (elements.map fun e' => (Function.update c.value e entry e').weight).sum =
      c.weights elements := by
  unfold weights
  congr 1
  refine List.map_congr_left fun e' he' => ?_
  rw [Function.update_of_ne (ne_of_mem_of_not_mem he' he)]

/-- The entry of an insertion is in front. -/
structure Inserted (c c' : ResponseCache) (key : Key) (entry : CacheEntry) : Prop where
  linked : c'.Linked
  limits : c'.limit = c.limit ∧ c'.byteLimit = c.byteLimit ∧ c'.staleTTL = c.staleTTL
  front : ∃ element rest, c'.order = element :: rest ∧ c'.value element = entry

section Insert

theorem overwrite_inserted (h : c.Linked) (he : c.entries key = some e)
    (hkey : entry.key = key) (hfits : 0 ≤ entry.weight ∧ entry.weight ≤ c.byteLimit) :
    Inserted c (c.overwrite e entry) key entry := by
  obtain ⟨hmem, hown⟩ := (h.listed key e).mp he
  have hentry : { entry with key := (c.value e).key } = entry := by
    cases entry
    cases hkey
    rw [hown]
  have hvalue : (c.overwrite e entry).value = Function.update c.value e entry := by
    show Function.update c.value e { entry with key := (c.value e).key } = _
    rw [hentry]
  have hperm : (e :: c.order.erase e).Perm c.order := (List.perm_cons_erase hmem).symm
  have hnotMem : e ∉ c.order.erase e := fun h' => (h.nodup.mem_erase_iff.mp h').1 rfl
  have hkeys : ∀ element, ((c.overwrite e entry).value element).key = (c.value element).key := by
    intro element
    rw [hvalue, Function.update_apply]
    split
    · next heq => rw [heq, hkey, hown]
    · rfl
  refine ⟨⟨hperm.nodup_iff.mpr h.nodup, fun k element => ?_, ?_, fun element hmem' => ?_,
    fun element hmem' => h.old _ (hperm.mem_iff.mp hmem')⟩, ⟨rfl, rfl, rfl⟩, e, _, rfl, ?_⟩
  · rw [hkeys]
    exact (h.listed k element).trans (and_congr_left fun _ => hperm.mem_iff.symm)
  · show c.used - (c.value e).weight + entry.weight = ((e :: c.order.erase e).map _).sum
    rw [List.map_cons, List.sum_cons, hvalue, weights_update hnotMem, Function.update_self, h.used,
      weights_erase hmem]
    omega
  · rw [hvalue, Function.update_apply]
    split
    · exact hfits
    · exact h.fits _ (hperm.mem_iff.mp hmem')
  · rw [hvalue, Function.update_self]

theorem pushFront_inserted (h : c.Linked) (hnone : c.entries key = none) (hkey : entry.key = key)
    (hfits : 0 ≤ entry.weight ∧ entry.weight ≤ c.byteLimit) :
    Inserted c (c.pushFront key entry) key entry := by
  have hfresh : c.fresh ∉ c.order := fun hmem => lt_irrefl _ (h.old _ hmem)
  have hself : (c.pushFront key entry).value c.fresh = entry := Function.update_self ..
  have hother : ∀ element ≠ c.fresh, (c.pushFront key entry).value element = c.value element :=
    fun element hne => Function.update_of_ne hne _ _
  have hne : ∀ element ∈ c.order, (c.value element).key ≠ key := by
    intro element hmem hsame
    have hfound := (h.listed key element).mpr ⟨hmem, hsame⟩
    rw [hnone] at hfound
    cases hfound
  refine ⟨⟨List.nodup_cons.mpr ⟨hfresh, h.nodup⟩, fun k element => ?_, ?_, fun element hmem => ?_,
    fun element hmem => ?_⟩, ⟨rfl, rfl, rfl⟩, c.fresh, c.order, rfl, hself⟩
  · show Function.update c.entries key (some c.fresh) k = _ ↔ element ∈ c.fresh :: c.order ∧ _
    by_cases helement : element = c.fresh
    · subst helement
      rw [hself, hkey]
      by_cases hk : k = key
      · subst hk
        simp
      · rw [Function.update_of_ne hk]
        refine iff_of_false (fun hfound => ?_) fun hand => hk hand.2.symm
        exact hfresh ((h.listed k c.fresh).mp hfound).1
    · rw [hother element helement, List.mem_cons, or_iff_right helement]
      by_cases hk : k = key
      · subst hk
        rw [Function.update_self]
        refine iff_of_false (fun heq => helement (Option.some.inj heq).symm) fun hand => ?_
        exact hne element hand.1 hand.2
      · rw [Function.update_of_ne hk]
        exact h.listed k element
  · show c.used + entry.weight = ((c.fresh :: c.order).map _).sum
    rw [List.map_cons, List.sum_cons]
    show _ = (Function.update c.value c.fresh entry c.fresh).weight +
      (c.order.map fun e => (Function.update c.value c.fresh entry e).weight).sum
    rw [weights_update hfresh, Function.update_self, h.used]
    omega
  · rcases List.mem_cons.mp hmem with rfl | hmem
    · rw [hself]
      exact hfits
    · rw [hother element (ne_of_mem_of_not_mem hmem hfresh)]
      exact h.fits element hmem
  · rcases List.mem_cons.mp hmem with rfl | hmem
    · exact Nat.lt_succ_self _
    · exact Nat.lt_succ_of_lt (h.old element hmem)

theorem insert_inserted (h : c.Linked) (hkey : entry.key = key)
    (hfits : 0 ≤ entry.weight ∧ entry.weight ≤ c.byteLimit) :
    Inserted c (c.insert key entry) key entry := by
  unfold insert
  split
  · next e he => exact overwrite_inserted h he hkey hfits
  · next hnone => exact pushFront_inserted h hnone hkey hfits

end Insert

/-! ### Eviction -/

/-- A single entry is never too much. -/
theorem Linked.not_overfull_singleton (h : c.Linked) (hlimit : 0 < c.limit)
    (horder : c.order = [e]) : ¬ c.Overfull := by
  have hused := h.used
  have hfits := (h.fits e (by simp [horder])).2
  rw [horder] at hused
  simp only [weights, List.map_cons, List.map_nil, List.sum_cons, List.sum_nil, add_zero] at hused
  rintro (hcount | hbytes)
  · rw [horder] at hcount
    simp at hcount
    omega
  · omega

/-- **Eviction.** It stops before the list is empty, and keeps the front of the list. -/
theorem evict_linked (h : c.Linked) (horder : c.order = older.reverse)
    (hlimit : 0 < c.limit) (hnonempty : c.order ≠ []) :
    ∃ c', evict older c = some c' ∧ c'.Linked ∧ ¬ c'.Overfull ∧ c'.order ≠ [] ∧
      c'.order <+: c.order ∧ c'.value = c.value ∧
      (c'.limit = c.limit ∧ c'.byteLimit = c.byteLimit ∧ c'.staleTTL = c.staleTTL) := by
  induction older generalizing c with
  | nil => exact absurd horder hnonempty
  | cons oldest newer ih =>
    rw [evict]
    split
    · next hoverfull =>
      rw [List.reverse_cons] at horder
      have hmem : oldest ∈ c.order := by simp [horder]
      -- the list without its last element
      have herase : c.order.erase oldest = newer.reverse := by
        have hnotMem : oldest ∉ newer.reverse := by
          have hnodup := h.nodup
          rw [horder] at hnodup
          exact fun hmem => (List.disjoint_of_nodup_append hnodup) hmem (by simp)
        rw [horder, List.erase_append_right _ hnotMem]
        simp
      have hnewer : newer.reverse ≠ [] := by
        intro hempty
        rw [hempty, List.nil_append] at horder
        exact h.not_overfull_singleton hlimit horder hoverfull
      obtain ⟨c', hevict, hlinked, hfull, hnot, hpre, hvalue, hlimits⟩ :=
        ih (h.unlink hmem) herase hlimit (fun hempty => hnewer (herase.symm.trans hempty))
      refine ⟨c', hevict, hlinked, hfull, hnot, ?_, hvalue, hlimits⟩
      have hpre' : c'.order <+: newer.reverse := herase ▸ hpre
      exact hpre'.trans ⟨[oldest], horder.symm⟩
    · next hfull =>
      exact ⟨c, rfl, h, hfull, hnonempty, List.prefix_refl _, rfl, rfl, rfl, rfl⟩

/-! ### Operations -/

/-- An entry that is accepted is in front of the list that is left. -/
theorem putOwned_present (h : c.Linked) (haccepts : c.Accepts key response ttl) (now : Time) :
    ∃ c' element, c.putOwned key response ttl now = some c' ∧ c'.Consistent ∧
      c'.limit = c.limit ∧ c'.byteLimit = c.byteLimit ∧ element ∈ c'.order ∧
      c'.entries key = some element ∧ c'.value element = c.newEntry key response ttl now := by
  have haccepted := haccepts
  obtain ⟨hlimit, hbytes, hweight, -, -⟩ := haccepted
  have hinserted : Inserted c (c.insert key (c.newEntry key response ttl now)) key
      (c.newEntry key response ttl now) := by
    refine insert_inserted h rfl ⟨?_, hweight⟩
    show (0 : ℤ) ≤ 128 + key.length + response.length
    omega
  obtain ⟨element, rest, horder, hvalue⟩ := hinserted.front
  obtain ⟨c', hevict, hlinked, hfull, hnot, hpre, hsame, hlimits⟩ := evict_linked hinserted.linked
    (List.reverse_reverse _).symm (hinserted.limits.1.symm ▸ hlimit) (by simp [horder])
  have hmem : element ∈ c'.order := by
    obtain ⟨suffix, hsuffix⟩ := hpre
    rw [horder] at hsuffix
    cases hleft : c'.order with
    | nil => exact absurd hleft hnot
    | cons first others =>
      rw [hleft, List.cons_append] at hsuffix
      simp [(List.cons.inj hsuffix).1]
  have hentry : c'.value element = c.newEntry key response ttl now := by rw [hsame, hvalue]
  obtain ⟨hsameLimit, hsameBytes, -⟩ := hlimits
  obtain ⟨hsameLimit', hsameBytes', -⟩ := hinserted.limits
  unfold Overfull at hfull
  refine ⟨c', element, ?_, ⟨hlinked, by omega, by omega⟩, by omega, by omega, hmem, ?_, hentry⟩
  · unfold putOwned
    rw [if_pos haccepts]
    exact hevict
  · exact (hlinked.listed key element).mpr ⟨hmem, by rw [hentry]; rfl⟩

/-- The operations of the cache. -/
inductive Op where
  | putOwned (key : Key) (response : Message) (ttl now : Time)
  | get (key : Key) (queryID : Message) (now : Time)
  | getStale (key : Key) (queryID : Message) (now : Time)

/-- The cache after an operation; nothing, if it goes past the end of the list. -/
def apply (c : ResponseCache) : Op → Option ResponseCache
  | .putOwned key response ttl now => c.putOwned key response ttl now
  | .get key queryID now => some (c.get key queryID now).2
  | .getStale key queryID now => some (c.getStale key queryID now).2

/-- The cache after some operations. -/
def run (c : ResponseCache) (ops : List Op) : Option ResponseCache := ops.foldlM apply c

theorem Consistent.moveToFront (h : c.Consistent) (he : e ∈ c.order) :
    (c.moveToFront e).Consistent := by
  refine ⟨h.toLinked.moveToFront he, ?_, h.bytes⟩
  have hlength := (List.perm_cons_erase he).length_eq
  have hcount := h.count
  rw [hlength] at hcount
  exact hcount

theorem Consistent.unlink (h : c.Consistent) (he : e ∈ c.order) :
    (c.unlink e (c.value e).key).Consistent := by
  have hlength : (c.order.erase e).length ≤ c.order.length := List.length_erase_le
  have hcount := h.count
  have hbytes := h.bytes
  have hweight := (h.fits e he).1
  refine ⟨h.toLinked.unlink he, ?_, ?_⟩
  · show ((c.order.erase e).length : ℤ) ≤ max c.limit 0
    omega
  · show c.used - (c.value e).weight ≤ max c.byteLimit 0
    omega

/-- What a read can do: find nothing, drop an entry, or serve one and move it to the front. -/
inductive Reads (c : ResponseCache) (key : Key) (queryID : Message) :
    Option Message × ResponseCache → Prop
  | miss : Reads c key queryID (none, c)
  | drop {element : Element} (hmem : element ∈ c.order) :
      Reads c key queryID (none, c.unlink element (c.value element).key)
  | serve {element : Element} (age : Time) (override : ℕ) (hmem : element ∈ c.order)
      (hkey : (c.value element).key = key) : Reads c key queryID
        (some (cachedResponse (c.value element).response queryID age override),
          c.moveToFront element)

section Reads

variable (key : Key) (queryID : Message) (now : Time)

theorem get_reads (h : c.Linked) : Reads c key queryID (c.get key queryID now) := by
  unfold get
  split
  · exact .miss
  · next element hfound =>
    obtain ⟨hmem, rfl⟩ := (h.listed key element).mp hfound
    dsimp only
    split
    · split
      · exact .drop hmem
      · exact .miss
    · exact .serve _ _ hmem rfl

theorem getStale_reads (h : c.Linked) : Reads c key queryID (c.getStale key queryID now) := by
  unfold getStale
  split
  · exact .miss
  · split
    · exact .miss
    · next element hfound =>
      obtain ⟨hmem, hkey⟩ := (h.listed key element).mp hfound
      dsimp only
      split
      · exact .miss
      · exact .serve _ _ hmem hkey

variable {key queryID}

theorem Reads.consistent (hreads : Reads c key queryID r) (h : c.Consistent) :
    r.2.Consistent ∧ r.2.limit = c.limit ∧ r.2.byteLimit = c.byteLimit := by
  cases hreads with
  | miss => exact ⟨h, rfl, rfl⟩
  | drop hmem => exact ⟨h.unlink hmem, rfl, rfl⟩
  | serve _ _ hmem _ => exact ⟨h.moveToFront hmem, rfl, rfl⟩

end Reads

/-- One operation. -/
theorem apply_consistent (h : c.Consistent) (op : Op) :
    ∃ c', c.apply op = some c' ∧ c'.Consistent ∧ c'.limit = c.limit ∧
      c'.byteLimit = c.byteLimit := by
  cases op with
  | putOwned key response ttl now =>
    by_cases haccepts : c.Accepts key response ttl
    · obtain ⟨c', -, hput, hconsistent, hlimit, hbytes, -⟩ :=
        putOwned_present h.toLinked haccepts now
      exact ⟨c', hput, hconsistent, hlimit, hbytes⟩
    · refine ⟨c, ?_, h, rfl, rfl⟩
      show c.putOwned key response ttl now = some c
      rw [putOwned, if_neg haccepts]
  | get key queryID now => exact ⟨_, rfl, (get_reads key queryID now h.toLinked).consistent h⟩
  | getStale key queryID now =>
    exact ⟨_, rfl, (getStale_reads key queryID now h.toLinked).consistent h⟩

theorem run_consistent (h : c.Consistent) (ops : List Op) :
    ∃ c', c.run ops = some c' ∧ c'.Consistent ∧ c'.limit = c.limit ∧
      c'.byteLimit = c.byteLimit := by
  induction ops generalizing c with
  | nil => exact ⟨c, rfl, h, rfl, rfl⟩
  | cons op ops ih =>
    obtain ⟨c₁, happly, hconsistent, hlimit, hbytes⟩ := apply_consistent h op
    obtain ⟨c₂, hrun, hconsistent₂, hlimit₂, hbytes₂⟩ := ih hconsistent
    refine ⟨c₂, ?_, hconsistent₂, hlimit₂.trans hlimit, hbytes₂.trans hbytes⟩
    show (c.apply op >>= fun c' => List.foldlM apply c' ops) = some c₂
    rw [happly]
    exact hrun

/-- **The response cache.** After any operations the map and the list have the same entries under
    different keys, the byte count is the sum of their weights, and both limits hold.  No eviction
    goes past the end of the list, and what is accepted next will be there. -/
theorem responseCache_consistent (limit byteLimit : ℤ) (staleTTL : Time) (ops : List Op) :
    ∃ c, (newResponseCache limit byteLimit staleTTL).run ops = some c ∧
      c.order.Nodup ∧
      (∀ key element, c.entries key = some element ↔
        element ∈ c.order ∧ (c.value element).key = key) ∧
      (∀ e ∈ c.order, ∀ e' ∈ c.order, (c.value e).key = (c.value e').key → e = e') ∧
      c.used = (c.order.map fun e => (c.value e).weight).sum ∧
      (c.order.length : ℤ) ≤ max limit 0 ∧ c.used ≤ max byteLimit 0 ∧
      ∀ key response ttl now, c.Accepts key response ttl →
        ∃ c' element, c.putOwned key response ttl now = some c' ∧ element ∈ c'.order ∧
          c'.entries key = some element ∧
          c'.value element = c.newEntry key response ttl now := by
  obtain ⟨c, hrun, h, hlimit, hbytes⟩ :=
    run_consistent (linked_new limit byteLimit staleTTL) ops
  refine ⟨c, hrun, h.nodup, h.listed, fun e he e' he' => h.key_inj he he', h.used, ?_, ?_, ?_⟩
  · have hcount := h.count
    rw [hlimit] at hcount
    exact hcount
  · have hused := h.bytes
    rw [hbytes] at hused
    exact hused
  · intro key response ttl now haccepts
    obtain ⟨c', element, hput, -, -, -, hmem, hfound, hvalue⟩ :=
      putOwned_present h.toLinked haccepts now
    exact ⟨c', element, hput, hmem, hfound, hvalue⟩

end ResponseCache

end SbGateway.PolicyDns
