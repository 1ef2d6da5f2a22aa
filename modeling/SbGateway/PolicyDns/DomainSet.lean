import Mathlib
import SbGateway.Lib.FirstMatch
import SbGateway.Lib.Labels

namespace SbGateway.PolicyDns

open Lib

/-!
# Shared domain sets (`internal/domainset`)

Large membership lists are kept once and referenced by an id, the hash of their JSON text.
`compile` checks every set against its id, numbers the sets in sorted order and builds the
standalone map matcher; `Index.match` returns the numbers the matcher's callback is called
with for a name, in order.

Names are Go strings: the query name comes from the wire, so it is an arbitrary byte
sequence and not necessarily valid UTF-8.  `strings.ToLower` and `Set.ID` (SHA-256 over the
JSON text) are parameters of the model.
-/

/-- A Go string used as a domain name. -/
abbrev Name := List UInt8

/-- The byte `.`. -/
def dot : UInt8 := 46

/-- A decoded JSON string array; `none` is the nil slice (`null` or a missing key). -/
abbrev Slice := Option (List Name)

/-- The elements `range` visits. -/
def Slice.entries (s : Slice) : List Name := s.getD []

/-- `domainset.Set`.  The id of a set distinguishes a nil slice from an empty one. -/
structure DomainSet where
  domain : Slice
  domainSuffix : Slice
  deriving DecidableEq

/-- `ShareThreshold`. -/
def shareThreshold : ℕ := 64

/-- `strings.Trim(value, ".")`. -/
def trimDots (value : Name) : Name := (value.dropWhile (· == dot)).rdropWhile (· == dot)

/-- One entry of the flattened exact and suffix lists (`membership`). -/
abbrev Membership := Name × UInt32

/-- `mapMembership`: per key, the numbers of the sets that contain it. -/
structure MapMembership where
  exact : AList (fun _ : Name => List UInt32)
  suffix : AList (fun _ : Name => List UInt32)

/-- The members by name. -/
def compileMapMembership (exact suffix : List Membership) : MapMembership where
  exact := groupOf exact
  suffix := groupOf suffix

/-- `mapMembership.Match`: the set numbers handed to the callback, in call order. -/
def MapMembership.match (i : MapMembership) (name : Name) : List UInt32 :=
  (i.exact.lookup name).getD []
    ++ (labelWalk dot name).flatMap (fun suffix => (i.suffix.lookup suffix).getD [])

/-- `domainset.Index`. -/
structure Index where
  matcher : MapMembership

/-- `Index.Match`; a nil index calls nothing. -/
def Index.match (i : Option Index) (name : Name) : List UInt32 :=
  match i with
  | none => []
  | some index => index.matcher.match name

/-- `map[string]domainset.Set`. -/
abbrev SetMap := AList (fun _ : String => DomainSet)

/-- `map[string]uint32`: the number of each set. -/
abbrev IdMap := AList (fun _ : String => UInt32)

section Compile

variable (toLower : Name → Name) (setID : DomainSet → String)

/-- The exact keys of a shared set. -/
def DomainSet.exactKeys (set : DomainSet) : List Name :=
  (set.domain.entries.filter (· ≠ [])).map toLower

/-- The suffix keys of a shared set. -/
def DomainSet.suffixKeys (set : DomainSet) : List Name :=
  (set.domainSuffix.entries.map (fun value => toLower (trimDots value))).filter (· ≠ [])

/-- The check of the first loop of `compileWith`. -/
def DomainSet.valid (name : String) (set : DomainSet) : Bool :=
  setID set == name && set.domain.entries.length + set.domainSuffix.entries.length != 0

/-- Sets in the order of their sorted names, each with its name. -/
def sortedSets (sets : SetMap) : List (String × DomainSet) :=
  (sets.keys.insertionSort (· ≤ ·)).filterMap (fun name => (sets.lookup name).map (name, ·))

/-- `ids[name] = uint32(n + 1)` over the sorted names. -/
def numberSets (names : List String) : IdMap :=
  names.zipIdx.foldl (fun ids entry => ids.insert entry.1 (UInt32.ofNat (entry.2 + 1))) ∅

/-- The flattened membership list of one kind of key. -/
def flatten (keys : DomainSet → List Name) (ids : IdMap) (sets : List (String × DomainSet)) :
    List Membership :=
  sets.flatMap (fun entry =>
    (keys entry.2).map (fun key => (key, (ids.lookup entry.1).getD 0)))

/-- `Compile` with the standalone matcher. -/
def compile (sets : SetMap) : Except String (Option Index × IdMap) :=
  if sets.keys.length = 0 then .ok (none, ∅)
  else
    let ordered := sortedSets sets
    if ordered.all (fun entry => entry.2.valid setID entry.1) then
      let ids := numberSets (ordered.map Prod.fst)
      let exact := flatten (DomainSet.exactKeys toLower) ids ordered
      let suffix := flatten (DomainSet.suffixKeys toLower) ids ordered
      .ok (some ⟨compileMapMembership exact suffix⟩, ids)
    else .error "invalid shared DNS domain set"

end Compile

/-! ### The sorted sets and their numbers -/

theorem mem_sortedSets (sets : SetMap) (name : String) (set : DomainSet) :
    (name, set) ∈ sortedSets sets ↔ sets.lookup name = some set := by
  simp only [sortedSets, List.mem_filterMap, Option.map_eq_some_iff, List.mem_insertionSort,
    Prod.mk.injEq]
  constructor
  · rintro ⟨_, _, _, hset, rfl, rfl⟩
    exact hset
  · intro hset
    refine ⟨name, ?_, set, hset, rfl, rfl⟩
    exact AList.mem_keys.mp (AList.lookup_isSome.mp (by rw [hset]; rfl))

theorem map_fst_sortedSets (sets : SetMap) :
    (sortedSets sets).map Prod.fst = sets.keys.insertionSort (· ≤ ·) := by
  rw [sortedSets, List.map_filterMap]
  have hsome : ∀ name ∈ sets.keys.insertionSort (· ≤ ·),
      ((sets.lookup name).map (name, ·)).map Prod.fst = some name := by
    intro name hname
    have hmem : name ∈ sets := AList.mem_keys.mpr ((List.mem_insertionSort _).mp hname)
    obtain ⟨set, hset⟩ := Option.isSome_iff_exists.mp (AList.lookup_isSome.mpr hmem)
    rw [hset]
    rfl
  rw [List.filterMap_congr hsome, List.filterMap_some]

theorem nodup_sortedNames (sets : SetMap) : ((sortedSets sets).map Prod.fst).Nodup := by
  rw [map_fst_sortedSets]
  exact (List.perm_insertionSort _ _).nodup_iff.mpr sets.nodupKeys

/-- The number of a name is one more than its position. -/
theorem lookup_numberSets (hnodup : names.Nodup) {id : UInt32} :
    (numberSets names).lookup name = some id
      ↔ ∃ n, names[n]? = some name ∧ id = UInt32.ofNat (n + 1) := by
  -- the fold is generalised over its start index and its start map
  have key : ∀ (names : List String) (k : ℕ) (ids : IdMap), names.Nodup →
      (((names.zipIdx k).foldl
          (fun ids entry => ids.insert entry.1 (UInt32.ofNat (entry.2 + 1))) ids).lookup name
            = some id
        ↔ (∃ n, names[n]? = some name ∧ id = UInt32.ofNat (n + k + 1))
          ∨ (name ∉ names ∧ ids.lookup name = some id)) := by
    intro names
    induction names with
    | nil => intro k ids _; simp
    | cons x xs ih =>
      intro k ids hnd
      obtain ⟨hx, hxs⟩ := List.nodup_cons.mp hnd
      rw [List.zipIdx_cons, List.foldl_cons, ih (k + 1) _ hxs]
      constructor
      · rintro (⟨n, hn, rfl⟩ | ⟨hmem, hlook⟩)
        · exact .inl ⟨n + 1, by simpa using hn, by congr 1; omega⟩
        · by_cases hname : name = x
          · subst hname
            rw [AList.lookup_insert, Option.some.injEq] at hlook
            exact .inl ⟨0, by simp, by rw [← hlook]; congr 1; omega⟩
          · rw [AList.lookup_insert_ne hname] at hlook
            exact .inr ⟨by simp [hname, hmem], hlook⟩
      · rintro (⟨n, hn, rfl⟩ | ⟨hmem, hlook⟩)
        · cases n with
          | zero =>
            obtain rfl : x = name := by simpa using hn
            exact .inr ⟨hx, by rw [AList.lookup_insert]; congr 2; omega⟩
          | succ n => exact .inl ⟨n, by simpa using hn, by congr 1; omega⟩
        · simp only [List.mem_cons, not_or] at hmem
          exact .inr ⟨hmem.2, by rw [AList.lookup_insert_ne hmem.1]; exact hlook⟩
  rw [numberSets, key names 0 ∅ hnodup, AList.lookup_empty]
  simp

/-- Distinct sets have distinct numbers as long as the numbers do not wrap around. -/
theorem numberSets_injective (hnodup : names.Nodup) (hlen : names.length < 2 ^ 32) {id : UInt32}
    (ha : (numberSets names).lookup a = some id) (hb : (numberSets names).lookup b = some id) :
    a = b := by
  obtain ⟨n, hn, hid⟩ := (lookup_numberSets hnodup).mp ha
  obtain ⟨m, hm, hid'⟩ := (lookup_numberSets hnodup).mp hb
  have hnlt : n < names.length := (List.getElem?_eq_some_iff.mp hn).1
  have hmlt : m < names.length := (List.getElem?_eq_some_iff.mp hm).1
  have hnat := congrArg UInt32.toNat (hid.symm.trans hid')
  rw [UInt32.toNat_ofNat', UInt32.toNat_ofNat', Nat.mod_eq_of_lt (by omega),
    Nat.mod_eq_of_lt (by omega)] at hnat
  obtain rfl : n = m := by omega
  exact Option.some.inj (hn.symm.trans hm)

/-! ### What a compiled index answers -/

/-- The flat membership list holds each key of each set under that set's number. -/
theorem mem_flatten {id : UInt32} : (key, id) ∈ flatten keys ids sets
      ↔ ∃ entry ∈ sets, key ∈ keys entry.2 ∧ (ids.lookup entry.1).getD 0 = id := by
  simp only [flatten, List.mem_flatMap, List.mem_map, Prod.mk.injEq]
  constructor
  · rintro ⟨entry, hentry, _, hkey, rfl, hid⟩
    exact ⟨entry, hentry, hkey, hid⟩
  · rintro ⟨entry, hentry, hkey, hid⟩
    exact ⟨entry, hentry, key, hkey, rfl, hid⟩

/-- A set contains a name exactly, or contains one of the suffixes the walk meets. -/
def DomainSet.hits (toLower : Name → Name) (set : DomainSet) (name : Name) : Bool :=
  hasKey name (set.exactKeys toLower)
    || (labelWalk dot name).any (fun suffix => hasKey suffix (set.suffixKeys toLower))

/-- Everything a successful compilation of at least one set establishes. -/
theorem compile_eq_ok (h : compile toLower setID sets = .ok (shared, ids)) :
    (sets.keys = [] ∧ shared = none ∧ ids = ∅) ∨
      ((∀ name set, sets.lookup name = some set → setID set = name)
        ∧ ids = numberSets ((sortedSets sets).map Prod.fst)
        ∧ shared = some ⟨compileMapMembership
            (flatten (DomainSet.exactKeys toLower) ids (sortedSets sets))
            (flatten (DomainSet.suffixKeys toLower) ids (sortedSets sets))⟩) := by
  simp only [compile] at h
  split at h
  · rename_i hlen
    simp only [Except.ok.injEq, Prod.mk.injEq] at h
    exact .inl ⟨List.length_eq_zero_iff.mp hlen, h.1.symm, h.2.symm⟩
  · split at h
    · rename_i hvalid
      simp only [Except.ok.injEq, Prod.mk.injEq] at h
      obtain ⟨hshared, hids⟩ := h
      refine .inr ⟨fun name set hset => ?_, hids.symm, by rw [← hshared, ← hids]⟩
      have hcheck := List.all_eq_true.mp hvalid (name, set) ((mem_sortedSets ..).mpr hset)
      simp only [DomainSet.valid, Bool.and_eq_true, beq_iff_eq] at hcheck
      exact hcheck.1
    · exact absurd h (by simp)

/-- Every key of a compiled map is the id of its set. -/
theorem setID_of_compile (h : compile toLower setID sets = .ok (shared, ids)) {set : DomainSet}
    (hset : sets.lookup name = some set) : setID set = name := by
  rcases compile_eq_ok h with ⟨hkeys, _⟩ | ⟨hvalid, _⟩
  · have hmem : name ∈ sets.keys :=
      AList.mem_keys.mp (AList.lookup_isSome.mp (by rw [hset]; rfl))
    simp [hkeys] at hmem
  · exact hvalid name set hset

/-- Exactly the sets of the map are numbered. -/
theorem ids_isSome_of_compile {shared : Option Index}
    (h : compile toLower setID sets = .ok (shared, ids)) (name : String) :
    (ids.lookup name).isSome ↔ (sets.lookup name).isSome := by
  rcases compile_eq_ok h with ⟨hkeys, _, rfl⟩ | ⟨_, rfl, _⟩
  · rw [AList.lookup_empty, AList.lookup_isSome, AList.mem_keys, hkeys]
    simp
  · rw [Option.isSome_iff_exists]
    simp only [lookup_numberSets (nodup_sortedNames sets)]
    rw [AList.lookup_isSome, AList.mem_keys]
    have hkeys : name ∈ sets.keys ↔ name ∈ (sortedSets sets).map Prod.fst := by
      rw [map_fst_sortedSets, List.mem_insertionSort]
    rw [hkeys, List.mem_iff_getElem?]
    constructor
    · rintro ⟨_, n, hn, _⟩
      exact ⟨n, hn⟩
    · rintro ⟨n, hn⟩
      exact ⟨_, n, hn, rfl⟩

/-- Distinct sets of a compiled map have distinct numbers. -/
theorem ids_injective_of_compile
    (h : compile toLower setID sets = .ok (shared, ids)) (hlen : sets.keys.length < 2 ^ 32)
    {id : UInt32} (ha : ids.lookup a = some id) (hb : ids.lookup b = some id) :
    a = b := by
  rcases compile_eq_ok h with ⟨_, _, rfl⟩ | ⟨_, rfl, _⟩
  · simp at ha
  · refine numberSets_injective (nodup_sortedNames sets) ?_ ha hb
    rw [map_fst_sortedSets, List.length_insertionSort]
    exact hlen

/-- **The matcher reports exactly the sets that hit the name.** -/
theorem mem_match_of_compile {shared : Option Index}
    (h : compile toLower setID sets = .ok (shared, ids)) (name : Name) (id : UInt32) :
    id ∈ Index.match shared name
      ↔ ∃ key set, sets.lookup key = some set ∧ ids.lookup key = some id
          ∧ set.hits toLower name = true := by
  have hids := ids_isSome_of_compile h
  -- a set of the map has a number, so the default of the lookup is never used
  have hget : ∀ {key : String} {set : DomainSet}, sets.lookup key = some set →
      ((ids.lookup key).getD 0 = id ↔ ids.lookup key = some id) := by
    intro key set hset
    obtain ⟨i, hi⟩ := Option.isSome_iff_exists.mp ((hids key).mpr (by rw [hset]; rfl))
    simp [hi]
  rcases compile_eq_ok h with ⟨hkeys, rfl, rfl⟩ | ⟨_, _, hshared⟩
  · simp [Index.match]
  · rw [hshared]
    simp only [Index.match, MapMembership.match, compileMapMembership, lookup_groupOf,
      List.mem_append, List.mem_flatMap, List.mem_map, List.mem_filter, decide_eq_true_eq,
        hasKey_iff,
      Prod.exists, exists_eq_right, DomainSet.hits, Bool.or_eq_true, List.any_eq_true]
    constructor
    · rintro (hmem | ⟨suffix, hwalk, hmem⟩)
      · obtain ⟨⟨key, set⟩, hentry, hkey, hid⟩ := mem_flatten.mp hmem
        have hset := (mem_sortedSets ..).mp hentry
        exact ⟨key, set, hset, (hget hset).mp hid, .inl hkey⟩
      · obtain ⟨⟨key, set⟩, hentry, hkey, hid⟩ := mem_flatten.mp hmem
        have hset := (mem_sortedSets ..).mp hentry
        exact ⟨key, set, hset, (hget hset).mp hid, .inr ⟨_, hwalk, hkey⟩⟩
    · rintro ⟨key, set, hset, hid, hhit⟩
      have hentry := (mem_sortedSets ..).mpr hset
      rcases hhit with hkey | ⟨suffix, hwalk, hkey⟩
      · exact .inl (mem_flatten.mpr ⟨_, hentry, hkey, (hget hset).mpr hid⟩)
      · exact .inr ⟨suffix, hwalk, mem_flatten.mpr ⟨_, hentry, hkey, (hget hset).mpr hid⟩⟩

end SbGateway.PolicyDns
