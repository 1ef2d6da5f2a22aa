import SbGateway.ClientProfile.Ranges
import SbGateway.Lib.NetText

namespace SbGateway.ClientProfile

open Lib

/-!
# Lists of networks

A plan has its networks in one form: masked, each once, none inside of another, as sorted texts.

* `sortedClientCIDRs` — that form of a list of texts;
* `compact_spec`, `mem_compact` — the networks that are kept are the largest ones;
* `sortedClientCIDRs_canonical` — the form is canonical.
-/

/-! ### Reading and writing -/

/-- `unicode.IsSpace` -/
def isSpace (c : Char) : Bool :=
  (9 ≤ c.toNat && c.toNat ≤ 13) || (0x2000 ≤ c.toNat && c.toNat ≤ 0x200a) ||
    [0x20, 0x85, 0xa0, 0x1680, 0x2028, 0x2029, 0x202f, 0x205f, 0x3000].contains c.toNat

/-- `strings.TrimSpace` -/
def trimSpace (value : Text) : Text := (value.dropWhile isSpace).rdropWhile isSpace

/-- A network, or the one of a single address, whose zone is dropped. -/
def clientCIDR (value : Text) : Option Prefix :=
  parsePrefix (String.ofList (trimSpace value)) <|>
    (parseAddr (String.ofList (trimSpace value))).map .single

/-- The networks of a list that are accepted. -/
def networks (values : List Text) : List Prefix := (values.filterMap clientCIDR).map Prefix.masked

/-- The order of the elimination: the larger networks of a family first. -/
def cidrOrder (p : Prefix) : ℕ ×ₗ ℕ ×ₗ ℕ := toLex (p.addr.bitLen, toLex (p.bits, p.addr.toNat))

/-- A network that is in an earlier one is left out. -/
def compactClientCIDRs (prefixes : List Prefix) : List Prefix :=
  prefixes.foldl (fun compact p =>
    if compact.any fun parent => parent.addr.bitLen = p.addr.bitLen && parent.contains p.addr then
      compact
    else compact ++ [p]) []

/-- The networks of a list, each once, in this order. -/
def sortedNetworks (values : List Text) : List Prefix :=
  (networks values).dedup.mergeSort fun p q => decide (cidrOrder p ≤ cidrOrder q)

/-- The fewest networks that cover the values, sorted. -/
def sortedClientCIDRs (values : List Text) : List Text :=
  sortedClientStrings ((compactClientCIDRs (sortedNetworks values)).map fun p => p.text.toList)

/-! ### Networks inside of others -/

variable {p q : Prefix}

/-- Every address of the one is in the other. -/
def Within (p q : Prefix) : Prop := ∀ a, p.contains a = true → q.contains a = true

theorem contains_self (p : Prefix) : p.contains p.addr = true :=
  contains_iff_agree.mpr ⟨rfl, rfl⟩

theorem within_iff : Within p q ↔ q.bits ≤ p.bits ∧ q.contains p.addr = true := by
  constructor
  · intro h
    have hq := h _ (contains_self p)
    refine ⟨le_of_not_gt fun hlt => ?_, hq⟩
    -- both halves of `p` would be in one half of it
    have hfamily := Addr.bitLen_eq_of_is4 (contains_iff_agree.mp hq).1
    have hbits : p.bits < p.addr.bitLen := hfamily ▸ hlt.trans_le q.bits_le
    have hhalf := split_contains hbits
    have hleft := h _ ((hhalf _).1.mpr (.inl (contains_self _)))
    have hright := h _ ((hhalf _).1.mpr (.inr (contains_self _)))
    refine (hhalf _).2 ⟨contains_iff_agree.mpr (Addr.Agree.mono ?_ hlt), contains_self _⟩
    exact (contains_iff_agree.mp hleft).symm.trans (contains_iff_agree.mp hright)
  · rintro ⟨hbits, hq⟩ a ha
    exact contains_iff_agree.mpr
      ((contains_iff_agree.mp hq).trans ((contains_iff_agree.mp ha).mono hbits))

theorem mask_eq_of_agree (h : Addr.Agree n a b) : a.mask n = b.mask n := by
  have hnat : (a.mask n).toNat = (b.mask n).toNat := by
    rw [Addr.toNat_mask, Addr.toNat_mask, h.2, Addr.bitLen_eq_of_is4 h.1]
  cases a <;> cases b <;> first
    | exact congrArg _ (BitVec.eq_of_toNat_eq hnat)
    | cases h.1

theorem eq_of_within (hp : p.masked = p) (hq : q.masked = q) (h : Within p q)
    (hbits : p.bits ≤ q.bits) : p = q := by
  obtain ⟨hle, hagree⟩ := within_iff.mp h
  have hsame := le_antisymm hbits hle
  have haddr := mask_eq_of_agree (contains_iff_agree.mp hagree)
  rw [← hp, ← hq]
  simp only [Prefix.masked, Prefix.mk.injEq]
  exact ⟨by rw [hsame, haddr], hsame⟩

/-! ### Elimination -/

/-- Masked networks, each once, as they are sorted. -/
structure Ordered (prefixes : List Prefix) : Prop where
  masked : ∀ p ∈ prefixes, p.masked = p
  sorted : prefixes.Pairwise fun p q => cidrOrder p ≤ cidrOrder q ∧ p ≠ q

theorem bits_le_of_order (h : cidrOrder p ≤ cidrOrder q) (hlen : p.addr.bitLen = q.addr.bitLen) :
    p.bits ≤ q.bits := by
  simp only [cidrOrder, Prod.Lex.toLex_le_toLex, hlen, lt_irrefl, true_and, false_or] at h
  omega

theorem bitLen_of_contains (h : p.contains q.addr = true) : p.addr.bitLen = q.addr.bitLen :=
  Addr.bitLen_eq_of_is4 (contains_iff_agree.mp h).1

theorem compact_concat (prefixes : List Prefix) (p : Prefix) :
    compactClientCIDRs (prefixes ++ [p]) =
      if (compactClientCIDRs prefixes).any fun parent =>
          parent.addr.bitLen = p.addr.bitLen && parent.contains p.addr then
        compactClientCIDRs prefixes
      else compactClientCIDRs prefixes ++ [p] := by
  rw [compactClientCIDRs, List.foldl_append]
  rfl

/-- What is left covers everything, and no network of it is inside of another. -/
theorem compact_spec (h : Ordered prefixes) : compactClientCIDRs prefixes ⊆ prefixes ∧
    (∀ p ∈ prefixes, ∃ q ∈ compactClientCIDRs prefixes, Within p q) ∧
    ∀ p ∈ compactClientCIDRs prefixes, ∀ q ∈ compactClientCIDRs prefixes, Within p q → q = p := by
  induction prefixes using List.reverseRecOn with
  | nil => simp [compactClientCIDRs]
  | append_singleton prefixes last ih =>
    obtain ⟨hsorted, -, hlast⟩ := List.pairwise_append.mp h.sorted
    obtain ⟨hsub, hcovered, hapart⟩ := ih ⟨fun p hp => h.masked p (by simp [hp]), hsorted⟩
    have hmem {xs : List Prefix} {p : Prefix} : p ∈ xs ++ [last] ↔ p ∈ xs ∨ p = last := by simp
    rw [compact_concat]
    split
    · next hany =>
      obtain ⟨parent, hparent, htest⟩ := List.any_eq_true.mp hany
      simp only [Bool.and_eq_true, decide_eq_true_eq] at htest
      have hbits := bits_le_of_order (hlast _ (hsub hparent) last (by simp)).1 htest.1
      refine ⟨fun p hp => List.mem_append_left _ (hsub hp), fun p hp => ?_, hapart⟩
      rcases hmem.mp hp with hp | rfl
      · exact hcovered p hp
      · exact ⟨parent, hparent, within_iff.mpr ⟨hbits, htest.2⟩⟩
    · next hnone =>
      refine ⟨fun p hp => hmem.mpr (((hmem.mp hp).imp_left (hsub ·))), fun p hp => ?_,
        fun p hp q hq hwithin => ?_⟩
      · rcases hmem.mp hp with hp | rfl
        · obtain ⟨q, hq, hwithin⟩ := hcovered p hp
          exact ⟨q, List.mem_append_left _ hq, hwithin⟩
        · exact ⟨p, by simp, fun _ ha => ha⟩
      · rcases hmem.mp hp with hp' | rfl <;> rcases hmem.mp hq with hq' | rfl
        · exact hapart p hp' q hq' hwithin
        · -- the last network is not larger than an earlier one
          obtain ⟨hle, hne⟩ := hlast p (hsub hp') q (by simp)
          have hbits := bits_le_of_order hle (bitLen_of_contains (within_iff.mp hwithin).2).symm
          exact (hne (eq_of_within (h.masked p (hmem.mpr (.inl (hsub hp')))) (h.masked q (by simp))
            hwithin hbits)).elim
        · have hcontains := (within_iff.mp hwithin).2
          refine (hnone (List.any_eq_true.mpr ⟨q, hq', ?_⟩)).elim
          simp [bitLen_of_contains hcontains, hcontains]
        · rfl

/-- The network is in no other one. -/
def Largest (prefixes : List Prefix) (p : Prefix) : Prop :=
  p ∈ prefixes ∧ ∀ q ∈ prefixes, Within p q → q = p

theorem mem_compact (h : Ordered prefixes) :
    p ∈ compactClientCIDRs prefixes ↔ Largest prefixes p := by
  obtain ⟨hsub, hcovered, hapart⟩ := compact_spec h
  constructor
  · refine fun hp => ⟨hsub hp, fun q hq hwithin => ?_⟩
    obtain ⟨r, hr, hqr⟩ := hcovered q hq
    obtain rfl := hapart p hp r hr fun a ha => hqr a (hwithin a ha)
    exact eq_of_within (h.masked q hq) (h.masked r (hsub hr)) hqr (within_iff.mp hwithin).1
  · rintro ⟨hp, hlargest⟩
    obtain ⟨r, hr, hwithin⟩ := hcovered p hp
    rwa [← hlargest r (hsub hr) hwithin]

/-! ### The canonical form -/

theorem isSpace_of_digit (h : (digitValue c).isSome) : isSpace c = false := by
  have hrange : 48 ≤ c.toNat ∧ c.toNat ≤ 57 ∨ 97 ≤ c.toNat ∧ c.toNat ≤ 102 ∨
      65 ≤ c.toNat ∧ c.toNat ≤ 70 := by
    unfold digitValue at h
    split_ifs at h with h₁ h₂ h₃
    · exact .inl h₁
    · exact .inr (.inl h₂)
    · exact .inr (.inr h₃)
    · cases h
  simp [isSpace]
  omega

theorem clientCIDR_text (p : Prefix) : clientCIDR p.text.toList = some p := by
  have hchars : ∀ c ∈ p.text.toList, isSpace c = false := by
    intro c hc
    simp only [Prefix.text, String.toList_append, List.mem_append, toList_toString] at hc
    rcases hc with (hc | hc) | hc
    · rcases Addr.mem_text hc with rfl | rfl | hdigit
      · rfl
      · rfl
      · exact isSpace_of_digit hdigit
    · obtain rfl : c = '/' := by simpa using hc
      rfl
    · exact isSpace_of_digit (digitValue_isSome_of_mem (by omega) (by omega) hc)
  have htrim : trimSpace p.text.toList = p.text.toList := by
    rw [trimSpace, List.dropWhile_eq_self_iff.mpr, List.rdropWhile_eq_self_iff.mpr]
    · exact fun hne => by simp [hchars _ (List.getLast_mem hne)]
    · exact fun hne => by simp [hchars _ (List.getElem_mem hne)]
  rw [clientCIDR, htrim, String.ofList_toList, parsePrefix_text]
  rfl

/-- A sorted list of texts is its set. -/
theorem sortedClientStrings_congr (h : ∀ value, value ∈ values ↔ value ∈ values') :
    sortedClientStrings values = sortedClientStrings values' := by
  have hperm : (sortedClientStrings values).Perm (sortedClientStrings values') := by
    refine (List.mergeSort_perm _ _).trans (.trans ?_ (List.mergeSort_perm _ _).symm)
    refine (List.perm_ext_iff_of_nodup (List.nodup_dedup _) (List.nodup_dedup _)).mpr
      fun value => ?_
    simp [h]
  exact hperm.eq_of_sortedLE List.sortedLE_mergeSort List.sortedLE_mergeSort

theorem mem_sortedNetworks : p ∈ sortedNetworks values ↔ p ∈ networks values := by
  rw [sortedNetworks, List.mem_mergeSort, List.mem_dedup]

theorem masked_of_mem (h : p ∈ networks values) : p.masked = p := by
  obtain ⟨q, -, rfl⟩ := List.mem_map.mp h
  simp only [Prefix.masked, Prefix.mk.injEq, and_true]
  exact mask_eq_of_agree (q.addr.agree_mask q.bits)

theorem ordered_sortedNetworks (values : List Text) : Ordered (sortedNetworks values) := by
  refine ⟨fun p hp => masked_of_mem (mem_sortedNetworks.mp hp), List.Pairwise.and ?_ ?_⟩
  · refine (List.pairwise_mergeSort ?_ ?_ _).imp fun h => of_decide_eq_true h
    · intro p q r hpq hqr
      exact decide_eq_true ((of_decide_eq_true hpq).trans (of_decide_eq_true hqr))
    · intro p q
      simpa using le_total (cidrOrder p) (cidrOrder q)
  · exact (List.mergeSort_perm _ _).nodup_iff.mpr (List.nodup_dedup _)

theorem mem_compact_networks :
    p ∈ compactClientCIDRs (sortedNetworks values) ↔ Largest (networks values) p := by
  rw [mem_compact (ordered_sortedNetworks values)]
  simp only [Largest, mem_sortedNetworks]

/-- The same largest networks give the same list. -/
theorem sortedClientCIDRs_congr
    (h : ∀ p, Largest (networks values) p ↔ Largest (networks values') p) :
    sortedClientCIDRs values = sortedClientCIDRs values' := by
  refine sortedClientStrings_congr fun value => ?_
  simp only [List.mem_map, mem_compact_networks, h]

/-- What is read from the list are the largest networks. -/
theorem mem_networks_sortedClientCIDRs :
    p ∈ networks (sortedClientCIDRs values) ↔ Largest (networks values) p := by
  simp only [networks, List.mem_map, List.mem_filterMap, sortedClientCIDRs, mem_sortedClientStrings]
  constructor
  · rintro ⟨_, ⟨_, ⟨⟨q, hq, rfl⟩, -⟩, hread⟩, rfl⟩
    rw [clientCIDR_text] at hread
    cases hread
    have hlargest := mem_compact_networks.mp hq
    rwa [masked_of_mem hlargest.1]
  · intro h
    have hne : p.text.toList ≠ [] := by simp [Prefix.text]
    exact ⟨p, ⟨_, ⟨⟨p, mem_compact_networks.mpr h, rfl⟩, hne⟩, clientCIDR_text p⟩,
      masked_of_mem h.1⟩

/-- **Canonical networks.** The list covers what its input covers, no network of it is inside of
    another, it is its own form, and it depends on nothing but the set of masked networks. -/
theorem sortedClientCIDRs_canonical (values : List Text) :
    (∀ a, Covers (networks (sortedClientCIDRs values)) a ↔
      Covers (values.filterMap clientCIDR) a) ∧
    (∀ p ∈ networks (sortedClientCIDRs values), ∀ q ∈ networks (sortedClientCIDRs values),
      Within p q → p = q) ∧
    sortedClientCIDRs (sortedClientCIDRs values) = sortedClientCIDRs values ∧
    ∀ values', (networks values').toFinset = (networks values).toFinset →
      sortedClientCIDRs values' = sortedClientCIDRs values := by
  refine ⟨fun a => ?_, fun p hp q hq hwithin => ?_, sortedClientCIDRs_congr fun p => ?_,
    fun values' h => sortedClientCIDRs_congr fun p => ?_⟩
  · have hmasked : Covers (networks values) a ↔ Covers (values.filterMap clientCIDR) a := by
      simp only [Covers, networks, List.mem_map, exists_exists_and_eq_and, masked_contains]
    rw [← hmasked]
    constructor
    · rintro ⟨p, hp, ha⟩
      exact ⟨p, (mem_networks_sortedClientCIDRs.mp hp).1, ha⟩
    · rintro ⟨p, hp, ha⟩
      obtain ⟨q, hq, hwithin⟩ := (compact_spec (ordered_sortedNetworks values)).2.1 p
        (mem_sortedNetworks.mpr hp)
      exact ⟨q, mem_networks_sortedClientCIDRs.mpr (mem_compact_networks.mp hq), hwithin a ha⟩
  · rw [mem_networks_sortedClientCIDRs] at hp hq
    exact (hp.2 q hq.1 hwithin).symm
  · rw [Largest]
    simp only [mem_networks_sortedClientCIDRs]
    exact ⟨And.left, fun h => ⟨h, fun q hq => h.2 q hq.1⟩⟩
  · simp only [Largest, ← List.mem_toFinset, h]

/-- Host bits, duplicates and the order do not matter. -/
theorem sampleNetworks_canonical :
    sortedClientCIDRs ["10.1.0.0/16".toList, "10.0.0.7/8".toList, " 10.9.9.9/8".toList] =
      sortedClientCIDRs ["10.0.0.0/8".toList, "10.1.2.3/16".toList] :=
  (sortedClientCIDRs_canonical _).2.2.2 _ (by decide +kernel)

end SbGateway.ClientProfile
