import SbGateway.ClientProfile.Plan

namespace SbGateway.ClientProfile

open Lib

/-!
# The private ranges of a client profile

The private ranges that a client reaches itself are those of a fixed list without the networks
behind the gateway, which are cut off one after the other.

* `parts_subtract`, `pairwise_subtract` — what one cut leaves of a prefix;
* `covers_subtractAll` — what several cuts leave;
* `private_subtraction_iff` — when the cuts are exact.
-/

/-! ### Halves -/

variable {a : Addr} {n : ℕ}

/-- One more bit of an address. -/
theorem high_succ (h : n < a.bitLen) : a.high (n + 1) / 2 = a.high n := by
  rw [Addr.high_eq_div a (Nat.le_succ n), show a.bitLen - n - (a.bitLen - (n + 1)) = 1 by omega,
    pow_one]

theorem high_mask_succ (h : n < a.bitLen) : (a.mask n).high (n + 1) = 2 * a.high n := by
  rw [Addr.high, Addr.toNat_mask, Addr.bitLen_mask,
    show a.bitLen - n = (a.bitLen - (n + 1)) + 1 by omega, pow_succ, mul_assoc,
    Nat.mul_div_cancel_left _ (by positivity)]

theorem toNat_setBit (h : n < a.bitLen) :
    (setBit (a.mask n) n).toNat = (a.mask n).toNat + 2 ^ (a.bitLen - (n + 1)) := by
  have hor : (a.mask n).toNat ||| 2 ^ (a.bitLen - (n + 1)) =
      (a.mask n).toNat + 2 ^ (a.bitLen - (n + 1)) := by
    rw [Addr.toNat_mask]
    exact (Nat.two_pow_add_eq_or_of_lt (Nat.pow_lt_pow_right one_lt_two (by omega)) _).symm
  rw [← hor]
  cases a with
  | v4 value =>
    rw [show (Addr.v4 value).bitLen - (n + 1) = 31 - n by simp only [Addr.bitLen]; omega]
    exact congrArg (_ ||| ·) (BitVec.toNat_twoPow_of_lt (by omega : 31 - n < 32))
  | v6 value =>
    rw [show (Addr.v6 value).bitLen - (n + 1) = 127 - n by simp only [Addr.bitLen]; omega]
    exact congrArg (_ ||| ·) (BitVec.toNat_twoPow_of_lt (by omega : 127 - n < 128))

theorem high_setBit_succ (h : n < a.bitLen) :
    (setBit (a.mask n) n).high (n + 1) = 2 * a.high n + 1 := by
  rw [← high_mask_succ h, Addr.high, Addr.high, toNat_setBit h, bitLen_setBit, Addr.bitLen_mask,
    Nat.add_div_right _ (by positivity)]

variable {base cut p q : Prefix}

theorem contains_iff_agree : p.contains a = true ↔ p.addr.Agree p.bits a := Prefix.contains_iff

theorem masked_contains : p.masked.contains a = true ↔ p.contains a = true := by
  rw [contains_iff_agree, contains_iff_agree]
  exact ⟨(p.addr.agree_mask p.bits).symm.trans, (p.addr.agree_mask p.bits).trans⟩

theorem is4_setBit (a : Addr) (bit : ℕ) : (setBit a bit).is4 = a.is4 := by
  cases a <;> rfl

/-- Every address of a prefix is in exactly one of its halves. -/
theorem split_contains (h : base.bits < base.addr.bitLen) (a : Addr) :
    (base.contains a = true ↔ (splitClientPrefix base h).1.contains a = true ∨
      (splitClientPrefix base h).2.contains a = true) ∧
    ¬ ((splitClientPrefix base h).1.contains a = true ∧
      (splitClientPrefix base h).2.contains a = true) := by
  simp only [Prefix.contains_iff, splitClientPrefix, Prefix.masked, is4_setBit, Addr.is4_mask,
    high_mask_succ h, high_setBit_succ h]
  by_cases hfamily : base.addr.is4 = a.is4
  · have hsucc := high_succ (Addr.bitLen_eq_of_is4 hfamily ▸ h)
    simp only [hfamily, true_and]
    omega
  · simp [hfamily]

/-- The address that the code looks for. -/
def network (p : Prefix) : Addr := p.masked.addr

theorem contains_iff_network : p.contains a = true ↔ a.Agree p.bits (network p) := by
  rw [contains_iff_agree]
  have hmask := p.addr.agree_mask p.bits
  exact ⟨fun h => (hmask.trans h).symm, fun h => (h.trans hmask).symm⟩

theorem subtract_eq (base cut : Prefix) : subtractClientPrefix base cut =
    if base.contains (network cut) = false then [base.masked] else if cut.bits ≤ base.bits then []
    else if h : base.bits < base.addr.bitLen then
      subtractClientPrefix (splitClientPrefix base h).1 cut ++
        subtractClientPrefix (splitClientPrefix base h).2 cut
    else [] := by
  rw [subtractClientPrefix]
  have hfamily : base.addr.bitLen ≠ cut.addr.bitLen → base.contains (network cut) = false := by
    intro hne
    rw [← Bool.not_eq_true, Prefix.contains_iff]
    rintro ⟨hsame, -⟩
    exact hne ((Addr.bitLen_eq_of_is4 hsame).trans (Addr.bitLen_mask _ _))
  exact if_congr ⟨fun h => h.elim hfamily id, .inr⟩ rfl rfl

/-- The cases of a subtraction: nothing is cut off, everything is, or both halves are cut. -/
theorem subtract_induct {motive : Prefix → Prop} (cut : Prefix)
    (apart : ∀ base, ¬ base.contains (network cut) = true →
      subtractClientPrefix base cut = [base.masked] → motive base)
    (inside : ∀ base, base.contains (network cut) = true → cut.bits ≤ base.bits →
      subtractClientPrefix base cut = [] → motive base)
    (halves : ∀ base (h : base.bits < base.addr.bitLen), base.contains (network cut) = true →
      base.bits < cut.bits → subtractClientPrefix base cut =
        subtractClientPrefix (splitClientPrefix base h).1 cut ++
          subtractClientPrefix (splitClientPrefix base h).2 cut →
      motive (splitClientPrefix base h).1 → motive (splitClientPrefix base h).2 → motive base)
    (base : Prefix) : motive base := by
  induction hk : cut.bits - base.bits using Nat.strong_induction_on generalizing base with
  | _ k ih =>
    subst hk
    have heq := subtract_eq base cut
    by_cases hcontains : base.contains (network cut) = true
    · rw [if_neg (by simp [hcontains])] at heq
      by_cases hbits : cut.bits ≤ base.bits
      · exact inside base hcontains hbits (heq.trans (if_pos hbits))
      · have hfamily := Addr.bitLen_eq_of_is4 (Prefix.contains_iff.mp hcontains).1
        have hcut : cut.bits ≤ base.addr.bitLen := by
          rw [hfamily]
          exact cut.masked.bits_le
        rw [if_neg hbits, dif_pos (by omega)] at heq
        exact halves base (by omega) hcontains (by omega) heq
          (ih _ (by simp only [splitClientPrefix]; omega) _ rfl)
          (ih _ (by simp only [splitClientPrefix]; omega) _ rfl)
    · exact apart base hcontains (heq.trans (if_pos (by simpa using hcontains)))

/-- Parts lie in the base. -/
theorem contains_of_mem_subtract (hq : q ∈ subtractClientPrefix base cut)
    (ha : q.contains a = true) : base.contains a = true := by
  induction base using subtract_induct cut with
  | apart base _ heq =>
    rw [heq, List.mem_singleton] at hq
    rwa [hq, masked_contains] at ha
  | inside base _ _ heq =>
    rw [heq] at hq
    cases hq
  | halves base h _ _ heq left right =>
    rw [heq, List.mem_append] at hq
    exact (split_contains h a).1.mpr (hq.imp left right)

/-- An address of the base is in a part exactly if the cut does not reach it; the part is the
    largest one around the address, in the base, without the address of the cut. -/
structure Parts (base cut : Prefix) (a : Addr) : Prop where
  kept : (∃ q ∈ subtractClientPrefix base cut, q.contains a = true) ↔
    ¬ (cut.contains a = true ∧ base.contains (network cut) = true)
  largest : ∀ q ∈ subtractClientPrefix base cut, q.contains a = true →
    ∀ n, q.bits ≤ n ↔ base.bits ≤ n ∧ ¬ a.Agree n (network cut)

theorem parts_subtract (hbase : base.contains a = true) : Parts base cut a := by
  induction base using subtract_induct cut with
  | apart base hnot heq =>
    refine ⟨iff_of_true ⟨base.masked, by simp [heq], masked_contains.mpr hbase⟩
      fun h => hnot h.2, fun q hq _ n => ?_⟩
    rw [heq, List.mem_singleton] at hq
    subst hq
    refine ⟨fun hn => ⟨hn, fun hagree => hnot ?_⟩, And.left⟩
    exact contains_iff_agree.mpr ((contains_iff_agree.mp hbase).trans (hagree.mono hn))
  | inside base hcontains hbits heq =>
    have hcut : cut.contains a = true := contains_iff_network.mpr
      (((contains_iff_agree.mp hbase).symm.trans (contains_iff_agree.mp hcontains)).mono hbits)
    exact ⟨by simp [heq, hcut, hcontains], by simp [heq]⟩
  | halves base h hcontains hbits heq left right =>
    have hagree := (contains_iff_agree.mp hbase).symm.trans (contains_iff_agree.mp hcontains)
    -- the parts around the address are those of its half
    obtain ⟨half, hsucc, ha, hparts, hhalf⟩ : ∃ half : Prefix, half.bits = base.bits + 1 ∧
        half.contains a = true ∧ (∀ q, q.contains a = true →
          (q ∈ subtractClientPrefix base cut ↔ q ∈ subtractClientPrefix half cut)) ∧
        Parts half cut a := by
      rw [heq]
      obtain ⟨hor, hnot⟩ := split_contains h a
      rcases hor.mp hbase with hleft | hright
      · refine ⟨_, rfl, hleft, fun q hq => ?_, left hleft⟩
        rw [List.mem_append, or_iff_left fun hmem => hnot ⟨hleft, contains_of_mem_subtract hmem hq⟩]
      · refine ⟨_, rfl, hright, fun q hq => ?_, right hright⟩
        rw [List.mem_append, or_iff_right fun hmem =>
          hnot ⟨contains_of_mem_subtract hmem hq, hright⟩]
    have hnear : cut.contains a = true → half.contains (network cut) = true := by
      intro hcut
      have hbits' : half.bits ≤ cut.bits := by omega
      exact contains_iff_agree.mpr ((contains_iff_agree.mp ha).trans
        ((contains_iff_network.mp hcut).mono hbits'))
    refine ⟨?_, fun q hq hqa n => ?_⟩
    · rw [exists_congr fun q => and_congr_left fun hq => hparts q hq, hhalf.kept]
      exact not_congr (and_congr_right fun hcut => iff_of_true (hnear hcut) hcontains)
    · rw [hhalf.largest q ((hparts q hqa).mp hq) hqa n, hsucc]
      refine and_congr_left fun hnot => ⟨fun hn => by omega, fun hn => ?_⟩
      rcases Nat.lt_or_eq_of_le hn with hlt | rfl
      · exact hlt
      · exact absurd hagree hnot

/-- Both prefixes have no address in common. -/
def Apart (p q : Prefix) : Prop := ∀ a, ¬ (p.contains a = true ∧ q.contains a = true)

theorem pairwise_subtract (base cut : Prefix) : (subtractClientPrefix base cut).Pairwise Apart := by
  induction base using subtract_induct cut with
  | apart base _ heq =>
    rw [heq]
    exact List.pairwise_singleton _ _
  | inside base _ _ heq =>
    rw [heq]
    exact List.Pairwise.nil
  | halves base h _ _ heq left right =>
    rw [heq, List.pairwise_append]
    exact ⟨left, right, fun p hp q hq a ha => (split_contains h a).2
      ⟨contains_of_mem_subtract hp ha.1, contains_of_mem_subtract hq ha.2⟩⟩

/-! ### Several cuts -/

/-- An address in one of the prefixes. -/
def Covers (prefixes : List Prefix) (a : Addr) : Prop := ∃ p ∈ prefixes, p.contains a = true

/-- Around the address there is a block of at least `bits` bits with the address of a cut that
    contains it and without those of all earlier cuts. -/
def Reached (bits : ℕ) (cuts : List Prefix) (a : Addr) : Prop :=
  ∃ before cut after, cuts = before ++ cut :: after ∧ cut.contains a = true ∧
    ∃ n, bits ≤ n ∧ a.Agree n (network cut) ∧ ∀ c ∈ before, ¬ a.Agree n (network c)

theorem reached_cons : Reached bits (cut :: cuts) a ↔
    (cut.contains a = true ∧ a.Agree bits (network cut)) ∨
      ∃ before c after, cuts = before ++ c :: after ∧ c.contains a = true ∧
        ∃ n, (bits ≤ n ∧ ¬ a.Agree n (network cut)) ∧ a.Agree n (network c) ∧
          ∀ d ∈ before, ¬ a.Agree n (network d) := by
  constructor
  · rintro ⟨before, c, after, heq, hc, n, hn, hagree, hbefore⟩
    cases before with
    | nil =>
      cases heq
      exact .inl ⟨hc, hagree.mono hn⟩
    | cons d before =>
      cases heq
      rw [List.forall_mem_cons] at hbefore
      exact .inr ⟨before, c, after, rfl, hc, n, ⟨hn, hbefore.1⟩, hagree, hbefore.2⟩
  · rintro (⟨hc, hagree⟩ | ⟨before, c, after, rfl, hc, n, ⟨hn, hnot⟩, hagree, hbefore⟩)
    · exact ⟨[], cut, cuts, rfl, hc, bits, le_rfl, hagree, by simp⟩
    · exact ⟨cut :: before, c, after, rfl, hc, n, hn, hagree,
        List.forall_mem_cons.mpr ⟨hnot, hbefore⟩⟩

/-- The cuts one after the other. -/
def subtractAll (parts cuts : List Prefix) : List Prefix :=
  cuts.foldl (fun parts cut => parts.flatMap fun part => subtractClientPrefix part cut) parts

theorem covers_flatMap {parts : List Prefix} :
    Covers (parts.flatMap f) a ↔ ∃ p ∈ parts, Covers (f p) a := by
  simp only [Covers, List.mem_flatMap]
  exact ⟨fun ⟨q, ⟨p, hp, hq⟩, ha⟩ => ⟨p, hp, q, hq, ha⟩, fun ⟨p, hp, q, hq, ha⟩ =>
    ⟨q, ⟨p, hp, hq⟩, ha⟩⟩

/-- **Cuts.** An address is left of some parts exactly if it is left of its part. -/
theorem covers_subtractAll (cuts parts : List Prefix) : Covers (subtractAll parts cuts) a ↔
    ∃ p ∈ parts, p.contains a = true ∧ ¬ Reached p.bits cuts a := by
  induction cuts generalizing parts with
  | nil =>
    refine exists_congr fun p => and_congr_right fun _ => (and_iff_left ?_).symm
    rintro ⟨before, cut, after, heq, -⟩
    cases before <;> cases heq
  | cons cut cuts ih =>
    show Covers (subtractAll (parts.flatMap fun part => subtractClientPrefix part cut) cuts) a ↔ _
    rw [ih]
    constructor
    · rintro ⟨q, hq, ha, hnot⟩
      obtain ⟨p, hp, hq⟩ := List.mem_flatMap.mp hq
      have hbase := contains_of_mem_subtract hq ha
      obtain ⟨hiff, hlargest⟩ : Parts p cut a := parts_subtract hbase
      refine ⟨p, hp, hbase, fun hreached => ?_⟩
      rcases reached_cons.mp hreached with ⟨hcut, hagree⟩ | hlater
      · exact hiff.mp ⟨q, hq, ha⟩ ⟨hcut, contains_iff_agree.mpr
          ((contains_iff_agree.mp hbase).trans hagree)⟩
      · simp only [← hlargest q hq ha] at hlater
        exact hnot hlater
    · rintro ⟨p, hp, hbase, hnot⟩
      rw [reached_cons, not_or] at hnot
      obtain ⟨hiff, hlargest⟩ : Parts p cut a := parts_subtract hbase
      obtain ⟨q, hq, ha⟩ := hiff.mpr fun h => hnot.1 ⟨h.1, (contains_iff_agree.mp hbase).symm.trans
        (contains_iff_agree.mp h.2)⟩
      refine ⟨q, List.mem_flatMap.mpr ⟨p, hp, hq⟩, ha, fun hreached => hnot.2 ?_⟩
      simp only [← hlargest q hq ha]
      exact hreached

/-! ### The private ranges -/

theorem covers_clientDirectPrivateCIDRs (lan : List Prefix) :
    Covers (clientDirectPrivateCIDRs lan) a ↔
      ∃ p ∈ clientPrivateCIDRs, p.contains a = true ∧ ¬ Reached p.bits lan a := by
  rw [clientDirectPrivateCIDRs, covers_flatMap]
  refine exists_congr fun p => and_congr_right fun _ => ?_
  refine (covers_subtractAll lan [p.masked]).trans ?_
  simp only [List.mem_singleton, exists_eq_left, masked_contains]
  rfl

/-- **Subtraction.** What is left of a prefix are disjoint prefixes; they are the addresses outside
    the cut exactly if the address of the cut is in the prefix, or nothing of the cut is.  The
    private ranges without the networks behind the gateway are exact if and only if every address
    of a range in one of these networks is reached. -/
theorem private_subtraction_iff (base cut : Prefix) (lan : List Prefix) :
    (subtractClientPrefix base cut).Pairwise Apart ∧
    ((∀ a, Covers (subtractClientPrefix base cut) a ↔
        base.contains a = true ∧ ¬ cut.contains a = true) ↔
      base.contains (network cut) = true ∨ Apart base cut) ∧
    ((∀ a, Covers (clientDirectPrivateCIDRs lan) a ↔
        Covers clientPrivateCIDRs a ∧ ¬ Covers lan a) ↔
      ∀ p ∈ clientPrivateCIDRs, ∀ a, p.contains a = true → Covers lan a →
        Reached p.bits lan a) := by
  refine ⟨pairwise_subtract base cut, ⟨?_, ?_⟩, ?_, ?_⟩
  · intro hexact
    rw [or_iff_not_imp_left]
    rintro hnot a ⟨hbase, hcut⟩
    exact ((hexact a).mp ((parts_subtract hbase).kept.mpr fun h => hnot h.2)).2 hcut
  · intro hfits a
    refine ⟨fun ⟨q, hq, ha⟩ => ?_, fun ⟨hbase, hcut⟩ =>
      (parts_subtract hbase).kept.mpr fun h => hcut h.1⟩
    have hbase := contains_of_mem_subtract hq ha
    refine ⟨hbase, fun hcut => ?_⟩
    rcases hfits with hcontains | hapart
    · exact (parts_subtract hbase).kept.mp ⟨q, hq, ha⟩ ⟨hcut, hcontains⟩
    · exact hapart a ⟨hbase, hcut⟩
  · intro hexact p hp a ha hlan
    by_contra hnot
    exact ((hexact a).mp ((covers_clientDirectPrivateCIDRs lan).mpr ⟨p, hp, ha, hnot⟩)).2 hlan
  · intro hreached a
    rw [covers_clientDirectPrivateCIDRs]
    constructor
    · rintro ⟨p, hp, ha, hnot⟩
      exact ⟨⟨p, hp, ha⟩, fun hlan => hnot (hreached p hp a ha hlan)⟩
    · rintro ⟨⟨p, hp, ha⟩, hlan⟩
      refine ⟨p, hp, ha, ?_⟩
      rintro ⟨before, cut, after, rfl, hcut, -⟩
      exact hlan ⟨cut, by simp, hcut⟩

/-- 172.0.0.0/8 -/
def wideLAN : Prefix := ⟨.v4 0xAC000000, 8, by decide⟩

/-- 172.16.0.1 is behind the gateway, and in what is left of the private ranges. -/
theorem wideLAN_not_cut : wideLAN.contains (.v4 0xAC100001) = true ∧
    Covers (subtractClientPrefix ⟨.v4 0xAC100000, 12, by decide⟩ wideLAN) (.v4 0xAC100001) ∧
    Covers (clientDirectPrivateCIDRs [wideLAN]) (.v4 0xAC100001) := by
  refine ⟨by decide, (parts_subtract (by decide)).kept.mpr (by decide), ?_⟩
  refine (covers_clientDirectPrivateCIDRs _).mpr
    ⟨⟨.v4 0xAC100000, 12, by decide⟩, by simp [clientPrivateCIDRs], by decide, ?_⟩
  rintro ⟨before, cut, after, heq, -, n, hn, hagree, -⟩
  obtain ⟨rfl, rfl, rfl⟩ : before = [] ∧ cut = wideLAN ∧ after = [] := by
    cases before with
    | nil => simpa [eq_comm] using heq
    | cons c before => simp at heq
  exact absurd (hagree.mono hn).2 (by decide)

end SbGateway.ClientProfile
