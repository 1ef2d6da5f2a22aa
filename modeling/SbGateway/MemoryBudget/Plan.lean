import Mathlib

namespace SbGateway.MemoryBudget

/-!
# The memory plan

The appliance divides the memory of its container among the controller, Xray, two helper processes
and a reserve.  `derive` computes the parts from the limits of the container; `cap` lets an explicit
limit lower, but not raise, a part.

* `derive_ceiling`, `derive_parts` — the whole respects the limits, and the parts make it up;
* `cap_bounds` — a requested limit lowers a budget, and leaves some of it.

The quantities are signed 64-bit numbers in the source; `derive_bounded` shows that the numbers of
this range stay in it.
-/

/-- A mebibyte. -/
def MiB : ℤ := 1048576

/-- The limits of a container; zero stands for none. -/
structure Limits where
  high : ℤ
  max : ℤ

/-- The parts of the budget. -/
structure Plan where
  ceiling : ℤ
  gateway : ℤ
  xray : ℤ
  worker : ℤ
  reserve : ℤ

/-- The lower of the two limits, the hard one with headroom. -/
def ceilingOf (limits : Limits) : ℤ :=
  if 0 < limits.max then
    let hardBudget := limits.max - limits.max.tdiv 8
    if limits.high ≤ 0 ∨ hardBudget < limits.high then hardBudget else limits.high
  else limits.high

/-- `Derive` -/
def derive (limits : Limits) : Plan :=
  let ceiling := if ceilingOf limits ≤ 0 then 224 * MiB else ceilingOf limits
  let reserve := min (40 * MiB) (ceiling.tdiv 4)
  let worker := min (32 * MiB) (ceiling.tdiv 8)
  let regular := ceiling - reserve - 2 * worker
  let xray := regular.tdiv 100 * 65 + (regular.tmod 100 * 65).tdiv 100
  { ceiling, gateway := regular - xray, xray, worker, reserve }

/-! ### The parts -/

variable {limits : Limits}

/-- The whole is positive and below the limits that are set. -/
theorem derive_ceiling (hhigh : 0 ≤ limits.high) (hmax : 0 ≤ limits.max) :
    0 < (derive limits).ceiling ∧ (0 < limits.high → (derive limits).ceiling ≤ limits.high) ∧
      (0 < limits.max → (derive limits).ceiling ≤ limits.max - limits.max.tdiv 8) := by
  have heighth : limits.max.tdiv 8 = limits.max / 8 := Int.tdiv_eq_ediv_of_nonneg hmax
  simp only [derive, ceilingOf, heighth, MiB]
  split_ifs <;> omega

/-- The parts of a positive whole. -/
theorem derive_parts (hhigh : 0 ≤ limits.high) (hmax : 0 ≤ limits.max) : let plan := derive limits
    plan.gateway + plan.xray + 2 * plan.worker + plan.reserve = plan.ceiling ∧
      0 < plan.gateway ∧ 0 ≤ plan.xray ∧ 0 ≤ plan.worker ∧ 0 ≤ plan.reserve := by
  have hceiling := (derive_ceiling hhigh hmax).1
  simp only [derive] at hceiling ⊢
  generalize (if ceilingOf limits ≤ 0 then 224 * MiB else ceilingOf limits) = ceiling at hceiling ⊢
  have hquarter : ceiling.tdiv 4 = ceiling / 4 := Int.tdiv_eq_ediv_of_nonneg (by omega)
  have heighth : ceiling.tdiv 8 = ceiling / 8 := Int.tdiv_eq_ediv_of_nonneg (by omega)
  rw [hquarter, heighth, MiB]
  -- the regular part is at least a half
  generalize hregular : ceiling - min (40 * 1048576) (ceiling / 4) -
    2 * min (32 * 1048576) (ceiling / 8) = regular
  have hpositive : 0 < regular := by omega
  have hdiv : regular.tdiv 100 = regular / 100 := Int.tdiv_eq_ediv_of_nonneg (by omega)
  have hmod : regular.tmod 100 = regular % 100 := Int.tmod_eq_emod_of_nonneg (by omega)
  have hscaled : (regular % 100 * 65).tdiv 100 = regular % 100 * 65 / 100 :=
    Int.tdiv_eq_ediv_of_nonneg (by omega)
  rw [hdiv, hmod, hscaled]
  omega

/-- No part of the computation leaves the range of the limits. -/
theorem derive_bounded (hbound : 224 * MiB ≤ bound) (hhigh : 0 ≤ limits.high)
    (hmax : 0 ≤ limits.max) (hhigh' : limits.high ≤ bound) (hmax' : limits.max ≤ bound) :
    let plan := derive limits
    plan.ceiling ≤ bound ∧ plan.gateway ≤ bound ∧ plan.xray ≤ bound ∧ plan.worker ≤ bound ∧
      plan.reserve ≤ bound := by
  have hceiling : (derive limits).ceiling ≤ bound := by
    have heighth : limits.max.tdiv 8 = limits.max / 8 := Int.tdiv_eq_ediv_of_nonneg hmax
    simp only [derive, ceilingOf, heighth]
    split_ifs <;> omega
  obtain ⟨hsum, hgateway, hxray, hworker, hreserve⟩ := derive_parts hhigh hmax
  refine ⟨hceiling, ?_, ?_, ?_, ?_⟩ <;> omega

/-! ### Requested limits -/

/-- The digits of a decimal number. -/
def readDigits : ℤ → List Char → Option ℤ
  | value, [] => some value
  | value, c :: cs => if c.isDigit then readDigits (value * 10 + (c.toNat - '0'.toNat)) cs else none

/-- `strconv.ParseInt(text, 10, 64)` -/
def parseInt (text : List Char) : Option ℤ :=
  let number (sign : ℤ) (digits : List Char) : Option ℤ :=
    if digits = [] then none else (readDigits 0 digits).map (sign * ·)
  let value := match text with
    | '-' :: digits => number (-1) digits
    | '+' :: digits => number 1 digits
    | digits => number 1 digits
  value.filter fun n => decide (-2 ^ 63 ≤ n ∧ n < 2 ^ 63)

/-- The unit of a requested limit and the text in front of it. -/
def unitOf (requested : List Char) : Option (List Char × ℤ) :=
  [("KiB".toList, 1024), ("MiB".toList, MiB), ("GiB".toList, 1073741824),
    ("TiB".toList, 1099511627776), ("B".toList, 1)].findSome? fun unit =>
      (requested.dropSuffix? unit.1).map fun value => (value, unit.2)

/-- `Cap`; white space around the text is trimmed before. -/
def cap (budget : ℤ) (requested : List Char) : ℤ :=
  if requested = [] ∨ requested = "off".toList then budget
  else
    match unitOf requested with
    | some (value, scale) =>
      match parseInt value with
      | some n => if 0 < n ∧ n ≤ budget.tdiv scale then n * scale else budget
      | none => budget
    | none =>
      match parseInt requested with
      | some n => if 0 < n then min n budget else budget
      | none => budget

theorem unitOf_pos (h : unitOf requested = some (value, scale)) : 0 < scale := by
  rw [unitOf, List.findSome?_eq_some_iff] at h
  obtain ⟨before, ⟨text, unit⟩, after, hunits, hfound, -⟩ := h
  obtain ⟨rest, -, heq⟩ := Option.map_eq_some_iff.mp hfound
  obtain rfl : unit = scale := (Prod.mk.inj heq).2
  have hmem : (text, unit) ∈ [("KiB".toList, (1024 : ℤ)), ("MiB".toList, MiB),
      ("GiB".toList, 1073741824), ("TiB".toList, 1099511627776), ("B".toList, 1)] := by
    rw [hunits]
    exact List.mem_append_right _ List.mem_cons_self
  simp only [List.mem_cons, Prod.mk.injEq, List.not_mem_nil, or_false, MiB] at hmem
  omega

/-- A requested limit lowers a positive budget to a positive one, or leaves it. -/
theorem cap_bounds (hbudget : 0 < budget) (requested : List Char) :
    0 < cap budget requested ∧ cap budget requested ≤ budget := by
  rw [cap]
  split
  · exact ⟨hbudget, le_rfl⟩
  · split
    · rename_i value scale hunit
      have hscale := unitOf_pos hunit
      split
      · rename_i n _
        split
        · rename_i hfits
          rw [Int.tdiv_eq_ediv_of_nonneg hbudget.le] at hfits
          refine ⟨mul_pos hfits.1 hscale, ?_⟩
          calc n * scale ≤ budget / scale * scale := by
                exact mul_le_mul_of_nonneg_right hfits.2 hscale.le
            _ ≤ budget := Int.ediv_mul_le budget hscale.ne'
        · exact ⟨hbudget, le_rfl⟩
      · exact ⟨hbudget, le_rfl⟩
    · split
      · rename_i n _
        split
        · rename_i hpositive
          exact ⟨lt_min hpositive hbudget, min_le_right _ _⟩
        · exact ⟨hbudget, le_rfl⟩
      · exact ⟨hbudget, le_rfl⟩

end SbGateway.MemoryBudget
