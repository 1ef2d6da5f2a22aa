import Mathlib

namespace SbGateway.ControlPlane.Quota

/-!
# Figures of a provider

A provider sends the traffic of a subscription in a header.  Its fields are added and subtracted as
64-bit integers, so the sum of the two directions can wrap around.

* `value_bounds` — a field that is taken fits into an `int64` and is not negative;
* `usage_consistent_iff` — the reported figures fit together exactly if the sum does not wrap.
-/

/-- A text as its characters. -/
abbrev Text := List Char

/-- The functions of Go on texts and times. -/
structure Go where
  trimSpace : Text → Text
  toLower : Text → Text
  formatUnix : ℤ → String

/-- The value that an `int64` keeps. -/
def int64 (n : ℤ) : ℤ := (n + 2 ^ 63) % 2 ^ 64 - 2 ^ 63

/-- `strconv.ParseInt` with base 10 and 64 bits -/
def parseInt (text : Text) : Option ℤ :=
  let (sign, digits) : ℤ × Text := match text with
    | '-' :: digits => (-1, digits)
    | '+' :: digits => (1, digits)
    | digits => (1, digits)
  let value := sign * (digits.foldl (fun n c => 10 * n + (c.toNat - '0'.toNat)) 0 : ℕ)
  if digits = [] ∨ digits.any (!·.isDigit) then none
  else if -2 ^ 63 ≤ value ∧ value < 2 ^ 63 then some value else none

/-- The bytes of a subscription. -/
structure Usage where
  uploadBytes : ℤ
  downloadBytes : ℤ
  usedBytes : ℤ
  totalBytes : ℤ
  remainingBytes : ℤ

/-- What a provider reports. -/
structure Metadata where
  expiresAt : Option String
  usage : Option Usage

/-- The figures fit together. -/
structure Usage.Consistent (u : Usage) : Prop where
  used : 0 ≤ u.usedBytes
  bounds : 0 < u.totalBytes → 0 ≤ u.remainingBytes ∧ u.remainingBytes ≤ u.totalBytes
  rest : 0 < u.totalBytes → u.usedBytes ≤ u.totalBytes →
    u.remainingBytes = u.totalBytes - u.usedBytes

section

variable (go : Go)

/-- A field of the header that is taken. -/
def parseField (field : Text) : Option (Text × ℤ) :=
  match (go.trimSpace field).span (· ≠ '=') with
  | (name, _ :: value) =>
    (parseInt (go.trimSpace value)).bind fun number =>
      if 0 ≤ number then some (go.toLower (go.trimSpace name), number) else none
  | (_, []) => none

/-- The value of a name: the last field of that name. -/
def value? (header : Text) (name : String) : Option ℤ :=
  (((header.splitOn ';').filterMap (parseField go)).reverse.find? (·.1 = name.toList)).map (·.2)

/-- The number of a field, or zero. -/
def value (header : Text) (name : String) : ℤ := (value? go header name).getD 0

/-- What the header says about time and bytes. -/
def subscriptionProviderMetadata (header : Text) : Metadata where
  expiresAt :=
    if 0 < value go header "expire" then some (go.formatUnix (value go header "expire")) else none
  usage := (value? go header "total").map fun total =>
    let upload := value go header "upload"
    let download := value go header "download"
    let used := int64 (upload + download)
    let remaining := int64 (total - used)
    ⟨upload, download, used, total, if remaining < 0 then 0 else remaining⟩

variable {go}

/-- **Fields.** What is taken of the header fits and is not negative. -/
theorem value?_bounds (h : value? go header name = some n) : 0 ≤ n ∧ n < 2 ^ 63 := by
  obtain ⟨⟨key, n⟩, hfind, rfl⟩ := Option.map_eq_some_iff.mp h
  obtain ⟨field, -, hfield⟩ :=
    List.mem_filterMap.mp (List.mem_reverse.mp (List.mem_of_find?_eq_some hfind))
  unfold parseField at hfield
  cases hspan : (go.trimSpace field).span (· ≠ '=') with
  | mk before after =>
    rw [hspan] at hfield
    cases after with
    | nil => cases hfield
    | cons _ text =>
      obtain ⟨number, hnumber, htaken⟩ := Option.bind_eq_some_iff.mp hfield
      split_ifs at htaken with hpositive
      cases htaken
      refine ⟨hpositive, ?_⟩
      unfold parseInt at hnumber
      simp only at hnumber
      split_ifs at hnumber with _ hrange
      exact Option.some.inj hnumber ▸ hrange.2

theorem value_bounds : 0 ≤ value go header name ∧ value go header name < 2 ^ 63 := by
  unfold value
  cases hvalue : value? go header name with
  | none => decide
  | some n => exact value?_bounds hvalue

variable (go)

/-- **Figures.** They fit together exactly if upload and download together fit into an `int64`, or
    no total is reported. -/
theorem usage_consistent_iff (header : Text) :
    (∀ usage, (subscriptionProviderMetadata go header).usage = some usage → usage.Consistent) ↔
      (value? go header "total" = none ∨
        value go header "upload" + value go header "download" < 2 ^ 63) := by
  have hupload := @value_bounds go header "upload"
  have hdownload := @value_bounds go header "download"
  cases htotal : value? go header "total" with
  | none => simp [subscriptionProviderMetadata, htotal]
  | some total =>
    have hbounds := value?_bounds htotal
    simp only [subscriptionProviderMetadata, htotal, Option.map_some, Option.some.injEq,
      forall_eq', reduceCtorEq, false_or]
    generalize value go header "upload" = upload at *
    generalize value go header "download" = download at *
    constructor
    · intro h
      -- a sum that wraps is negative
      have hused : 0 ≤ int64 (upload + download) := h.used
      unfold int64 at hused
      omega
    · intro hfits
      have hused : int64 (upload + download) = upload + download := by
        unfold int64
        omega
      have hrest : int64 (total - (upload + download)) = total - (upload + download) := by
        unfold int64
        omega
      rw [hused, hrest]
      refine ⟨?_, fun _ => ?_, fun _ hle => ?_⟩
      · show 0 ≤ upload + download
        omega
      · show 0 ≤ ite _ _ _ ∧ ite _ _ _ ≤ total
        split_ifs <;> omega
      · exact if_neg (by simpa using hle)

end

/-- Texts without blanks, in lower case. -/
def plainGo : Go := ⟨id, id, fun _ => ""⟩

/-- One byte more than an `int64` has room for. -/
theorem usage_wraps : (subscriptionProviderMetadata plainGo
      "upload=9223372036854775807;download=1;total=5".toList).usage.map Usage.usedBytes =
      some (-9223372036854775808) := by
  decide +kernel

end SbGateway.ControlPlane.Quota
