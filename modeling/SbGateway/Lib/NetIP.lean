import Mathlib

namespace SbGateway.Lib

/-!
# IP addresses and prefixes

Addresses of both families, prefixes that carry the bound on their length, and their text forms
as Go's `net/netip` reads and writes them.

* `Prefix.contains` — the leading bits agree, within one family;
* `parseAddr`, `parsePrefix`, `Addr.text`, `Prefix.text` — the text forms.
-/

/-! ### Addresses and prefixes -/

/-- An IPv4 or IPv6 address. -/
inductive Addr where
  | v4 (value : BitVec 32)
  | v6 (value : BitVec 128)
  deriving DecidableEq

namespace Addr

/-- The number of bits of the address's family. -/
def bitLen : Addr → ℕ
  | v4 _ => 32
  | v6 _ => 128

/-- The address as a number. -/
def toNat : Addr → ℕ
  | v4 value => value.toNat
  | v6 value => value.toNat

/-- The address is of IPv4. -/
def is4 : Addr → Bool
  | v4 _ => true
  | v6 _ => false

/-- The address with all but the first `bits` bits cleared. -/
def mask (a : Addr) (bits : ℕ) : Addr :=
  match a with
  | v4 value => v4 ((value >>> (32 - bits)) <<< (32 - bits))
  | v6 value => v6 ((value >>> (128 - bits)) <<< (128 - bits))

/-- The first `bits` bits. -/
def high (a : Addr) (bits : ℕ) : ℕ := a.toNat / 2 ^ (a.bitLen - bits)

@[simp] theorem bitLen_mask (a : Addr) (bits : ℕ) : (a.mask bits).bitLen = a.bitLen := by
  cases a <;> rfl

/-- Shifting right and back left clears the low bits of a bit vector. -/
private theorem toNat_shiftRight_shiftLeft (x : BitVec w) (k : ℕ) :
    ((x >>> k) <<< k).toNat = x.toNat / 2 ^ k * 2 ^ k := by
  rw [BitVec.toNat_shiftLeft, BitVec.toNat_ushiftRight, Nat.shiftLeft_eq, Nat.shiftRight_eq_div_pow]
  apply Nat.mod_eq_of_lt
  calc x.toNat / 2 ^ k * 2 ^ k ≤ x.toNat := Nat.div_mul_le_self _ _
    _ < 2 ^ w := x.isLt

theorem toNat_mask (a : Addr) (n : ℕ) : (a.mask n).toNat = 2 ^ (a.bitLen - n) * a.high n := by
  rw [mul_comm]
  cases a <;> exact toNat_shiftRight_shiftLeft _ _

@[simp] theorem is4_mask (a : Addr) (n : ℕ) : (a.mask n).is4 = a.is4 := by
  cases a <;> rfl

/-! ### Agreement -/

variable {a b c : Addr} {m n : ℕ}

/-- The addresses are of one family, with the same first `n` bits. -/
def Agree (n : ℕ) (a b : Addr) : Prop := a.is4 = b.is4 ∧ a.high n = b.high n

theorem Agree.symm (h : Agree n a b) : Agree n b a := ⟨h.1.symm, h.2.symm⟩

theorem Agree.trans (h : Agree n a b) (h' : Agree n b c) : Agree n a c :=
  ⟨h.1.trans h'.1, h.2.trans h'.2⟩

theorem bitLen_eq_of_is4 (h : a.is4 = b.is4) : a.bitLen = b.bitLen := by
  cases a <;> cases b <;> first | rfl | cases h

theorem high_eq_div (a : Addr) (h : n ≤ m) :
    a.high n = a.high m / 2 ^ ((a.bitLen - n) - (a.bitLen - m)) := by
  rw [high, high, Nat.div_div_eq_div_mul, ← pow_add]
  congr 2
  omega

/-- Fewer bits agree all the more. -/
theorem Agree.mono (h : Agree m a b) (hle : n ≤ m) : Agree n a b := by
  refine ⟨h.1, ?_⟩
  rw [high_eq_div a hle, high_eq_div b hle, h.2, bitLen_eq_of_is4 h.1]

theorem agree_mask (a : Addr) (n : ℕ) : Agree n (a.mask n) a := by
  refine ⟨is4_mask a n, ?_⟩
  rw [high, toNat_mask, bitLen_mask, Nat.mul_div_cancel_left _ (by positivity)]

/-- `Unmap`: an IPv4 address that is written as an IPv6 one. -/
def unmap : Addr → Addr
  | v4 value => v4 value
  | v6 value => if value.toNat / 2 ^ 32 = 65535 then v4 (value.setWidth 32) else v6 value

end Addr

/-- An address with a number of leading bits that fits its family. -/
structure Prefix where
  addr : Addr
  bits : ℕ
  bits_le : bits ≤ addr.bitLen
  deriving DecidableEq

namespace Prefix

/-- The prefix of one address. -/
def single (a : Addr) : Prefix := ⟨a, a.bitLen, le_rfl⟩

/-- The prefix with the bits below its length cleared. -/
def masked (p : Prefix) : Prefix := ⟨p.addr.mask p.bits, p.bits, by simpa using p.bits_le⟩

/-- Is the address of the prefix's family, with the same leading bits? -/
def contains (p : Prefix) (a : Addr) : Bool :=
  p.addr.is4 == a.is4 && p.addr.high p.bits == a.high p.bits

theorem contains_iff {p : Prefix} {a : Addr} :
    p.contains a = true ↔ p.addr.is4 = a.is4 ∧ p.addr.high p.bits = a.high p.bits := by
  simp [contains]

/-- A prefix of full length holds its own address only. -/
theorem eq_of_contains {p : Prefix} {a : Addr} (hbits : p.bits = p.addr.bitLen)
    (h : p.contains a = true) : p.addr = a := by
  obtain ⟨hfamily, hhigh⟩ := contains_iff.mp h
  have hlen := Addr.bitLen_eq_of_is4 hfamily
  rw [Addr.high, Addr.high, ← hlen, hbits, Nat.sub_self, pow_zero, Nat.div_one,
    Nat.div_one] at hhigh
  generalize p.addr = b at hfamily hhigh
  cases a <;> cases b
  · exact congrArg Addr.v4 (BitVec.eq_of_toNat_eq hhigh)
  · cases hfamily
  · cases hfamily
  · exact congrArg Addr.v6 (BitVec.eq_of_toNat_eq hhigh)

@[simp] theorem single_contains_self (a : Addr) : (single a).contains a = true := by
  simp [contains, single]

end Prefix

/-! ### Reading -/

/-- The fields between separators. -/
def fieldsOf (sep : Char) : List Char → List (List Char)
  | [] => [[]]
  | c :: cs =>
    if c = sep then [] :: fieldsOf sep cs
    else match fieldsOf sep cs with
      | [] => [[c]]
      | field :: rest => (c :: field) :: rest

/-- The value of a digit up to base 16. -/
def digitValue (c : Char) : Option ℕ :=
  if '0' ≤ c ∧ c ≤ '9' then some (c.toNat - '0'.toNat)
  else if 'a' ≤ c ∧ c ≤ 'f' then some (c.toNat - 'a'.toNat + 10)
  else if 'A' ≤ c ∧ c ≤ 'F' then some (c.toNat - 'A'.toNat + 10)
  else none

/-- A non-empty number in the given base. -/
def readNumber (base : ℕ) (cs : List Char) : Option ℕ :=
  if cs = [] then none
  else cs.foldlM (fun n c => do
    let d ← digitValue c
    if d < base then some (n * base + d) else none) 0

/-- A decimal octet without leading zeros. -/
def readOctet (cs : List Char) : Option ℕ := do
  let n ← readNumber 10 cs
  if n ≤ 255 ∧ (cs.length ≤ 1 ∨ cs.head? ≠ some '0') then some n else none

/-- A dotted IPv4 address as a number. -/
def readIPv4 (cs : List Char) : Option ℕ :=
  match (fieldsOf '.' cs).mapM readOctet with
  | some [a, b, c, d] => some (((a * 256 + b) * 256 + c) * 256 + d)
  | _ => none

/-- A group of at most four hexadecimal digits. -/
def readGroup (cs : List Char) : Option ℕ := if cs.length ≤ 4 then readNumber 16 cs else none

/-- Groups separated by colons; the last one may be a dotted IPv4 address. -/
def readGroups : List (List Char) → Option (List ℕ)
  | [] => some []
  | [last] =>
    if '.' ∈ last then do
      let n ← readIPv4 last
      some [n / 65536, n % 65536]
    else do
      let n ← readGroup last
      some [n]
  | group :: rest => do
    let n ← readGroup group
    let ns ← readGroups rest
    some (n :: ns)

/-- The text before and after the first double colon. -/
def splitEllipsis : List Char → Option (List Char × List Char)
  | ':' :: ':' :: rest => some ([], rest)
  | c :: rest => (splitEllipsis rest).map (fun (left, right) => (c :: left, right))
  | [] => none

/-- One side of a double colon, or a whole address without one. -/
def readSide (cs : List Char) : Option (List ℕ) :=
  if cs = [] then some [] else readGroups (fieldsOf ':' cs)

/-- The eight groups of an IPv6 address. -/
def readIPv6 (cs : List Char) : Option (List ℕ) :=
  match splitEllipsis cs with
  | none => do
    let groups ← readSide cs
    if groups.length = 8 then some groups else none
  | some (left, right) => do
    let before ← if '.' ∈ left then none else readSide left
    let after ← readSide right
    if before.length + after.length ≤ 7 then
      some (before ++ List.replicate (8 - before.length - after.length) 0 ++ after)
    else none

/-- `netip.ParseAddr`, with the zone of an IPv6 address beside it. -/
def parseAddrZone (s : String) : Option (Addr × List Char) :=
  match s.toList.find? (fun c => c = '.' ∨ c = ':' ∨ c = '%') with
  | some '.' => (readIPv4 s.toList).map fun n => (.v4 (BitVec.ofNat 32 n), [])
  | some ':' =>
    let cs := s.toList.takeWhile (fun c => c ≠ '%')
    let zone := s.toList.dropWhile (fun c => c ≠ '%')
    if zone = ['%'] then none
    else (readIPv6 cs).map fun groups =>
      (.v6 (BitVec.ofNat 128 (groups.foldl (fun n g => n * 65536 + g) 0)), zone.drop 1)
  | _ => none

/-- `netip.ParseAddr`, without the zone. -/
def parseAddr (s : String) : Option Addr := (parseAddrZone s).map Prod.fst

/-- `netip.ParsePrefix`. -/
def parsePrefix (s : String) : Option Prefix :=
  match fieldsOf '/' s.toList with
  | [address, bits] => do
    let (addr, zone) ← parseAddrZone (String.ofList address)
    let n ← readNumber 10 bits
    if h : n ≤ addr.bitLen ∧ zone = [] ∧ (bits.length ≤ 1 ∨ bits.head? ≠ some '0') then
      some ⟨addr, n, h.1⟩
    else none
  | _ => none

/-! ### Writing -/

/-- Join texts with a separator. -/
def joinTexts (sep : String) : List String → String
  | [] => ""
  | [s] => s
  | s :: rest => s ++ sep ++ joinTexts sep rest

/-- A dotted IPv4 address. -/
def ipv4Text (n : ℕ) : String :=
  joinTexts "." [toString (n / 2 ^ 24 % 256), toString (n / 2 ^ 16 % 256),
    toString (n / 2 ^ 8 % 256), toString (n % 256)]

/-- The longest run of at least two zero groups, the first of them: where it starts and ends. -/
def zeroRun (groups : List ℕ) : Option (ℕ × ℕ) :=
  (List.range groups.length).foldl (fun best i =>
    let length := ((groups.drop i).takeWhile (fun g => g = 0)).length
    match best with
    | none => if 2 ≤ length then some (i, i + length) else none
    | some (first, last) =>
      if last - first < length then some (i, i + length) else some (first, last)) none

/-- Groups in hexadecimal. -/
def groupsText (groups : List ℕ) : String :=
  joinTexts ":" (groups.map fun g => String.ofList (Nat.toDigits 16 g))

/-- `netip.Addr.String`. -/
def Addr.text : Addr → String
  | .v4 value => ipv4Text value.toNat
  | .v6 value =>
    let n := value.toNat
    if n / 2 ^ 32 = 65535 then "::ffff:" ++ ipv4Text (n % 2 ^ 32)
    else
      let groups := (List.range 8).map fun i => n / 2 ^ (112 - 16 * i) % 65536
      match zeroRun groups with
      | none => groupsText groups
      | some (first, last) =>
        groupsText (groups.take first) ++ "::" ++ groupsText (groups.drop last)

/-- `netip.Prefix.String`. -/
def Prefix.text (p : Prefix) : String := p.addr.text ++ "/" ++ toString p.bits

end SbGateway.Lib
