import SbGateway.PolicyDns.DomainSet

namespace SbGateway.PolicyDns

/-!
# DNS messages

The bytes of queries and responses, as far as the resolver reads or writes them.

* `skipName`, `responseTTL`, `adjustResponseTTLs` — the records of a response;
* `parseQuestionName`, `matchingQuestion` — the question;
* `normalizedQueryKey` — the key under which an answer is shared;
* `normalizedQueryKey_inj` — a key determines the server and the query but for its ID.
-/

/-- The bytes on the wire. -/
abbrev Message := List UInt8

/-- Nanoseconds, as a Go `time.Duration` or a point of time. -/
abbrev Time := ℤ

/-- A second in nanoseconds. -/
def second : Time := 1000000000

namespace Message

/-- A byte as a number. -/
def byte (message : Message) (offset : ℕ) : ℕ := (message.getD offset 0).toNat

/-- Two bytes, big-endian. -/
def uint16 (message : Message) (offset : ℕ) : ℕ :=
  message.byte offset * 2 ^ 8 + message.byte (offset + 1)

/-- Four bytes, big-endian. -/
def uint32 (message : Message) (offset : ℕ) : ℕ :=
  message.uint16 offset * 2 ^ 16 + message.uint16 (offset + 2)

/-- Four bytes are written. -/
def putUint32 (message : Message) (offset value : ℕ) : Message :=
  (((message.set offset (UInt8.ofNat (value / 2 ^ 24))).set (offset + 1)
    (UInt8.ofNat (value / 2 ^ 16))).set (offset + 2)
    (UInt8.ofNat (value / 2 ^ 8))).set (offset + 3) (UInt8.ofNat value)

/-- The message with its first two bytes, the ID, cleared. -/
def withoutID : Message → Message
  | _ :: _ :: rest => 0 :: 0 :: rest
  | message => message

end Message

open Message

/-! ### Records -/

/-- The offset behind a name.  Every label makes the offset larger, so the length of the message is
    fuel enough. -/
def skipNameFrom (message : Message) : ℕ → ℕ → Option ℕ
  | 0, _ => none
  | fuel + 1, offset =>
    if message.length ≤ offset then none
    else
      let length := message.byte offset
      if length = 0 then some (offset + 1)
      else if length &&& 0xC0 = 0xC0 then
        if message.length ≤ offset + 1 then none else some (offset + 2)
      else if 63 < length ∨ message.length < offset + 1 + length then none
      else skipNameFrom message fuel (offset + 1 + length)

/-- The offset after a name. -/
def skipName (message : Message) (offset : ℕ) : Option ℕ :=
  skipNameFrom message message.length offset

/-- The offset after the questions. -/
def skipQuestions (message : Message) : ℕ → ℕ → Option ℕ
  | 0, offset => some offset
  | questions + 1, offset => do
    let next ← skipName message offset
    if message.length < next + 4 then none else skipQuestions message questions (next + 4)

/-- What the loop over records has found: the smallest TTL, if any. -/
def lowerTTL (minimum : Option ℕ) (ttl : ℕ) : Option ℕ :=
  match minimum with
  | none => some ttl
  | some least => some (if ttl < least then ttl else least)

/-- The least TTL of the records, and the offset after them. -/
def minimumRecordTTLFrom (message : Message) (negativeSOA : Bool) :
    ℕ → ℕ → Option ℕ → Option (ℕ × ℕ)
  | 0, offset, minimum => some (minimum.getD 0, offset)
  | records + 1, offset, minimum => do
    let next ← skipName message offset
    if message.length < next + 10 then none
    else
      let recordType := message.uint16 next
      let ttl := message.uint32 (next + 4)
      let size := message.uint16 (next + 8)
      let after := next + 10 + size
      if message.length < after then none
      -- `OPT` stores flags, not a TTL
      else if recordType = 41 ∨ (negativeSOA ∧ (recordType ≠ 6 ∨ size < 20)) then
        minimumRecordTTLFrom message negativeSOA records after minimum
      else
        let soaMinimum := message.uint32 (after - 4)
        let ttl := if negativeSOA ∧ soaMinimum < ttl then soaMinimum else ttl
        minimumRecordTTLFrom message negativeSOA records after (lowerTTL minimum ttl)

section

variable (message : Message)

/-- The least TTL from an offset on. -/
def minimumRecordTTL (offset records : ℕ) (negativeSOA : Bool) : Option (ℕ × ℕ) :=
  minimumRecordTTLFrom message negativeSOA records offset none

/-- How long a response may be kept, in seconds; nothing, if it must not be. -/
def responseSeconds : Option ℕ := do
  if message.length < 12 then none
  else
    let rcode := message.uint16 2 &&& 0x000f
    if rcode ≠ 0 ∧ rcode ≠ 3 then none
    else
      let offset ← skipQuestions message (message.uint16 4) 12
      let answers := message.uint16 6
      let authorities := message.uint16 8
      let (minimum, offset) ← minimumRecordTTL message offset answers false
      let (minimum, offset) ←
        if answers = 0 then do
          let (negative, offset) ← minimumRecordTTL message offset authorities true
          -- negative responses are deliberately kept for a shorter time
          some (min negative 60, offset)
        else do
          let (_, offset) ← minimumRecordTTL message offset authorities false
          some (minimum, offset)
      let _ ← minimumRecordTTL message offset (message.uint16 10) false
      some (min minimum 300)

/-- How long a response may be kept. -/
def responseTTL : Time := ((responseSeconds message).getD 0 : ℕ) * second

/-- The TTL of a record that is `age` seconds old. -/
def adjustedTTL (age override ttl : ℕ) : ℕ :=
  if 0 < override then override else if ttl ≤ age then 0 else ttl - age

/-- The TTLs of the records are lowered or replaced. -/
def adjustRecordTTLs (age override : ℕ) : ℕ → ℕ → Message → Message
  | 0, _, message => message
  | records + 1, offset, message =>
    match skipName message offset with
    | none => message
    | some next =>
      if message.length < next + 10 then message
      else
        let after := next + 10 + message.uint16 (next + 8)
        if message.length < after then message
        else if message.uint16 next = 41 then adjustRecordTTLs age override records after message
        else adjustRecordTTLs age override records after
          (message.putUint32 (next + 4) (adjustedTTL age override (message.uint32 (next + 4))))

/-- All TTLs of a response. -/
def adjustResponseTTLs (age override : ℕ) : Message :=
  if message.length < 12 then message
  else
    let records := message.uint16 6 + message.uint16 8 + message.uint16 10
    match skipQuestions message (message.uint16 4) 12 with
    | none => message
    | some offset => adjustRecordTTLs age override records offset message

/-! ### Questions -/

/-- A letter in lower case. -/
def lowerByte (character : UInt8) : UInt8 :=
  if 65 ≤ character ∧ character ≤ 90 then character + 32 else character

/-- The labels from an offset on, lowered. -/
def parseQuestionNameFrom (message : Message) : ℕ → ℕ → Name → Option (Name × ℕ)
  | 0, _, _ => none
  | fuel + 1, offset, name =>
    if message.length ≤ offset then none
    else
      let length := message.byte offset
      if length = 0 then some (name, offset + 1)
      else if 63 < length ∨ length &&& 0xC0 ≠ 0 ∨ message.length < offset + 1 + length then none
      else
        let label := ((message.drop (offset + 1)).take length).map lowerByte
        let name := if name = [] then label else name ++ dot :: label
        parseQuestionNameFrom message fuel (offset + 1 + length) name

/-- The name of the question in lower case, and the offset behind it. -/
def parseQuestionName : Option (Name × ℕ) :=
  if message.length < 12 then none else parseQuestionNameFrom message message.length 12 []

/-- The name that is asked for. -/
def questionName : Option Name := (parseQuestionName message).map Prod.fst

/-- Name, type and class. -/
def questionIdentity : Option (Name × ℕ × ℕ) := do
  let (name, offset) ← parseQuestionName message
  if message.length < offset + 4 then none
  else some (name, message.uint16 offset, message.uint16 (offset + 2))

end

/-- The response is one to the question of the query. -/
def matchingQuestion (query response : Message) : Bool :=
  if query.length < 12 ∨ response.length < 12 ∨ query.uint16 0 ≠ response.uint16 0 ∨
      query.uint16 2 &&& 0x8000 ≠ 0 ∨ response.uint16 2 &&& 0x8000 = 0 ∨
      query.uint16 4 ≠ 1 ∨ response.uint16 4 ≠ 1 then false
  else
    match questionIdentity query, questionIdentity response with
    | some asked, some answered => asked == answered
    | _, _ => false

/-! ### Keys and IDs -/

/-- The key of a shared answer: the server, a NUL byte, and the query without its ID. -/
abbrev Key := List UInt8

/-- The bytes of a tag. -/
def tagBytes (tag : String) : List UInt8 := tag.toByteArray.data.toList

/-- The tag and the query without its ID. -/
def normalizedQueryKey (tag : String) (query : Message) : Option Key :=
  if query.length < 12 then none else some (tagBytes tag ++ 0 :: query.withoutID)

/-- The response with the ID of a query. -/
def responseWithID (response queryID : Message) : Message :=
  match response, queryID with
  | _ :: _ :: rest, first :: last :: _ => first :: last :: rest
  | _, _ => response

/-- `uint32(age/time.Second)`. -/
def ageSeconds (age : Time) : ℕ := (age.tdiv second % 2 ^ 32).toNat

/-- A kept response, aged, with the ID of the query. -/
def cachedResponse (response queryID : Message) (age : Time) (override : ℕ) : Message :=
  adjustResponseTTLs (responseWithID response queryID) (ageSeconds age) override

/-! ### Facts -/

theorem tagBytes_injective : Function.Injective tagBytes := by
  intro a b h
  unfold tagBytes at h
  have hbytes : a.toByteArray.data = b.toByteArray.data := Array.toList_inj.mp h
  exact String.toByteArray_inj.mp (ByteArray.ext hbytes)

/-- Texts without NUL bytes can be told apart from what follows a NUL byte. -/
theorem append_nul_inj {a b x y : List UInt8} (ha : 0 ∉ a) (hb : 0 ∉ b)
    (h : a ++ 0 :: x = b ++ 0 :: y) : a = b ∧ x = y := by
  induction a generalizing b with
  | nil =>
    cases b with
    | nil => exact ⟨rfl, (List.cons.inj h).2⟩
    | cons c b => exact absurd (List.cons.inj h).1 fun hc => hb (by simp [← hc])
  | cons c a ih =>
    cases b with
    | nil => exact absurd (List.cons.inj h).1 fun hc => ha (by simp [hc])
    | cons d b =>
      obtain ⟨hhead, htail⟩ := List.cons.inj h
      obtain ⟨hsame, hrest⟩ := ih (fun hmem => ha (List.mem_cons_of_mem _ hmem))
        (fun hmem => hb (List.mem_cons_of_mem _ hmem)) htail
      exact ⟨by rw [hhead, hsame], hrest⟩

/-- **Keys.** If server tags have no NUL byte, a key determines the server and the query but for
    its ID. -/
theorem normalizedQueryKey_inj (htag : 0 ∉ tagBytes tag) (htag' : 0 ∉ tagBytes tag')
    (h : normalizedQueryKey tag query = some key) (h' : normalizedQueryKey tag' query' = some key) :
    tag = tag' ∧ query.withoutID = query'.withoutID := by
  unfold normalizedQueryKey at h h'
  split at h
  · cases h
  · split at h'
    · cases h'
    · obtain ⟨hbytes, hqueries⟩ := append_nul_inj htag htag'
        ((Option.some.inj h).trans (Option.some.inj h').symm)
      exact ⟨tagBytes_injective hbytes, hqueries⟩

theorem take_two_responseWithID (hresponse : 2 ≤ response.length) (hquery : 2 ≤ queryID.length) :
    (responseWithID response queryID).take 2 = queryID.take 2 := by
  match response, queryID with
  | _ :: _ :: _, _ :: _ :: _ => rfl
  | [_], _ | [], _ => simp at hresponse
  | _ :: _ :: _, [_] | _ :: _ :: _, [] => simp at hquery

theorem take_two_adjustRecordTTLs (age override : ℕ) (records offset : ℕ) (message : Message) :
    (adjustRecordTTLs age override records offset message).take 2 = message.take 2 := by
  induction records generalizing offset message with
  | zero => rfl
  | succ records ih =>
    rw [adjustRecordTTLs]
    split
    · rfl
    · next next _ =>
      have hput : ∀ value, (message.putUint32 (next + 4) value).take 2 = message.take 2 := by
        intro value
        unfold putUint32
        rw [List.take_set_of_le (by omega), List.take_set_of_le (by omega),
          List.take_set_of_le (by omega), List.take_set_of_le (by omega)]
      split
      · rfl
      · dsimp only
        split
        · rfl
        · split
          · exact ih _ _
          · rw [ih, hput]

/-- A response from the cache carries the ID of the query. -/
theorem take_two_cachedResponse (hresponse : 2 ≤ response.length)
    (hquery : 2 ≤ queryID.length) (age : Time) (override : ℕ) :
    (cachedResponse response queryID age override).take 2 = queryID.take 2 := by
  have hid := take_two_responseWithID hresponse hquery
  unfold cachedResponse adjustResponseTTLs
  split
  · exact hid
  · dsimp only
    split
    · exact hid
    · rw [take_two_adjustRecordTTLs, hid]

end SbGateway.PolicyDns
