import SbGateway.PolicyDns.Message

namespace SbGateway.PolicyDns

open Message

/-!
# The questions of messages

`matchingQuestion` compares the names of two questions as texts, with a dot between two labels.  On
the wire a name is a sequence of labels, each any 1 to 63 bytes, so that a dot may also stand inside
a label.

* `question` — the question as it is on the wire;
* `questionIdentity_eq` — the text of its name;
* `matching_sameQuestion_iff` — a response that is accepted has the question of the query exactly
  if both names are cut into labels at the same places.
-/

/-- A question on the wire. -/
structure Question where
  labels : List Message
  type : ℕ
  dnsClass : ℕ
  deriving DecidableEq

/-- The labels from an offset on, down to the root, and the offset behind them. -/
def labelsFrom (message : Message) : ℕ → ℕ → Option (List Message × ℕ)
  | 0, _ => none
  | fuel + 1, offset =>
    if message.length ≤ offset then none
    else
      let length := message.byte offset
      if length = 0 then some ([], offset + 1)
      else if 63 < length ∨ length &&& 0xC0 ≠ 0 ∨ message.length < offset + 1 + length then none
      else
        let label := (message.drop (offset + 1)).take length
        (labelsFrom message fuel (offset + 1 + length)).map fun (labels, stop) =>
          (label :: labels, stop)

/-- The first question of a message. -/
def question (message : Message) : Option Question := do
  if message.length < 12 then none
  else
    let (labels, stop) ← labelsFrom message message.length 12
    if message.length < stop + 4 then none
    else some ⟨labels, message.uint16 stop, message.uint16 (stop + 2)⟩

/-- Both messages have one question, and it is the same up to the case of letters. -/
def SameQuestion (query response : Message) : Prop :=
  query.uint16 4 = 1 ∧ response.uint16 4 = 1 ∧ ∃ asked answered,
    question query = some asked ∧ question response = some answered ∧
      asked.type = answered.type ∧ asked.dnsClass = answered.dnsClass ∧
      asked.labels.map (List.map lowerByte) = answered.labels.map (List.map lowerByte)

/-- Both names are cut into labels at the same places. -/
def SameCuts (query response : Message) : Prop :=
  ∀ asked ∈ question query, ∀ answered ∈ question response,
    asked.labels.map List.length = answered.labels.map List.length

/-! ### Names as texts -/

/-- The text of a name with one label more. -/
def appendLabel (name : Name) (label : Message) : Name :=
  if name = [] then label.map lowerByte else name ++ dot :: label.map lowerByte

variable {m : Message} {fuel offset : ℕ}

theorem labelsFrom_ne_nil (h : labelsFrom m fuel offset = some (labels, stop)) :
    ∀ label ∈ labels, label ≠ [] := by
  induction fuel generalizing offset labels with
  | zero => cases h
  | succ fuel ih =>
    obtain ⟨-, h⟩ := Option.ite_none_left_eq_some.mp h
    dsimp only at h
    split at h
    · cases h
      simp
    · rename_i hlength
      obtain ⟨hfits, h⟩ := Option.ite_none_left_eq_some.mp h
      obtain ⟨⟨later, stop'⟩, hlater, heq⟩ := Option.map_eq_some_iff.mp h
      cases heq
      refine List.forall_mem_cons.mpr ⟨fun hempty => ?_, ih hlater⟩
      have hsize := congrArg List.length hempty
      simp only [List.length_take, List.length_drop, List.length_nil] at hsize
      omega

/-- The parser reads the labels, and joins them. -/
theorem parseQuestionNameFrom_eq (name : Name) : parseQuestionNameFrom m fuel offset name =
      (labelsFrom m fuel offset).map fun (labels, stop) =>
      (labels.foldl appendLabel name, stop) := by
  induction fuel generalizing offset name with
  | zero => rfl
  | succ fuel ih =>
    simp only [parseQuestionNameFrom, labelsFrom, ih]
    split
    · rfl
    · split
      · rfl
      · split
        · rfl
        · rw [Option.map_map]
          rfl

theorem questionIdentity_eq (m : Message) : questionIdentity m =
      (question m).map fun q => (q.labels.foldl appendLabel [], q.type, q.dnsClass) := by
  unfold questionIdentity question parseQuestionName
  split
  · rfl
  · rw [parseQuestionNameFrom_eq]
    cases labelsFrom m m.length 12 with
    | none => rfl
    | some found =>
      simp only [Option.map_some, Option.bind_eq_bind, Option.bind_some]
      split <;> rfl

/-- Every label behind a dot. -/
def dotted (labels : List Message) : List Name := labels.map fun label => dot :: label.map lowerByte

/-- Behind the first label every label follows a dot. -/
theorem foldl_appendLabel (hname : name ≠ []) (labels : List Message) :
    labels.foldl appendLabel name = name ++ (dotted labels).flatten := by
  induction labels generalizing name with
  | nil => simp [dotted]
  | cons label labels ih =>
    rw [List.foldl_cons, appendLabel, if_neg hname, ih (by simp), List.append_assoc]
    rfl

theorem flatten_dotted {label : Message} (hlabel : label ≠ []) (labels : List Message) :
    (dotted (label :: labels)).flatten = dot :: (label :: labels).foldl appendLabel [] := by
  rw [List.foldl_cons, appendLabel, if_pos rfl, foldl_appendLabel (by simpa using hlabel)]
  rfl

/-- **Texts and labels.** Names of one text are the same if they are cut at the same places. -/
theorem labels_eq_of_text {labels labels' : List Message} (hlabels : ∀ label ∈ labels, label ≠ [])
    (hlabels' : ∀ label ∈ labels', label ≠ [])
    (htext : labels.foldl appendLabel [] = labels'.foldl appendLabel [])
    (hcuts : labels.map List.length = labels'.map List.length) :
    labels.map (List.map lowerByte) = labels'.map (List.map lowerByte) := by
  cases labels with
  | nil => rw [List.map_eq_nil_iff.mp hcuts.symm]
  | cons label rest =>
    cases labels' with
    | nil => cases hcuts
    | cons label' rest' =>
      have hflat : (dotted (label :: rest)).flatten = (dotted (label' :: rest')).flatten := by
        rw [flatten_dotted (hlabels _ List.mem_cons_self), htext,
          flatten_dotted (hlabels' _ List.mem_cons_self)]
      have hlengths : (dotted (label :: rest)).map List.length =
          (dotted (label' :: rest')).map List.length := by
        have hsucc := congrArg (List.map (· + 1)) hcuts
        simpa [dotted, Function.comp_def] using hsucc
      have hsame := List.eq_iff_flatten_eq.mpr ⟨hflat, hlengths⟩
      simpa [dotted, Function.comp_def] using congrArg (List.map List.tail) hsame

/-! ### Matching -/

theorem matchingQuestion_spec (h : matchingQuestion query response = true) :
    query.uint16 4 = 1 ∧ response.uint16 4 = 1 ∧
      ∃ asked, questionIdentity query = some asked ∧ questionIdentity response = some asked := by
  unfold matchingQuestion at h
  split at h
  · cases h
  · rename_i hheader
    simp only [not_or, not_not] at hheader
    obtain ⟨-, -, -, -, -, hquery, hresponse⟩ := hheader
    split at h
    · rename_i asked answered hasked hanswered
      obtain rfl := eq_of_beq h
      exact ⟨hquery, hresponse, asked, hasked, hanswered⟩
    · cases h

theorem question_labels_ne_nil (h : question m = some q) : ∀ label ∈ q.labels, label ≠ [] := by
  obtain ⟨-, h⟩ := Option.ite_none_left_eq_some.mp h
  obtain ⟨⟨labels, stop⟩, hlabels, h⟩ := Option.bind_eq_some_iff.mp h
  obtain ⟨-, h⟩ := Option.ite_none_left_eq_some.mp h
  cases h
  exact labelsFrom_ne_nil hlabels

/-- **Matching.** A response that is accepted has the question of the query exactly if both names
    are cut into labels at the same places. -/
theorem matching_sameQuestion_iff {query response : Message}
    (h : matchingQuestion query response = true) :
    SameQuestion query response ↔ SameCuts query response := by
  obtain ⟨hquery, hresponse, identity, hasked, hanswered⟩ := matchingQuestion_spec h
  rw [questionIdentity_eq, Option.map_eq_some_iff] at hasked hanswered
  obtain ⟨asked, hasked, rfl⟩ := hasked
  obtain ⟨answered, hanswered, heq⟩ := hanswered
  obtain ⟨htext, hrest⟩ := Prod.mk.inj heq
  obtain ⟨htype, hclass⟩ := Prod.mk.inj hrest
  constructor
  · rintro ⟨-, -, a, b, ha, hb, -, -, hlabels⟩ a' ha' b' hb'
    rw [Option.mem_def, ha] at ha'
    rw [Option.mem_def, hb] at hb'
    cases ha'
    cases hb'
    simpa [Function.comp_def] using congrArg (List.map List.length) hlabels
  · intro hcuts
    refine ⟨hquery, hresponse, asked, answered, hasked, hanswered, htype.symm, hclass.symm, ?_⟩
    exact labels_eq_of_text (question_labels_ne_nil hasked) (question_labels_ne_nil hanswered)
      htext.symm (hcuts asked hasked answered hanswered)

/-- A question for the address of a name. -/
def sampleMessage (flags : UInt8) (name : Message) : Message :=
  [0, 7, flags, 0, 0, 1, 0, 0, 0, 0, 0, 0] ++ name ++ [0, 0, 1, 0, 1]

/-- The labels `a` and `b`. -/
def sampleQuery : Message := sampleMessage 0 [1, 97, 1, 98]

/-- The single label `a.b`. -/
theorem sample_matching_different :
    matchingQuestion sampleQuery (sampleMessage 0x80 [3, 97, 46, 98]) = true ∧
      ¬ SameQuestion sampleQuery (sampleMessage 0x80 [3, 97, 46, 98]) := by
  refine ⟨by decide +kernel, ?_⟩
  rintro ⟨-, -, asked, answered, hasked, hanswered, -, -, hlabels⟩
  have hquery : question sampleQuery = some ⟨[[97], [98]], 1, 1⟩ := by decide +kernel
  have hresponse : question (sampleMessage 0x80 [3, 97, 46, 98]) =
      some ⟨[[97, 46, 98]], 1, 1⟩ := by decide +kernel
  rw [hquery] at hasked
  rw [hresponse] at hanswered
  cases hasked
  cases hanswered
  exact absurd hlabels (by decide)

theorem sample_matching_same :
    matchingQuestion sampleQuery (sampleMessage 0x80 [1, 65, 1, 66]) = true ∧
      SameQuestion sampleQuery (sampleMessage 0x80 [1, 65, 1, 66]) := by
  have hmatch : matchingQuestion sampleQuery (sampleMessage 0x80 [1, 65, 1, 66]) = true := by
    decide +kernel
  refine ⟨hmatch, (matching_sameQuestion_iff hmatch).mpr ?_⟩
  have hcuts : (question sampleQuery).map (fun q => q.labels.map List.length) = some [1, 1] ∧
      (question (sampleMessage 0x80 [1, 65, 1, 66])).map (fun q => q.labels.map List.length) =
        some [1, 1] := by decide +kernel
  intro asked hasked answered hanswered
  rw [Option.mem_def] at hasked hanswered
  rw [hasked, hanswered] at hcuts
  exact (Option.some.inj hcuts.1).trans (Option.some.inj hcuts.2).symm

end SbGateway.PolicyDns
