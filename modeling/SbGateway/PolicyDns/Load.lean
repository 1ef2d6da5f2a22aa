import SbGateway.PolicyDns.Target

namespace SbGateway.PolicyDns

open Lib

/-!
# Loading a policy-DNS document

Decoding moves the names of a large inline rule into a shared set that other rules and
lanes may use as well.  The relation `Interned` says what decoding may do to a lane; it only
needs the sets to keep their keys, so it survives everything decoded later.

* `Interned.reference_eq` — an interned lane reads as the lane it came from;
* `decodeFields_spec` — decoding interns every lane and adds at most one set per rule or
  declared set, so the `uint32` numbers of the sets do not wrap;
* `loadRuntime_target` — **every lane of a loaded document answers every name as its
  configuration reads.**
-/

variable {toLower : Name → Name} {setID : DomainSet → String}

/-! ### What interning may do -/

/-- `rule'` is `rule`, or `rule` with its inline names moved into a set of `sets`. -/
def InternedRule (setID : DomainSet → String) (sets : SetMap) (rule rule' : RuleConfig) : Prop :=
  rule' = rule ∨
    (rule.domainSet = "" ∧ setID ⟨rule.domain, rule.domainSuffix⟩ ∈ sets ∧
      rule' = { rule with
        domainSet := setID ⟨rule.domain, rule.domainSuffix⟩, domain := none, domainSuffix := none })

/-- `lane'` is `lane` with some of its rules interned. -/
structure Interned (setID : DomainSet → String) (sets : SetMap) (lane lane' : LaneConfig) :
    Prop where
  final : lane'.final = lane.final
  rules : List.Forall₂ (InternedRule setID sets) lane.rules lane'.rules

/-- The sets keep their keys. -/
def KeysLe (sets sets' : SetMap) : Prop :=
  ∀ key, key ∈ sets → key ∈ sets'

theorem KeysLe.trans (hab : KeysLe a b) (hbc : KeysLe b c) : KeysLe a c :=
  fun key h => hbc key (hab key h)

theorem InternedRule.mono (hle : KeysLe sets sets') (h : InternedRule setID sets rule rule') :
    InternedRule setID sets' rule rule' :=
  h.imp_right (fun ⟨hempty, hmem, heq⟩ => ⟨hempty, hle _ hmem, heq⟩)

theorem Interned.mono (hle : KeysLe sets sets') (h : Interned setID sets lane lane') :
    Interned setID sets' lane lane' :=
  ⟨h.final, h.rules.imp (fun _ _ => InternedRule.mono hle)⟩

/-- **An interned rule matches the same names**, once every set is filed under its own id. -/
theorem InternedRule.matches_eq (hinj : Function.Injective setID) (hid : ∀ set, setID set ≠ "")
    (hvalid : ∀ key set, sets.lookup key = some set → setID set = key)
    (h : InternedRule setID sets rule rule') (name : Name) :
    rule'.matches toLower sets name = rule.matches toLower sets name := by
  rcases h with rfl | ⟨hempty, hmem, rfl⟩
  · rfl
  · obtain ⟨set, hset⟩ := Option.isSome_iff_exists.mp (AList.lookup_isSome.mpr hmem)
    -- the set filed under the id is the one that was interned
    obtain rfl := hinj (hvalid _ _ hset)
    simp [RuleConfig.matches, hset, hid, hempty, matchesExact, matchesSuffix, Slice.entries]

theorem Interned.reference_eq (hinj : Function.Injective setID) (hid : ∀ set, setID set ≠ "")
    (hvalid : ∀ key set, sets.lookup key = some set → setID set = key)
    (h : Interned setID sets lane lane') (name : Name) :
    lane'.reference toLower sets name = lane.reference toLower sets name := by
  have hfind : ∀ {rules rules' : List RuleConfig},
      List.Forall₂ (InternedRule setID sets) rules rules' →
      (rules'.find? (fun rule => rule.matches toLower sets name)).map
          (fun rule => (rule.server, rule.action))
        = (rules.find? (fun rule => rule.matches toLower sets name)).map
          (fun rule => (rule.server, rule.action)) := by
    intro rules rules' hrules
    induction hrules with
    | nil => rfl
    | @cons rule rule' rest rest' hrule _ ih =>
      rw [List.find?_cons, List.find?_cons, hrule.matches_eq hinj hid hvalid]
      cases rule.matches toLower sets name with
      | false => exact ih
      | true =>
        rcases hrule with rfl | ⟨_, _, rfl⟩ <;> rfl
  have hrules := hfind h.rules
  rw [LaneConfig.reference, LaneConfig.reference, h.final]
  cases hold : lane.rules.find? (fun rule => rule.matches toLower sets name) with
  | none =>
    rw [hold, Option.map_none, Option.map_eq_none_iff] at hrules
    rw [hrules]
  | some rule =>
    rw [hold, Option.map_some, Option.map_eq_some_iff] at hrules
    obtain ⟨rule', hnew, heq⟩ := hrules
    rw [hnew]
    simp only [Prod.mk.injEq] at heq
    simp only [heq]

/-! ### Decoding -/

theorem length_keys_insert_le (sets : SetMap) (key : String) (set : DomainSet) :
    (sets.insert key set).keys.length ≤ sets.keys.length + 1 := by
  rw [AList.keys_insert, List.length_cons]
  exact Nat.succ_le_succ (List.length_erase_le ..)

/-- What a decoding step does to the sets: keys stay, and at most `bound` are new. -/
structure Grows (bound : ℕ) (sets sets' : SetMap) : Prop where
  keys : KeysLe sets sets'
  length : sets'.keys.length ≤ sets.keys.length + bound

theorem Grows.refl (sets : SetMap) : Grows 0 sets sets :=
  ⟨fun _ h => h, Nat.le_refl _⟩

theorem Grows.trans (hab : Grows m a b) (hbc : Grows n b c) : Grows (m + n) a c :=
  ⟨hab.keys.trans hbc.keys, by have := hab.length; have := hbc.length; omega⟩

theorem Grows.weaken (h : Grows m a b) (hle : m ≤ n) : Grows n a b :=
  ⟨h.keys, by have := h.length; omega⟩

theorem grows_insert (sets : SetMap) (key : String) (set : DomainSet) :
    Grows 1 sets (sets.insert key set) :=
  ⟨fun _ h => AList.mem_insert _ |>.mpr (.inr h), length_keys_insert_le ..⟩

theorem internRule_spec (setID : DomainSet → String) (sets : SetMap) (rule : RuleConfig) :
    Grows 1 sets (internRule setID sets rule).1
      ∧ InternedRule setID (internRule setID sets rule).1 rule (internRule setID sets rule).2 := by
  rw [internRule]
  split
  · exact ⟨(Grows.refl sets).weaken (Nat.zero_le 1), .inl rfl⟩
  · rename_i hlarge
    have hempty : rule.domainSet = "" := not_not.mp (fun hne => hlarge (.inl hne))
    by_cases hmem : setID ⟨rule.domain, rule.domainSuffix⟩ ∈ sets
    · simp only [hmem, if_true]
      exact ⟨(Grows.refl sets).weaken (Nat.zero_le 1), .inr ⟨hempty, hmem, rfl⟩⟩
    · simp only [hmem, if_false]
      exact ⟨grows_insert .., .inr ⟨hempty, AList.mem_insert _ |>.mpr (.inl rfl), rfl⟩⟩

theorem internRules_spec (setID : DomainSet → String) (sets : SetMap) (rules : List RuleConfig) :
    Grows rules.length sets (internRules setID sets rules).1
      ∧ List.Forall₂ (InternedRule setID (internRules setID sets rules).1) rules
          (internRules setID sets rules).2 := by
  induction rules generalizing sets with
  | nil => exact ⟨Grows.refl sets, .nil⟩
  | cons rule rest ih =>
    obtain ⟨hgrow, hrule⟩ := internRule_spec setID sets rule
    obtain ⟨hgrows, hrules⟩ := ih (internRule setID sets rule).1
    exact ⟨(hgrow.trans hgrows).weaken (by simp [Nat.add_comm]),
      .cons (hrule.mono hgrows.keys) hrules⟩

theorem internLanes_spec (setID : DomainSet → String) (sets : SetMap) (lanes : List LaneConfig) :
    Grows (lanes.map (fun lane => lane.rules.length)).sum sets (internLanes setID sets lanes).1
      ∧ List.Forall₂ (Interned setID (internLanes setID sets lanes).1) lanes
          (internLanes setID sets lanes).2 := by
  induction lanes generalizing sets with
  | nil => exact ⟨Grows.refl sets, .nil⟩
  | cons lane rest ih =>
    obtain ⟨hgrow, hrules⟩ := internRules_spec setID sets lane.rules
    obtain ⟨hgrows, hrest⟩ := ih (internRules setID sets lane.rules).1
    exact ⟨(hgrow.trans hgrows).weaken (by simp),
      .cons (Interned.mono hgrows.keys ⟨rfl, hrules⟩) hrest⟩

theorem mergeSets_grows (h : mergeSets setID sets decoded = .ok sets') :
    Grows decoded.length sets sets' := by
  refine foldlM_eq_ok_induct (fun done now => Grows done.length sets now) ?_ (Grows.refl sets) h
  intro done entry now next hnow hstep
  have hnext : next = now.insert entry.1 entry.2 := by
    split at hstep
    · split at hstep
      · cases hstep
      · exact (Except.ok.inj hstep).symm
    · exact (Except.ok.inj hstep).symm
  rw [hnext, List.length_append]
  exact hnow.trans (grows_insert ..)

/-- The lanes a field holds, as written. -/
def Field.laneConfigs : Field → List LaneConfig
  | .lanes (some values) => values
  | _ => []

/-- The lanes of a document, as written. -/
def Document.laneConfigs (document : Document) : List LaneConfig :=
  document.fields.flatMap Field.laneConfigs

/-- What decoding a part of the document does: its lanes are appended, interned. -/
structure Decoded (setID : DomainSet → String) (bound : ℕ) (written : List LaneConfig)
    (raw raw' : RawConfig) : Prop where
  grows : Grows bound raw.domainSets raw'.domainSets
  lanes : ∃ lanes, raw'.lanes = raw.lanes ++ lanes
    ∧ List.Forall₂ (Interned setID raw'.domainSets) written lanes

theorem decodeField_spec (h : decodeField setID raw field = .ok raw') :
    Decoded setID field.weight field.laneConfigs raw raw' := by
  have unchanged : ∀ raw : RawConfig, ∃ lanes, raw.lanes = raw.lanes ++ lanes
      ∧ List.Forall₂ (Interned setID raw.domainSets) [] lanes :=
    fun raw => ⟨[], (List.append_nil _).symm, .nil⟩
  cases field with
  | lanes value =>
    cases value with
    | none =>
      cases h
      exact ⟨Grows.refl _, unchanged _⟩
    | some values =>
      cases h
      obtain ⟨hgrow, hlanes⟩ := internLanes_spec setID raw.domainSets values
      exact ⟨hgrow, _, rfl, hlanes⟩
  | domainSets sets =>
    obtain ⟨merged, hmerge, hok⟩ := bind_eq_ok h
    cases hok
    have hgrow := mergeSets_grows hmerge
    exact ⟨hgrow.weaken (by simp [Field.weight, AList.keys, List.keys]), unchanged _⟩
  | version value =>
    cases h
    exact ⟨Grows.refl _, unchanged raw⟩
  | other key =>
    cases h
    exact ⟨Grows.refl _, unchanged raw⟩

theorem decodeFields_spec (h : decodeFields setID seen raw fields = .ok raw') :
    Decoded setID (fields.map Field.weight).sum (fields.flatMap Field.laneConfigs) raw raw' := by
  induction fields generalizing seen raw with
  | nil =>
    cases h
    exact ⟨Grows.refl _, [], (List.append_nil _).symm, .nil⟩
  | cons field rest ih =>
    rw [decodeFields] at h
    split at h
    · cases h
    · obtain ⟨mid, hfield, hrest⟩ := bind_eq_ok h
      obtain ⟨hgrow, lanes, hlanes, hinterned⟩ := decodeField_spec hfield
      obtain ⟨hgrows, others, hothers, hrestInterned⟩ := ih hrest
      refine ⟨by simpa using hgrow.trans hgrows, lanes ++ others, ?_, ?_⟩
      · rw [hothers, hlanes, List.append_assoc]
      · rw [List.flatMap_cons]
        exact List.rel_append
          (hinterned.imp (fun _ _ hlane => hlane.mono hgrows.keys)) hrestInterned

/-! ### A sample document -/

/-- A name as text in which its end is marked. -/
def nameText : Name → List Char := framedList 'b' 'n' fun b => [Char.ofUInt8 b]

/-- A name list as text in which its end is marked. -/
def namesText : List Name → List Char := framedList 'e' 'l' nameText

/-- The text of a list that may be missing. -/
def sliceText : Slice → List Char
  | none => ['0']
  | some names => '1' :: namesText names

/-- The unhashed text of a set, in place of its SHA-256. -/
def setText (set : DomainSet) : String :=
  String.ofList (sliceText set.domain ++ sliceText set.domainSuffix)

/-- `strings.ToLower` on ASCII bytes. -/
def lowerASCII (name : Name) : Name :=
  name.map (fun b => if 65 ≤ b ∧ b ≤ 90 then b + 32 else b)

theorem ofUInt8_injective (h : Char.ofUInt8 a = Char.ofUInt8 b) : a = b := by
  have hval : a.toUInt32 = b.toUInt32 := congrArg Char.val h
  have hnat := congrArg UInt32.toNat hval
  simp only [UInt8.toNat_toUInt32] at hnat
  exact UInt8.toNat.inj hnat

theorem namesText_framed : Framed namesText := by
  have hbyte : Framed fun b : UInt8 => [Char.ofUInt8 b] := fun _ _ _ _ h =>
    ⟨ofUInt8_injective (List.cons.inj h).1, (List.cons.inj h).2⟩
  have hname : Framed nameText := hbyte.list (by decide)
  exact hname.list (by decide)

theorem sliceText_framed : Framed sliceText := by
  intro a b x y h
  cases a with
  | none => cases b <;> simp_all [sliceText]
  | some names =>
    cases b with
    | none => simp [sliceText] at h
    | some others =>
      simp only [sliceText, List.cons_append, List.cons.injEq, true_and] at h
      obtain ⟨rfl, rfl⟩ := namesText_framed h
      exact ⟨rfl, rfl⟩

theorem setText_injective : Function.Injective setText := by
  intro a b h
  have htext := String.ofList_injective h
  obtain ⟨hdomain, hrest⟩ := sliceText_framed htext
  have hsuffix : a.domainSuffix = b.domainSuffix := by
    refine (sliceText_framed (x := []) (y := []) ?_).1
    rw [hrest]
  cases a
  cases b
  simp only at hdomain hsuffix
  rw [hdomain, hsuffix]

theorem setText_ne_empty (set : DomainSet) : setText set ≠ "" := by
  intro h
  have := congrArg String.toList h
  cases hd : set.domain <;> simp [setText, sliceText, hd] at this

/-- The set of the suffix `.Ex`. -/
def sampleSet : DomainSet := ⟨none, some [[46, 69, 120]]⟩

/-- A lane with a rule that decoding interns and a rule that names a declared set. -/
def sampleLane : LaneConfig where
  id := "lane"
  host := "127.0.0.1"
  port := 5300
  final := "vpn"
  rules :=
    [ ⟨"", some ([65] :: List.replicate 63 []), none, "", "direct"⟩,
      ⟨setText sampleSet, none, none, "reject", ""⟩ ]

/-- A document with a set and a lane. -/
def sampleDocument : Document where
  fields :=
    [ .version 2, .domainSets ((∅ : SetMap).insert (setText sampleSet) sampleSet),
      .lanes (some [sampleLane]) ]
  size := 900
  weight_le_size := by decide

theorem lowerASCII_eq_nil (s : Name) : lowerASCII s = [] ↔ s = [] := List.map_eq_nil_iff

/-! ### Loading -/

theorem compileLanes_spec (h : compileLanes toLower shared ids seen raws = .ok lanes) :
    List.Forall₂ (fun raw lane => compileLane toLower shared ids raw = .ok lane) raws lanes := by
  induction raws generalizing seen lanes with
  | nil =>
    cases h
    exact .nil
  | cons raw rest ih =>
    obtain ⟨compiled, hcompiled, h⟩ := bind_eq_ok h
    split at h
    · cases h
    · obtain ⟨others, hothers, h⟩ := bind_eq_ok h
      cases h
      exact .cons hcompiled (ih hothers)

/-- The two relations of a pair of equally long lists compose. -/
theorem forall₂_comp {R : α → β → Prop} {T : α → γ → Prop} (hcomp : ∀ a b c, R a b → S b c → T a c)
    (h₁ : List.Forall₂ R l₁ l₂) (h₂ : List.Forall₂ S l₂ l₃) : List.Forall₂ T l₁ l₃ := by
  induction h₁ generalizing l₃ with
  | nil =>
    cases h₂
    exact .nil
  | cons hR _ ih =>
    cases h₂ with
    | cons hS hrest => exact .cons (hcomp _ _ _ hR hS) (ih hrest)

/-- **First-match routing.** When a document loads, its lanes are those written in it, in
    order, and each answers every name with the first rule that matches it as written, inline
    or through its shared set.  `setID` stands for the SHA-256 of a set's JSON in hex, and
    `toLower` for the library's lower-casing. -/
theorem loadRuntime_target (hinj : Function.Injective setID) (hid : ∀ set, setID set ≠ "")
    (hlower : ∀ s, toLower s = [] ↔ s = []) {document : Document} {lanes : List Lane}
    (h : loadRuntime setID toLower document = .ok lanes) :
    ∃ raw, decodeRuntimeConfig setID document = .ok raw ∧
      List.Forall₂ (fun conf lane => ∀ name,
          lane.target name = conf.reference toLower raw.domainSets name)
        document.laneConfigs lanes := by
  obtain ⟨raw, hdecode, h⟩ := bind_eq_ok h
  refine ⟨raw, hdecode, ?_⟩
  obtain ⟨decoded, hfields, hsize⟩ := bind_eq_ok hdecode
  split at hsize
  · cases hsize
  rename_i hfits
  cases hsize
  obtain ⟨hgrow, written, hwritten, hinterned⟩ := decodeFields_spec hfields
  -- at most one set per byte of the document
  have hlen : raw.domainSets.keys.length < 2 ^ 32 := by
    have hbound : raw.domainSets.keys.length ≤ 0 + (document.fields.map Field.weight).sum :=
      hgrow.length
    have hweight := document.weight_le_size
    rw [maxRuntimeConfigBytes] at hfits
    omega
  split at h
  · cases h
  split at h
  · cases h
  obtain ⟨⟨shared, ids⟩, hcompile, hlanes⟩ := bind_eq_ok h
  rw [hwritten, List.nil_append] at hlanes
  refine forall₂_comp ?_ hinterned (compileLanes_spec hlanes)
  intro conf conf' lane hconf hlane name
  calc lane.target name
      = conf'.reference toLower raw.domainSets name :=
        compileLane_target hlower hcompile hlen hlane name
    _ = conf.reference toLower raw.domainSets name :=
        hconf.reference_eq hinj hid (fun _ _ hset => setID_of_compile hcompile hset) name

theorem loadRuntime_target_sample :
    ∃ lanes, loadRuntime setText lowerASCII sampleDocument = .ok lanes ∧
      ∃ raw, decodeRuntimeConfig setText sampleDocument = .ok raw ∧
        List.Forall₂ (fun conf lane => ∀ name,
            lane.target name = conf.reference lowerASCII raw.domainSets name)
          sampleDocument.laneConfigs lanes := by
  have hloads : (loadRuntime setText lowerASCII sampleDocument).toOption.isSome = true := by
    decide +kernel
  cases h : loadRuntime setText lowerASCII sampleDocument with
  | error e => simp [h, Except.toOption] at hloads
  | ok lanes =>
    exact ⟨lanes, rfl, loadRuntime_target setText_injective setText_ne_empty lowerASCII_eq_nil h⟩

end SbGateway.PolicyDns
