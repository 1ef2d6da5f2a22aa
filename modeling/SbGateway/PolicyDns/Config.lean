import SbGateway.PolicyDns.DomainSet

namespace SbGateway.PolicyDns

open Lib

/-!
# Policy-DNS lanes (`internal/policydns/config.go`, `config_stream.go`)

A lane is an ordered list of rules over domain names.  `decodeRuntimeConfig` reads the
top-level fields of the document in their order and interns every large inline rule into a
shared set; `compileLane` files each rule under its keys in three first-decision indexes;
`Lane.target` merges the three by rule order.

`loadRuntime` follows the source from the decoded document to the ordered lane list.  The
upstream clients and the response cache it also builds do not influence lanes and are left
out.
-/

/-- `ruleConfig`. -/
structure RuleConfig where
  domainSet : String
  domain : Slice
  domainSuffix : Slice
  action : String
  server : String
  deriving DecidableEq

/-- `laneConfig`. -/
structure LaneConfig where
  id : String
  host : String
  port : Int
  final : String
  rules : List RuleConfig
  deriving DecidableEq

/-- `ruleDecision`. -/
structure RuleDecision where
  order : ℕ
  reject : Bool
  server : String
  deriving DecidableEq, Repr

/-- `lane`: the compiled form of a `LaneConfig`. -/
structure Lane where
  shared : Option Index
  setDecisions : AList (fun _ : UInt32 => RuleDecision)
  id : String
  host : String
  port : Int
  final : String
  exact : AList (fun _ : Name => RuleDecision)
  suffix : AList (fun _ : Name => RuleDecision)

section CompileLane

variable (toLower : Name → Name)

/-- The exact keys of an inline rule, in list order. -/
def RuleConfig.exactKeys (rule : RuleConfig) : List Name :=
  (rule.domain.entries.map toLower).filter (· ≠ [])

/-- The suffix keys of an inline rule, in list order. -/
def RuleConfig.suffixKeys (rule : RuleConfig) : List Name :=
  (rule.domainSuffix.entries.map (fun value => toLower (trimDots value))).filter (· ≠ [])

/-- The decision of a rule at position `index`; an empty server means `reject`. -/
def RuleConfig.decision (rule : RuleConfig) (index : ℕ) : RuleDecision where
  order := index
  reject := rule.action == "reject"
  server := if rule.server = "" then "reject" else rule.server

/-- One iteration of the rule loop of `compileLaneWithSets`. -/
def Lane.addRule (ids : IdMap) (lane : Lane) (entry : RuleConfig × ℕ) : Except String Lane :=
  let (rule, index) := entry
  let decision := rule.decision index
  let inline (lane : Lane) : Lane :=
    { lane with
      exact := addKeys decision (rule.exactKeys toLower) lane.exact
      suffix := addKeys decision (rule.suffixKeys toLower) lane.suffix }
  if rule.domainSet = "" then .ok (inline lane)
  else
    match ids.lookup rule.domainSet with
    | none => .error "DNS rule references a missing shared domain set"
    | some id =>
      .ok (inline { lane with setDecisions := addKeys decision [id] lane.setDecisions })

/-- `compileLaneWithSets`. -/
def compileLane (shared : Option Index) (ids : IdMap) (raw : LaneConfig) : Except String Lane :=
  if raw.id = "" then .error "policy DNS lane has no id"
  else if raw.host ≠ "127.0.0.1" ∧ raw.host ≠ "::1" then
    .error ("policy DNS lane " ++ raw.id.quote ++ " is not loopback")
  else if raw.port < 1024 ∨ raw.port > 65535 then
    .error ("policy DNS lane " ++ raw.id.quote ++ " has unsafe port")
  else
    raw.rules.zipIdx.foldlM (Lane.addRule toLower ids)
      { shared, setDecisions := ∅, id := raw.id, host := raw.host, port := raw.port
        final := if raw.final = "" then "reject" else raw.final, exact := ∅, suffix := ∅ }

end CompileLane

/-- The decision `lane.target` holds after its three lookups. -/
def Lane.found (lane : Lane) (name : Name) : Option RuleDecision :=
  let found := lane.exact.lookup name
  let found := (labelWalk dot name).foldl
    (fun found suffix => better RuleDecision.order found (lane.suffix.lookup suffix)) found
  -- shared membership never owns the decision of a lane
  (Index.match lane.shared name).foldl
    (fun found id => better RuleDecision.order found (lane.setDecisions.lookup id)) found

/-- `lane.target`: the server and the reject flag for a name. -/
def Lane.target (lane : Lane) (name : Name) : String × Bool :=
  match lane.found name with
  | none => (lane.final, lane.final == "reject")
  | some decision => (decision.server, decision.reject)

/-! ### Decoding the document -/

/-- A top-level field of the policy-DNS document, already decoded to its Go type.  `lanes` is
    `none` for a JSON `null`; `servers` and `timeout_seconds` are decoded by the source and
    have no influence on lanes. -/
inductive Field where
  | lanes (value : Option (List LaneConfig))
  | domainSets (value : SetMap)
  | version (value : Int)
  | other (key : String)

/-- The JSON key of a field. -/
def Field.key : Field → String
  | .lanes _ => "lanes"
  | .domainSets _ => "domain_sets"
  | .version _ => "version"
  | .other key => key

/-- A lower bound for the bytes a field takes: every rule and every set takes at least one. -/
def Field.weight : Field → ℕ
  | .lanes (some values) => (values.map (fun lane => lane.rules.length)).sum
  | .lanes none => 0
  | .domainSets sets => sets.keys.length
  | .version _ => 0
  | .other _ => 0

/-- A policy-DNS document: its fields in order and its length in bytes. -/
structure Document where
  fields : List Field
  size : ℕ
  weight_le_size : (fields.map Field.weight).sum ≤ size

/-- `maxRuntimeConfigBytes`. -/
def maxRuntimeConfigBytes : ℕ := 32 * 2 ^ 20

/-- `rawConfig`, as far as lanes depend on it. -/
structure RawConfig where
  domainSets : SetMap
  version : Int
  lanes : List LaneConfig

section Decode

variable (setID : DomainSet → String)

/-- The body of the rule loop of `decodeRuntimeLanes`: intern one large inline rule. -/
def internRule (sets : SetMap) (rule : RuleConfig) : SetMap × RuleConfig :=
  if rule.domainSet ≠ ""
      ∨ rule.domain.entries.length + rule.domainSuffix.entries.length < shareThreshold then
    (sets, rule)
  else
    let set : DomainSet := ⟨rule.domain, rule.domainSuffix⟩
    let id := setID set
    (if id ∈ sets then sets else sets.insert id set,
      { rule with domainSet := id, domain := none, domainSuffix := none })

/-- The rule loop over one lane. -/
def internRules (sets : SetMap) : List RuleConfig → SetMap × List RuleConfig
  | [] => (sets, [])
  | rule :: rest =>
    let (sets, rule) := internRule setID sets rule
    let (sets, rest) := internRules sets rest
    (sets, rule :: rest)

/-- The lane loop of `decodeRuntimeLanes`. -/
def internLanes (sets : SetMap) : List LaneConfig → SetMap × List LaneConfig
  | [] => (sets, [])
  | lane :: rest =>
    let (sets, rules) := internRules setID sets lane.rules
    let (sets, rest) := internLanes sets rest
    (sets, { lane with rules } :: rest)

/-- Merging a decoded `domain_sets` object into the sets read so far. -/
def mergeSets (sets : SetMap) (decoded : List (Sigma fun _ : String => DomainSet)) :
    Except String SetMap :=
  decoded.foldlM (fun sets entry =>
    match sets.lookup entry.1 with
    | some previous =>
      if setID previous ≠ setID entry.2 then .error "conflicting shared DNS domain set"
      else .ok (sets.insert entry.1 entry.2)
    | none => .ok (sets.insert entry.1 entry.2)) sets

/-- One field of the decoding loop of `decodeRuntimeConfig`. -/
def decodeField (raw : RawConfig) : Field → Except String RawConfig
  | .lanes none => .ok raw
  | .lanes (some lanes) =>
    let (domainSets, lanes) := internLanes setID raw.domainSets lanes
    .ok { raw with domainSets, lanes := raw.lanes ++ lanes }
  | .domainSets sets => do
    let domainSets ← mergeSets setID raw.domainSets sets.entries
    .ok { raw with domainSets }
  | .version version => .ok { raw with version }
  | .other _ => .ok raw

/-- The decoding loop: `seen` holds the keys read so far. -/
def decodeFields (seen : List String) (raw : RawConfig) : List Field → Except String RawConfig
  | [] => .ok raw
  | field :: rest =>
    if field.key ∈ seen then .error "duplicate or invalid policy DNS field"
    else do
      let raw ← decodeField setID raw field
      decodeFields (field.key :: seen) raw rest

/-- `decodeRuntimeConfig`. -/
def decodeRuntimeConfig (document : Document) : Except String RawConfig := do
  let raw ← decodeFields setID [] ⟨∅, 0, []⟩ document.fields
  if document.size > maxRuntimeConfigBytes then
    .error "policy DNS config exceeds size limit"
  else .ok raw

/-- The lane loop of `loadRuntime`: compile in order, refuse a repeated id. -/
def compileLanes (toLower : Name → Name) (shared : Option Index) (ids : IdMap)
    (seen : List String) : List LaneConfig → Except String (List Lane)
  | [] => .ok []
  | raw :: rest => do
    let compiled ← compileLane toLower shared ids raw
    if compiled.id ∈ seen then
      .error ("duplicate policy DNS lane " ++ compiled.id.quote)
    else do
      let others ← compileLanes toLower shared ids (compiled.id :: seen) rest
      .ok (compiled :: others)

/-- `loadRuntime`: the ordered lanes of a document. -/
def loadRuntime (toLower : Name → Name) (document : Document) : Except String (List Lane) := do
  let raw ← decodeRuntimeConfig setID document
  if raw.version < 0 ∨ raw.version > 2 then .error "unsupported policy DNS schema"
  else if raw.lanes.length = 0 then .error "policy DNS config has no lanes yet"
  else do
    let (shared, ids) ← compile toLower setID raw.domainSets
    compileLanes toLower shared ids [] raw.lanes

end Decode

end SbGateway.PolicyDns
