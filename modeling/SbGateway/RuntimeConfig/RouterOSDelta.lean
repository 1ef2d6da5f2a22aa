import SbGateway.Lib.NetText

namespace SbGateway.RuntimeConfig

open Lib

/-!
# Delta scripts of RouterOS candidates

A RouterOS candidate is a script of complete sections in a fixed order.  When a candidate replaces
another one, only some sections are applied: those that differ, and others that must come with
them.  The rollback script has the same sections of the previous candidate.

* `splitRouterOSCandidate`, `buildRouterOSDelta` — as the code computes them;
* `splitSections_flatMap` — scripts are read back as the sections they are made of;
* `selected_symm` — both directions select the same sections, although only one of the two
  scripts is searched for the WireGuard ingress.
-/

/-- A line or a text of several lines. -/
abbrev ScriptText := List Char

/-- The sections of a candidate. -/
inductive RouterOSSection where
  | panelPortCheck | publicPortCheck | core | dns | watchdog | addressLists | protocolPolicy
  | outageExceptions | publicIngress | panelIngress | wireguardEgress | ipv6 | finalize
  deriving DecidableEq, Repr

/-- The name of a section in its first line. -/
def RouterOSSection.name : RouterOSSection → ScriptText
  | .panelPortCheck => "panel-port-check".toList
  | .publicPortCheck => "public-port-check".toList
  | .core => "core".toList
  | .dns => "dns".toList
  | .watchdog => "watchdog".toList
  | .addressLists => "address-lists".toList
  | .protocolPolicy => "protocol-policy".toList
  | .outageExceptions => "outage-exceptions".toList
  | .publicIngress => "public-ingress".toList
  | .panelIngress => "panel-ingress".toList
  | .wireguardEgress => "wireguard-egress".toList
  | .ipv6 => "ipv6".toList
  | .finalize => "finalize".toList

/-- The order of the sections in a candidate. -/
def routerOSSectionOrder : List RouterOSSection :=
  [.panelPortCheck, .publicPortCheck, .core, .dns, .watchdog, .addressLists, .protocolPolicy,
    .outageExceptions, .publicIngress, .panelIngress, .wireguardEgress, .ipv6, .finalize]

/-- The first line of a candidate. -/
def routerOSCandidateHeader : ScriptText :=
  "# SB-GATEWAY generated candidate; managed objects only".toList

/-- What the first line of a section starts with. -/
def routerOSSectionStart : ScriptText :=
  "# SB-GATEWAY section:".toList

/-- The section with a name. -/
def RouterOSSection.ofName (name : ScriptText) : Option RouterOSSection :=
  routerOSSectionOrder.find? fun s => s.name = name

theorem mem_routerOSSectionOrder (s : RouterOSSection) : s ∈ routerOSSectionOrder := by
  cases s <;> decide

theorem ofName_name (s : RouterOSSection) : RouterOSSection.ofName s.name = some s := by
  cases s <;> decide +kernel

/-! ### Lines -/

/-- `strings.Join(lines, "\n")` -/
def joinLines (lines : List ScriptText) : ScriptText := List.intercalate ['\n'] lines

/-- `strings.TrimSuffix(text, "\n")` -/
def trimNewline (text : ScriptText) : ScriptText :=
  if text.getLast? = some '\n' then text.dropLast else text

theorem joinLines_cons_cons (line next : ScriptText) (rest : List ScriptText) :
    joinLines (line :: next :: rest) = line ++ '\n' :: joinLines (next :: rest) := by
  simp [joinLines, List.intercalate]

/-- The lines of joined texts are the lines of the texts. -/
theorem fieldsOf_joinLines (hne : texts ≠ []) :
    fieldsOf '\n' (joinLines texts) = texts.flatMap (fieldsOf '\n') := by
  induction texts with
  | nil => exact absurd rfl hne
  | cons text rest ih =>
    cases rest with
    | nil => simp [joinLines, List.intercalate]
    | cons next more =>
      rw [joinLines_cons_cons, fieldsOf_append_sep, ih (List.cons_ne_nil _ _)]
      rfl

variable {lines : List ScriptText}

theorem flatMap_fieldsOf (h : ∀ line ∈ lines, '\n' ∉ line) :
    lines.flatMap (fieldsOf '\n') = lines := by
  induction lines with
  | nil => rfl
  | cons line rest ih =>
    rw [List.forall_mem_cons] at h
    rw [List.flatMap_cons, fieldsOf_eq_singleton h.1, ih h.2, List.singleton_append]

/-- Fields hold no separator. -/
theorem notMem_of_mem_fieldsOf (h : field ∈ fieldsOf sep text) : sep ∉ field := by
  induction text generalizing field with
  | nil =>
    rw [List.mem_singleton.mp h]
    exact List.not_mem_nil
  | cons c text ih =>
    rw [fieldsOf] at h
    split at h
    · rcases List.mem_cons.mp h with rfl | h
      · exact List.not_mem_nil
      · exact ih h
    · rename_i hc
      split at h
      · rw [List.mem_singleton.mp h, List.mem_singleton]
        exact Ne.symm hc
      · rename_i first rest hfields
        rcases List.mem_cons.mp h with rfl | h
        · rw [List.mem_cons, not_or]
          exact ⟨Ne.symm hc, ih (hfields ▸ List.mem_cons_self)⟩
        · exact ih (hfields ▸ List.mem_cons_of_mem _ h)

/-! ### Reading sections -/

/-- Sections with their lines. -/
abbrev SectionParts := List (RouterOSSection × List ScriptText)

/-- Start a section, unless it is unknown or was there before. -/
def startSection (parts : SectionParts) : Option RouterOSSection → Option SectionParts
  | none => none
  | some s => if s ∈ parts.map Prod.fst then none else some ((s, []) :: parts)

/-- Add a line to the newest section. -/
def addToCurrent (line : ScriptText) : SectionParts → Option SectionParts
  | [] => none
  | (s, lines) :: older => some ((s, lines ++ [line]) :: older)

/-- One line of a script. -/
def addLine (parts : SectionParts) (line : ScriptText) : Option SectionParts :=
  match line.dropPrefix? routerOSSectionStart with
  | some name => startSection parts (RouterOSSection.ofName name)
  | none => addToCurrent line parts

/-- The lines of a script by sections, the newest first. -/
def splitSections (parts : SectionParts) (lines : List ScriptText) : Option SectionParts :=
  lines.foldlM addLine parts

/-- The text of a section. -/
def SectionParts.text (parts : SectionParts) (s : RouterOSSection) : ScriptText :=
  joinLines ((parts.lookup s).getD [])

/-- All sections are there, in order and not empty. -/
def SectionParts.complete (parts : SectionParts) : Bool :=
  decide (parts.map Prod.fst = routerOSSectionOrder) && parts.all fun part => !part.2.isEmpty

/-- The sections of a complete candidate. -/
def splitRouterOSCandidate (source : ScriptText) : Option (RouterOSSection → ScriptText) :=
  match fieldsOf '\n' (trimNewline source) with
  | [] => none
  | first :: rest =>
    if first = routerOSCandidateHeader then
      match splitSections [] rest with
      | none => none
      | some parts =>
        if SectionParts.complete parts.reverse then some (SectionParts.text parts.reverse) else none
    else none

/-! ### Deltas -/

/-- The rule that drops the traffic of clients without an exit, before the return rule. -/
def renderRouterOSFailClosedDrop : List ScriptText :=
  [":local forwardReturn [/ip/firewall/filter/find where " ++
      "comment=\"SB-GATEWAY forward policy return\"]",
    ":if ([:len $forwardReturn] != 1) do=\x7b :error " ++
      "\"SB-GATEWAY forward return rule missing or ambiguous\" \x7d",
    ":local failClosedDrop [/ip/firewall/filter/find where " ++
      "comment=\"SB-GATEWAY fail-closed public drop\"]",
    ":if ([:len $failClosedDrop] > 1) do=\x7b :error " ++
      "\"SB-GATEWAY fail-closed rule ambiguous\" \x7d",
    ":if ([:len $failClosedDrop] = 0) do=\x7b /ip/firewall/filter/add " ++
      "chain=\"sb-gateway-forward\" action=drop src-address-list=\"SB_FAIL_CLOSED_CLIENTS\" " ++
      "dst-address-list=\"!SB_INTERNAL_NETWORKS\" place-before=$forwardReturn " ++
      "comment=\"SB-GATEWAY fail-closed public drop\"; :set failClosedDrop " ++
      "[/ip/firewall/filter/find where comment=\"SB-GATEWAY fail-closed public drop\"] \x7d",
    "/ip/firewall/filter/set $failClosedDrop chain=\"sb-gateway-forward\" action=drop " ++
      "src-address-list=\"SB_FAIL_CLOSED_CLIENTS\" dst-address-list=\"!SB_INTERNAL_NETWORKS\" " ++
      "disabled=no",
    "/ip/firewall/filter/move $failClosedDrop destination=$forwardReturn"].map String.toList

/-- Lines that a section needs when the core section does not come before it. -/
def routerOSDeltaPrelude : RouterOSSection → List ScriptText
  | .addressLists => renderRouterOSFailClosedDrop
  | .wireguardEgress =>
    [":local sbBridge [/interface/bridge/find where comment=\"SB-GATEWAY container bridge\"]",
      ":if ([:len $sbBridge] != 1) do=\x7b :error " ++
        "\"SB-GATEWAY container bridge missing or ambiguous\" \x7d",
      ":local sbBridgeName [/interface/bridge/get $sbBridge name]"].map String.toList
  | _ => []

/-- The section has another text. -/
def sectionDiffers (previous desired : RouterOSSection → ScriptText) (s : RouterOSSection) : Bool :=
  decide (previous s ≠ desired s)

/-- The panel ingress comes with every change if it reconciles WireGuard. -/
def withPanelIngress (previous desired : RouterOSSection → ScriptText) (s : RouterOSSection) :
    Bool :=
  sectionDiffers previous desired s ||
    (decide (s = .panelIngress) && (routerOSSectionOrder.any (sectionDiffers previous desired) &&
      decide ("SB_WIREGUARD_INGRESS".toList <:+: desired .panelIngress)))

/-- The port check comes with the panel ingress. -/
def withPortCheck (selected : RouterOSSection → Bool) (s : RouterOSSection) : Bool :=
  selected s || (decide (s = .panelPortCheck) && selected .panelIngress)

/-- The last section comes with three others. -/
def withFinalize (selected : RouterOSSection → Bool) (s : RouterOSSection) : Bool :=
  selected s || (decide (s = .finalize) &&
    (selected .core || selected .addressLists || selected .wireguardEgress))

/-- The sections that are applied. -/
def selectedSections (previous desired : RouterOSSection → ScriptText) : RouterOSSection → Bool :=
  withFinalize (withPortCheck (withPanelIngress previous desired))

/-- The scripts of a delta, and their sections. -/
structure RouterOSDeltaPlan where
  applyScript : ScriptText
  rollbackScript : ScriptText
  sections : List RouterOSSection

/-- The line that starts a section. -/
def sectionLine (s : RouterOSSection) : ScriptText := routerOSSectionStart ++ s.name

/-- The lines of a section in a delta script. -/
def deltaLines (sections : List RouterOSSection) (source : RouterOSSection → ScriptText)
    (s : RouterOSSection) : List ScriptText :=
  sectionLine s :: (if RouterOSSection.core ∈ sections then [] else routerOSDeltaPrelude s) ++
    [source s]

/-- The two lines at the top of a delta script. -/
def deltaHead (sections : List RouterOSSection) : List ScriptText :=
  ["# SB-GATEWAY generated minimal delta; complete managed sections".toList,
    "# SB-GATEWAY delta sections: ".toList ++
      List.intercalate [','] (sections.map RouterOSSection.name)]

/-- The script of some sections. -/
def assembleDelta (sections : List RouterOSSection) (source : RouterOSSection → ScriptText) :
    ScriptText :=
  joinLines (deltaHead sections ++ sections.flatMap (deltaLines sections source)) ++ ['\n']

/-- `len(text)` -/
def byteLength (text : ScriptText) : ℕ := (text.map Char.utf8Size).sum

/-- `exceeds` compares the quotient of two lengths with the maximum ratio, in floating point. -/
def buildRouterOSDelta (exceeds : ℕ → ℕ → Bool) (previousSource desiredSource : ScriptText) :
    Option RouterOSDeltaPlan :=
  match splitRouterOSCandidate previousSource with
  | none => none
  | some previous =>
    match splitRouterOSCandidate desiredSource with
    | none => none
    | some desired =>
      let sections := routerOSSectionOrder.filter (selectedSections previous desired)
      if sections = [] then none
      else
        let apply := assembleDelta sections desired
        let rollback := assembleDelta sections previous
        if 2 * 1024 * 1024 < byteLength apply ∨ 2 * 1024 * 1024 < byteLength rollback then none
        else if exceeds (byteLength apply) (max 1 (byteLength desiredSource)) ∨
            exceeds (byteLength rollback) (max 1 (byteLength previousSource)) then none
        else some ⟨apply, rollback, sections⟩

/-! ### Scripts and their sections -/

/-- No line of these starts a section. -/
def PlainLines (lines : List ScriptText) : Prop :=
  ∀ line ∈ lines, line.dropPrefix? routerOSSectionStart = none

/-- A line of a section. -/
def BodyLine (line : ScriptText) : Prop :=
  line.dropPrefix? routerOSSectionStart = none ∧ '\n' ∉ line

instance (line : ScriptText) : Decidable (BodyLine line) := inferInstanceAs (Decidable (_ ∧ _))

theorem splitSections_plain (h : PlainLines lines) (s : RouterOSSection)
    (before : List ScriptText) (older : SectionParts) :
    splitSections ((s, before) :: older) lines = some ((s, before ++ lines) :: older) := by
  induction lines generalizing before with
  | nil => simp [splitSections]
  | cons line lines ih =>
    have hline : addLine ((s, before) :: older) line = some ((s, before ++ [line]) :: older) := by
      rw [addLine, h line List.mem_cons_self]
      rfl
    have hrest := ih (fun l hl => h l (List.mem_cons_of_mem _ hl)) (before ++ [line])
    rw [splitSections] at hrest
    rw [splitSections, List.foldlM_cons, hline, Option.bind_eq_bind, Option.bind_some, hrest,
      List.append_assoc, List.singleton_append]

theorem addLine_sectionLine (h : s ∉ parts.map Prod.fst) :
    addLine parts (sectionLine s) = some ((s, []) :: parts) := by
  have hname : (sectionLine s).dropPrefix? routerOSSectionStart = some s.name :=
    List.dropPrefix?_eq_some_iff.mpr ⟨routerOSSectionStart, rfl, by simp⟩
  rw [addLine, hname]
  show startSection parts (RouterOSSection.ofName s.name) = _
  rw [ofName_name, startSection, if_neg h]

/-- **Reading back.** A script of sections with plain lines is read as these sections. -/
theorem splitSections_flatMap
    {body : RouterOSSection → List ScriptText} (hbody : ∀ s ∈ sections, PlainLines (body s))
    (parts : SectionParts) (hnodup : (parts.reverse.map Prod.fst ++ sections).Nodup) :
    splitSections parts (sections.flatMap fun s => sectionLine s :: body s) =
      some ((sections.map fun s => (s, body s)).reverse ++ parts) := by
  induction sections generalizing parts with
  | nil => simp [splitSections]
  | cons s sections ih =>
    rw [List.forall_mem_cons] at hbody
    have hnew : s ∉ parts.map Prod.fst := by
      intro hmem
      have hdisjoint := (List.nodup_append.mp hnodup).2.2
      exact hdisjoint s (by simpa using hmem) s List.mem_cons_self rfl
    have hlines := splitSections_plain hbody.1 s [] parts
    have hrest := ih hbody.2 ((s, body s) :: parts) (by simpa using hnodup)
    rw [splitSections] at hlines hrest
    rw [List.flatMap_cons, List.cons_append, splitSections, List.foldlM_cons,
      addLine_sectionLine hnew, Option.bind_eq_bind, Option.bind_some, List.foldlM_append, hlines,
      Option.bind_eq_bind, Option.bind_some, List.nil_append, hrest]
    simp

/-- What one line adds. -/
theorem addLine_eq_some (h : addLine parts line = some result) : (∃ s, result = (s, []) :: parts) ∨
      (line.dropPrefix? routerOSSectionStart = none ∧ ∃ s lines older,
        parts = (s, lines) :: older ∧ result = (s, lines ++ [line]) :: older) := by
  rw [addLine] at h
  cases hname : line.dropPrefix? routerOSSectionStart with
  | some name =>
    simp only [hname] at h
    cases hs : RouterOSSection.ofName name with
    | none =>
      rw [hs] at h
      cases h
    | some s =>
      rw [hs, startSection] at h
      split at h
      · cases h
      · exact .inl ⟨s, (Option.some.inj h).symm⟩
  | none =>
    simp only [hname] at h
    cases parts with
    | nil => cases h
    | cons part older => exact .inr ⟨rfl, part.1, part.2, older, rfl, (Option.some.inj h).symm⟩

/-- What is read consists of plain lines of the script. -/
theorem plain_of_splitSections (h : splitSections parts lines = some result)
    (hparts : ∀ part ∈ parts, ∀ line ∈ part.2, BodyLine line)
    (hlines : ∀ line ∈ lines, '\n' ∉ line) : ∀ part ∈ result, ∀ line ∈ part.2, BodyLine line := by
  induction lines generalizing parts with
  | nil =>
    cases h
    exact hparts
  | cons line rest ih =>
    rw [List.forall_mem_cons] at hlines
    rw [splitSections, List.foldlM_cons, Option.bind_eq_bind, Option.bind_eq_some_iff] at h
    obtain ⟨next, hnext, h⟩ := h
    refine ih h ?_ hlines.2
    rcases addLine_eq_some hnext with ⟨s, rfl⟩ | ⟨hplain, s, before, older, rfl, rfl⟩
    · rw [List.forall_mem_cons]
      exact ⟨nofun, hparts⟩
    · rw [List.forall_mem_cons] at hparts ⊢
      refine ⟨fun l hl => ?_, hparts.2⟩
      rcases List.mem_append.mp hl with hold | hnew
      · exact hparts.1 l hold
      · rw [List.mem_singleton.mp hnew]
        exact ⟨hplain, hlines.1⟩

/-- No line of a section of a candidate starts a section. -/
theorem plainLines_of_split (h : splitRouterOSCandidate source = some texts) (s : RouterOSSection) :
    PlainLines (fieldsOf '\n' (texts s)) := by
  rw [splitRouterOSCandidate] at h
  split at h
  · cases h
  · rename_i first rest hfields
    split at h
    · split at h
      · cases h
      · rename_i parts hparts
        split at h
        · rename_i hcomplete
          cases h
          have hrest : ∀ line ∈ rest, '\n' ∉ line := fun line hline =>
            notMem_of_mem_fieldsOf (hfields ▸ List.mem_cons_of_mem _ hline)
          have hplain := plain_of_splitSections hparts nofun hrest
          rw [SectionParts.complete, Bool.and_eq_true, decide_eq_true_eq, List.all_eq_true]
            at hcomplete
          -- every section was read
          have hmem : s ∈ parts.reverse.map Prod.fst := hcomplete.1 ▸ mem_routerOSSectionOrder s
          obtain ⟨lines, hlookup⟩ : ∃ lines, parts.reverse.lookup s = some lines :=
            Option.isSome_iff_exists.mp (List.lookup_isSome_iff.mpr (by simpa using hmem))
          have hread : (s, lines) ∈ parts.reverse := by
            obtain ⟨before, after, hsplit, -⟩ := List.lookup_eq_some_iff.mp hlookup
            rw [hsplit]
            exact List.mem_append_right _ List.mem_cons_self
          have hpart : (s, lines) ∈ parts := List.mem_reverse.mp hread
          have hne : lines ≠ [] := by simpa using hcomplete.2 _ hread
          rw [SectionParts.text, hlookup, Option.getD_some, fieldsOf_joinLines hne,
            flatMap_fieldsOf fun line hline => (hplain _ hpart line hline).2]
          exact fun line hline => (hplain _ hpart line hline).1
        · cases h
    · cases h

/-! ### The scripts of a plan -/

/-- Names are part of one line. -/
theorem notMem_name (s : RouterOSSection) : '\n' ∉ s.name := by
  cases s <;> decide +kernel

/-- The first line of a section is one line. -/
theorem notMem_sectionLine (s : RouterOSSection) : '\n' ∉ sectionLine s := by
  rw [sectionLine, List.mem_append, not_or]
  exact ⟨by decide +kernel, notMem_name s⟩

/-- A line that is written as a literal. -/
theorem bodyLine_literal {text : String} {chars : List Char} (h : text = String.ofList chars)
    (hchars : BodyLine chars) : BodyLine text.toList := by
  rw [h, String.toList_ofList]
  exact hchars

/-- A line that is written in two parts. -/
theorem append_literal {a b : String} (ha : a = String.ofList x) (hb : b = String.ofList y) :
    a ++ b = String.ofList (x ++ y) := by
  rw [ha, hb, String.ofList_append]

set_option maxRecDepth 2000 in
/-- The lines of the drop rule are none that starts a section. -/
theorem bodyLine_failClosedDrop : ∀ line ∈ renderRouterOSFailClosedDrop, BodyLine line := by
  unfold renderRouterOSFailClosedDrop
  simp only [List.map_cons, List.forall_mem_cons]
  refine ⟨?_, ?_, ?_, ?_, ?_, ?_, ?_, nofun⟩ <;>
    exact bodyLine_literal (by repeat' first | apply append_literal | rfl)
      (by decide +kernel)

/-- The lines before a section are none that starts one. -/
theorem bodyLine_prelude (s : RouterOSSection) :
    ∀ line ∈ routerOSDeltaPrelude s, BodyLine line := by
  cases s with
  | addressLists => exact bodyLine_failClosedDrop
  | wireguardEgress =>
    unfold routerOSDeltaPrelude
    simp only [List.map_cons, List.forall_mem_cons]
    refine ⟨?_, ?_, ?_, nofun⟩ <;>
      exact bodyLine_literal (by repeat' first | apply append_literal | rfl)
        (by decide +kernel)
  | _ => exact nofun

/-- Names without line ends, with commas between them. -/
theorem notMem_intercalate (h : ∀ name ∈ names, '\n' ∉ name) :
    '\n' ∉ List.intercalate [','] names := by
  induction names with
  | nil => exact List.not_mem_nil
  | cons name rest ih =>
    rw [List.forall_mem_cons] at h
    cases rest with
    | nil => simpa [List.intercalate] using h.1
    | cons next more =>
      have hjoin : List.intercalate [','] (name :: next :: more) =
          name ++ ',' :: List.intercalate [','] (next :: more) := by
        simp [List.intercalate]
      rw [hjoin, List.mem_append, List.mem_cons, not_or, not_or]
      exact ⟨h.1, by decide, ih h.2⟩

/-- The head of a delta has no other line ends. -/
theorem deltaHead_lines (sections : List RouterOSSection) :
    ∀ line ∈ deltaHead sections, '\n' ∉ line := by
  unfold deltaHead
  simp only [List.forall_mem_cons, List.mem_append, not_or]
  refine ⟨?_, ⟨?_, notMem_intercalate fun name hname => ?_⟩, nofun⟩
  · exact (bodyLine_literal rfl (by decide +kernel)).2
  · exact (bodyLine_literal rfl (by decide +kernel)).2
  · obtain ⟨s, -, rfl⟩ := List.mem_map.mp hname
    exact notMem_name s

/-- What stands in a delta script for a section: its prelude, unless the core section is there,
    and its text. -/
def deltaBody (sections : List RouterOSSection) (source : RouterOSSection → ScriptText)
    (s : RouterOSSection) : List ScriptText :=
  (if RouterOSSection.core ∈ sections then [] else routerOSDeltaPrelude s) ++
    fieldsOf '\n' (source s)

/-- The lines of the prelude, if there is one. -/
theorem optional_prelude_lines (sections : List RouterOSSection) (s : RouterOSSection) :
    ∀ line ∈ (if RouterOSSection.core ∈ sections then [] else routerOSDeltaPrelude s),
      BodyLine line := by
  split
  · exact nofun
  · exact bodyLine_prelude s

/-- The lines of a delta: its head, and each section behind its first line. -/
theorem lines_assembleDelta (sections : List RouterOSSection)
    (source : RouterOSSection → ScriptText) :
    fieldsOf '\n' (trimNewline (assembleDelta sections source)) =
      deltaHead sections ++
        sections.flatMap fun s => sectionLine s :: deltaBody sections source s := by
  have htrim : ∀ text : ScriptText, trimNewline (text ++ ['\n']) = text := by
    intro text
    rw [trimNewline, List.getLast?_concat, if_pos rfl, List.dropLast_concat]
  have hsection : ∀ s, (deltaLines sections source s).flatMap (fieldsOf '\n') =
      sectionLine s :: deltaBody sections source s := by
    intro s
    rw [deltaLines, List.cons_append, List.flatMap_cons, List.flatMap_append,
      fieldsOf_eq_singleton (notMem_sectionLine s),
      flatMap_fieldsOf fun line hline => (optional_prelude_lines sections s line hline).2]
    simp [deltaBody]
  rw [assembleDelta, htrim, fieldsOf_joinLines (by simp [deltaHead]), List.flatMap_append,
    flatMap_fieldsOf (deltaHead_lines sections), List.flatMap_assoc]
  simp only [hsection]

/-- The script lists exactly these sections, in this order, each with its prelude and the lines
    of its text. -/
def ListsSections (script : ScriptText) (sections : List RouterOSSection)
    (texts : RouterOSSection → ScriptText) : Prop :=
  ∃ rest, fieldsOf '\n' (trimNewline script) = deltaHead sections ++ rest ∧
    (splitSections [] rest).map List.reverse =
      some (sections.map fun s => (s, deltaBody sections texts s))

theorem listsSections_assembleDelta (hnodup : sections.Nodup)
    (h : splitRouterOSCandidate source = some texts) :
    ListsSections (assembleDelta sections texts) sections texts := by
  refine ⟨_, lines_assembleDelta sections texts, ?_⟩
  have hplain : ∀ s ∈ sections, PlainLines (deltaBody sections texts s) := by
    intro s _ line hline
    rcases List.mem_append.mp hline with hprelude | htext
    · exact (optional_prelude_lines sections s line hprelude).1
    · exact plainLines_of_split h s line htext
  rw [splitSections_flatMap hplain [] (by simpa using hnodup)]
  simp

/-! ### The selection -/

theorem mem_filter_selected (h : previous s ≠ desired s) :
    s ∈ routerOSSectionOrder.filter (selectedSections previous desired) := by
  rw [List.mem_filter]
  refine ⟨mem_routerOSSectionOrder s, ?_⟩
  simp [selectedSections, withFinalize, withPortCheck, withPanelIngress, sectionDiffers, h]

section

variable (previous desired : RouterOSSection → ScriptText)

theorem sectionDiffers_symm :
    sectionDiffers previous desired = sectionDiffers desired previous := by
  funext s
  rw [sectionDiffers, sectionDiffers]
  exact decide_eq_decide.mpr ne_comm

/-- **Symmetry.** Only the desired script is searched for the WireGuard ingress; where that makes a
    difference, the section differs anyway. -/
theorem withPanelIngress_symm :
    withPanelIngress previous desired = withPanelIngress desired previous := by
  funext s
  rw [withPanelIngress, withPanelIngress, sectionDiffers_symm]
  by_cases hs : s = .panelIngress
  · by_cases hingress : previous .panelIngress = desired .panelIngress
    · rw [hingress]
    · have hdiffers : sectionDiffers desired previous s = true := by
        rw [hs, sectionDiffers, decide_eq_true_eq]
        exact Ne.symm hingress
      rw [hdiffers, Bool.true_or, Bool.true_or]
  · rw [decide_eq_false hs, Bool.false_and, Bool.false_and]

theorem selected_symm : selectedSections previous desired = selectedSections desired previous := by
  rw [selectedSections, selectedSections, withPanelIngress_symm]

end

/-- The parts of a plan. -/
theorem buildRouterOSDelta_eq_some
    (hprevious : splitRouterOSCandidate previousSource = some previous)
    (hdesired : splitRouterOSCandidate desiredSource = some desired)
    (h : buildRouterOSDelta exceeds previousSource desiredSource = some plan) :
    plan.sections = routerOSSectionOrder.filter (selectedSections previous desired) ∧
      plan.applyScript = assembleDelta plan.sections desired ∧
      plan.rollbackScript = assembleDelta plan.sections previous := by
  simp only [buildRouterOSDelta, hprevious, hdesired] at h
  split at h
  · cases h
  · split at h
    · cases h
    · split at h
      · cases h
      · cases h
        exact ⟨rfl, rfl, rfl⟩

/-- **Deltas are complete and symmetric.** A plan names every section that differs; its scripts list
    exactly the named sections, in the order of the candidates and with their complete texts, so
    that each script turns one candidate's sections into the other's; and the plan for the way back
    is the same plan with its scripts exchanged. -/
theorem routerOS_delta_complete_symmetric {exceeds exceeds' : ℕ → ℕ → Bool}
    {previousSource desiredSource : ScriptText} {previous desired : RouterOSSection → ScriptText}
    {plan : RouterOSDeltaPlan} (hprevious : splitRouterOSCandidate previousSource = some previous)
    (hdesired : splitRouterOSCandidate desiredSource = some desired)
    (hplan : buildRouterOSDelta exceeds previousSource desiredSource = some plan) :
    (∀ s, previous s ≠ desired s → s ∈ plan.sections) ∧
      plan.sections.Sublist routerOSSectionOrder ∧
      ListsSections plan.applyScript plan.sections desired ∧
      ListsSections plan.rollbackScript plan.sections previous ∧
      (∀ s, (if s ∈ plan.sections then desired s else previous s) = desired s) ∧
      (∀ s, (if s ∈ plan.sections then previous s else desired s) = previous s) ∧
      ∀ plan', buildRouterOSDelta exceeds' desiredSource previousSource = some plan' →
        plan'.applyScript = plan.rollbackScript ∧ plan'.rollbackScript = plan.applyScript := by
  obtain ⟨hsections, happly, hrollback⟩ := buildRouterOSDelta_eq_some hprevious hdesired hplan
  have hselected : ∀ s, previous s ≠ desired s → s ∈ plan.sections := by
    intro s hs
    rw [hsections]
    exact mem_filter_selected hs
  have hequal : ∀ s, s ∉ plan.sections → previous s = desired s := fun s hs =>
    not_not.mp fun hne => hs (hselected s hne)
  have hsublist : plan.sections.Sublist routerOSSectionOrder := hsections ▸ List.filter_sublist
  have hnodup : plan.sections.Nodup := hsublist.nodup (by decide)
  refine ⟨hselected, hsublist, ?_, ?_, fun s => ?_, fun s => ?_, fun plan' hplan' => ?_⟩
  · rw [happly]
    exact listsSections_assembleDelta hnodup hdesired
  · rw [hrollback]
    exact listsSections_assembleDelta hnodup hprevious
  · split
    · rfl
    · next hs => exact hequal s hs
  · split
    · rfl
    · next hs => exact (hequal s hs).symm
  · obtain ⟨hsections', happly', hrollback'⟩ := buildRouterOSDelta_eq_some hdesired hprevious hplan'
    have hsame : plan'.sections = plan.sections := by
      rw [hsections, hsections', selected_symm]
    rw [happly', hrollback', happly, hrollback, hsame]
    exact ⟨rfl, rfl⟩

/-- A candidate whose sections are one line each. -/
def sampleCandidate (dns : ScriptText) : ScriptText :=
  joinLines (routerOSCandidateHeader :: routerOSSectionOrder.flatMap fun s =>
    [sectionLine s, if s = .dns then dns else ['x']]) ++ ['\n']

theorem sampleCandidate_delta : ∃ previous desired plan,
    splitRouterOSCandidate (sampleCandidate ['x']) = some previous ∧
      splitRouterOSCandidate (sampleCandidate ['y']) = some desired ∧
      buildRouterOSDelta (fun _ _ => false) (sampleCandidate ['x']) (sampleCandidate ['y']) =
        some plan ∧
      ListsSections plan.applyScript plan.sections desired ∧
      ListsSections plan.rollbackScript plan.sections previous := by
  obtain ⟨previous, hprevious⟩ := Option.isSome_iff_exists.mp
    (show (splitRouterOSCandidate (sampleCandidate ['x'])).isSome = true by decide +kernel)
  obtain ⟨desired, hdesired⟩ := Option.isSome_iff_exists.mp
    (show (splitRouterOSCandidate (sampleCandidate ['y'])).isSome = true by decide +kernel)
  obtain ⟨plan, hplan⟩ := Option.isSome_iff_exists.mp
    (show (buildRouterOSDelta (fun _ _ => false) (sampleCandidate ['x'])
      (sampleCandidate ['y'])).isSome = true by decide +kernel)
  have hall := @routerOS_delta_complete_symmetric _ (fun _ _ => false) _ _ _ _ _ hprevious hdesired
    hplan
  exact ⟨previous, desired, plan, hprevious, hdesired, hplan, hall.2.2.1, hall.2.2.2.1⟩

end SbGateway.RuntimeConfig
