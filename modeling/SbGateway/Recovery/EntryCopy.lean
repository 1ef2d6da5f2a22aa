import SbGateway.Recovery.Pending

namespace SbGateway.Recovery

open Lib Lib.Calls

/-!
# Copying one entry

An entry of the manifest names a staged file and a destination.  What one round of the loop does
with it is decided by the disk it starts from:

* `PendingFile.verdict` — the entry can be copied, is at fault, or is blocked by what stands at
  its destination or on the way to it;
* `Progress` — all that rounds for some entries can leave on the disk, finished or not;
* `verdict_stable` — a round never changes what the other entries are good for;
* `wp_restoreEntry` — the specification of a round.
-/

/-! ### The text of an entry -/

theorem kindOf_eq_some (h : kindOf path = some (kind, suffix)) : path = kind.text ++ suffix := by
  unfold kindOf at h
  split at h
  next hconfig =>
    cases h
    exact textAfter_eq_some.mp hconfig
  next =>
    split at h
    next hstate =>
      cases h
      exact textAfter_eq_some.mp hstate
    next =>
      obtain ⟨rest, hrest, heq⟩ := Option.map_eq_some_iff.mp h
      cases heq
      exact textAfter_eq_some.mp hrest

theorem fieldsOf_names (h : ∀ name ∈ names, '/' ∉ name) (suffix : Text) :
    fieldsOf '/' ((names.flatMap fun name => name ++ ['/']) ++ suffix) =
      names ++ fieldsOf '/' suffix := by
  induction names with
  | nil => rfl
  | cons name names ih =>
    rw [List.forall_mem_cons] at h
    rw [List.flatMap_cons, List.append_assoc, List.append_assoc, List.singleton_append,
      fieldsOf_append h.1, ih h.2, List.cons_append]

theorem fieldsOf_kind (kind : Kind) (suffix : Text) :
    fieldsOf '/' (kind.text ++ suffix) = kind.names ++ fieldsOf '/' suffix := by
  have hslash : ∀ name ∈ kind.names, '/' ∉ name := by
    cases kind <;> decide
  exact fieldsOf_names hslash suffix

/-- The names of a kind stand for themselves. -/
theorem plainNames_kind (kind : Kind) (names : List FileName) :
    plainNames (kind.names ++ names) = kind.names ++ plainNames names := by
  rw [plainNames, List.filter_append]
  cases kind <;> rfl

/-- A file of a kind, with its names below the directory of the kind. -/
structure Item where
  kind : Kind
  names : Place
  deriving DecidableEq

/-- The file that an entry is for, if its text is in order. -/
def PendingFile.item (entry : PendingFile) : Option Item :=
  match kindOf entry.path with
  | none => none
  | some (kind, suffix) =>
    if entry.valid && suffix.head? != some '/' then some ⟨kind, plainNames (fieldsOf '/' suffix)⟩
    else none

/-- Where the file is staged. -/
def Item.source {roots : Roots} (staging : Staging roots) (item : Item) : Place :=
  staging.place ++ (item.kind.names ++ item.names)

/-- Where the file is restored. -/
def Item.destination (roots : Roots) (item : Item) : Place := roots.root item.kind ++ item.names

/-! ### Directories that are apart -/

section Apart

variable {roots : Roots} {staging : Staging roots} {item item' : Item} {q : Place}

/-- Roots that are above one place are the same. -/
theorem kind_unique (h : roots.root kind <+: q) (h' : roots.root kind' <+: q) : kind = kind' := by
  by_contra hne
  rcases List.prefix_or_prefix_of_prefix h h' with hp | hp
  · exact roots.apart kind kind' hne hp
  · exact roots.apart kind' kind (Ne.symm hne) hp

theorem root_ne_nil (roots : Roots) (kind : Kind) : roots.root kind ≠ [] := by
  intro hempty
  obtain ⟨other, hother⟩ : ∃ other, kind ≠ other := by
    cases kind
    exacts [⟨.state, nofun⟩, ⟨.config, nofun⟩, ⟨.config, nofun⟩]
  exact roots.apart kind other hother (hempty ▸ List.nil_prefix)

theorem destination_ne_nil (roots : Roots) (item : Item) : item.destination roots ≠ [] :=
  fun hempty => root_ne_nil roots _ (List.append_eq_nil_iff.mp hempty).1

theorem root_above (roots : Roots) (item : Item) :
    roots.root item.kind <+: item.destination roots :=
  List.prefix_append _ _

theorem staging_ne_nil (staging : Staging roots) : staging.place ≠ [] :=
  fun hempty => (staging.beside .config).2 (hempty ▸ List.nil_prefix)

/-- No destination is in the staging directory, which is in no destination. -/
theorem staging_beside (hq : q <+: item.destination roots) : ¬ staging.place <+: q := by
  intro hstaging
  rcases List.prefix_or_prefix_of_prefix (hstaging.trans hq) (root_above roots item) with hp | hp
  · exact (staging.beside _).2 hp
  · exact (staging.beside _).1 hp

/-- Destinations lie in each other as the staged files do. -/
theorem source_above (staging : Staging roots)
    (h : item.destination roots <+: item'.destination roots) :
    item.source staging <+: item'.source staging ∧
      (item.source staging = item'.source staging ↔
        item.destination roots = item'.destination roots) := by
  obtain ⟨kind, names⟩ := item
  obtain ⟨kind', names'⟩ := item'
  obtain rfl : kind = kind' :=
    kind_unique ((root_above roots ⟨kind, names⟩).trans h) (root_above roots ⟨kind', names'⟩)
  simp only [Item.destination, Item.source, List.prefix_append_right_inj,
    List.append_cancel_left_eq] at h ⊢
  exact ⟨h, trivial⟩

end Apart

/-! ### Places that can be reached -/

/-- Everything above the place is a directory or missing, and the place is no link. -/
def Clear (t : FileTree) (q : Place) : Prop :=
  (∀ p, p <+: q → p ≠ q → t.node p = none ∨ t.node p = some .directory) ∧ t.link q = false

theorem clear_iff_inits :
    Clear t q ↔ (∀ p ∈ q.inits, p ≠ q → t.node p = none ∨ t.node p = some .directory) ∧
      t.link q = false := by
  simp only [Clear, List.mem_inits]

instance (t : FileTree) (q : Place) : Decidable (Clear t q) :=
  decidable_of_iff _ clear_iff_inits.symm

theorem not_file {t : FileTree} (h : t.node p = none ∨ t.node p = some .directory) :
    t.file p = false := by
  rcases h with h | h <;> rw [FileTree.file, h]

theorem prefix_dropLast_iff {p q : Place} (hq : q ≠ []) : p <+: q.dropLast ↔ p <+: q ∧ p ≠ q := by
  obtain ⟨front, last, rfl⟩ := List.eq_nil_or_concat q |>.resolve_left hq
  rw [List.concat_eq_append, List.dropLast_concat]
  constructor
  · intro h
    refine ⟨h.trans (List.prefix_append _ _), ?_⟩
    rintro rfl
    have hlength := h.length_le
    rw [List.length_append, List.length_singleton] at hlength
    omega
  · rintro ⟨h, hne⟩
    exact (List.prefix_concat_iff.mp h).resolve_left hne

section Ways

variable {t : FileTree} {root : Place} {linked mustExist : Bool}

/-- The directories that the system looks through: those down to the root, without the place. -/
theorem prefix_parent_iff (hroot : root ≠ []) (names : List FileName) :
    p <+: (if names = [] then root.dropLast else root) ↔ p <+: root ∧ p ≠ root ++ names := by
  by_cases hnames : names = []
  · rw [if_pos hnames, prefix_dropLast_iff hroot, hnames, List.append_nil]
  · rw [if_neg hnames]
    refine ⟨fun hp => ⟨hp, ?_⟩, fun hp => hp.1⟩
    rintro rfl
    have hlength := hp.length_le
    rw [List.length_append] at hlength
    exact hnames (List.length_eq_zero_iff.mp (by omega))

/-- A way that is let pass. -/
theorem lstatWay_eq_ok (hroot : root ≠ []) :
    lstatWay t linked root mustExist names = .ok place ↔
      ((names = [] → linked = false) ∧ (∀ p, p <+: root → p ≠ root ++ names → t.file p = false) ∧
        t.walk mustExist (way root names) = .ok ()) ∧ place = root ++ names := by
  have hfiles : belowFile t root names = false ↔
      ∀ p, p <+: root → p ≠ root ++ names → t.file p = false := by
    simp only [belowFile, List.any_eq_false, List.mem_inits, prefix_parent_iff hroot, and_imp,
      Bool.not_eq_true]
  have hdirect : (linked && names.isEmpty) = false ↔ (names = [] → linked = false) := by
    cases linked <;> simp
  rw [← hfiles, ← hdirect, lstatWay]
  cases linked && names.isEmpty with
  | true => simp
  | false =>
    cases belowFile t root names with
    | true => simp
    | false => cases t.walk mustExist (way root names) <;> simp [arrive, eq_comm]

theorem lstatWay_error (h : lstatWay t linked root mustExist names = .error refusal) :
    blameDestination refusal = .destination := by
  rw [lstatWay] at h
  split_ifs at h
  · cases h
    rfl
  · cases h
    rfl
  · cases hwalk : t.walk mustExist (way root names) with
    | ok u => simp [hwalk, arrive] at h
    | error fault =>
      rw [hwalk] at h
      cases h
      cases fault <;> rfl

/-- A staged file must be there and be no link. -/
theorem lstatWay_existing (hroot : root ≠ []) : lstatWay t false root true names = .ok place ↔
    (t.node (root ++ names) ≠ none ∧ t.link (root ++ names) = false) ∧ place = root ++ names := by
  rw [lstatWay_eq_ok hroot, t.walk_true_iff]
  refine and_congr_left fun _ => ⟨fun h => h.2.2, fun h => ⟨fun _ => rfl, fun p hp hne => ?_, h⟩⟩
  exact not_file (.inr (t.directory_above h.1 (hp.trans (List.prefix_append _ _)) hne))

theorem secureDescendant_eq (hplain : ∀ name ∈ root, PlainName name)
    (h : (relative.head? = some '/' || hasParentTraversal relative) = false) :
    secureDescendant t linked root relative mustExist =
      lstatWay t linked root mustExist (plainNames (fieldsOf '/' relative)) := by
  have hup : ['.', '.'] ∉ fieldsOf '/' relative := by
    intro hmem
    rw [Bool.or_eq_false_iff, hasParentTraversal] at h
    exact absurd (List.contains_iff_mem.mpr hmem) (by rw [h.2]; decide)
  have hparts : relativeTo root (root ++ plainNames (fieldsOf '/' relative)) =
      some (plainNames (fieldsOf '/' relative)) := by
    rw [relativeTo, if_pos (List.prefix_append _ _), List.drop_left]
  rw [secureDescendant, h, clean_append hplain hup, hparts]
  rfl

end Ways

/-- `secureDescendant` lets the destination pass. -/
def Item.free (roots : Roots) (t : FileTree) (item : Item) : Bool :=
  (lstatWay t (roots.linked item.kind) (roots.root item.kind) false item.names).isOk

theorem free_iff : Item.free roots t item = true ↔
    (item.names = [] → roots.linked item.kind = false) ∧
      (∀ p, p <+: roots.root item.kind → p ≠ item.destination roots → t.file p = false) ∧
      t.Open (roots.root item.kind) (item.destination roots) := by
  rw [Item.destination, ← t.walk_false_iff, Item.free]
  have hroot := root_ne_nil roots item.kind
  cases hway : lstatWay t (roots.linked item.kind) (roots.root item.kind) false item.names with
  | ok place => exact ⟨fun _ => ((lstatWay_eq_ok hroot).mp hway).1, fun _ => rfl⟩
  | error refusal =>
    exact ⟨nofun, fun h => nomatch hway.symm.trans ((lstatWay_eq_ok hroot).mpr ⟨h, rfl⟩)⟩

/-- A destination below directories is let pass. -/
theorem Clear.free {roots : Roots} {item : Item} (h : Clear t (item.destination roots))
    (hdirect : item.names = [] → roots.linked item.kind = false) : item.free roots t = true := by
  refine free_iff.mpr ⟨hdirect, fun p hp hne => ?_, fun p _ _ => h.1 p, h.2⟩
  exact not_file (h.1 p (hp.trans (root_above roots item)) hne)

/-! ### Verdicts -/

/-- A copy that an entry asks for. -/
structure Copy extends Item where
  content : Bytes
  deriving DecidableEq

/-- What can be done for an entry: its file can be copied, the entry or its staged file is at
    fault, or the way to the destination or the destination itself is in the way. -/
inductive Verdict where
  | good (copy : Copy)
  | faulty
  | blocked
  deriving DecidableEq

section Verdict

variable (sha : Bytes → Text) {roots : Roots} (staging : Staging roots)

/-- The verdict on an opened staged file. -/
def PendingFile.compare (roots : Roots) (t : FileTree) (entry : PendingFile) (item : Item) :
    Option Node → Verdict
  | some (.regular content) =>
    if (content.length : ℤ) ≠ entry.size then .faulty
    else if ¬ Clear t (item.destination roots) then .blocked
    else if sha content ≠ entry.sha256 then .faulty
    else if t.node (item.destination roots) = some .directory then .blocked
    else .good ⟨item, content⟩
  | _ => .faulty

/-- The verdict on an entry. -/
def PendingFile.verdict (t : FileTree) (entry : PendingFile) : Verdict :=
  match entry.item with
  | none => .faulty
  | some item =>
    if t.node (item.source staging) = none ∨ t.link (item.source staging) = true then .faulty
    else if item.free roots t = false then .blocked
    else entry.compare sha roots t item (t.node (item.source staging))

/-- The entry gets as far as a temporary file next to its destination. -/
structure Fits (t : FileTree) (entry : PendingFile) (copy : Copy) : Prop where
  asks : entry.item = some copy.toItem
  staged : t.node (copy.source staging) = some (.regular copy.content)
  size : (copy.content.length : ℤ) = entry.size
  direct : copy.names = [] → roots.linked copy.kind = false
  clear : Clear t (copy.destination roots)

variable {sha staging} {t : FileTree} {entry : PendingFile} {item : Item} {copy : Copy}

theorem Fits.source_ok (h : Fits staging t entry copy) :
    t.node (copy.source staging) ≠ none ∧ t.link (copy.source staging) = false := by
  simp [h.staged, FileTree.link]

theorem verdict_eq_compare (hitem : entry.item = some item)
    (hsource : t.node (item.source staging) ≠ none ∧ t.link (item.source staging) = false)
    (hfree : item.free roots t = true) : entry.verdict sha staging t =
      entry.compare sha roots t item (t.node (item.source staging)) := by
  simp only [PendingFile.verdict, hitem]
  rw [if_neg (by simp [hsource]), if_neg (by simp [hfree])]

/-- The verdict on an entry that fits is the one on its digest and its destination. -/
theorem Fits.verdict_eq (h : Fits staging t entry copy) : entry.verdict sha staging t =
    if sha copy.content ≠ entry.sha256 then .faulty
    else if t.node (copy.destination roots) = some .directory then .blocked else .good copy := by
  rw [verdict_eq_compare h.asks h.source_ok (h.clear.free h.direct), h.staged, PendingFile.compare,
    if_neg (not_not.mpr h.size), if_neg (not_not.mpr h.clear)]

theorem verdict_eq_good : entry.verdict sha staging t = .good copy ↔
      Fits staging t entry copy ∧ sha copy.content = entry.sha256 ∧
        t.node (copy.destination roots) ≠ some .directory := by
  constructor
  · intro h
    rw [PendingFile.verdict] at h
    cases hitem : entry.item with
    | none => simp [hitem] at h
    | some item =>
      simp only [hitem] at h
      split at h
      · cases h
      · split at h
        · cases h
        · rename_i hfree
          rw [Bool.not_eq_false] at hfree
          unfold PendingFile.compare at h
          split at h
          next content hnode =>
            split_ifs at h with hsize hclear hsha hdirectory
            cases h
            exact ⟨⟨hitem, hnode, not_not.mp hsize, (free_iff.mp hfree).1, hclear⟩,
              not_not.mp hsha, hdirectory⟩
          next => cases h
  · rintro ⟨hfits, hsha, hdirectory⟩
    rw [hfits.verdict_eq, if_neg (not_not.mpr hsha), if_neg hdirectory]

end Verdict

/-! ### Progress -/

section Progress

variable (sha : Bytes → Text) {roots : Roots} (staging : Staging roots)

/-- All that the rounds for some entries leave on the disk, in any order and finished or not:
    directories on the way to destinations, destinations that are copied, and temporary files
    next to them. -/
structure Progress (d : Disk) (entries : List PendingFile) (e : Disk) : Prop where
  node : ∀ q, e.tree.node q = d.tree.node q ∨
    (d.tree.node q = none ∧ e.tree.node q = some .directory ∧ ∃ entry ∈ entries, ∃ copy,
      Fits staging d.tree entry copy ∧
        q <+: (copy.destination roots).dropLast) ∨
    ∃ entry ∈ entries, ∃ copy,
      entry.verdict sha staging d.tree = .good copy ∧
        q = copy.destination roots ∧ e.tree.node q = some (.regular copy.content)
  temporary : ∀ directory ∈ e.temporaries, directory ∈ d.temporaries ∨
    ∃ entry ∈ entries, ∃ copy,
      Fits staging d.tree entry copy ∧
        directory = (copy.destination roots).dropLast

theorem Progress.refl (d : Disk) (entries : List PendingFile) :
    Progress sha staging d entries d :=
  ⟨fun _ => .inl rfl, fun _ h => .inl h⟩

variable {sha staging} {d e : Disk} {entries : List PendingFile}

section

variable (h : Progress sha staging d entries e)
include h

theorem Progress.mono (hsub : entries ⊆ more) : Progress sha staging d more e := by
  refine ⟨fun q => ?_, fun directory hmem => ?_⟩
  · rcases h.node q with hsame | ⟨hnone, hdirectory, entry, hentry, hway⟩ | ⟨entry, hentry, hcopy⟩
    · exact .inl hsame
    · exact .inr (.inl ⟨hnone, hdirectory, entry, hsub hentry, hway⟩)
    · exact .inr (.inr ⟨entry, hsub hentry, hcopy⟩)
  · rcases h.temporary directory hmem with hold | ⟨entry, hentry, hway⟩
    · exact .inl hold
    · exact .inr ⟨entry, hsub hentry, hway⟩

/-- The staging directory stays as it is. -/
theorem Progress.staged_same {q : Place} (hq : staging.place <+: q) :
    e.tree.node q = d.tree.node q := by
  rcases h.node q with hsame | ⟨-, -, entry, -, copy, hfits, hway⟩ | ⟨entry, -, copy, hgood, rfl, -⟩
  · exact hsame
  · exact absurd hq (staging_beside (hway.trans ( List.dropLast_prefix _)))
  · exact absurd hq (staging_beside List.prefix_rfl)

/-- What is a directory stays one. -/
theorem Progress.directory_stays (hp : d.tree.node p = some .directory) :
    e.tree.node p = some .directory := by
  rcases h.node p with hsame | ⟨hnone, -⟩ | ⟨entry, -, copy, hgood, rfl, -⟩
  · rw [hsame, hp]
  · rw [hp] at hnone
    cases hnone
  · exact absurd hp (verdict_eq_good.mp hgood).2.2

/-- And links stay as they are. -/
theorem Progress.link_stays (hp : d.tree.link p = true) : e.tree.node p = d.tree.node p := by
  rcases h.node p with hsame | ⟨hnone, -⟩ | ⟨entry, -, copy, hgood, rfl, -⟩
  · exact hsame
  · rw [FileTree.link, hnone] at hp
    cases hp
  · rw [(verdict_eq_good.mp hgood).1.clear.2] at hp
    cases hp

end

section Stable

variable (h : Progress sha staging d entries e) {item : Item}
include h

theorem Progress.source_same :
    e.tree.node (item.source staging) = d.tree.node (item.source staging) :=
  h.staged_same (List.prefix_append _ _)

section

variable (hsource : d.tree.node (item.source staging) ≠ none) (hq : q <+: item.destination roots)
  (hne : q ≠ item.destination roots)
include hsource hq hne

/-- On the way to the destination of a staged file only missing places are filled. -/
theorem Progress.above :
    e.tree.node q = d.tree.node q ∨ (d.tree.node q = none ∧ e.tree.node q = some .directory) := by
  rcases h.node q with hsame | ⟨hnone, hdirectory, -⟩ | ⟨other, -, copy, hgood, rfl, -⟩
  · exact .inl hsame
  · exact .inr ⟨hnone, hdirectory⟩
  · -- another file would be staged where this one needs a directory
    obtain ⟨hfits, -, -⟩ := verdict_eq_good.mp hgood
    obtain ⟨hinside, hiff⟩ := source_above staging hq
    have hdirectory := d.tree.directory_above hsource hinside fun heq => hne (hiff.mp heq)
    rw [hfits.staged] at hdirectory
    cases hdirectory

theorem Progress.passable_iff :
    (e.tree.node q = none ∨ e.tree.node q = some .directory) ↔
      (d.tree.node q = none ∨ d.tree.node q = some .directory) := by
  rcases h.above hsource hq hne with hsame | ⟨hnone, hdirectory⟩
  · rw [hsame]
  · simp [hnone, hdirectory]

end

theorem Progress.link_same (q : Place) : e.tree.link q = d.tree.link q := by
  rcases h.node q with hsame | ⟨hnone, hdirectory, -⟩ | ⟨other, -, copy, hgood, rfl, hnode⟩
  · exact FileTree.link_congr hsame
  · simp [FileTree.link, hnone, hdirectory]
  · rw [(verdict_eq_good.mp hgood).1.clear.2]
    simp [FileTree.link, hnode]

theorem Progress.clear_iff (hsource : d.tree.node (item.source staging) ≠ none) :
    Clear e.tree (item.destination roots) ↔ Clear d.tree (item.destination roots) := by
  rw [Clear, Clear, h.link_same]
  refine and_congr_left fun _ => forall_congr' fun q => forall_congr' fun hq => ?_
  exact forall_congr' fun hne => h.passable_iff hsource hq hne

theorem Progress.free_same (hsource : d.tree.node (item.source staging) ≠ none) :
    item.free roots e.tree = item.free roots d.tree := by
  rw [Bool.eq_iff_iff, free_iff, free_iff, FileTree.Open, FileTree.Open, h.link_same]
  refine and_congr_right fun _ => and_congr ?_ (and_congr_left fun _ => ?_)
  · refine forall_congr' fun q => forall_congr' fun hq => forall_congr' fun hne => ?_
    rcases h.above hsource (hq.trans (root_above roots item)) hne with hsame | ⟨hnone, hdirectory⟩
    · rw [FileTree.file, FileTree.file, hsame]
    · simp [FileTree.file, hnone, hdirectory]
  · refine forall_congr' fun q => forall_congr' fun _ => forall_congr' fun _ => ?_
    exact forall_congr' fun hq => forall_congr' fun hne => h.passable_iff hsource hq hne

theorem Progress.directory_iff
    (hsource : d.tree.node (item.source staging) = some (.regular content)) :
    e.tree.node (item.destination roots) = some .directory ↔
      d.tree.node (item.destination roots) = some .directory := by
  refine ⟨fun hnode => ?_, h.directory_stays⟩
  rcases h.node (item.destination roots) with hsame | ⟨-, -, other, -, copy, hfits, hway⟩ |
    ⟨other, -, copy, hgood, -, hfile⟩
  · rw [← hsame, hnode]
  · -- a directory there is for a file that is staged below this one
    rw [prefix_dropLast_iff (destination_ne_nil roots _)] at hway
    obtain ⟨hinside, hiff⟩ := source_above staging hway.1
    have hdirectory := d.tree.directory_above hfits.source_ok.1 hinside
      fun heq => hway.2 (hiff.mp heq)
    rw [hsource] at hdirectory
    cases hdirectory
  · rw [hnode] at hfile
    cases hfile

end Stable

section

variable (h : Progress sha staging d entries e)
include h

/-- An entry fits later exactly if it fits now. -/
theorem Progress.fits_iff : Fits staging e.tree entry copy ↔ Fits staging d.tree entry copy := by
  constructor
  · rintro ⟨hitem, hstaged, hsize, hdirect, hclear⟩
    rw [h.source_same] at hstaged
    exact ⟨hitem, hstaged, hsize, hdirect, (h.clear_iff (by simp [hstaged])).mp hclear⟩
  · rintro ⟨hitem, hstaged, hsize, hdirect, hclear⟩
    exact ⟨hitem, h.source_same.trans hstaged, hsize, hdirect,
      (h.clear_iff (by simp [hstaged])).mpr hclear⟩

/-- **Stability.** The rounds never change the verdict on an entry. -/
theorem Progress.verdict_stable (entry : PendingFile) :
    entry.verdict sha staging e.tree = entry.verdict sha staging d.tree := by
  cases hitem : entry.item with
  | none => simp only [PendingFile.verdict, hitem]
  | some item =>
    simp only [PendingFile.verdict, hitem]
    rw [h.source_same, h.link_same]
    by_cases hsource : d.tree.node (item.source staging) = none ∨
        d.tree.link (item.source staging) = true
    · rw [if_pos hsource, if_pos hsource]
    · rw [not_or] at hsource
      have hcompare : entry.compare sha roots e.tree item (d.tree.node (item.source staging)) =
          entry.compare sha roots d.tree item (d.tree.node (item.source staging)) := by
        unfold PendingFile.compare
        split
        next content hnode => simp only [h.directory_iff hnode, h.clear_iff hsource.1]
        next => rfl
      simp only [h.free_same hsource.1, hcompare]

/-- Rounds after rounds. -/
theorem Progress.trans (h' : Progress sha staging e more f) :
    Progress sha staging d (entries ++ more) f := by
  refine ⟨fun q => ?_, fun directory hmem => ?_⟩
  · rcases h'.node q with hsame | ⟨hnone, hdirectory, entry, hentry, copy, hfits, hway⟩ |
      ⟨entry, hentry, copy, hgood, heq, hnode⟩
    · rw [hsame]
      exact (h.mono (List.subset_append_left entries more)).node q
    · refine .inr (.inl ⟨?_, hdirectory, entry, List.mem_append_right _ hentry, copy,
        h.fits_iff.mp hfits, hway⟩)
      -- nothing that the first rounds put anywhere is missing afterwards
      rcases h.node q with hsame | ⟨hold, -⟩ | ⟨_, _, _, _, _, hnode⟩
      · rwa [← hsame]
      · exact hold
      · rw [hnone] at hnode
        cases hnode
    · exact .inr (.inr ⟨entry, List.mem_append_right _ hentry, copy,
        (h.verdict_stable entry).symm.trans hgood, heq, hnode⟩)
  · rcases h'.temporary directory hmem with hold | ⟨entry, hentry, copy, hfits, hway⟩
    · exact (h.mono (List.subset_append_left entries more)).temporary directory hold
    · exact .inr ⟨entry, List.mem_append_right _ hentry, copy, h.fits_iff.mp hfits, hway⟩

/-- A copied file is not lost by later rounds. -/
theorem Progress.copied {entry : PendingFile} {copy : Copy}
    (hgood : entry.verdict sha staging d.tree = .good copy)
    (hcopied : d.tree.node (copy.destination roots) = some (.regular copy.content)) :
    e.tree.node (copy.destination roots) = some (.regular copy.content) := by
  rcases h.node (copy.destination roots) with hsame | ⟨hnone, -⟩ |
    ⟨other, -, copy', hgood', heq, hnode⟩
  · rw [hsame, hcopied]
  · rw [hcopied] at hnone
    cases hnone
  · -- files with the same destination are the same staged file
    have hfits := (verdict_eq_good.mp hgood).1
    have hfits' := (verdict_eq_good.mp hgood').1
    have hsource : copy.source staging = copy'.source staging :=
      (source_above staging (heq ▸ List.prefix_rfl)).2.mpr heq
    have hcontent := hfits.staged
    rw [hsource, hfits'.staged] at hcontent
    rw [hnode]
    exact hcontent

end

end Progress

/-! ### Specifications of the calls -/

section Calls

/-- Some choice of this kind is not a success. -/
def Trouble (P : Ending → Prop) : Prop := ∃ ending, P ending ∧ ending ≠ .done

variable {P : Ending → Prop} {I : Disk → Prop} {s : Disk}

variable {Q : Except Failure Unit → Disk → Prop}

theorem wp_require {failure : Failure}
    (hok : condition = true → Q (.ok ()) s) (herr : condition = false → Q (.error failure) s) :
    wp (restrict diskStep P) I (require condition failure).run Q s := by
  cases condition with
  | true => exact hok rfl
  | false => exact herr rfl

section Attempt

variable {act : DiskAct} {failure : Failure} (hI : I s)
include hI

theorem wp_attempt (h : ∀ ending, P ending →
      wp (restrict diskStep P) I (require (endAct s ending (act.effect s)).1 failure).run Q
        (endAct s ending (act.effect s)).2) :
    wp (restrict diskStep P) I (attempt act failure).run Q s := by
  rw [attempt, wp_run_bind, ask, wp_run_lift, wp_perform]
  exact ⟨hI, fun ⟨ending, hP⟩ => h ending hP⟩

/-- A call that is possible. -/
theorem wp_attempt_some (hact : act.effect s = some after) (hok : Q (.ok ()) after)
    (herr : ∀ e, (e = s ∨ e = after) → Trouble P → Q (.error failure) e) :
    wp (restrict diskStep P) I (attempt act failure).run Q s := by
  refine wp_attempt hI fun ending hP => ?_
  rw [hact]
  cases ending with
  | done => exact hok
  | refused => exact herr s (.inl rfl) ⟨.refused, hP, by decide⟩
  | lost => exact herr after (.inr rfl) ⟨.lost, hP, by decide⟩

/-- A call that is not. -/
theorem wp_attempt_none (hact : act.effect s = none) (herr : Q (.error failure) s) :
    wp (restrict diskStep P) I (attempt act failure).run Q s :=
  wp_attempt hI fun ending hP => by rwa [hact]

/-- A call that changes nothing. -/
theorem wp_attempt_quiet (hact : act.effect s = some s) (hok : Q (.ok ()) s)
    (herr : Trouble P → Q (.error failure) s) :
    wp (restrict diskStep P) I (attempt act failure).run Q s := by
  refine wp_attempt_some hI hact hok fun e he htrouble => ?_
  obtain rfl : e = s := he.elim id id
  exact herr htrouble

end Attempt

theorem wp_descend {Q : Except Failure Place → Disk → Prop} (hI : I s)
    (hok : ∀ place, secureDescendant s.tree linked root relative mustExist = .ok place →
      Q (.ok place) s)
    (herr : ∀ refusal, secureDescendant s.tree linked root relative mustExist = .error refusal →
      Q (.error ⟨blame refusal, refusal.message⟩) s)
    (htrouble : Trouble P → Q (.error ⟨.system, Refusal.unavailable.message⟩) s) :
    wp (restrict diskStep P) I (descend linked root relative mustExist blame).run Q s := by
  rw [descend, wp_run_bind, ask, wp_run_lift, wp_perform]
  refine ⟨hI, fun ⟨ending, hP⟩ => ?_⟩
  show wp _ I (settle blame (if ending = .done then _ else _)).run Q s
  by_cases hending : ending = .done
  · rw [if_pos hending]
    cases hfound : secureDescendant s.tree linked root relative mustExist with
    | ok place => exact hok place hfound
    | error refusal => exact herr refusal hfound
  · rw [if_neg hending]
    exact htrouble ⟨ending, hP, hending⟩

theorem wp_openFile {Q : Except Failure Opened → Disk → Prop} (hI : I s)
    (hok : Q (.ok (opened (s.tree.node place))) s) (htrouble : Trouble P → Q (.ok .failed) s) :
    wp (restrict diskStep P) I (ask (.openFile place)).run Q s := by
  rw [ask, wp_run_lift, wp_perform]
  refine ⟨hI, fun ⟨ending, hP⟩ => ?_⟩
  show Q (.ok (if ending = .done then _ else _)) s
  by_cases hending : ending = .done
  · rw [if_pos hending]
    exact hok
  · rw [if_neg hending]
    exact htrouble ⟨ending, hP, hending⟩

end Calls

/-! ### Directories on the way -/

/-- Only missing places down to this one are filled, with directories. -/
structure DirsMade (s : Disk) (place : Place) (e : Disk) : Prop where
  node : ∀ q, e.tree.node q = s.tree.node q ∨
    (s.tree.node q = none ∧ e.tree.node q = some .directory ∧ q <+: place)
  temporaries : e.temporaries = s.temporaries

theorem DirsMade.refl (s : Disk) (place : Place) : DirsMade s place s :=
  ⟨fun _ => .inl rfl, rfl⟩

theorem DirsMade.trans (h : DirsMade s place e) (h' : DirsMade e place f) : DirsMade s place f := by
  refine ⟨fun q => ?_, h'.temporaries.trans h.temporaries⟩
  rcases h'.node q with hsame | ⟨hnone, hdirectory, hway⟩
  · rw [hsame]
    exact h.node q
  · rcases h.node q with hsame | ⟨-, hmade, -⟩
    · exact .inr ⟨hsame ▸ hnone, hdirectory, hway⟩
    · rw [hnone] at hmade
      cases hmade

theorem DirsMade.mono (h : DirsMade s place e) (hway : place <+: longer) : DirsMade s longer e := by
  refine ⟨fun q => ?_, h.temporaries⟩
  rcases h.node q with hsame | ⟨hnone, hdirectory, hq⟩
  · exact .inl hsame
  · exact .inr ⟨hnone, hdirectory, hq.trans hway⟩

/-- Something that is no directory is in the way to a place. -/
def Barred (t : FileTree) (place : Place) : Prop :=
  ∃ p, p <+: place ∧ ¬ (t.node p = none ∨ t.node p = some .directory)

theorem DirsMade.barred (h : DirsMade s place e) (hbarred : Barred e.tree q) :
    Barred s.tree q := by
  obtain ⟨p, hp, hnot⟩ := hbarred
  refine ⟨p, hp, ?_⟩
  rcases h.node p with hsame | ⟨-, hdirectory, -⟩
  · rwa [← hsame]
  · exact absurd (.inr hdirectory) hnot

/-- What is in the way stays there, so no directory is made below it. -/
theorem DirsMade.not_below (h : DirsMade s place e) (hp : p <+: q)
    (hnot : ¬ (s.tree.node p = none ∨ s.tree.node p = some .directory)) :
    e.tree.node q ≠ some .directory := by
  intro hdirectory
  have habove : e.tree.node p = some .directory := by
    by_cases hself : p = q
    · rwa [hself]
    · exact e.tree.directory_above (by simp [hdirectory]) hp hself
  rcases h.node p with hsame | ⟨hnone, -⟩
  · exact hnot (.inr (hsame ▸ habove))
  · exact hnot (.inl hnone)

/-- If something is in the way, no directory is made at all. -/
theorem DirsMade.same_of_barred (h : DirsMade s place e) (hbarred : Barred s.tree place)
    (q : Place) : e.tree.node q = s.tree.node q := by
  obtain ⟨p, hp, hnot⟩ := hbarred
  rcases h.node q with hsame | ⟨hnone, hdirectory, hq⟩
  · exact hsame
  · rcases List.prefix_or_prefix_of_prefix hp hq with hbelow | habove
    · exact absurd hdirectory (h.not_below hbelow hnot)
    · exact absurd (.inl (s.tree.missing_below hnone habove)) hnot

variable {P : Ending → Prop} {I : Disk → Prop} {s : Disk}

theorem mkdir_effect {q : Place} (hparent : q = [] ∨ s.tree.node q.dropLast = some .directory)
    (hq : s.tree.node q = none ∨ s.tree.node q = some .directory) :
    ∃ s', DiskAct.effect (.mkdir q) s = some s' ∧ DirsMade s q s' ∧
      s'.tree.node q = some .directory := by
  rw [DiskAct.effect]
  by_cases hdirectory : s.tree.node q = some .directory
  · rw [if_pos hdirectory]
    exact ⟨s, rfl, .refl s q, hdirectory⟩
  · have hnone : s.tree.node q = none := hq.resolve_right hdirectory
    have hready : s.tree.Ready q := ⟨hparent, hdirectory⟩
    rw [if_neg hdirectory, dif_pos ⟨hnone, hready⟩]
    refine ⟨_, rfl, ⟨fun p => ?_, rfl⟩, if_pos rfl⟩
    by_cases hp : p = q
    · subst hp
      exact .inr ⟨hnone, if_pos rfl, List.prefix_rfl⟩
    · exact .inl (if_neg hp)

variable {Q : Except Failure Unit → Disk → Prop}

theorem wp_mkdir {q : Place} (hparent : q = [] ∨ s.tree.node q.dropLast = some .directory)
    (hI : I s) (hok : ∀ e, DirsMade s q e → e.tree.node q = some .directory → Q (.ok ()) e)
    (herr : ∀ e, DirsMade s q e → (Trouble P ∨ Barred s.tree q) → Q (.error .ofSystem) e) :
    wp (restrict diskStep P) I (attempt (.mkdir q) .ofSystem).run Q s := by
  by_cases hq : s.tree.node q = none ∨ s.tree.node q = some .directory
  · obtain ⟨after, heffect, hmade, hdirectory⟩ := mkdir_effect hparent hq
    refine wp_attempt_some hI heffect (hok after hmade hdirectory) fun e he htrouble => ?_
    rcases he with rfl | rfl
    · exact herr e (.refl e q) (.inl htrouble)
    · exact herr e hmade (.inl htrouble)
  · refine wp_attempt_none hI ?_ (herr s (.refl s q) (.inr ⟨q, List.prefix_rfl, hq⟩))
    rw [not_or] at hq
    rw [DiskAct.effect, if_neg hq.2, dif_neg fun h => hq.1 h.1]

theorem wp_mkdirBelow (hcurrent : s.tree.node current = some .directory)
    (hI : ∀ e, DirsMade s (current ++ names) e → I e) (hok : ∀ e, DirsMade s (current ++ names) e →
      e.tree.node (current ++ names) = some .directory → Q (.ok ()) e)
    (herr : ∀ e, DirsMade s (current ++ names) e →
      (Trouble P ∨ Barred s.tree (current ++ names)) → Q (.error .ofSystem) e) :
    wp (restrict diskStep P) I (mkdirBelow current names).run Q s := by
  induction names generalizing current s with
  | nil =>
    rw [List.append_nil] at hok
    exact hok s (.refl s current) hcurrent
  | cons name names ih =>
    rw [List.append_cons] at hI hok herr
    have hstep : current ++ [name] <+: current ++ [name] ++ names := List.prefix_append _ _
    rw [mkdirBelow, wp_run_bind]
    refine wp_mkdir (.inr (by rwa [List.dropLast_concat])) (hI s (.refl s _)) ?_ ?_
    · intro e hmade hdirectory
      have hmade' := hmade.mono hstep
      exact ih hdirectory (fun f hf => hI f (hmade'.trans hf))
        (fun f hf => hok f (hmade'.trans hf))
        fun f hf hstop => herr f (hmade'.trans hf) (hstop.imp_right hmade.barred)
    · intro e hmade hstop
      exact herr e (hmade.mono hstep)
        (hstop.imp_right fun ⟨p, hp, hnot⟩ => ⟨p, hp.trans hstep, hnot⟩)

theorem wp_mkdirAll {place : Place} (hI : ∀ e, DirsMade s place e → I e)
    (hok : ∀ e, DirsMade s place e → e.tree.node place = some .directory → Q (.ok ()) e)
    (herr : ∀ e, DirsMade s place e → (Trouble P ∨ Barred s.tree place) → Q (.error .ofSystem) e) :
    wp (restrict diskStep P) I (mkdirAll place).run Q s := by
  rw [mkdirAll, wp_run_bind]
  have hstart : [] <+: place := List.nil_prefix
  refine wp_mkdir (.inl rfl) (hI s (.refl s _)) ?_ ?_
  · intro e hmade hdirectory
    have hmade' := hmade.mono hstart
    exact wp_mkdirBelow hdirectory (fun f hf => hI f (hmade'.trans hf))
      (fun f hf => hok f (hmade'.trans hf))
      fun f hf hstop => herr f (hmade'.trans hf) (hstop.imp_right hmade.barred)
  · intro e hmade hstop
    exact herr e (hmade.mono hstart)
      (hstop.imp_right fun ⟨p, hp, hnot⟩ => ⟨p, hp.trans hstart, hnot⟩)

/-! ### One round -/

section Round

variable {sha : Bytes → Text} {P : Ending → Prop} {I : Disk → Prop} {s : Disk}

/-- The rename has put the content at the destination. -/
def Installed (s : Disk) (destination : Place) (content : Bytes) (e : Disk) : Prop :=
  ∃ h : s.tree.Ready destination,
    e = { s with tree := s.tree.put destination (.regular content) h }

variable {Q : Except Failure Unit → Disk → Prop}

theorem wp_install {content : Bytes}
    (hparent : s.tree.node destination.dropLast = some .directory) (hI : I s)
    (hI' : sha content = digest → ∀ e, Installed s destination content e → I e)
    (hok : sha content = digest → ∀ e, Installed s destination content e → Q (.ok ()) e)
    (hbad : sha content ≠ digest →
      Q (.error ⟨.staged, "staged recovery file failed its checksum"⟩) s)
    (hsystem : ∀ e, (e = s ∨ sha content = digest ∧ Installed s destination content e) →
      (Trouble P ∨ sha content = digest ∧ s.tree.node destination = some .directory) →
      Q (.error .ofSystem) e) :
    wp (restrict diskStep P) I (install sha destination content digest).run Q s := by
  rw [install, wp_run_bind]
  refine wp_attempt_quiet hI rfl ?_ fun htrouble => hsystem s (.inl rfl) (.inl htrouble)
  rw [either_ok, wp_run_bind]
  refine wp_require (fun hsame => ?_) fun hdiffer => hbad (of_decide_eq_false hdiffer)
  have hsha := of_decide_eq_true hsame
  rw [either_ok, wp_run_bind]
  refine wp_attempt_quiet hI rfl ?_ fun htrouble => hsystem s (.inl rfl) (.inl htrouble)
  rw [either_ok, wp_run_bind]
  by_cases hready : s.tree.Ready destination
  · have hinstalled : Installed s destination content _ := ⟨hready, rfl⟩
    refine wp_attempt_some hI (dif_pos hready) ?_ fun e he htrouble => hsystem e ?_ (.inl htrouble)
    · exact wp_attempt_quiet (hI' hsha _ hinstalled) rfl (hok hsha _ hinstalled)
        fun htrouble => hsystem _ (.inr ⟨hsha, hinstalled⟩) (.inl htrouble)
    · exact he.imp_right fun heq => ⟨hsha, hready, heq⟩
  · refine wp_attempt_none hI (dif_neg hready) (hsystem s (.inl rfl) (.inr ⟨hsha, ?_⟩))
    -- the parent is there, so only a directory can be in the way
    by_contra hnot
    exact hready ⟨.inr hparent, hnot⟩

theorem wp_removingTemporary (h : wp (restrict diskStep P) I body.run (fun r e => I e ∧
      ∀ e', e'.tree = e.tree → (∀ q ∈ e'.temporaries, q ∈ e.temporaries) → Q r e') s) :
    wp (restrict diskStep P) I (removingTemporary directory body).run Q s := by
  rw [removingTemporary, wp_run_bind, wp_run_lift]
  refine wp_mono h fun r e hr => ?_
  obtain ⟨hI, hQ⟩ := hr
  rw [either_ok, wp_run_bind, ask, wp_run_lift, wp_perform]
  refine ⟨hI, fun ⟨ending, hP⟩ => ?_⟩
  show Q r (endAct e ending (DiskAct.effect (.removeTemporary directory) e)).2
  cases ending with
  | refused => exact hQ e rfl fun q hq => hq
  | done => exact hQ _ rfl fun q hq => List.mem_of_mem_erase hq
  | lost => exact hQ _ rfl fun q hq => List.mem_of_mem_erase hq

variable {roots : Roots} {staging : Staging roots} {entry : PendingFile} {copy : Copy}

/-- Directories and a temporary file are progress. -/
theorem Fits.progress_dirs (hfits : Fits staging s.tree entry copy)
    (hmade : DirsMade s (copy.destination roots).dropLast e) (htree : f.tree = e.tree)
    (htemporary : ∀ q ∈ f.temporaries, q ∈ s.temporaries ∨ q = (copy.destination roots).dropLast) :
    Progress sha staging s [entry] f := by
  refine ⟨fun q => ?_, fun q hq => ?_⟩
  · rw [htree]
    rcases hmade.node q with hsame | ⟨hnone, hdirectory, hway⟩
    · exact .inl hsame
    · exact .inr (.inl ⟨hnone, hdirectory, entry, List.mem_singleton_self _, copy, hfits, hway⟩)
  · rcases htemporary q hq with hold | hnew
    · exact .inl hold
    · exact .inr ⟨entry, List.mem_singleton_self _, copy, hfits, hnew⟩

/-- So is the copied file. -/
theorem progress_installed (hgood : entry.verdict sha staging s.tree = .good copy)
    (hmade : DirsMade s (copy.destination roots).dropLast e) (htree : f.tree = e.tree)
    (hinstalled : Installed f (copy.destination roots) copy.content g) (htree' : g'.tree = g.tree)
    (htemporary : ∀ q ∈ g'.temporaries, q ∈ s.temporaries ∨ q = (copy.destination roots).dropLast) :
    Progress sha staging s [entry] g' ∧
      g'.tree.node (copy.destination roots) = some (.regular copy.content) := by
  obtain ⟨hready, rfl⟩ := hinstalled
  have hnode : ∀ q, g'.tree.node q =
      if q = copy.destination roots then some (.regular copy.content) else e.tree.node q := by
    intro q
    rw [htree', ← htree]
    rfl
  have hprogress : Progress sha staging s [entry] { e with temporaries := g'.temporaries } :=
    (verdict_eq_good.mp hgood).1.progress_dirs hmade rfl htemporary
  refine ⟨⟨fun q => ?_, hprogress.temporary⟩, by rw [hnode, if_pos rfl]⟩
  rw [hnode]
  by_cases hq : q = copy.destination roots
  · rw [if_pos hq]
    exact .inr (.inr ⟨entry, List.mem_singleton_self _, copy, hgood, hq, rfl⟩)
  · rw [if_neg hq]
    exact hprogress.node q

/-- The failure of a round says what the verdict on the entry says, or that the system failed. -/
def Rejected (P : Ending → Prop) (verdict : Verdict) (failure : Failure) : Prop :=
  (failure.cause.blamesEntry = true ∧ verdict = .faulty) ∨
    (failure.cause.blamesEntry = false ∧ (Trouble P ∨ verdict = .blocked))

/-- The entry does not get as far as a temporary file, unless the system failed. -/
def Unfit (P : Ending → Prop) (staging : Staging roots) (t : FileTree) (entry : PendingFile) :
    Prop :=
  Trouble P ∨ ∀ copy, ¬ Fits staging t entry copy

/-- The directories and the temporary file are there. -/
structure Prepared (s : Disk) (destination : Place) (e : Disk) : Prop where
  made : ∃ e', DirsMade s destination.dropLast e' ∧ e.tree = e'.tree
  parent : e.tree.node destination.dropLast = some .directory
  temporaries : e.temporaries = destination.dropLast :: s.temporaries

/-- The places of an entry, as far as the checks before its copy go. -/
structure Located (staging : Staging roots) (t : FileTree) (entry : PendingFile) (item : Item) :
    Prop where
  asks : entry.item = some item
  source : t.node (item.source staging) ≠ none ∧ t.link (item.source staging) = false
  free : item.free roots t = true

theorem Fits.item_eq {item : Item} (h : Fits staging t entry copy)
    (hitem : entry.item = some item) :
    copy.toItem = item :=
  Option.some.inj (h.asks.symm.trans hitem)

variable {item : Item} (hlocated : Located staging s.tree entry item)
include hlocated

theorem Located.verdict_eq : entry.verdict sha staging s.tree =
    entry.compare sha roots s.tree item (s.tree.node (item.source staging)) :=
  verdict_eq_compare hlocated.asks hlocated.source hlocated.free

/-- A destination whose directories can be made. -/
theorem Located.fits {content : Bytes}
    (hnode : s.tree.node (item.source staging) = some (.regular content))
    (hsize : (content.length : ℤ) = entry.size)
    (hway : ¬ Barred s.tree (item.destination roots).dropLast) :
    Fits staging s.tree entry ⟨item, content⟩ := by
  obtain ⟨hdirect, -, -, hlink⟩ := free_iff.mp hlocated.free
  refine ⟨hlocated.asks, hnode, hsize, hdirect, fun p hp hne => ?_, hlink⟩
  by_contra hnot
  exact hway ⟨p, (prefix_dropLast_iff (destination_ne_nil roots item)).mpr ⟨hp, hne⟩, hnot⟩

/-- A destination below a link that leads nowhere. -/
theorem Located.barred {content : Bytes}
    (hnode : s.tree.node (item.source staging) = some (.regular content))
    (hsize : (content.length : ℤ) = entry.size)
    (hway : Barred s.tree (item.destination roots).dropLast) :
    entry.verdict sha staging s.tree = .blocked ∧ ∀ copy, ¬ Fits staging s.tree entry copy := by
  obtain ⟨p, hp, hnot⟩ := hway
  rw [prefix_dropLast_iff (destination_ne_nil roots item)] at hp
  have hclear : ¬ Clear s.tree (item.destination roots) := fun h => hnot (h.1 p hp.1 hp.2)
  refine ⟨?_, fun copy hfits => hclear (hfits.item_eq hlocated.asks ▸ hfits.clear)⟩
  rw [hlocated.verdict_eq, hnode, PendingFile.compare, if_neg (not_not.mpr hsize), if_pos hclear]

variable (sha) in
theorem wp_prepare {Q : Except Failure Bytes → Disk → Prop}
    (hI : ∀ e, Progress sha staging s [entry] e → I e)
    (hok : ∀ content e, Fits staging s.tree entry ⟨item, content⟩ →
      Prepared s (item.destination roots) e → Q (.ok content) e)
    (herr : ∀ failure e, Progress sha staging s [entry] e →
      Rejected P (entry.verdict sha staging s.tree) failure → Unfit P staging s.tree entry →
      Q (.error failure) e) :
    wp (restrict diskStep P) I
      (prepare (item.source staging) (item.destination roots) entry.size).run Q s := by
  have hstart := Progress.refl sha staging s [entry]
  have hsystem : ∀ e, Progress sha staging s [entry] e → Trouble P →
      Q (.error .ofSystem) e := fun e hprogress htrouble =>
    herr _ e hprogress (.inr ⟨rfl, .inl htrouble⟩) (.inl htrouble)
  -- the staged file is not what the entry says
  have hfault : (∀ content, s.tree.node (item.source staging) = some (.regular content) →
      (content.length : ℤ) ≠ entry.size) →
      Q (.error ⟨.staged, "staged recovery file size does not match its manifest"⟩) s := by
    intro hstaged
    refine herr _ s hstart (.inl ⟨rfl, ?_⟩) (.inr fun copy hfits => ?_)
    · rw [hlocated.verdict_eq]
      unfold PendingFile.compare
      split
      next content hnode => rw [if_pos (hstaged content hnode)]
      next => rfl
    · obtain rfl := hfits.item_eq hlocated.asks
      exact hstaged copy.content hfits.staged hfits.size
  rw [prepare, wp_run_bind]
  refine wp_openFile (hI s hstart) ?_ fun htrouble => hsystem s hstart htrouble
  rw [either_ok, wp_run_bind]
  cases hnode : s.tree.node (item.source staging) with
  | none => exact absurd hnode hlocated.source.1
  | some n =>
    cases n with
    | directory | other => exact hfault fun content h => by simp [hnode] at h
    | symlink target =>
      have hlink := hlocated.source.2
      simp [FileTree.link, hnode] at hlink
    | regular content =>
      show wp _ I (if (content.length : ℤ) = entry.size then pure content else throw _ :
        Program Bytes).run _ s
      by_cases hsize : (content.length : ℤ) = entry.size
      · rw [if_pos hsize, wp_run_pure, either_ok, wp_run_bind]
        by_cases hway : Barred s.tree (item.destination roots).dropLast
        · have hdirs : ∀ e, DirsMade s (item.destination roots).dropLast e →
              Progress sha staging s [entry] e := fun e hmade =>
            ⟨fun q => .inl (hmade.same_of_barred hway q),
              fun q hq => .inl (hmade.temporaries ▸ hq)⟩
          obtain ⟨hblocked, hunfit⟩ := hlocated.barred hnode hsize hway
          refine wp_mkdirAll (fun e hmade => hI e (hdirs e hmade)) (fun e hmade hparent => ?_)
            fun e hmade _ => herr _ e (hdirs e hmade) (.inr ⟨rfl, .inr hblocked⟩) (.inr hunfit)
          obtain ⟨p, hp, hnot⟩ := hway
          exact absurd hparent (hmade.not_below hp hnot)
        · have hfits := hlocated.fits hnode hsize hway
          have hdirs : ∀ e, DirsMade s (item.destination roots).dropLast e →
              Progress sha staging s [entry] e := fun e hmade =>
            hfits.progress_dirs hmade rfl fun q hq => .inl (hmade.temporaries ▸ hq)
          refine wp_mkdirAll (fun e hmade => hI e (hdirs e hmade)) (fun e hmade hparent => ?_)
            fun e hmade hstop => hsystem e (hdirs e hmade) (hstop.resolve_right hway)
          have heffect : DiskAct.effect (.createTemporary (item.destination roots).dropLast) e =
              some { e with temporaries :=
                (item.destination roots).dropLast :: e.temporaries } := by
            rw [DiskAct.effect, if_pos hparent]
          rw [either_ok, wp_run_bind]
          refine wp_attempt_some (hI e (hdirs e hmade)) heffect ?_ fun f hf htrouble => ?_
          · exact hok content _ hfits ⟨⟨e, hmade, rfl⟩, hparent, by rw [← hmade.temporaries]⟩
          · refine hsystem f ?_ htrouble
            rcases hf with rfl | rfl
            · exact hdirs f hmade
            · refine hfits.progress_dirs hmade rfl fun q hq => ?_
              rcases List.mem_cons.mp hq with hnew | hold
              · exact .inr hnew
              · exact .inl (hmade.temporaries ▸ hold)
      · rw [if_neg hsize]
        refine hfault fun content' h => ?_
        rw [hnode] at h
        cases h
        exact hsize

omit hlocated

/-- How a round ends: with the copy of the verdict, or with a failure that the verdict or the
    system explains. -/
inductive RoundEnded (sha : Bytes → Text) {roots : Roots} (staging : Staging roots)
    (P : Ending → Prop) (s : Disk) (entry : PendingFile) : Except Failure Unit → Disk → Prop where
  | copied {copy : Copy} {e : Disk} (hgood : entry.verdict sha staging s.tree = .good copy)
      (hprogress : Progress sha staging s [entry] e)
      (hnode : e.tree.node (copy.destination roots) = some (.regular copy.content)) :
      RoundEnded sha staging P s entry (.ok ()) e
  | failed {failure : Failure} {e : Disk} (hprogress : Progress sha staging s [entry] e)
      (hrejected : Rejected P (entry.verdict sha staging s.tree) failure) :
      RoundEnded sha staging P s entry (.error failure) e

theorem wp_copyVerifiedAtomic (hlocated : Located staging s.tree entry item) :
    wp (restrict diskStep P) (Progress sha staging s [entry])
      (copyVerifiedAtomic sha (item.source staging) (item.destination roots) entry.size
        entry.sha256).run (RoundEnded sha staging P s entry) s := by
  rw [copyVerifiedAtomic, wp_run_bind]
  refine wp_prepare sha hlocated (fun _ => id) (fun content e hfits hprepared => ?_)
    fun failure e hprogress hrejected _ => .failed hprogress hrejected
  obtain ⟨e', hmade, htree⟩ := hprepared.made
  have hverdict : entry.verdict sha staging s.tree = _ := hfits.verdict_eq
  have htemporary :
    ∀ q ∈ e.temporaries, q ∈ s.temporaries ∨ q = (item.destination roots).dropLast := by
    intro q hq
    rw [hprepared.temporaries, List.mem_cons] at hq
    exact hq.symm
  have hdirs : ∀ f : Disk, f.tree = e.tree → (∀ q ∈ f.temporaries, q ∈ e.temporaries) →
      Progress sha staging s [entry] f := fun f hf hsub =>
    hfits.progress_dirs hmade (hf.trans htree) fun q hq => htemporary q (hsub q hq)
  have hdestination :
    e.tree.node (item.destination roots) = s.tree.node (item.destination roots) := by
    rw [htree]
    rcases hmade.node (item.destination roots) with hsame | ⟨-, -, hway⟩
    · exact hsame
    · exact absurd rfl ((prefix_dropLast_iff (destination_ne_nil roots item)).mp hway).2
  -- with the right digest, what can be installed is the copy of the verdict
  have hgood : sha content = entry.sha256 → e.tree.Ready (item.destination roots) →
      entry.verdict sha staging s.tree = .good ⟨item, content⟩ := by
    intro hsha hready
    rw [hverdict, if_neg (not_not.mpr hsha), if_neg (hdestination ▸ hready.2)]
  have hinstalled :
    sha content = entry.sha256 → ∀ g, Installed e (item.destination roots) content g →
      ∀ g' : Disk, g'.tree = g.tree → (∀ q ∈ g'.temporaries, q ∈ g.temporaries) →
      Progress sha staging s [entry] g' ∧
        g'.tree.node (item.destination roots) = some (.regular content) := by
    intro hsha g hg g' htree' hsub
    obtain ⟨hready, rfl⟩ := id hg
    exact progress_installed (hgood hsha hready) hmade htree hg htree'
      fun q hq => htemporary q (hsub q hq)
  refine wp_removingTemporary (wp_install hprepared.parent (hdirs e rfl fun _ => id) ?_ ?_ ?_ ?_)
  · exact fun hsha g hg => (hinstalled hsha g hg g rfl fun _ => id).1
  · intro hsha g hg
    refine ⟨(hinstalled hsha g hg g rfl fun _ => id).1, fun g' htree' hsub => ?_⟩
    obtain ⟨hprogress, hnode⟩ := hinstalled hsha g hg g' htree' hsub
    exact .copied (hgood hsha hg.1) hprogress hnode
  · intro hsha
    refine ⟨hdirs e rfl fun _ => id, fun g' htree' hsub => ?_⟩
    refine .failed (hdirs g' htree' hsub) (.inl ⟨rfl, ?_⟩)
    rw [hverdict, if_pos hsha]
  · intro g hg htrouble
    have hrejected : Rejected P (entry.verdict sha staging s.tree) .ofSystem := by
      refine .inr ⟨rfl, htrouble.imp_right fun hblocked => ?_⟩
      rw [hverdict, if_neg (not_not.mpr hblocked.1), if_pos (hdestination ▸ hblocked.2)]
    rcases hg with rfl | ⟨hsha, hg⟩
    · exact ⟨hdirs g rfl fun _ => id, fun g' htree' hsub =>
        .failed (hdirs g' htree' hsub) hrejected⟩
    · exact ⟨(hinstalled hsha g hg g rfl fun _ => id).1, fun g' htree' hsub =>
        .failed (hinstalled hsha g hg g' htree' hsub).1 hrejected⟩

/-- A valid entry has a kind, and its path does not lead upwards. -/
theorem valid_path (h : entry.valid = true) :
    ∃ kind suffix, kindOf entry.path = some (kind, suffix) ∧ entry.path = kind.text ++ suffix ∧
      (entry.path.head? = some '/' || hasParentTraversal entry.path) = false ∧
      hasParentTraversal suffix = false := by
  simp only [PendingFile.valid, Bool.and_eq_true, Bool.not_eq_true'] at h
  obtain ⟨⟨⟨⟨hpattern, htraversal⟩, -⟩, -⟩, -⟩ := h
  cases hkind : kindOf entry.path with
  | none => simp [pathPattern, hkind] at hpattern
  | some found =>
    obtain ⟨kind, suffix⟩ := found
    have hpath := kindOf_eq_some hkind
    refine ⟨kind, suffix, rfl, hpath, ?_, ?_⟩
    · rw [htraversal, hpath]
      cases kind <;> rfl
    · rw [hasParentTraversal, hpath, fieldsOf_kind] at htraversal
      rw [hasParentTraversal]
      by_contra hup
      rw [Bool.not_eq_false, List.contains_iff_mem] at hup
      exact absurd (List.contains_iff_mem.mpr (List.mem_append_right kind.names hup))
        (by rw [htraversal]; decide)

theorem item_of_valid (h : entry.valid = true) (hkind : kindOf entry.path = some (kind, suffix)) :
    entry.item = if suffix.head? = some '/' then none else
      some ⟨kind, plainNames (fieldsOf '/' suffix)⟩ := by
  by_cases habsolute : suffix.head? = some '/'
  · simp [PendingFile.item, hkind, habsolute]
  · simp [PendingFile.item, hkind, habsolute, h]

variable (sha) in
/-- The checks on an entry before its copy. -/
theorem wp_locate {Q : Except Failure (Place × Place) → Disk → Prop} (hI : I s)
    (hok : ∀ item, Located staging s.tree entry item →
      Q (.ok (item.source staging, item.destination roots)) s)
    (herr : ∀ failure, Rejected P (entry.verdict sha staging s.tree) failure →
      Unfit P staging s.tree entry → Q (.error failure) s) :
    wp (restrict diskStep P) I (locate roots.toOptions staging.place entry).run Q s := by
  have hsystem : Trouble P → Q (.error ⟨.system, Refusal.unavailable.message⟩) s :=
    fun htrouble => herr _ (.inr ⟨rfl, .inl htrouble⟩) (.inl htrouble)
  -- the text of the entry is at fault
  have htextFault : entry.item = none →
      ∀ failure : Failure, failure.cause.blamesEntry = true → Q (.error failure) s := by
    intro hitem failure hblame
    refine herr failure (.inl ⟨hblame, ?_⟩) (.inr fun copy hfits => ?_)
    · simp only [PendingFile.verdict, hitem]
    · cases hfits.asks.symm.trans hitem
  rw [locate, wp_run_bind]
  refine wp_require (fun hvalid => ?_) fun hinvalid => htextFault ?_ _ rfl
  · obtain ⟨kind, suffix, hkind, hpath, htext, htraversal⟩ := valid_path hvalid
    have hitem := item_of_valid hvalid hkind
    have hstaged : secureDescendant s.tree false staging.place entry.path true =
        lstatWay s.tree false staging.place true
          (kind.names ++ plainNames (fieldsOf '/' suffix)) := by
      rw [secureDescendant_eq staging.plain htext, hpath, fieldsOf_kind, plainNames_kind]
    rw [either_ok, wp_run_bind]
    refine wp_descend hI (fun source hsource => ?_) (fun refusal hrefusal => ?_) hsystem
    · -- the staged file is there
      obtain ⟨hthere, rfl⟩ :=
        (lstatWay_existing (staging_ne_nil staging)).mp (hstaged.symm.trans hsource)
      rw [either_ok, wp_run_bind, restoreDestination, hkind]
      by_cases habsolute : suffix.head? = some '/'
      · have hescaped : secureDescendant s.tree (roots.linked kind) (roots.root kind) suffix false =
            .error .escaped := by
          rw [secureDescendant, if_pos (by simp [habsolute])]
        refine wp_descend hI (fun place hplace => ?_) (fun refusal hrefusal => ?_) hsystem
        · cases hescaped.symm.trans hplace
        · cases hescaped.symm.trans hrefusal
          exact htextFault (hitem.trans (if_pos habsolute)) _ rfl
      · rw [if_neg habsolute] at hitem
        have hnew : secureDescendant s.tree (roots.linked kind) (roots.root kind) suffix false =
            lstatWay _ _ _ _ _ :=
          secureDescendant_eq (roots.plain kind) (by simp [habsolute, htraversal])
        refine wp_descend hI (fun place hplace => ?_) (fun refusal hrefusal => ?_) hsystem
        · have hway := hnew.symm.trans hplace
          obtain ⟨-, rfl⟩ := (lstatWay_eq_ok (root_ne_nil roots kind)).mp hway
          exact hok _ ⟨hitem, hthere, by rw [Item.free, hway]; rfl⟩
        · have hway := hnew.symm.trans hrefusal
          have hfree : Item.free roots s.tree ⟨kind, plainNames (fieldsOf '/' suffix)⟩ = false := by
            rw [Item.free, hway]
            rfl
          refine herr _ (.inr ⟨by rw [lstatWay_error hway]; rfl, .inr ?_⟩)
            (.inr fun copy hfits => ?_)
          · simp only [PendingFile.verdict, hitem]
            exact (if_neg (not_or.mpr ⟨hthere.1, Bool.eq_false_iff.mp hthere.2⟩)).trans
              (if_pos hfree)
          · have hpass := hfits.clear.free hfits.direct
            rw [hfits.item_eq hitem, hfree] at hpass
            cases hpass
    · -- it is missing or a link
      by_cases habsolute : suffix.head? = some '/'
      · exact htextFault (hitem.trans (if_pos habsolute)) _ rfl
      · rw [if_neg habsolute] at hitem
        have hnot : ¬ (s.tree.node _ ≠ none ∧ s.tree.link _ = false) := fun hthere =>
          nomatch (hstaged.symm.trans hrefusal).symm.trans
            ((lstatWay_existing (staging_ne_nil staging)).mpr ⟨hthere, rfl⟩)
        refine herr _ (.inl ⟨rfl, ?_⟩) (.inr fun copy hfits => hnot ?_)
        · simp only [PendingFile.verdict, hitem]
          exact if_pos ((not_and_or.mp hnot).imp not_not.mp Bool.eq_true_of_not_eq_false)
        · have hthere := hfits.source_ok
          rwa [hfits.item_eq hitem] at hthere
  · rw [PendingFile.item]
    cases kindOf entry.path <;> simp [hinvalid]

/-- **The round.** Whatever the system does, a round for an entry leaves no more than progress; it
    succeeds only with the copy of the verdict, and it fails as the verdict says or because the
    system failed. -/
theorem wp_restoreEntry : wp (restrict diskStep P) (Progress sha staging s [entry])
    (restoreEntry sha roots.toOptions staging.place entry).run
    (RoundEnded sha staging P s entry) s := by
  have hstart := Progress.refl sha staging s [entry]
  rw [restoreEntry, wp_run_bind]
  exact wp_locate sha hstart (fun item hlocated => wp_copyVerifiedAtomic hlocated)
    fun failure hrejected _ => .failed hstart hrejected

end Round

end SbGateway.Recovery
