import SbGateway.Recovery.PendingRun

namespace SbGateway.Recovery

open Lib Lib.Calls

/-!
# When a pending recovery is all or nothing

`Atomic` says that a pending recovery is applied completely or not at all: an entry that is at
fault leaves every file as it was, a success restores every file, runs that were cut off do not
change what a later success leaves, and nothing is written outside of the three directories.

The entries are checked one after another and each is copied before the next one is checked, and
the pattern for paths admits the document itself and the directories themselves.  `Orderly` is
what the disk must look like for this to do no harm.
-/

variable {α : Type} (sha : Bytes → Text) (decode : Bytes → Option (PendingRestore α))
  (roots : Roots)

/-! ### The property -/

/-- A run on a disk, with the choices of the system; it is cut off when they are used up. -/
def runOn (choices : List Ending) (d : Disk) : Option (Except Failure (Result α)) × Disk :=
  (applyPending sha decode roots.toOptions).run.run diskStep choices d

/-- No file is changed; at most directories are added. -/
def FilesKept (t u : FileTree) : Prop :=
  ∀ q, u.node q = t.node q ∨ (t.node q = none ∧ u.node q = some .directory)

/-- Every destination of a manifest is as its staged file. -/
def DestinationsEqualStaged (t : FileTree) (pending : PendingRestore α) (staging : Staging roots)
    (u : FileTree) : Prop :=
  ∀ entry ∈ pending.files, ∃ item content, entry.item = some item ∧
    t.node (item.source staging) = some (.regular content) ∧
    u.node (item.destination roots) = some (.regular content)

/-- What is written is below the place of one of the three directories, and no link is on the way
    to it; a directory that is missing itself is made; staging directories are removed. -/
structure Confined (t : FileTree) (e : Disk) : Prop where
  node : ∀ q, e.tree.node q ≠ t.node q →
    (∃ kind, roots.root kind <+: q ∧
      (∀ p, p <+: q → p ≠ q → t.node p = none ∨ t.node p = some .directory) ∧
      (e.tree.node q ≠ none → t.link q = false)) ∨
    (t.node q = none ∧ e.tree.node q = some .directory ∧ ∃ kind, q <+: roots.root kind) ∨
    (roots.stagingArea <+: q ∧ e.tree.node q = none)
  temporary : ∀ directory ∈ e.temporaries, ∃ kind, roots.root kind <+: directory

/-- The disks that runs leave, cut off or not. -/
inductive Later (d : Disk) : Disk → Prop where
  | start : Later d d
  | again {s : Disk} (choices : List Ending) (h : Later d s) :
      Later d (runOn sha decode roots choices s).2

/-- A pending recovery is applied completely or not at all. -/
structure Atomic (t : FileTree) : Prop where
  fault : ∀ choices failure e,
    runOn sha decode roots choices ⟨t, []⟩ = (some (.error failure), e) →
      failure.cause.blamesEntry = true → FilesKept t e.tree
  success : ∀ choices restored name e,
    runOn sha decode roots choices ⟨t, []⟩ = (some (.ok (.restored restored name)), e) →
      ∃ pending staging, manifestOf roots decode t = some (pending, staging.place) ∧
        DestinationsEqualStaged roots t pending staging e.tree
  resumed : ∀ choices restored name e,
    runOn sha decode roots choices ⟨t, []⟩ = (some (.ok (.restored restored name)), e) →
      ∀ s, Later sha decode roots ⟨t, []⟩ s → ∀ choices' result e',
        runOn sha decode roots choices' s = (some (.ok result), e') →
          ∀ q, ¬ roots.stagingArea <+: q → e'.tree.node q = e.tree.node q
  confined : ∀ choices, Confined roots t (runOn sha decode roots choices ⟨t, []⟩).2

/-! ### The condition -/

/-- All these entries can be copied. -/
abbrev AllGood {roots : Roots} (staging : Staging roots) (t : FileTree)
    (entries : List PendingFile) : Prop :=
  ∀ entry ∈ entries, ∃ copy, entry.verdict sha staging t = .good copy

/-- What the manifest and the disk must be like. -/
structure Orderly {roots : Roots} (t : FileTree) (pending : PendingRestore α)
    (staging : Staging roots) : Prop where
  /-- Before an entry that is at fault nothing is left to copy. -/
  beforeFault : ∀ before entry after, pending.files = before ++ entry :: after →
    AllGood sha staging t before → entry.verdict sha staging t = .faulty →
    ∀ other ∈ before, ∀ copy, other.verdict sha staging t = .good copy →
      t.node (copy.destination roots) = some (.regular copy.content)
  /-- If every file can be copied, none of them is the document. -/
  notDocument : AllGood sha staging t pending.files → ∀ entry ∈ pending.files, ∀ copy,
    entry.verdict sha staging t = .good copy → copy.destination roots ≠ roots.pendingPath
  /-- No entry that is reached stands for one of the directories itself. -/
  notRoot : ∀ before entry after, pending.files = before ++ entry :: after →
    AllGood sha staging t before → ∀ copy, Fits staging t entry copy →
      ∀ kind, copy.destination roots ≠ roots.root kind
  /-- If every file can be copied, the path of the staging directory has led to a directory of the
      staging area. -/
  inArea : AllGood sha staging t pending.files → roots.stagingArea <+: staging.place

/-! ### What runs can do -/

section Conditions

variable {sha decode roots} {t : FileTree}

theorem ended_of_run (hapart : StagedApart roots decode d.tree)
    (hrun : runOn sha decode roots choices d = (some r, e)) :
    Ended sha roots decode (fun _ => True) d r e :=
  of_run_some (wp_of_restrict (fun _ => trivial) (wp_applyPending hapart)) hrun

theorem passed_runOn (hapart : StagedApart roots decode d.tree) (choices : List Ending) :
    Passed sha roots decode d (runOn sha decode roots choices d).2 :=
  wp_inv (wp_mono (wp_of_restrict (fun _ => trivial) (wp_applyPending hapart))
    fun _ _ => Ended.passed) choices

variable {staging : Staging roots}

theorem Copied.good
    (h : Copied sha staging s entries e) : AllGood sha staging s.tree entries :=
  fun entry hentry => (h entry hentry).imp fun _ => And.left

/-- A copied file is at its destination. -/
theorem Copied.node (h : Copied sha staging s entries e) (hentry : entry ∈ entries)
    (hgood : entry.verdict sha staging s.tree = .good copy) :
    e.tree.node (copy.destination roots) = some (.regular copy.content) := by
  obtain ⟨copy', hgood', hnode⟩ := h entry hentry
  cases hgood.symm.trans hgood'
  exact hnode

variable {e : Disk} {pending : PendingRestore α} (hapart : StagedApart roots decode t)
  (horderly : ∀ pending (staging : Staging roots),
    manifestOf roots decode t = some (pending, staging.place) → Orderly sha t pending staging)

theorem filesKept_of_fault (horderly : Orderly sha t pending staging)
    (hat : AtEntry sha staging ⟨t, []⟩ pending.files before entry e)
    (hfaulty : entry.verdict sha staging t = .faulty) : FilesKept t e.tree := by
  obtain ⟨after, hsplit⟩ := hat.split
  intro q
  rcases hat.progress.node q with hsame | ⟨hnone, hdirectory, -⟩ |
    ⟨other, hother, copy, hgood, rfl, hnode⟩
  · exact .inl hsame
  · exact .inr ⟨hnone, hdirectory⟩
  · -- the entry at fault is not copied, and the others were copied before
    rcases List.mem_append.mp hother with hold | hself
    · refine .inl (hnode.trans ?_)
      exact (horderly.beforeFault before entry after hsplit hat.copied.good hfaulty other hold copy
        hgood).symm
    · rw [List.mem_singleton.mp hself] at hgood
      cases hfaulty.symm.trans hgood

include hapart horderly in
theorem atomic_fault (choices : List Ending) {failure : Failure}
    (hrun : runOn sha decode roots choices ⟨t, []⟩ = (some (.error failure), e))
    (hblame : failure.cause.blamesEntry = true) : FilesKept t e.tree := by
  cases ended_of_run hapart hrun with
  | refused hother =>
    rw [hother] at hblame
    cases hblame
  | broken => cases hblame
  | stopped hmanifest hat hrejected =>
    rcases hrejected with ⟨-, hfaulty⟩ | ⟨hother, -⟩
    · exact filesKept_of_fault (horderly _ _ hmanifest) hat hfaulty
    · rw [hother] at hblame
      cases hblame

/-- The manifest and the end of a run that restores. -/
theorem restored_of_success (hapart : StagedApart roots decode d.tree)
    (hrun : runOn sha decode roots choices d = (some (.ok (.restored restored name)), e)) :
    ∃ pending, ∃ staging : Staging roots,
      manifestOf roots decode d.tree = some (pending, staging.place) ∧
        Restored staging sha d pending.files e := by
  cases ended_of_run hapart hrun with
  | restored hmanifest hrestored => exact ⟨_, _, hmanifest, hrestored⟩

include hapart horderly in
theorem atomic_success
    (hrun : runOn sha decode roots choices ⟨t, []⟩ = (some (.ok (.restored restored name)), e)) :
    ∃ pending staging, manifestOf roots decode t = some (pending, staging.place) ∧
      DestinationsEqualStaged roots t pending staging e.tree := by
  obtain ⟨pending, staging, hmanifest, hrestored⟩ := restored_of_success hapart hrun
  refine ⟨pending, staging, hmanifest, fun entry hentry => ?_⟩
  obtain ⟨m, hm, hgone⟩ := hrestored
  obtain ⟨copy, hgood, hnode⟩ := hm.copied entry hentry
  have hfits := (verdict_eq_good.mp hgood).1
  refine ⟨copy.toItem, copy.content, hfits.asks, hfits.staged, ?_⟩
  rw [hgone.node, if_neg (staging_beside List.prefix_rfl),
    if_neg ((horderly _ _ hmanifest).notDocument hm.copied.good entry hentry copy hgood), hnode]

/-! ### Nothing is written elsewhere -/

/-- No entry stands for one of the directories itself. -/
abbrev NoRoot (staging : Staging roots) (t : FileTree) (entries : List PendingFile) : Prop :=
  ∀ entry ∈ entries, ∀ copy, Fits staging t entry copy →
    ∀ kind, copy.destination roots ≠ roots.root kind

/-- The rounds stay in the three directories. -/
theorem confined_of_progress (hprogress : Progress sha staging ⟨t, []⟩ entries e)
    (hroot : NoRoot staging t entries) : Confined roots t e := by
  refine ⟨fun q hchanged => ?_, fun directory hmem => ?_⟩
  · rcases hprogress.node q with hsame | ⟨hnone, hdirectory, entry, hentry, copy, hfits, hway⟩ |
      ⟨entry, hentry, copy, hgood, rfl, hnode⟩
    · exact absurd hsame hchanged
    · have hq := (prefix_dropLast_iff (destination_ne_nil roots _)).mp hway
      rcases List.prefix_or_prefix_of_prefix hq.1 (root_above roots _) with habove | hbelow
      · exact .inr (.inl ⟨hnone, hdirectory, _, habove⟩)
      · refine .inl ⟨_, hbelow, fun p hp hne => ?_, fun _ => ?_⟩
        · -- a place above `q` is above the destination
          refine hfits.clear.1 p (hp.trans hq.1) ?_
          rintro rfl
          exact hne (hp.eq_of_length_le hq.1.length_le)
        · simp [FileTree.link, show t.node q = none from hnone]
    · have hclear := (verdict_eq_good.mp hgood).1.clear
      exact .inl ⟨_, root_above roots _, hclear.1, fun _ => hclear.2⟩
  · rcases hprogress.temporary directory hmem with hold | ⟨entry, hentry, copy, hfits, rfl⟩
    · cases hold
    · refine ⟨_, (prefix_dropLast_iff (destination_ne_nil roots _)).mpr ⟨root_above roots _, ?_⟩⟩
      exact Ne.symm (hroot entry hentry copy hfits _)

/-- Cleaning up removes the document and what was staged, and nothing else. -/
theorem node_of_gone (h : DocumentGone roots m e ∨ StagingGone staging m e) (q : Place) :
    e.tree.node q = m.tree.node q ∨
      (e.tree.node q = none ∧ (q = roots.pendingPath ∨ staging.place <+: q)) := by
  rcases h with hgone | hgone
  all_goals
    have hnode := hgone.node q
    grind

theorem confined_of_cleaningUp
    (hmanifest : manifestOf roots decode t = some (pending, staging.place))
    (hcleaning : CleaningUp staging sha ⟨t, []⟩ pending.files e)
    (hroot : NoRoot staging t pending.files) (harea : roots.stagingArea <+: staging.place) :
    Confined roots t e := by
  obtain ⟨m, hm, rfl | hgone⟩ := hcleaning
  · exact confined_of_progress hm.progress hroot
  · have hconfined := confined_of_progress hm.progress hroot
    have htemporaries : e.temporaries = m.temporaries := hgone.elim (·.temporaries) (·.temporaries)
    refine ⟨fun q hchanged => ?_, htemporaries ▸ hconfined.temporary⟩
    rcases node_of_gone hgone q with hsame | ⟨hnone, rfl | hstaging⟩
    · rw [hsame] at hchanged ⊢
      exact hconfined.node q hchanged
    · -- the document is in the configuration directory
      refine .inl ⟨.config, List.prefix_append _ _, fun p hp hne => ?_, absurd hnone⟩
      exact .inr (t.directory_above (pendingPath_of_manifest hmanifest).1 hp hne)
    · exact .inr (.inr ⟨harea.trans hstaging, hnone⟩)

/-- Entries that were reached do not stand for a directory itself. -/
theorem Orderly.reached (horderly : Orderly sha t pending staging)
    (hsplit : pending.files = entries ++ after)
    (hgood : AllGood sha staging t entries.dropLast) :
    NoRoot staging t entries := by
  intro entry hentry
  obtain ⟨first, rest, rfl⟩ := List.append_of_mem hentry
  refine horderly.notRoot first entry (rest ++ after) (by simp [hsplit]) fun other hother => ?_
  rw [List.dropLast_append_cons] at hgood
  exact hgood other (List.mem_append_left _ hother)

include horderly in
theorem Passed.confined (h : Passed sha roots decode ⟨t, []⟩ e) : Confined roots t e := by
  cases h with
  | start => exact ⟨fun q hne => absurd rfl hne, nofun⟩
  | entry hmanifest hat =>
    obtain ⟨after, hsplit⟩ := hat.split
    rw [List.append_cons] at hsplit
    refine confined_of_progress hat.progress ((horderly _ _ hmanifest).reached hsplit ?_)
    rw [List.dropLast_concat]
    exact hat.copied.good
  | cleaning hmanifest hcleaning =>
    have ⟨m, hm, _⟩ := hcleaning
    have horderly := horderly _ _ hmanifest
    refine confined_of_cleaningUp hmanifest hcleaning
      (horderly.reached (List.append_nil _).symm fun entry hentry => ?_)
      (horderly.inArea hm.copied.good)
    exact hm.copied.good entry (List.mem_of_mem_dropLast hentry)

/-! ### Runs after runs -/

variable {d : Disk}

/-- An entry fits with one copy only. -/
theorem Fits.unique (h : Fits staging t entry copy) (h' : Fits staging t entry copy') :
    copy = copy' := by
  obtain ⟨item, content⟩ := copy
  obtain ⟨item', content'⟩ := copy'
  cases h.asks.symm.trans h'.asks
  cases h.staged.symm.trans h'.staged
  rfl

/-- Above a copied file there are directories. -/
theorem AllCopied.directory (hm : AllCopied sha staging d files m) (hentry : entry ∈ files)
    (hfits : Fits staging d.tree entry copy) {q : Place}
    (hq : q <+: (copy.destination roots).dropLast) : m.tree.node q = some .directory := by
  obtain ⟨copy', hgood, hnode⟩ := hm.copied entry hentry
  obtain rfl := hfits.unique (verdict_eq_good.mp hgood).1
  rw [prefix_dropLast_iff (destination_ne_nil roots _)] at hq
  exact m.tree.directory_above (by simp [hnode]) hq.1 hq.2

/-- All files are where they belong, so nothing is left open. -/
theorem AllCopied.agree (hm : AllCopied sha staging d files m)
    (hm' : AllCopied sha staging d files m') (q : Place) :
    m.tree.node q = m'.tree.node q := by
  rcases hm.progress.node q with hsame | ⟨-, hdirectory, entry, hentry, copy, hfits, hway⟩ |
    ⟨entry, hentry, copy, hgood, rfl, hnode⟩
  · rcases hm'.progress.node q with hsame' | ⟨-, hdirectory, entry, hentry, copy, hfits, hway⟩ |
      ⟨entry, hentry, copy, hgood, rfl, hnode⟩
    · rw [hsame, hsame']
    · rw [hdirectory, hm.directory hentry hfits hway]
    · rw [hnode, hm.copied.node hentry hgood]
  · rw [hdirectory, hm'.directory hentry hfits hway]
  · rw [hnode, hm'.copied.node hentry hgood]

/-- The document is gone, and all files are where they belong. -/
def Finished (sha : Bytes → Text) (staging : Staging roots) (d : Disk)
    (files : List PendingFile) (s : Disk) : Prop :=
  s.tree.node roots.pendingPath = none ∧ ∃ m, AllCopied sha staging d files m ∧
    ∀ q, ¬ roots.stagingArea <+: q → q ≠ roots.pendingPath → s.tree.node q = m.tree.node q

/-- The end of one run is the end of another. -/
theorem Finished.agree (h : Finished sha staging d files s)
    (h' : Finished sha staging d files s')
    (hq : ¬ roots.stagingArea <+: q) : s.tree.node q = s'.tree.node q := by
  obtain ⟨hgone, m, hm, hnode⟩ := h
  obtain ⟨hgone', m', hm', hnode'⟩ := h'
  by_cases hdocument : q = roots.pendingPath
  · rw [hdocument, hgone, hgone']
  · rw [hnode q hq hdocument, hnode' q hq hdocument, hm.agree hm' q]

theorem Finished.of_gone (harea : roots.stagingArea <+: staging.place)
    (hm : AllCopied sha staging d files m)
    (he : DocumentGone roots m e ∨ StagingGone staging m e) :
    Finished sha staging d files e := by
  refine ⟨?_, m, hm, fun q hstaging hq => (node_of_gone he q).resolve_right ?_⟩
  · rcases he with hgone | hgone <;> simp [hgone.node]
  · rintro ⟨-, hdocument | hbelow⟩
    · exact hq hdocument
    · exact hstaging (harea.trans hbelow)

/-- The pending recovery is still there after rounds that leave the document alone. -/
theorem manifest_stable (hmanifest : manifestOf roots decode d.tree = some (pending, staging.place))
    (hprogress : Progress sha staging d pending.files s)
    (hdocument : ∀ entry ∈ pending.files, ∀ copy,
      entry.verdict sha staging d.tree = .good copy →
        (copy.destination roots) ≠ roots.pendingPath) :
    manifestOf roots decode s.tree = some (pending, staging.place) := by
  have hsame : s.tree.node roots.pendingPath = d.tree.node roots.pendingPath := by
    rcases hprogress.node roots.pendingPath with hsame | ⟨hnone, -⟩ |
      ⟨entry, hentry, copy, hgood, heq, -⟩
    · exact hsame
    · exact absurd hnone (pendingPath_of_manifest hmanifest).1
    · exact absurd heq.symm (hdocument entry hentry copy hgood)
  obtain ⟨hread, hfound⟩ := manifestOf_eq_some.mp hmanifest
  refine manifestOf_eq_some.mpr ⟨by rw [hsame, hread], ?_⟩
  rw [PendingRestore.stagingRoot, Option.ite_none_right_eq_some] at hfound ⊢
  exact ⟨hfound.1, d.tree.lookup_mono (fun _ => hprogress.directory_stays)
    (fun _ => hprogress.link_stays) id hfound.2⟩

theorem stagedApart_of_manifest (h : manifestOf roots decode t = some (pending, staging.place)) :
    StagedApart roots decode t := by
  intro pending' place h'
  cases h.symm.trans h'
  exact ⟨staging, rfl⟩

theorem manifestOf_of_gone (h : t.node roots.pendingPath = none) :
    manifestOf roots decode t = none := by
  rw [manifestOf, h]
  rfl

/-- Rounds from a later disk are rounds from the first one. -/
theorem AllCopied.from_start (hprogress : Progress sha staging d files s)
    (hm : AllCopied sha staging s files m) : AllCopied sha staging d files m := by
  refine ⟨fun entry hentry => ?_, (hprogress.trans hm.progress).mono ?_⟩
  · obtain ⟨copy, hgood, hnode⟩ := hm.copied entry hentry
    exact ⟨copy, (hprogress.verdict_stable entry).symm.trans hgood, hnode⟩
  · intro entry hentry
    exact (List.mem_append.mp hentry).elim id id

section Again

variable (harea : roots.stagingArea <+: staging.place)
  (hmanifest : manifestOf roots decode d.tree = some (pending, staging.place))
  (hdocument : ∀ entry ∈ pending.files, ∀ copy,
    entry.verdict sha staging d.tree = .good copy →
      (copy.destination roots) ≠ roots.pendingPath)
  (hs : Progress sha staging d pending.files s ∨
    Finished sha staging d pending.files s)
include harea hmanifest hdocument hs

/-- Whatever runs came before, the next one is in the middle of the copies or after all of them. -/
theorem Passed.resumed (h : Passed sha roots decode s e) :
    Progress sha staging d pending.files e ∨
      Finished sha staging d pending.files e := by
  rcases hs with hprogress | hfinished
  · have hmanifest' := manifest_stable hmanifest hprogress hdocument
    cases h with
    | start => exact .inl hprogress
    | entry hpending hat =>
      obtain ⟨rfl, hplace⟩ := Prod.mk.inj (Option.some.inj (hmanifest'.symm.trans hpending))
      obtain rfl := Staging.eq_of_place hplace
      obtain ⟨after, hsplit⟩ := hat.split
      refine .inl ((hprogress.trans hat.progress).mono fun other hother => ?_)
      rw [hsplit] at hother ⊢
      simp only [List.mem_append, List.mem_cons, List.not_mem_nil, or_false] at hother ⊢
      tauto
    | cleaning hpending hcleaning =>
      obtain ⟨rfl, hplace⟩ := Prod.mk.inj (Option.some.inj (hmanifest'.symm.trans hpending))
      obtain rfl := Staging.eq_of_place hplace
      obtain ⟨m, hm, rfl | hgone⟩ := hcleaning
      · exact .inl (hm.from_start hprogress).progress
      · exact .inr (.of_gone harea (hm.from_start hprogress) hgone)
  · cases h with
    | start => exact .inr hfinished
    | entry hpending | cleaning hpending =>
      cases (manifestOf_of_gone hfinished.1).symm.trans hpending

omit harea in
theorem stagedApart_later : StagedApart roots decode s.tree := by
  rcases hs with hprogress | hfinished
  · exact stagedApart_of_manifest (manifest_stable hmanifest hprogress hdocument)
  · intro pending' place h
    cases (manifestOf_of_gone hfinished.1).symm.trans h

/-- A success ends after all of them. -/
theorem Ended.finished (h : Ended sha roots decode P s (.ok result) e) :
    Finished sha staging d pending.files e := by
  rcases hs with hprogress | hfinished
  · have hmanifest' := manifest_stable hmanifest hprogress hdocument
    cases h with
    | absent hmissing =>
      have hread := (manifestOf_eq_some.mp hmanifest').1
      rw [hmissing] at hread
      cases hread
    | restored hpending hrestored =>
      obtain ⟨rfl, hplace⟩ := Prod.mk.inj (Option.some.inj (hmanifest'.symm.trans hpending))
      obtain rfl := Staging.eq_of_place hplace
      obtain ⟨m, hm, hgone⟩ := hrestored
      exact .of_gone harea (hm.from_start hprogress) (.inr hgone)
  · cases h with
    | absent => exact hfinished
    | restored hpending => cases (manifestOf_of_gone hfinished.1).symm.trans hpending

end Again

include hapart horderly in
theorem atomic_resumed
    (hrun : runOn sha decode roots choices ⟨t, []⟩ = (some (.ok (.restored restored name)), e))
    (hs : Later sha decode roots ⟨t, []⟩ s)
    (hrun' : runOn sha decode roots choices' s = (some (.ok result), e')) {q : Place}
    (hq : ¬ roots.stagingArea <+: q) : e'.tree.node q = e.tree.node q := by
  obtain ⟨pending, staging, hmanifest, m, hm, hgone⟩ := restored_of_success hapart hrun
  have hdocument := (horderly _ _ hmanifest).notDocument hm.copied.good
  have harea := (horderly _ _ hmanifest).inArea hm.copied.good
  have hlater : Progress sha staging ⟨t, []⟩ pending.files s ∨
      Finished sha staging ⟨t, []⟩ pending.files s := by
    clear hrun'
    induction hs with
    | start => exact .inl (.refl sha staging _ _)
    | again choices _ ih =>
      exact (passed_runOn (stagedApart_later hmanifest hdocument ih) choices).resumed harea
        hmanifest hdocument ih
  have hend := (ended_of_run (stagedApart_later hmanifest hdocument hlater) hrun').finished harea
    hmanifest hdocument hlater
  exact hend.agree (.of_gone harea hm (.inr hgone)) hq

/-! ### The condition is needed -/

/-- The first entry that is not good is where a list of entries is cut. -/
theorem first_unique {β : Type} {p : β → Prop} {before before' after after' : List β} {x x' : β}
    (h : before ++ x :: after = before' ++ x' :: after') (hbefore : ∀ y ∈ before, p y)
    (hx : ¬ p x) (hbefore' : ∀ y ∈ before', p y) (hx' : ¬ p x') : before = before' ∧ x = x' := by
  induction before generalizing before' with
  | nil =>
    cases before' with
    | nil => exact ⟨rfl, (List.cons.inj h).1⟩
    | cons y before' =>
      rw [(List.cons.inj h).1] at hx
      exact absurd (hbefore' y List.mem_cons_self) hx
  | cons z before ih =>
    cases before' with
    | nil =>
      rw [← (List.cons.inj h).1] at hx'
      exact absurd (hbefore z List.mem_cons_self) hx'
    | cons y before' =>
      obtain ⟨rfl, htail⟩ := List.cons.inj h
      rw [List.forall_mem_cons] at hbefore hbefore'
      obtain ⟨rfl, heq⟩ := ih htail hbefore.2 hbefore'.2
      exact ⟨rfl, heq⟩

/-- A system that does what it is asked to do. -/
theorem not_trouble : ¬ Trouble (· = Ending.done) := by
  rintro ⟨ending, rfl, hne⟩
  exact hne rfl

/-- How a run ends if the system does what it is asked to do. -/
def UndisturbedEnd (sha : Bytes → Text) (staging : Staging roots) (t : FileTree)
    (pending : PendingRestore α) (r : Except Failure (Result α)) (e : Disk) : Prop :=
  (r = .ok (.restored pending.files.length pending.archiveName) ∧
    Restored staging sha ⟨t, []⟩ pending.files e) ∨
  ∃ before entry failure, r = .error failure ∧
    AtEntry sha staging ⟨t, []⟩ pending.files before entry e ∧
    ((failure.cause.blamesEntry = true ∧ entry.verdict sha staging t = .faulty) ∨
      (failure.cause.blamesEntry = false ∧ entry.verdict sha staging t = .blocked))

variable (hatomic : Atomic sha decode roots t)
  (hmanifest : manifestOf roots decode t = some (pending, staging.place))

include hmanifest in
theorem wp_undisturbed :
    wp (restrict diskStep (· = .done)) (fun _ => True) (applyPending sha decode roots.toOptions).run
      (UndisturbedEnd sha staging t pending) ⟨t, []⟩ := by
  refine wp_mono (wp_weaken (wp_applyPending (stagedApart_of_manifest hmanifest))
    fun _ _ => trivial) fun r e h => ?_
  cases h with
  | absent hmissing =>
    have hread := (manifestOf_eq_some.mp hmanifest).1
    rw [hmissing] at hread
    cases hread
  | refused _ hhead =>
    rcases hhead with htrouble | ⟨-, hnone⟩
    · exact absurd htrouble not_trouble
    · cases hmanifest.symm.trans hnone
  | stopped hpending hat hrejected =>
    obtain ⟨rfl, hplace⟩ := Prod.mk.inj (Option.some.inj (hmanifest.symm.trans hpending))
    obtain rfl := Staging.eq_of_place hplace
    refine .inr ⟨_, _, _, rfl, hat, hrejected.imp_right fun hother => ?_⟩
    exact ⟨hother.1, hother.2.resolve_left not_trouble⟩
  | broken _ htrouble => exact absurd htrouble not_trouble
  | restored hpending hrestored =>
    obtain ⟨rfl, hplace⟩ := Prod.mk.inj (Option.some.inj (hmanifest.symm.trans hpending))
    obtain rfl := Staging.eq_of_place hplace
    exact .inl ⟨rfl, hrestored⟩

include hmanifest in
/-- There is such a run, and what holds of all runs holds of it. -/
theorem exists_undisturbed {Q : Except Failure (Result α) → Disk → Prop}
    (h : ∀ choices r e, runOn sha decode roots choices ⟨t, []⟩ = (some r, e) → Q r e) :
    ∃ r e, Q r e ∧ UndisturbedEnd sha staging t pending r e := by
  have hwp : wp diskStep (fun _ => True) (applyPending sha decode roots.toOptions).run Q
      ⟨t, []⟩ := by
    refine wp_of_runs fun choices => ⟨fun r hr => ?_, fun _ => trivial⟩
    exact h choices r _ (Prod.ext hr rfl)
  exact exists_of_wp (P := (· = .done)) ⟨.done, rfl⟩ hwp (wp_undisturbed hmanifest)

variable {copy : Copy}

include hatomic hmanifest in
theorem beforeFault_needed {entry : PendingFile} (hsplit : pending.files = before ++ entry :: after)
    (hgood : AllGood sha staging t before) (hfaulty : entry.verdict sha staging t = .faulty)
    {other : PendingFile} (hother : other ∈ before)
    (hcopy : other.verdict sha staging t = .good copy) :
    t.node (copy.destination roots) = some (.regular copy.content) := by
  have hnotgood : ¬ ∃ copy, entry.verdict sha staging t = .good copy := by
    rintro ⟨copy, hcopy⟩
    cases hfaulty.symm.trans hcopy
  obtain ⟨r, e, hkept, hend⟩ := exists_undisturbed hmanifest
    (fun choices r e hrun => fun failure (heq : r = .error failure) hblame =>
      hatomic.fault choices failure e (heq ▸ hrun) hblame)
  rcases hend with ⟨-, hrestored⟩ | ⟨before', entry', failure, heq, hat, hverdict⟩
  · obtain ⟨m, hm, -⟩ := hrestored
    refine absurd (hm.copied.good entry ?_) hnotgood
    rw [hsplit]
    exact List.mem_append_right _ List.mem_cons_self
  · -- the run stops at this entry, with the entry before it copied
    obtain ⟨after', hsplit'⟩ := hat.split
    have hnotgood' : ¬ ∃ copy, entry'.verdict sha staging t = .good copy := by
      rintro ⟨copy, hcopy⟩
      rcases hverdict with ⟨-, hverdict⟩ | ⟨-, hverdict⟩ <;> cases hverdict.symm.trans hcopy
    obtain ⟨rfl, rfl⟩ :=
      first_unique (hsplit.symm.trans hsplit') hgood hnotgood hat.copied.good hnotgood'
    have hblame : failure.cause.blamesEntry = true := by
      rcases hverdict with ⟨hblame, -⟩ | ⟨-, hverdict⟩
      · exact hblame
      · cases hfaulty.symm.trans hverdict
    have hnode := hat.copied.node hother hcopy
    rcases hkept failure heq hblame (copy.destination roots) with hsame | ⟨-, hdirectory⟩
    · rw [← hsame, hnode]
    · rw [hnode] at hdirectory
      cases hdirectory

include hatomic hmanifest in
theorem notDocument_needed (hgood : AllGood sha staging t pending.files)
    {entry : PendingFile} (hentry : entry ∈ pending.files)
    (hcopy : entry.verdict sha staging t = .good copy) :
    (copy.destination roots) ≠ roots.pendingPath := by
  intro hself
  obtain ⟨r, e, hsuccess, hend⟩ := exists_undisturbed hmanifest
    (fun choices r e hrun => fun restored name (heq : r = .ok (.restored restored name)) =>
      hatomic.success choices restored name e (heq ▸ hrun))
  rcases hend with ⟨heq, m, hm, hgone⟩ | ⟨before, entry', failure, -, hat, hverdict⟩
  · obtain ⟨pending', staging', hpending, hequal⟩ := hsuccess _ _ heq
    obtain ⟨rfl, -⟩ := Prod.mk.inj (Option.some.inj (hmanifest.symm.trans hpending))
    -- the destination is removed as the document
    obtain ⟨item, content, hitem, -, hnode⟩ := hequal entry hentry
    rw [← (verdict_eq_good.mp hcopy).1.item_eq hitem, hself, hgone.node, if_pos rfl,
      ite_self] at hnode
    cases hnode
  · obtain ⟨after, hsplit⟩ := hat.split
    obtain ⟨copy', hcopy'⟩ := hgood entry' (by simp [hsplit])
    rcases hverdict with ⟨-, hverdict⟩ | ⟨-, hverdict⟩ <;> cases hverdict.symm.trans hcopy'

include hatomic hmanifest in
theorem inArea_needed
    (hgood : AllGood sha staging t pending.files) : roots.stagingArea <+: staging.place := by
  have hthere := (t.lookup_directory (stagingRoot_eq_some (manifestOf_eq_some.mp hmanifest).2)).1
  obtain ⟨r, e, hconfined, hend⟩ := exists_undisturbed hmanifest (Q := fun _ => Confined roots t)
    fun choices r e hrun => by
      have hconfined := hatomic.confined choices
      rwa [hrun] at hconfined
  rcases hend with ⟨-, m, hm, hgone⟩ | ⟨before, entry', failure, -, hat, hverdict⟩
  · -- the staging directory is removed
    have hnode : e.tree.node staging.place = none := by rw [hgone.node, if_pos List.prefix_rfl]
    rcases hconfined.node staging.place (by simp [hnode, hthere]) with ⟨kind, hroot, -⟩ | hmade |
      harea
    · exact absurd hroot (staging.beside kind).1
    · simp [hthere] at hmade
    · exact harea.1
  · obtain ⟨after, hsplit⟩ := hat.split
    obtain ⟨copy', hcopy'⟩ := hgood entry' (by simp [hsplit])
    rcases hverdict with ⟨-, hverdict⟩ | ⟨-, hverdict⟩ <;> cases hverdict.symm.trans hcopy'

/-- This part succeeds if the system does what it is asked to do. -/
abbrev Succeeds {β : Type} (m : Program β) (R : β → Disk → Prop) : Disk → Prop :=
  wp (restrict diskStep (· = .done)) (fun _ => True) m.run fun r e => ∃ b, r = .ok b ∧ R b e

/-- A run can be followed through its first part. -/
theorem follow {Q : Except Failure γ → Disk → Prop} {R : β → Disk → Prop}
    (h : wp diskStep I (m >>= f).run Q s) (hm : Succeeds m R s) :
    ∃ b e, R b e ∧ wp diskStep I (f b).run Q e := by
  rw [wp_run_bind] at h
  obtain ⟨r, e, hnext, b, rfl, hb⟩ := exists_of_wp (P := (· = .done)) ⟨.done, rfl⟩ h hm
  exact ⟨b, e, hb, hnext⟩

/-- A run can be followed to an entry whose predecessors are good. -/
theorem follow_restoreFiles {n : ℕ}
    (h : wp diskStep I (restoreFiles sha roots.toOptions staging.place
      (before ++ entry :: after) n).run Q s)
    (hgood : AllGood sha staging s.tree before) :
    ∃ e, Progress sha staging s before e ∧ ∃ Q', wp diskStep I
      (restoreEntry sha roots.toOptions staging.place entry).run Q' e := by
  induction before generalizing s n with
  | nil =>
    rw [List.nil_append, restoreFiles, wp_run_bind] at h
    exact ⟨s, .refl sha staging s [], _, h⟩
  | cons first before ih =>
    obtain ⟨⟨copy, hfirst⟩, hgood⟩ := List.forall_mem_cons.mp hgood
    rw [List.cons_append, restoreFiles] at h
    have hround : Succeeds (restoreEntry sha roots.toOptions staging.place first)
        (fun _ e => Progress sha staging s [first] e) s := by
      refine wp_mono (wp_weaken wp_restoreEntry fun _ _ => trivial) fun r e h => ?_
      cases h with
      | copied _ hprogress => exact ⟨(), rfl, hprogress⟩
      | failed _ hrejected =>
        rw [hfirst] at hrejected
        rcases hrejected with ⟨-, hverdict⟩ | ⟨-, htrouble | hverdict⟩
        · cases hverdict
        · exact absurd htrouble not_trouble
        · cases hverdict
    obtain ⟨_, e, hprogress, hnext⟩ := follow h hround
    obtain ⟨e', hprogress', Q', hentry⟩ := ih hnext fun other hother => by
      rw [hprogress.verdict_stable]
      exact hgood other hother
    exact ⟨e', hprogress.trans hprogress', Q', hentry⟩

/-- An entry that fits gets as far as its temporary file. -/
theorem follow_restoreEntry {s : Disk}
    (h : wp diskStep I (restoreEntry sha roots.toOptions staging.place entry).run Q s)
    (hfits : Fits staging s.tree entry copy) :
    ∃ e, Prepared s (copy.destination roots) e ∧ I e := by
  have hnotUnfit : ¬ Unfit (· = .done) staging s.tree entry := by
    rintro (htrouble | hno)
    · exact not_trouble htrouble
    · exact hno copy hfits
  have hlocate : Succeeds (locate roots.toOptions staging.place entry)
      (fun b e => b = (copy.source staging, copy.destination roots) ∧ e = s) s := by
    refine wp_locate sha trivial (fun item hlocated => ?_)
      fun failure _ hunfit => absurd hunfit hnotUnfit
    exact ⟨_, rfl, by rw [hfits.item_eq hlocated.asks], rfl⟩
  rw [restoreEntry] at h
  obtain ⟨_, s', ⟨rfl, hsame⟩, hcopying⟩ := follow h hlocate
  rw [hsame] at hcopying
  have hprepare : Succeeds (prepare (copy.source staging) (copy.destination roots) entry.size)
      (fun _ e => Prepared s (copy.destination roots) e) s := by
    refine wp_prepare sha ⟨hfits.asks, hfits.source_ok, hfits.clear.free hfits.direct⟩
      (fun _ _ => trivial) (fun content e _ hprepared => ⟨content, rfl, hprepared⟩)
      fun failure _ _ _ hunfit => absurd hunfit hnotUnfit
  rw [copyVerifiedAtomic] at hcopying
  obtain ⟨content, e, hprepared, hinstall⟩ := follow hcopying hprepare
  exact ⟨e, hprepared, hinstall.1⟩

include hatomic hmanifest in
theorem notRoot_needed (hsplit : pending.files = before ++ entry :: after)
    (hgood : AllGood sha staging t before) (hfits : Fits staging t entry copy) (kind : Kind) :
    copy.destination roots ≠ roots.root kind := by
  intro hroot
  have hwp : wp diskStep (Confined roots t) (applyPending sha decode roots.toOptions).run
      (fun _ _ => True) ⟨t, []⟩ :=
    wp_of_runs fun choices => ⟨fun _ _ => trivial, fun _ => hatomic.confined choices⟩
  obtain ⟨hread, hfound⟩ := manifestOf_eq_some.mp hmanifest
  -- through the head of the document to the entry
  have hopen : Succeeds (ask (.openFile roots.pendingPath))
      (fun b e => b = opened (t.node roots.pendingPath) ∧ e = ⟨t, []⟩) ⟨t, []⟩ :=
    wp_openFile trivial ⟨_, rfl, rfl, rfl⟩ fun htrouble => absurd htrouble not_trouble
  rw [applyPending] at hwp
  obtain ⟨_, _, ⟨rfl, rfl⟩, hdecoding⟩ := follow hwp hopen
  have hdecode : Succeeds (decodePending decode (opened (t.node roots.pendingPath)))
      (fun b e => b = some pending ∧ e = ⟨t, []⟩) ⟨t, []⟩ := by
    refine wp_decodePending (fun hmissing => ?_) (fun pending' hpending => ?_) fun _ _ _ hnone => ?_
    · rw [hmissing] at hread
      cases hread
    · exact ⟨_, rfl, hpending.symm.trans hread, rfl⟩
    · rw [hread] at hnone
      cases hnone
  obtain ⟨_, _, ⟨rfl, rfl⟩, hrestoring⟩ := follow hdecoding hdecode
  have hhead : Succeeds (checkHead roots.toOptions pending)
      (fun b e => b = staging.place ∧ e = ⟨t, []⟩) ⟨t, []⟩ := by
    refine wp_checkHead trivial (fun place hplace => ?_) fun _ _ hstop => ?_
    · exact ⟨_, rfl, Option.some.inj (hplace.symm.trans hfound), rfl⟩
    · rcases hstop with htrouble | hrefused
      · exact absurd htrouble not_trouble
      · cases hfound.symm.trans hrefused
  obtain ⟨_, _, ⟨rfl, rfl⟩, hloop⟩ := follow hrestoring hhead
  rw [hsplit, wp_run_bind] at hloop
  obtain ⟨e, hprogress, Q', hentry⟩ := follow_restoreFiles hloop hgood
  obtain ⟨f, hprepared, hconfined⟩ :=
    follow_restoreEntry hentry (hprogress.fits_iff.mpr hfits)
  -- the temporary file is next to the directory, not in it
  have htemporary : (copy.destination roots).dropLast ∈ f.temporaries := by
    rw [hprepared.temporaries]
    exact List.mem_cons_self
  obtain ⟨kind', hinside⟩ := hconfined.temporary _ htemporary
  rw [hroot, prefix_dropLast_iff (root_ne_nil roots kind)] at hinside
  exact hinside.2 (congrArg roots.root (kind_unique hinside.1 List.prefix_rfl))

end Conditions

/-! ### The exact condition -/

/-- The directories `/c`, `/s` and `/d`. -/
def sampleRoots : Roots where
  configDir := [['c']]
  stateDir := [['s']]
  lastKnownGoodDir := [['d'], "last-known-good".toList]
  linked _ := false
  dataDir := [['d']]
  stagingArea := [['d'], "recovery-staging".toList]
  plain kind := by cases kind <;> decide
  apart kind kind' := by cases kind <;> cases kind' <;> decide

/-- The staging directory of the operation `0000000000000000`. -/
def sampleStaging : Staging sampleRoots where
  place := sampleRoots.stagingArea ++ ["0000000000000000".toList]
  plain := by decide
  beside kind := by cases kind <;> decide

/-- A manifest of two empty files, `config/a` and `config/b`. -/
def samplePending (digest : Text) : PendingRestore Unit where
  operationID := "0000000000000000".toList
  archiveName := ()
  stagingPath := "/d/recovery-staging/0000000000000000".toList
  files := [⟨"config/a".toList, 0, digest⟩, ⟨"config/b".toList, 0, digest⟩]

/-- The tree of the places that can be put one after another. -/
def treeOf : List (Place × Node) → FileTree
  | [] => ⟨fun _ => none, fun _ _ h => absurd rfl h⟩
  | (place, n) :: rest =>
    if h : (treeOf rest).Ready place then (treeOf rest).put place n h else treeOf rest

/-- A disk with the document, and `config/a` in the staging directory. -/
def sampleTree : FileTree :=
  treeOf [(sampleStaging.place ++ ["config".toList, ['a']], .regular []),
    (sampleStaging.place ++ ["config".toList], .directory), (sampleStaging.place, .directory),
    (sampleRoots.stagingArea, .directory), ([['d']], .directory),
    (sampleRoots.pendingPath, .regular []), ([['c']], .directory), ([], .directory)]

def sampleSha : Bytes → Text := fun _ => List.replicate 64 '0'

def sampleDecode : Bytes → Option (PendingRestore Unit) :=
  fun _ => some (samplePending (sampleSha []))

theorem sample_manifest : manifestOf sampleRoots sampleDecode sampleTree =
    some (samplePending (sampleSha []), sampleStaging.place) := by
  rfl

/-- A place has what it had, nothing, a directory, or the staged file of an entry, complete and with
    the size and the digest of the entry. -/
def Verified (t : FileTree) (q : Place) (node : Option Node) : Prop :=
  node = t.node q ∨ node = none ∨ node = some .directory ∨
    ∃ pending, ∃ staging : Staging roots,
      manifestOf roots decode t = some (pending, staging.place) ∧
      ∃ entry ∈ pending.files, ∃ copy, Fits staging t entry copy ∧
        sha copy.content = entry.sha256 ∧ q = copy.destination roots ∧
          node = some (.regular copy.content)

end SbGateway.Recovery
