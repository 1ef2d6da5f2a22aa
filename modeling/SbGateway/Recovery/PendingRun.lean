import SbGateway.Recovery.EntryCopy

namespace SbGateway.Recovery

open Lib Lib.Calls

/-!
# Runs of a pending recovery

From the round for one entry to the whole of `ApplyPending`:

* `manifestOf` — the pending recovery of a disk, as far as its head is in order;
* `wp_restoreFiles` — the loop: all earlier entries were good and are copied;
* `wp_applyPending` — the specification of a run: it stops before the first entry, at an entry,
  or in the clean-up after the last one.
-/

variable {sha : Bytes → Text} {roots : Roots} {staging : Staging roots}

/-- A staging directory is known by its place. -/
theorem Staging.eq_of_place {staging staging' : Staging roots}
    (h : staging.place = staging'.place) : staging = staging' := by
  cases staging
  cases staging'
  cases h
  rfl

/-! ### The loop -/

section Loop

variable (sha staging)

/-- These entries were good, and their files are copied. -/
def Copied (s : Disk) (entries : List PendingFile) (e : Disk) : Prop :=
  ∀ entry ∈ entries, ∃ copy,
    entry.verdict sha staging s.tree = .good copy ∧
      e.tree.node (copy.destination roots) = some (.regular copy.content)

/-- The loop is at an entry, in whatever state its round is. -/
structure AtEntry (s : Disk) (files : List PendingFile) (before : List PendingFile)
    (entry : PendingFile) (e : Disk) : Prop where
  split : ∃ after, files = before ++ entry :: after
  copied : Copied sha staging s before e
  progress : Progress sha staging s (before ++ [entry]) e

/-- The loop is through. -/
structure AllCopied (s : Disk) (files : List PendingFile) (e : Disk) : Prop where
  copied : Copied sha staging s files e
  progress : Progress sha staging s files e

variable {sha staging}

/-- Copied files stay copied in the round for another entry. -/
theorem Copied.later
    (h : Copied sha staging s entries e) (hs : Progress sha staging s entries' e)
    (hprogress : Progress sha staging e more f) : Copied sha staging s entries f := by
  intro entry hentry
  obtain ⟨copy, hgood, hnode⟩ := h entry hentry
  exact ⟨copy, hgood, hprogress.copied ((hs.verdict_stable entry).trans hgood) hnode⟩

variable {P : Ending → Prop}

theorem wp_restoreFiles
    (hI : ∀ before entry e, AtEntry sha staging d files before entry e → I e)
    (hok : ∀ e, AllCopied sha staging d files e → Q (.ok files.length) e)
    (herr : ∀ before entry failure e, AtEntry sha staging d files before entry e →
      Rejected P (entry.verdict sha staging d.tree) failure →
      Q (.error failure) e) (hsplit : files = before ++ rest)
    (hs : AllCopied sha staging d before s) : wp (restrict diskStep P) I
      (restoreFiles sha roots.toOptions staging.place rest before.length).run Q s := by
  induction rest generalizing before s with
  | nil =>
    rw [List.append_nil] at hsplit
    subst hsplit
    exact hok s hs
  | cons entry rest ih =>
    have hat : ∀ e, Progress sha staging s [entry] e →
        AtEntry sha staging d files before entry e := fun e he =>
      ⟨⟨rest, hsplit⟩, hs.copied.later hs.progress he, hs.progress.trans he⟩
    rw [restoreFiles, wp_run_bind]
    refine wp_mono (wp_weaken wp_restoreEntry fun e he => hI before entry e (hat e he))
      fun r e h => ?_
    cases h with
    | @copied copy _ hgood he hnode =>
      rw [hs.progress.verdict_stable] at hgood
      have hnext : files = (before ++ [entry]) ++ rest := by rw [hsplit, List.append_cons]
      have hcopied : AllCopied sha staging d (before ++ [entry]) e := by
        refine ⟨fun other hother => ?_, (hat e he).progress⟩
        rcases List.mem_append.mp hother with hold | hnew
        · exact (hat e he).copied other hold
        · rw [List.mem_singleton.mp hnew]
          exact ⟨copy, hgood, hnode⟩
      have hround := ih hnext hcopied
      rw [List.length_append, List.length_singleton] at hround
      exact hround
    | failed he hrejected =>
      rw [hs.progress.verdict_stable] at hrejected
      exact herr before entry _ e (hat e he) hrejected

end Loop

/-! ### The document -/

section Document

variable {α : Type} (decode : Bytes → Option (PendingRestore α)) (roots)

/-- The staging directory of a document whose head is in order. -/
def PendingRestore.stagingRoot (t : FileTree) (pending : PendingRestore α) : Option Place :=
  if operationPattern pending.operationID && pending.stagingExpected roots.toOptions &&
      !pending.files.isEmpty && decide (pending.files.length ≤ 4096) then
    t.lookup false [] (fieldsOf '/' pending.stagingPath)
  else none

/-- The document in an opened file, if it can be read. -/
def documentOf : Opened → Option (PendingRestore α)
  | .regular content => if maxPendingBytes < content.length then none else decode content
  | _ => none

/-- The pending recovery of a disk, with its staging directory. -/
def manifestOf (t : FileTree) : Option (PendingRestore α × Place) :=
  (documentOf decode (opened (t.node roots.pendingPath))).bind fun pending =>
    (pending.stagingRoot roots t).map (pending, ·)

/-- The staging directory is in none of the three directories and has none of them in it. -/
def StagedApart (t : FileTree) : Prop :=
  ∀ pending place, manifestOf roots decode t = some (pending, place) →
    ∃ staging : Staging roots, staging.place = place

variable {decode roots} {P : Ending → Prop} {s : Disk}

variable {t : FileTree}

theorem manifestOf_eq_some : manifestOf roots decode t = some (pending, place) ↔
    documentOf decode (opened (t.node roots.pendingPath)) = some pending ∧
      pending.stagingRoot roots t = some place := by
  simp only [manifestOf, Option.bind_eq_some_iff, Option.map_eq_some_iff]
  constructor
  · rintro ⟨_, hdocument, _, hplace, heq⟩
    cases heq
    exact ⟨hdocument, hplace⟩
  · rintro ⟨hdocument, hplace⟩
    exact ⟨_, hdocument, _, hplace, rfl⟩

theorem stagingRoot_eq_some {pending : PendingRestore α}
    (h : pending.stagingRoot roots t = some place) :
    t.lookup false [] (fieldsOf '/' pending.stagingPath) = some place := by
  rw [PendingRestore.stagingRoot, Option.ite_none_right_eq_some] at h
  exact h.2

/-- There is a file to open at the place of a pending recovery. -/
theorem pendingPath_of_manifest (h : manifestOf roots decode t = some (pending, place)) :
    t.node roots.pendingPath ≠ none ∧ t.node roots.pendingPath ≠ some .directory := by
  have hdocument := (manifestOf_eq_some.mp h).1
  constructor <;> intro hnode <;> rw [hnode] at hdocument <;> cases hdocument

theorem wp_decodePending (hmissing : file = .missing → Q (.ok none) s)
    (hok : ∀ pending, documentOf decode file = some pending → Q (.ok (some pending)) s)
    (herr : ∀ failure, failure.cause.blamesEntry = false →
      file ≠ .missing → documentOf decode file = none → Q (.error failure) s) :
    wp (restrict diskStep P) I (decodePending decode file).run Q s := by
  cases file with
  | missing => exact hmissing rfl
  | failed | irregular => exact herr _ rfl nofun rfl
  | regular content =>
    rw [decodePending]
    rw [documentOf] at hok herr
    by_cases hlong : maxPendingBytes < content.length
    · rw [if_pos hlong] at herr ⊢
      exact herr _ rfl nofun rfl
    · rw [if_neg hlong] at hok herr ⊢
      cases hdecode : decode content with
      | none => exact herr _ rfl nofun hdecode
      | some pending => exact hok pending hdecode

theorem wp_evalSymlinks {Q : Except Failure (Option Place) → Disk → Prop} (hI : I s)
    (hok : Q (.ok (s.tree.lookup true [] (fieldsOf '/' path))) s)
    (htrouble : Trouble P → Q (.ok none) s) :
    wp (restrict diskStep P) I (ask (.evalSymlinks path)).run Q s := by
  rw [ask, wp_run_lift, wp_perform]
  refine ⟨hI, ?_⟩
  rintro ⟨ending, hP⟩
  show Q (.ok (if ending = .done then _ else _)) s
  by_cases hending : ending = .done
  · rw [if_pos hending]
    exact hok
  · rw [if_neg hending]
    exact htrouble ⟨ending, hP, hending⟩

theorem wp_checkHead {pending : PendingRestore α} {Q : Except Failure Place → Disk → Prop}
    (hI : I s) (hok : ∀ place, pending.stagingRoot roots s.tree = some place → Q (.ok place) s)
    (herr : ∀ failure, failure.cause.blamesEntry = false →
      (Trouble P ∨ pending.stagingRoot roots s.tree = none) → Q (.error failure) s) :
    wp (restrict diskStep P) I (checkHead roots.toOptions pending).run Q s := by
  simp only [PendingRestore.stagingRoot] at hok herr
  rw [checkHead, wp_run_bind]
  refine wp_require (fun hid => ?_) fun hid => herr _ rfl (.inr (by simp [hid]))
  rw [either_ok, wp_run_bind]
  refine wp_require (fun hpath => ?_) fun hpath => herr _ rfl (.inr (by simp [hpath]))
  rw [either_ok, wp_run_bind]
  cases hfound : s.tree.lookup false [] (fieldsOf '/' pending.stagingPath) with
  | none =>
    exact wp_attempt_none hI (if_neg (by simp [hfound])) (herr _ rfl (.inr (by simp [hfound])))
  | some place =>
    refine wp_attempt_quiet hI (if_pos (by simp [hfound])) ?_ fun htrouble =>
      herr _ rfl (.inl htrouble)
    rw [either_ok, wp_run_bind]
    -- a directory that is found without following the last link is found by following it
    have hsame := s.tree.lookup_mono (fun _ => id) (fun _ _ => rfl) (fun _ => rfl) hfound
    refine wp_evalSymlinks hI ?_ fun htrouble => herr _ rfl (.inl htrouble)
    rw [hsame, either_ok, wp_run_bind, resolved, wp_run_pure, either_ok, wp_run_bind]
    refine wp_require (fun hfiles => ?_) fun hfiles => herr _ rfl (.inr (by simp [hfiles]))
    rw [either_ok, wp_run_bind]
    refine wp_require (fun hcount => ?_) fun hcount => herr _ rfl (.inr (by simp [hcount]))
    exact hok place (by simp only [hid, hpath, hfiles, hcount, hfound, Bool.and_self, if_true])

end Document

/-! ### The clean-up -/

section CleanUp

variable (roots) in

/-- The document is removed. -/
structure DocumentGone (m e : Disk) : Prop where
  node : ∀ q, e.tree.node q = if q = roots.pendingPath then none else m.tree.node q
  temporaries : e.temporaries = m.temporaries

variable (staging)

/-- The document and the staging directory are removed. -/
structure StagingGone (m e : Disk) : Prop where
  node : ∀ q, e.tree.node q = if staging.place <+: q then none
    else if q = roots.pendingPath then none else m.tree.node q
  temporaries : e.temporaries = m.temporaries

/-- A state of the clean-up after all copies. -/
def CleaningUp (sha : Bytes → Text) (s : Disk) (files : List PendingFile) (e : Disk) : Prop :=
  ∃ m, AllCopied sha staging s files m ∧
    (e = m ∨ DocumentGone roots m e ∨ StagingGone staging m e)

/-- The end of a run that restores. -/
def Restored (sha : Bytes → Text) (s : Disk) (files : List PendingFile) (e : Disk) : Prop :=
  ∃ m, AllCopied sha staging s files m ∧ StagingGone staging m e

end CleanUp

section Run

variable {α : Type} (sha) (decode : Bytes → Option (PendingRestore α)) (roots)

/-- The disks that a run passes. -/
inductive Passed (s : Disk) : Disk → Prop where
  | start : Passed s s
  | entry {pending : PendingRestore α} {staging : Staging roots} {before : List PendingFile}
      {entry : PendingFile} {e : Disk}
      (hmanifest : manifestOf roots decode s.tree = some (pending, staging.place))
      (hat : AtEntry sha staging s pending.files before entry e) : Passed s e
  | cleaning {pending : PendingRestore α} {staging : Staging roots} {e : Disk}
      (hmanifest : manifestOf roots decode s.tree = some (pending, staging.place))
      (h : CleaningUp staging sha s pending.files e) : Passed s e

/-- How a run ends: it finds no document, stops before the first entry, stops at an entry all of
    whose predecessors are copied, breaks off in the clean-up, or restores everything. -/
inductive Ended (P : Ending → Prop) (s : Disk) : Except Failure (Result α) → Disk → Prop where
  | absent (hmissing : opened (s.tree.node roots.pendingPath) = .missing) : Ended P s (.ok .none) s
  | refused {failure : Failure} (hblame : failure.cause.blamesEntry = false)
      (hhead : Trouble P ∨ opened (s.tree.node roots.pendingPath) ≠ .missing ∧
        manifestOf roots decode s.tree = none) : Ended P s (.error failure) s
  | stopped {pending : PendingRestore α} {staging : Staging roots} {before : List PendingFile}
      {entry : PendingFile} {failure : Failure} {e : Disk}
      (hmanifest : manifestOf roots decode s.tree = some (pending, staging.place))
      (hat : AtEntry sha staging s pending.files before entry e)
      (hrejected : Rejected P (entry.verdict sha staging s.tree) failure) :
      Ended P s (.error failure) e
  | broken {pending : PendingRestore α} {staging : Staging roots} {e : Disk}
      (hmanifest : manifestOf roots decode s.tree = some (pending, staging.place))
      (htrouble : Trouble P) (h : CleaningUp staging sha s pending.files e) :
      Ended P s (.error .ofSystem) e
  | restored {pending : PendingRestore α} {staging : Staging roots} {e : Disk}
      (hmanifest : manifestOf roots decode s.tree = some (pending, staging.place))
      (h : Restored staging sha s pending.files e) :
      Ended P s (.ok (.restored pending.files.length pending.archiveName)) e

variable {sha decode roots} {P : Ending → Prop} {s : Disk}

theorem Ended.passed (h : Ended sha roots decode P s r e) : Passed sha roots decode s e := by
  cases h with
  | absent | refused => exact .start
  | stopped hmanifest hat => exact .entry hmanifest hat
  | broken hmanifest _ hcleaning => exact .cleaning hmanifest hcleaning
  | restored hmanifest hrestored =>
    obtain ⟨m, hm, hgone⟩ := hrestored
    exact .cleaning hmanifest ⟨m, hm, .inr (.inr hgone)⟩

/-- No round puts a directory where the document is, so it can be removed. -/
theorem AllCopied.remove_document
    (hmanifest : manifestOf roots decode s.tree = some (pending, staging.place))
    (hm : AllCopied sha staging s files m) :
    ∃ e, DiskAct.effect (.remove roots.pendingPath) m = some e ∧ DocumentGone roots m e := by
  obtain ⟨hthere, hfile⟩ := pendingPath_of_manifest hmanifest
  have hnot : m.tree.node roots.pendingPath ≠ some .directory := by
    rcases hm.progress.node roots.pendingPath with hsame | ⟨hnone, -⟩ | ⟨_, _, _, _, _, hnode⟩
    · rw [hsame]
      exact hfile
    · exact absurd hnone hthere
    · simp [hnode]
  exact ⟨_, dif_pos hnot, fun q => rfl, rfl⟩

theorem wp_restorePending (hapart : StagedApart roots decode s.tree)
    (hdocument : documentOf decode (opened (s.tree.node roots.pendingPath)) = some pending) :
    wp (restrict diskStep P) (Passed sha roots decode s)
      (restorePending sha roots.toOptions pending).run (Ended sha roots decode P s) s := by
  rw [restorePending, wp_run_bind]
  refine wp_checkHead .start (fun place hplace => ?_) fun failure hblame htrouble => ?_
  · have hmanifest := manifestOf_eq_some.mpr ⟨hdocument, hplace⟩
    obtain ⟨staging, rfl⟩ := hapart _ _ hmanifest
    rw [either_ok, wp_run_bind]
    have hstart : AllCopied sha staging s [] s :=
      ⟨fun _ hentry => absurd hentry List.not_mem_nil, .refl sha staging s []⟩
    refine wp_restoreFiles ?_ (fun m hm => ?_) ?_ rfl hstart
    · exact fun before entry e hat => .entry hmanifest hat
    · have hcleaning : ∀ e, (e = m ∨ DocumentGone roots m e ∨
          StagingGone staging m e) →
          CleaningUp staging sha s pending.files e := fun e he => ⟨m, hm, he⟩
      obtain ⟨n, hremove, hgone⟩ := hm.remove_document hmanifest
      have hpassed := Passed.cleaning hmanifest (hcleaning n (.inr (.inl hgone)))
      rw [either_ok, wp_run_bind]
      refine wp_attempt_some (.cleaning hmanifest (hcleaning m (.inl rfl))) hremove ?_
        fun e he htrouble => .broken hmanifest htrouble (hcleaning e ?_)
      · rw [either_ok, wp_run_bind, ask, wp_run_lift, wp_perform]
        refine ⟨hpassed, fun choice => ?_⟩
        obtain ⟨ending, hP⟩ := choice
        -- the directory of the document is synced, and the result is ignored
        have hsync : (restrict diskStep P (.act (.syncDirectory roots.configDir))
          ⟨ending, hP⟩ n).2 =
            n := by
          show (if ending.takesEffect then _ else _) = _
          exact ite_self _
        rw [hsync, either_ok, wp_run_bind]
        have hswept : StagingGone staging m
            { n with tree := n.tree.prune (staging.place) } := by
          refine ⟨fun q => ?_, hgone.temporaries⟩
          rw [← hgone.node]
          rfl
        refine wp_attempt_some hpassed rfl (.restored hmanifest ⟨m, hm, hswept⟩)
          fun f hf htrouble => .broken hmanifest htrouble (hcleaning f (.inr ?_))
        rcases hf with rfl | rfl
        · exact .inl hgone
        · exact .inr hswept
      · rcases he with rfl | rfl
        · exact .inl rfl
        · exact .inr (.inl hgone)
    · exact fun before entry failure e hat hrejected => .stopped hmanifest hat hrejected
  · refine .refused hblame (htrouble.imp_right fun hrefused => ⟨fun hmissing => ?_, ?_⟩)
    · rw [hmissing] at hdocument
      cases hdocument
    · rw [manifestOf, hdocument, Option.bind_some, hrefused, Option.map_none]

/-- **A run**, whatever the system does. -/
theorem wp_applyPending (hapart : StagedApart roots decode s.tree) : wp (restrict diskStep P)
    (Passed sha roots decode s)
    (applyPending sha decode roots.toOptions).run (Ended sha roots decode P s) s := by
  rw [applyPending, wp_run_bind]
  refine wp_openFile .start ?_ fun htrouble => .refused rfl (.inl htrouble)
  rw [either_ok, wp_run_bind]
  refine wp_decodePending .absent (fun pending hdocument => wp_restorePending hapart hdocument)
    fun failure hblame hthere hno => .refused hblame (.inr ⟨hthere, ?_⟩)
  rw [manifestOf, hno]
  rfl

end Run

end SbGateway.Recovery
