import SbGateway.ControlPlane.Storage

namespace SbGateway.ControlPlane

open Lib
open Lib.Calls

/-!
# The commit point

What `commitActiveDetailed` reports, against what `active.json` holds afterwards.  A failed write
is confirmed by the revision alone, so that a commit of the revision that is active already is
confirmed by the pointer it should have replaced.

* `commitActiveDetailed_report` — the report agrees with `active.json` except in the runs of
  `Misreported`;
* `reconcileCommitPointers_spec` — a repair makes the copies equal to `active.json`;
* `commitPointers_agree_iff` — both, for every run.
-/

variable {γ ν : Type} {env : Env γ ν} {metadata : CommitMetadata} {start s : Store γ ν}
  {h : History γ ν} {I : Store γ ν × History γ ν → Prop}

theorem text_pointer : (metadata.pointer env).text "revision" = metadata.revision := by
  simp [Document.text, CommitMetadata.pointer, List.lookup]

theorem safeRevision_ne_empty (h : safeRevision revision = true) : revision ≠ "" := by
  rintro rfl
  revert h
  decide

theorem safeRevision_of_refusal (h : metadata.refusal = none) :
    safeRevision metadata.revision = true := by
  by_contra hne
  rw [Bool.not_eq_true] at hne
  simp [CommitMetadata.refusal, hne] at h

/-- The confirmation finds a revision exactly if a pointer with it is read. -/
theorem publishedRevision_eq_iff (hsafe : safeRevision revision = true)
    (reply : Except FileError Document) :
    ((publishedRevision reply).toOption.getD "" == revision) = true ↔
      ∃ d, reply = .ok d ∧ d.text "revision" = revision := by
  have hne : ¬ "" = revision := fun he => safeRevision_ne_empty hsafe he.symm
  match reply with
  | .error .notExist | .error .failed => simp [publishedRevision, Except.toOption, hne]
  | .ok d =>
    by_cases hd : d.text "revision" = revision
    · simp [publishedRevision, Except.toOption, hd, hsafe]
    · simp only [publishedRevision]
      split <;> simp [Except.toOption, hd, hne]

/-- What the confirmation says after each end of its read. -/
theorem activeRevision_confirms (hsafe : safeRevision revision = true) :
    wp (recorded fileStep) (fun _ => True) activeRevision (fun r s' => ∃ c,
      s' = (s, h ++ [(.read (.pointer .active), c)]) ∧
        ((r.toOption.getD "" == revision) = true ↔
          c = .done ∧ ∃ d, s (.pointer .active) = .holds d ∧ d.text "revision" = revision))
      (s, h) := by
  refine wp_bind.mpr ⟨trivial, fun c => ⟨c, rfl, ?_⟩⟩
  refine (publishedRevision_eq_iff hsafe _).trans ?_
  cases c <;> cases hfile : s (.pointer .active) <;>
    simp [recorded, fileStep, Ending.answer, File.reply, hfile]

/-! ### The report -/

/-- Only generations have been read. -/
def Quiet (h : History γ ν) : Prop := ∀ c ∈ h, ∃ revision e, c = (.read (.generation revision), e)

/-- A quiet record, the write of the commit point, and other calls. -/
theorem misreported_iff (hquiet : Quiet h) (hrest : ∀ e, (publishes env metadata, e) ∉ rest) :
    Misreported env metadata start (h ++ (publishes env metadata, c) :: rest) ↔
      (c ≠ .done ∧ (c = .lost ∨ start (.pointer .active) = .holds (metadata.pointer env)) ∧
        (.read (.pointer .active), .done) ∉ rest) ∨
      ((∃ old, start (.pointer .active) = .holds old ∧ old ≠ metadata.pointer env ∧
          old.text "revision" = metadata.revision) ∧
        c = .refused ∧ (.read (.pointer .active), .done) ∈ rest) := by
  have hwrite : ∀ e, (publishes env metadata, e) ∈ h ++ (publishes env metadata, c) :: rest ↔
      e = c := by
    intro e
    have hh : (publishes env metadata, e) ∉ h := by
      intro hmem
      obtain ⟨_, _, heq⟩ := hquiet _ hmem
      cases heq
    simp [hh, hrest]
  have hread : ((.read (.pointer .active), .done) : FileCall (Content γ ν) × Ending) ∈
      h ++ (publishes env metadata, c) :: rest ↔ (.read (.pointer .active), .done) ∈ rest := by
    have hh : ((.read (.pointer .active), .done) : FileCall (Content γ ν) × Ending) ∉ h := by
      intro hmem
      obtain ⟨_, _, heq⟩ := hquiet _ hmem
      cases heq
    simp [hh]
  simp only [Misreported, hwrite, hread]
  have hsome : ¬ ∀ e, ¬ e = c := fun hall => hall c rfl
  simp only [hsome, and_false, false_or, eq_comm (a := Ending.refused)]
  refine or_congr_left ?_
  constructor
  · rintro ⟨⟨e, hne, rfl, hor⟩, hno⟩
    exact ⟨hne, hor, hno⟩
  · rintro ⟨hne, hor, hno⟩
    exact ⟨⟨c, hne, rfl, hor⟩, hno⟩

/-- The report agrees with the commit point exactly if the run is not a misreported one. -/
def Reports (env : Env γ ν) (metadata : CommitMetadata) (start : Store γ ν) (published : Bool)
    (t : Store γ ν × History γ ν) : Prop :=
  (published = true ↔ t.1 (.pointer .active) = .holds (metadata.pointer env)) ↔
    ¬ Misreported env metadata start t.2

/-- A commit whose write is confirmed is reported as published, whatever becomes of the copies. -/
theorem report_done (start : Store γ ν) (hquiet : Quiet h)
    (hrest : ∀ e, (publishes env metadata, e) ∉ rest)
    (hs : s (.pointer .active) = .holds (metadata.pointer env)) :
    Reports env metadata start true (s, h ++ (publishes env metadata, .done) :: rest) := by
  rw [Reports, misreported_iff hquiet hrest]
  simp [hs]

/-- After a failed write, the report is that of the confirmation. -/
theorem report_failed (start : Store γ ν) (hquiet : Quiet h) (hc : c ≠ .done)
    (hs : s = if c.takesEffect then
      start.set (.pointer .active) (.holds (metadata.pointer env)) else start)
    (hpublished : published = true ↔ c' = .done ∧
      ∃ d, s (.pointer .active) = .holds d ∧ d.text "revision" = metadata.revision) :
    Reports env metadata start published
      (s, h ++ [(publishes env metadata, c), (.read (.pointer .active), c')]) := by
  have hrest : ∀ e, (publishes env metadata, e) ∉
      [((.read (.pointer .active), c') : FileCall (Content γ ν) × Ending)] := by simp
  rw [Reports, misreported_iff hquiet hrest, hpublished]
  cases c with
  | done => exact absurd rfl hc
  | lost =>
    -- the new pointer is there
    have hset : s = start.set (.pointer .active) (.holds (metadata.pointer env)) := hs
    have hnew : s (.pointer .active) = .holds (metadata.pointer env) := by simp [hset]
    simp [hnew, text_pointer, eq_comm (a := Ending.done)]
  | refused =>
    have hold : s = start := hs
    subst hold
    by_cases hnew : s (.pointer .active) = .holds (metadata.pointer env)
    · simp [hnew, text_pointer, eq_comm (a := Ending.done)]
    · -- the old pointer is there, and its revision may be the same
      have hne : ∀ d, s (.pointer .active) = .holds d → d ≠ metadata.pointer env := by
        rintro d hd rfl
        exact hnew hd
      simp only [hnew, iff_false, or_false, and_false, false_and, false_or, true_and,
        List.mem_singleton, Prod.mk.injEq, eq_comm (a := Ending.done), not_and, not_exists,
        reduceCtorEq]
      constructor
      · rintro hno ⟨d, hd, -, hrev⟩ hc'
        exact hno hc' d hd hrev
      · intro hno hc' d hd hrev
        exact hno ⟨d, hd, hne d hd, hrev⟩ hc'

/-- The copies leave the commit point alone. -/
theorem writeCopies_report :
    wp (recorded fileStep) (fun _ => True) (writeCopies (metadata.pointer env)) (fun _ t =>
      t.1 (.pointer .active) = s (.pointer .active) ∧
        ∃ rest, t.2 = h ++ rest ∧ ∀ e, (publishes env metadata, e) ∉ rest) (s, h) := by
  unfold writeCopies
  refine wp_bind.mpr ⟨trivial, fun c => ?_⟩
  have hfirst : (fileStep (.write (.pointer .lastKnownGood) (metadata.pointer env)) c s).2
      (.pointer .active) = s (.pointer .active) := by
    cases c <;> simp [fileStep, Ending.takesEffect]
  cases c with
  | refused | lost => exact ⟨hfirst, _, rfl, by simp⟩
  | done =>
    refine wp_bind.mpr ⟨trivial, fun c' => ?_⟩
    cases c' <;> exact ⟨by simp [recorded, fileStep, Ending.takesEffect], _,
      List.append_assoc .., by simp⟩

/-- The report of the writes. -/
theorem publish_report (hsafe : safeRevision metadata.revision = true) (hquiet : Quiet h) :
    wp (recorded fileStep) (fun _ => True) (publish metadata.revision (metadata.pointer env))
      (fun r => Reports env metadata start r.1) (start, h) := by
  unfold publish
  refine wp_bind.mpr ⟨trivial, fun c => ?_⟩
  have hfailed : ∀ c ≠ Ending.done, wp (recorded fileStep) (fun _ => True)
      (confirmPublished metadata.revision .failed) (fun r => Reports env metadata start r.1)
      (recorded fileStep (publishes env metadata) c (start, h)).2 := by
    intro c hc
    refine wp_bind.mpr (wp_mono (activeRevision_confirms hsafe) ?_)
    rintro r _ ⟨c', rfl, hconfirms⟩
    have hreport := report_failed start hquiet hc rfl hconfirms
    rwa [List.append_cons] at hreport
  cases c with
  | refused => exact hfailed .refused (by simp)
  | lost => exact hfailed .lost (by simp)
  | done =>
    refine wp_bind.mpr (wp_mono writeCopies_report ?_)
    rintro e ⟨s', _⟩ ⟨hactive, rest, rfl, hrest⟩
    have hnew : s' (.pointer .active) = .holds (metadata.pointer env) :=
      hactive.trans (Files.set_self start (.pointer .active) (.holds (metadata.pointer env)))
    have hreport := report_done start hquiet hrest hnew
    rwa [List.append_cons] at hreport

theorem loadGeneration_quiet (revision : String) :
    wp (recorded fileStep) (fun _ => True) (loadGeneration env revision)
      (fun _ t => t.1 = s ∧ Quiet t.2) (s, []) := by
  unfold loadGeneration
  split
  · exact ⟨rfl, by simp [Quiet]⟩
  · refine wp_bind.mpr ⟨trivial, fun c => ⟨rfl, ?_⟩⟩
    simp [recorded, Quiet]

/-- A commit that is refused before any write is reported as not published. -/
theorem report_refused (hquiet : Quiet h) :
    Reports env metadata start false (start, h) := by
  have hno : ∀ e, (publishes env metadata, e) ∉ h := by
    intro e hmem
    obtain ⟨_, _, heq⟩ := hquiet _ hmem
    cases heq
  simp [Reports, Misreported, hno]

/-- The report of a commit. -/
theorem commitActiveDetailed_report :
    wp (recorded fileStep) (fun _ => True) (commitActiveDetailed env metadata)
      (fun r => Reports env metadata start r.1) (start, []) := by
  unfold commitActiveDetailed
  cases hrefusal : metadata.refusal with
  | some message => exact report_refused (by simp [Quiet])
  | none =>
    refine wp_bind.mpr (wp_mono (loadGeneration_quiet _) ?_)
    rintro r ⟨_, h⟩ ⟨rfl, hquiet⟩
    cases r with
    | error e => exact report_refused hquiet
    | ok _ => exact publish_report (safeRevision_of_refusal hrefusal) hquiet

/-! ### The repair of the copies -/

/-- A repair that succeeds leaves a copy of the commit point, and touches nothing else. -/
def Repaired (active : Document) (names : List Pointer) (s : Store γ ν) (r : Option Err)
    (t : Store γ ν) : Prop :=
  (∀ path, (∀ name ∈ names, path ≠ .pointer name) → t path = s path) ∧
    (r = none → ∀ name ∈ names, t (.pointer name) = .holds active)

theorem rewriteCopy_spec (active : Document) (name : Pointer) (readErr : Option Err) :
    wp fileStep (fun _ => True) (rewriteCopy active name readErr) (Repaired active [name] s) s := by
  have hothers : ∀ path, (∀ other ∈ [name], path ≠ Path.pointer other) →
      s.set (.pointer name) (.holds active) path = s path :=
    fun path hne => Files.set_of_ne _ _ (hne name (by simp))
  have hjoined : Err.joined readErr (some (.file .failed)) ≠ none := by
    cases readErr <;> simp [Err.joined]
  refine wp_bind.mpr (wp_write.mpr ⟨trivial, ?_, ?_, ?_⟩)
  · exact ⟨hothers, by simp⟩
  · exact ⟨fun _ _ => rfl, fun hnone => absurd hnone hjoined⟩
  · exact ⟨hothers, fun hnone => absurd hnone hjoined⟩

theorem reconcileCopy_spec (active : Document) (name : Pointer) :
    wp fileStep (fun _ => True) (reconcileCopy active name) (Repaired active [name] s) s := by
  refine wp_bind.mpr (wp_read.mpr ⟨trivial, ?_, rewriteCopy_spec ..⟩)
  split
  · next heq =>
    refine ⟨fun _ _ => rfl, fun _ => ?_⟩
    cases hfile : s (.pointer name) <;> simp_all [File.reply, Except.toOption]
  · exact rewriteCopy_spec ..

theorem reconcileCopies_spec (active : Document) (names : List Pointer) (hnodup : names.Nodup) :
    wp fileStep (fun _ => True) (reconcileCopies active names) (Repaired active names s) s := by
  induction names generalizing s with
  | nil => exact ⟨fun _ _ => rfl, by simp⟩
  | cons name names ih =>
    obtain ⟨hfresh, hnodup⟩ := List.nodup_cons.mp hnodup
    refine wp_bind.mpr (wp_mono (reconcileCopy_spec active name) ?_)
    rintro r t ⟨hframe, hcopy⟩
    cases r with
    | some e =>
      refine ⟨fun path hne => hframe path ?_, by simp⟩
      simpa using hne name (by simp)
    | none =>
      refine wp_mono (ih hnodup) ?_
      rintro r u ⟨hframe', hcopies⟩
      refine ⟨fun path hne => ?_, fun hr other hother => ?_⟩
      · rw [hframe' path fun other hmem => hne other (by simp [hmem])]
        exact hframe path (by simpa using hne name (by simp))
      · rcases List.mem_cons.mp hother with rfl | hmem
        · -- the later repairs leave this copy alone
          rw [hframe' _ fun x hx => by rintro ⟨⟩; exact hfresh hx]
          exact hcopy rfl _ (by simp)
        · exact hcopies hr other hmem

/-- Loading a generation changes nothing. -/
theorem loadGeneration_spec (revision : String) :
    wp fileStep (fun _ => True) (loadGeneration env revision) (fun _ t => t = s) s := by
  unfold loadGeneration
  split
  · exact rfl
  · exact wp_bind.mpr (wp_read.mpr ⟨trivial, rfl, rfl⟩)

/-- The copies are equal to the commit point, if there is one. -/
def CopiesAgree (s : Store γ ν) : Prop :=
  ∀ d, s (.pointer .active) = .holds d →
    s (.pointer .lastKnownGood) = .holds d ∧ s (.pointer .applyMetadata) = .holds d

/-- A repair never changes the commit point, and if it succeeds the copies agree with it. -/
theorem reconcileCommitPointers_spec :
    wp fileStep (fun _ => True) (reconcileCommitPointers env) (fun r t =>
      t (.pointer .active) = s (.pointer .active) ∧ (r = none → CopiesAgree t)) s := by
  unfold reconcileCommitPointers
  refine wp_bind.mpr (wp_read.mpr ⟨trivial, ?_, rfl, by simp⟩)
  cases hactive : s (.pointer .active) with
  | absent => exact ⟨hactive, fun _ d hd => by rw [hactive] at hd; cases hd⟩
  | unreadable => exact ⟨hactive, by simp⟩
  | holds active =>
    show wp _ _ (if safeRevision (Document.text active "revision") = false then _ else _) _ _
    split
    · exact ⟨hactive, by simp⟩
    · refine wp_bind.mpr (wp_mono (loadGeneration_spec _) ?_)
      rintro r t rfl
      cases r with
      | error e => exact ⟨hactive, by simp⟩
      | ok _ =>
        refine wp_mono (reconcileCopies_spec active _ (by decide)) ?_
        rintro r u ⟨hframe, hcopies⟩
        have hu : u (.pointer .active) = .holds active := by
          rw [← hactive]
          exact hframe _ (by simp)
        refine ⟨hu, fun hr d hd => ?_⟩
        rw [hu, File.holds.injEq] at hd
        subst hd
        exact ⟨hcopies hr _ (by simp), hcopies hr _ (by simp)⟩

/-! ### Calls -/

/-- The calls of a repair. -/
def CopyCall : FileCall (Content γ ν) → Prop
  | .read _ => True
  | .write (.pointer name) _ => name ≠ .active
  | _ => False

/-- The calls of a commit. -/
def CommitCall (pointer : Document) (op : FileCall (Content γ ν)) : Prop :=
  CopyCall op ∨ op = .write (.pointer .active) pointer

/-- A repair changes nothing but copies. -/
theorem copyCall_other (hop : CopyCall op) (hpath : ∀ name, name ≠ .active → path ≠ .pointer name) :
    (fileStep op c s).2 path = s path := by
  match op, hop with
  | .read _, _ => rfl
  | .write (.pointer name) _, hname =>
    cases c <;> simp [fileStep, Ending.takesEffect, hpath name hname]

/-- A commit point that is published stays published. -/
theorem commitCall_active
    (hop : CommitCall pointer op) (hs : s (.pointer .active) = .holds pointer) :
    (fileStep op c s).2 (.pointer .active) = .holds pointer := by
  rcases hop with hop | rfl
  · rw [copyCall_other hop fun name hname heq => hname (by simpa using heq.symm), hs]
  · cases c <;> simp [fileStep, Ending.takesEffect, hs]

theorem only_readJSON (path : Path) : Only (CopyCall (γ := γ) (ν := ν)) (readJSON path) :=
  ⟨trivial, fun _ => trivial⟩

theorem only_writeCopy (document : Document) (hname : name ≠ .active) :
    Only (CopyCall (γ := γ) (ν := ν)) (writeJSON (.pointer name) document) :=
  ⟨hname, fun _ => trivial⟩

theorem only_loadGeneration (revision : String) : Only CopyCall (loadGeneration env revision) := by
  unfold loadGeneration
  split
  · exact trivial
  · exact only_bind (only_readJSON _) fun _ => trivial

theorem only_writeCopies (document : Document) :
    Only (CopyCall (γ := γ) (ν := ν)) (writeCopies document) := by
  refine only_bind (only_writeCopy _ (by simp)) fun r => ?_
  cases r with
  | error e => exact trivial
  | ok _ =>
    refine only_bind (only_writeCopy _ (by simp)) fun r => ?_
    cases r <;> exact trivial

theorem only_commitActiveDetailed :
    Only (CommitCall (metadata.pointer env)) (commitActiveDetailed env metadata) := by
  have hcopy : ∀ {α : Type} {m : Program γ ν α}, Only CopyCall m →
      Only (CommitCall (metadata.pointer env)) m := fun hm => only_mono hm fun _ => .inl
  unfold commitActiveDetailed
  split
  · exact trivial
  · refine only_bind (hcopy (only_loadGeneration _)) fun r => ?_
    cases r with
    | error e => exact trivial
    | ok _ =>
      refine only_bind (m := writeJSON (.pointer .active) _) ⟨.inr rfl, fun _ => trivial⟩
        fun r => ?_
      cases r with
      | error e =>
        exact only_bind (hcopy (only_bind (only_readJSON _) fun _ => trivial)) fun _ => trivial
      | ok _ => exact only_bind (hcopy (only_writeCopies _)) fun _ => trivial

theorem only_reconcileCopies (active : Document) (hnames : ∀ name ∈ names, name ≠ .active) :
    Only (CopyCall (γ := γ) (ν := ν)) (reconcileCopies active names) := by
  induction names with
  | nil => exact trivial
  | cons name names ih =>
    have hrewrite : ∀ readErr, Only (CopyCall (γ := γ) (ν := ν))
        (rewriteCopy active name readErr) := fun readErr =>
      only_bind (only_writeCopy _ (hnames name (by simp))) fun r => by cases r <;> exact trivial
    refine only_bind (only_bind (only_readJSON _) fun current => ?_) fun r => ?_
    · show Only _ (if _ then _ else _)
      split
      · exact trivial
      · exact hrewrite _
    · cases r with
      | some e => exact trivial
      | none => exact ih fun other hother => hnames other (List.mem_cons_of_mem _ hother)

theorem only_reconcileCommitPointers : Only CopyCall (reconcileCommitPointers env) := by
  refine only_bind (only_readJSON _) fun r => ?_
  match r with
  | .error .notExist | .error .failed => exact trivial
  | .ok active =>
    show Only _ (if _ then _ else _)
    split
    · exact trivial
    · refine only_bind (only_loadGeneration _) fun r => ?_
      cases r with
      | error e => exact trivial
      | ok _ => exact only_reconcileCopies _ (by simp)

/-- A commit without an error is published. -/
theorem commitActiveDetailed_done :
    wp fileStep (fun _ => True) (commitActiveDetailed env metadata) (fun r t =>
      r.2 = none → t (.pointer .active) = .holds (metadata.pointer env)) s := by
  unfold commitActiveDetailed
  split
  · exact nofun
  · refine wp_bind.mpr (wp_mono (loadGeneration_spec _) ?_)
    rintro r t rfl
    cases r with
    | error e => exact nofun
    | ok _ =>
      have hfailed : ∀ u : Store γ ν, wp fileStep (fun _ => True)
          (confirmPublished metadata.revision .failed) (fun r v =>
            r.2 = none → v (.pointer .active) = .holds (metadata.pointer env)) u := by
        intro u
        refine wp_bind.mpr (wp_bind.mpr (wp_read.mpr ⟨trivial, ?_, ?_⟩))
        · show Err.joined (some (Err.file .failed)) _ = none → _
          cases failure (publishedRevision (u (.pointer .active)).reply) <;> exact nofun
        · exact nofun
      refine wp_bind.mpr (wp_write.mpr ⟨trivial, ?_, hfailed _, hfailed _⟩)
      have hkept : wp fileStep (fun u => u (.pointer .active) = .holds (metadata.pointer env))
          (writeCopies (metadata.pointer env))
          (fun _ u => u (.pointer .active) = .holds (metadata.pointer env))
          (t.set (.pointer .active) (.holds (metadata.pointer env))) :=
        wp_of_only (only_writeCopies _) (fun op c u hop hu => commitCall_active (.inl hop) hu)
          (Files.set_self ..)
      exact wp_bind.mpr (wp_mono (wp_weaken hkept fun _ _ => trivial) fun _ u hu _ => hu)

/-! ### Runs -/

/-- **Report and repair.** In every run of a commit the report agrees with the commit point
    exactly if the run is not one of the misreported ones; and a repair that succeeds after a run
    of a commit, cut off anywhere, makes both copies equal to the commit point. -/
theorem commitPointers_agree_iff (env : Env γ ν) (metadata : CommitMetadata) (start : Store γ ν)
    (choices : List Ending) :
    (∀ published err s h, (commitActiveDetailed env metadata).run (recorded fileStep) choices
        (start, []) = (some (published, err), (s, h)) →
      ((published = true ↔ s (.pointer .active) = .holds (metadata.pointer env)) ↔
        ¬ Misreported env metadata start h)) ∧
    ∀ choices' s, (reconcileCommitPointers env).run fileStep choices'
        ((commitActiveDetailed env metadata).run fileStep choices start).2 = (some none, s) →
      CopiesAgree s := by
  refine ⟨fun published err s h hrun => ?_, fun choices' s hrun => ?_⟩
  · have hreport := of_run_some commitActiveDetailed_report hrun
    exact hreport
  · exact (of_run_some reconcileCommitPointers_spec hrun).2 rfl

/-! ### The same revision again -/

/-- A store with one generation. -/
def sampleRevision : String := String.ofList (List.replicate 64 'a')

/-- Every node list has the sample revision. -/
def sampleEnv : Env Unit Unit := ⟨fun _ => sampleRevision, fun _ => "", "2026-01-02T00:00:00Z"⟩

/-- The first commit. -/
def sampleCommit : CommitMetadata :=
  ⟨"", "", "", sampleRevision, "", "", "", .null, "admin", some "2026-01-01T00:00:00Z"⟩

/-- The same revision with another RouterOS source. -/
def sampleRecommit : CommitMetadata := { sampleCommit with routerOSSource := "/ip route" }

/-- The first commit is published. -/
def sampleStore : Store Unit Unit
  | .pointer _ => .holds (sampleCommit.pointer sampleEnv)
  | .generation _ => .holds ()
  | _ => .absent

/-- The write of the new pointer fails, the old one has the same revision: the commit is reported
    as published although `active.json` holds the old RouterOS source. -/
theorem recommit_misreported : ∃ err s,
    (commitActiveDetailed sampleEnv sampleRecommit).run fileStep [.done, .refused, .done]
      sampleStore = (some (true, err), s) ∧
    s (.pointer .active) = .holds (sampleCommit.pointer sampleEnv) ∧
    s (.pointer .active) ≠ .holds (sampleRecommit.pointer sampleEnv) := by
  refine ⟨_, _, rfl, rfl, ?_⟩
  decide

/-- The same commit without a failure, and a repair after it. -/
theorem recommit_agrees : ∃ s h t,
    (commitActiveDetailed sampleEnv sampleRecommit).run (recorded fileStep)
      (List.replicate 4 .done) (sampleStore, []) = (some (true, none), (s, h)) ∧
    ((true = true ↔ s (.pointer .active) = .holds (sampleRecommit.pointer sampleEnv)) ↔
      ¬ Misreported sampleEnv sampleRecommit sampleStore h) ∧
    (reconcileCommitPointers sampleEnv).run fileStep (List.replicate 4 .done)
      ((commitActiveDetailed sampleEnv sampleRecommit).run fileStep (List.replicate 4 .done)
        sampleStore).2 = (some none, t) ∧ CopiesAgree t := by
  have hagree := commitPointers_agree_iff sampleEnv sampleRecommit sampleStore
    (List.replicate 4 .done)
  exact ⟨_, _, _, rfl, hagree.1 _ _ _ _ rfl, rfl, hagree.2 (List.replicate 4 .done) _ rfl⟩

end SbGateway.ControlPlane
