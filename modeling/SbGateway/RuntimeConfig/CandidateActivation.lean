import SbGateway.RuntimeConfig.CandidateStore

namespace SbGateway.RuntimeConfig.Candidates

open Lib
open Lib.Calls

/-!
# What an activation does to the disk

One specification for each function of the candidate store.

* `rollbackAfter_spec` — a rollback without an error puts every changed file back (`PutBack`);
* `publishFiles_spec` — all artifacts are published, or everything is restored;
* `activateAfter_spec` — an activation succeeds (`Activated`) or leaves the destinations
  untouched.
-/

variable {β : Type} {s t start : Files (Content β)} {I : Files (Content β) → Prop}

/-! ### Calls -/

/-- A file call has the rules of the disk. -/
theorem wp_file : wp step I (file request) Q s ↔ wp fileStep I (perform request) Q s := by
  refine and_congr_right fun _ => ⟨fun h e => h ⟨e, fun _ => true⟩, fun h c => h c.ending⟩

/-- What is left of a directory whose removal was tried. -/
def Shrunk (s t : Files (Content β)) : Prop :=
  (∀ path, (∀ revision name, path ≠ .saved revision name) → t path = s path) ∧
    ∀ revision name, t (.saved revision name) = s (.saved revision name) ∨
      t (.saved revision name) = .absent

theorem Shrunk.refl (s : Files (Content β)) : Shrunk s s :=
  ⟨fun _ _ => rfl, fun _ _ => .inl rfl⟩

theorem shrunk_dropSaved (s : Files (Content β)) (revision : String) (which : String → Bool) :
    Shrunk s (dropSaved s revision which) := by
  refine ⟨fun path hpath => ?_, fun revision' name => ?_⟩
  · cases path with
    | saved revision' name => exact absurd rfl (hpath revision' name)
    | _ => rfl
  · simp only [dropSaved]
    split
    · exact .inr rfl
    · exact .inl rfl

theorem wp_removeSaved
    (hI : I s) (hQ : ∀ r t, Shrunk s t → Q r t) : wp step I (removeSaved revision) Q s := by
  refine ⟨hI, fun c => ?_⟩
  obtain ⟨ending, removed⟩ := c
  cases ending <;> exact hQ _ _ (shrunk_dropSaved ..)

theorem wp_callback (hI : I s) (hQ : ∀ r, Q r s) : wp step I (callback names) Q s :=
  ⟨hI, fun _ => hQ _⟩

theorem wp_makeDirectory (hI : I s) (hQ : ∀ r, Q r s) : wp step I makeDirectory Q s :=
  ⟨hI, fun _ => hQ _⟩

theorem wp_orStop {Q : Except Err α → Files (Content β) → Prop} :
    wp step I (orStop program).run Q s ↔ wp step I program (fun r => Q (r.mapError .file)) s :=
  wp_bind

/-- A copy is made as a whole or not at all. -/
inductive Copied (source destination : Path) (s : Files (Content β)) :
    Except FileError Unit → Files (Content β) → Prop
  | kept (e : FileError) : Copied source destination s (.error e) s
  | copied (r : Except FileError Unit) (body : β) (h : s source = .holds body) :
    Copied source destination s r (s.set destination (.holds body))

theorem wp_copyFileAtomic (hI : I s) (hQ : ∀ r t, Copied source destination s r t → Q r t) :
    wp step I (copyFileAtomic source destination) Q s := by
  refine wp_bind.mpr (wp_file.mpr (wp_read.mpr ⟨hI, ?_, ?_⟩))
  · cases hsource : s source with
    | absent | unreadable => exact hQ _ _ (.kept _)
    | holds body =>
      refine wp_file.mpr (wp_write.mpr ⟨hI, ?_, ?_, ?_⟩)
      · exact hQ _ _ (.copied _ body hsource)
      · exact hQ _ _ (.kept _)
      · exact hQ _ _ (.copied _ body hsource)
  · exact hQ _ _ (.kept _)

/-! ### Restoration -/

/-- Only the destinations of these artifacts have changed. -/
def OnlyDestinations (names : List String) (s t : Files (Content β)) : Prop :=
  ∀ path, (∀ name ∈ names, path ≠ .destination name) → t path = s path

theorem OnlyDestinations.refl (names : List String) (s : Files (Content β)) :
    OnlyDestinations names s s :=
  fun _ _ => rfl

theorem OnlyDestinations.set (hmem : name ∈ names) (f : File β) :
    OnlyDestinations names s (s.set (.destination name) f) :=
  fun _ hpath => Files.set_of_ne _ _ (hpath name hmem)

theorem OnlyDestinations.mono (h : OnlyDestinations names s t)
    (hsub : ∀ name ∈ names, name ∈ names') : OnlyDestinations names' s t :=
  fun path hpath => h path fun name hmem => hpath name (hsub name hmem)

theorem OnlyDestinations.trans (h : OnlyDestinations names s t) (h' : OnlyDestinations names t u) :
    OnlyDestinations names s u :=
  fun path hpath => (h' path hpath).trans (h path hpath)

theorem OnlyDestinations.saved (h : OnlyDestinations names s t) (revision name : String) :
    t (.saved revision name) = s (.saved revision name) :=
  h _ (by simp)

/-- The destination is as it was saved. -/
def PutBack (receipt : ActivationReceipt) (s t : Files (Content β)) (name : String) : Prop :=
  (name ∈ receipt.previousPresent →
    t (.destination name) = s (.saved receipt.candidate.revision name) ∧
      s (.saved receipt.candidate.revision name) ≠ .absent) ∧
  (name ∉ receipt.previousPresent → t (.destination name) = .absent)

/-- The error of a removal that is not ignored. -/
theorem gone_ne_failed (f : File α) : f.gone ≠ .error .failed := by
  cases f <;> simp [File.gone]

theorem restoreFile_spec (hI : I s) (hQ : ∀ failures t, OnlyDestinations [name] s t →
      (failures = [] → PutBack receipt s t name) → Q failures t) :
    wp step I (restoreFile store receipt name) Q s := by
  have hset : ∀ f : File β, OnlyDestinations [name] s (s.set (.destination name) f) :=
    fun f => .set (by simp) f
  unfold restoreFile
  split
  · exact hQ _ _ (.refl _ _) (by simp)
  · split
    · next hpresent =>
      refine wp_bind.mpr (wp_copyFileAtomic hI fun r t hcopied => ?_)
      cases hcopied with
      | kept e => exact hQ _ _ (.refl _ _) (by simp)
      | copied r body hbody =>
        cases r with
        | error e => exact hQ _ _ (hset _) (by simp)
        | ok u =>
          refine hQ _ _ (hset _) fun _ => ⟨fun _ => ⟨?_, ?_⟩, fun h => absurd hpresent h⟩
          · rw [Files.set_self, hbody]
          · simp [hbody]
    · next habsent =>
      refine wp_bind.mpr (wp_file.mpr (wp_remove.mpr ⟨hI, ?_, ?_, ?_⟩))
      · have hgone : PutBack receipt s (s.set (.destination name) .absent) name :=
          ⟨fun h => absurd h habsent, fun _ => Files.set_self ..⟩
        cases hreply : (s (.destination name)).gone with
        | ok u => exact hQ _ _ (hset _) fun _ => hgone
        | error e =>
          cases e with
          | notExist => exact hQ _ _ (hset _) fun _ => hgone
          | failed => exact absurd hreply (gone_ne_failed _)
      · exact hQ _ _ (.refl _ _) (by simp)
      · exact hQ _ _ (hset _) (by simp)

/-- A restoration without failures puts every file back. -/
theorem restoreFiles_spec
    (hI : ∀ t, OnlyDestinations names s t → I t) (hQ : ∀ failures t, OnlyDestinations names s t →
      (failures = [] → ∀ name ∈ names, PutBack receipt s t name) → Q failures t) :
    wp step I (restoreFiles store receipt names) Q s := by
  induction names generalizing s Q with
  | nil => exact hQ _ _ (.refl _ _) (by simp)
  | cons name names ih =>
    refine wp_bind.mpr (restoreFile_spec (hI _ (.refl _ _)) fun failures t ht hput => ?_)
    have ht' : OnlyDestinations (name :: names) s t := ht.mono (by simp)
    refine wp_bind.mpr (ih (fun u hu => hI u (ht'.trans (hu.mono (by simp +contextual))))
      fun failures' u hu hput' => hQ _ _ (ht'.trans (hu.mono (by simp +contextual))) ?_)
    intro hnil other hother
    obtain ⟨rfl, rfl⟩ := List.append_eq_nil_iff.mp hnil
    by_cases hrest : other ∈ names
    · -- restored by the rest of the loop, from the same saved file
      have hback := hput' rfl other hrest
      rwa [PutBack, ht.saved] at hback
    · rcases List.mem_cons.mp hother with rfl | hmem
      · have hsame : u (.destination other) = t (.destination other) :=
          hu _ fun x hx => by rintro ⟨⟩; exact hrest hx
        rw [PutBack, hsame]
        exact hput rfl
      · exact absurd hmem hrest

/-- What was saved is still there or has been removed; what was not saved was absent. -/
def Recoverable (start : Files (Content β)) (receipt : ActivationReceipt)
    (s : Files (Content β)) : Prop :=
  ∀ name ∈ receipt.changed,
    (name ∈ receipt.previousPresent →
      s (.saved receipt.candidate.revision name) = start (.destination name) ∨
        s (.saved receipt.candidate.revision name) = .absent) ∧
    (name ∉ receipt.previousPresent → start (.destination name) = .absent)

/-- A file that is put back is as it was at the start. -/
theorem PutBack.eq_start (h : PutBack receipt s t name)
    (hrecoverable : Recoverable start receipt s) (hmem : name ∈ receipt.changed) :
    t (.destination name) = start (.destination name) := by
  obtain ⟨hsaved, habsent⟩ := hrecoverable name hmem
  by_cases hpresent : name ∈ receipt.previousPresent
  · obtain ⟨heq, hne⟩ := h.1 hpresent
    rw [heq]
    exact (hsaved hpresent).resolve_right hne
  · rw [h.2 hpresent, habsent hpresent]

theorem Shrunk.destination (h : Shrunk s t) (name : String) :
    t (.destination name) = s (.destination name) :=
  h.1 _ (by simp)

/-- The end of a rollback removes saved files at most. -/
theorem finishRollback_spec
    (hI : I s) (hQ : ∀ r t, Shrunk s t → (r = none → failures = []) → Q r t) :
    wp step I (finishRollback receipt failures) Q s := by
  cases failures with
  | nil =>
    refine wp_bind.mpr (wp_removeSaved hI fun r t hshrunk => ?_)
    cases r <;> exact hQ _ _ hshrunk fun _ => rfl
  | cons failure failures => exact hQ _ _ (.refl _) (by simp)

/-- The destinations of the changed artifacts are written, and saved files may be removed. -/
def RolledBack (receipt : ActivationReceipt) (s t : Files (Content β)) : Prop :=
  ∃ u, OnlyDestinations receipt.changed s u ∧ Shrunk u t

/-- A rollback without an error puts every changed file back. -/
theorem rollbackLocked_spec (hI : ∀ t, RolledBack receipt s t → I t)
    (hQ : ∀ r t, RolledBack receipt s t →
      (r = none → ∀ name ∈ receipt.changed, PutBack receipt s t name) → Q r t) :
    wp step I (rollbackLocked store receipt) Q s := by
  refine wp_bind.mpr (restoreFiles_spec (fun t ht => hI t ⟨t, ht, .refl t⟩)
    fun failures u hu hput => ?_)
  refine finishRollback_spec (hI u ⟨u, hu, .refl u⟩) fun r t hshrunk hr => ?_
  refine hQ r t ⟨u, hu, hshrunk⟩ fun hnone name hmem => ?_
  rw [PutBack, hshrunk.destination]
  exact hput (hr hnone) name hmem

theorem rollbackAfter_spec
    (hI : ∀ t, RolledBack receipt s t → I t) (hQ : ∀ r t, RolledBack receipt s t →
      (r = none → ∀ name ∈ receipt.changed, PutBack receipt s t name) → Q r t) :
    wp step I (rollbackAfter store receipt prepare) Q s := by
  have hself : RolledBack receipt s s := ⟨s, .refl _ _, .refl s⟩
  unfold rollbackAfter
  split
  · refine wp_bind.mpr (wp_callback (hI s hself) fun r => ?_)
    cases r with
    | error e => exact hQ _ _ hself (by simp)
    | ok u => exact rollbackLocked_spec hI hQ
  · exact rollbackLocked_spec hI hQ

/-! ### Activation -/

/-- The restoration after a failed publication has had no failures. -/
def Err.restored : Err → Prop
  | .publish _ _ failures => failures = []
  | _ => True

/-- All destinations are as at the start. -/
def Untouched (start s : Files (Content β)) : Prop :=
  ∀ name, s (.destination name) = start (.destination name)

theorem Recoverable.of_onlyDestinations
    (h : Recoverable start receipt s) (ht : OnlyDestinations names s t) :
    Recoverable start receipt t := by
  intro name hmem
  rw [ht.saved]
  exact h name hmem

/-- A failed publication restores everything. -/
theorem failPublication_spec (hrecoverable : Recoverable start receipt s)
    (hothers : ∀ name ∉ receipt.changed, s (.destination name) = start (.destination name))
    (herr : ∀ e t, (e.restored → Untouched start t) → Q (.error e) t) :
    wp step (fun _ => True) (failPublication store receipt name error).run Q s := by
  rw [failPublication, wp_run_bind, wp_run_lift]
  refine restoreFiles_spec (fun _ _ => trivial) fun failures u hu hput => ?_
  rw [either_ok, wp_run_bind, wp_run_lift]
  refine finishRollback_spec trivial fun r t hshrunk _ => herr _ t fun hrestored other => ?_
  rw [hshrunk.destination]
  by_cases hmem : other ∈ receipt.changed
  · exact (hput hrestored other hmem).eq_start hrecoverable hmem
  · rw [← hothers other hmem]
    exact hu _ fun x hx => by rintro ⟨⟩; exact hmem hx

/-- The artifacts of this list are published, or everything is restored. -/
theorem publishFiles_spec (hsub : ∀ name ∈ names, name ∈ receipt.changed)
    (hrecoverable : Recoverable start receipt s)
    (hothers : ∀ name ∉ receipt.changed, s (.destination name) = start (.destination name))
    (hok : ∀ t, OnlyDestinations names s t →
      (∀ name ∈ names, t (.destination name) = s (.artifact receipt.candidate.revision name)) →
      Q (.ok ()) t) (herr : ∀ e t, (e.restored → Untouched start t) → Q (.error e) t) :
    wp step (fun _ => True) (publishFiles store receipt names).run Q s := by
  induction names generalizing s with
  | nil => exact hok s (.refl _ _) (by simp)
  | cons name names ih =>
    have hname : name ∈ receipt.changed := hsub name (by simp)
    rw [publishFiles, wp_run_bind, wp_run_lift]
    refine wp_copyFileAtomic trivial fun r t hcopied => ?_
    cases hcopied with
    | kept e => exact failPublication_spec hrecoverable hothers herr
    | copied r body hbody =>
      -- the state after the copy, whether it was confirmed or not
      have hset : OnlyDestinations [name] s (s.set (.destination name) (.holds body)) :=
        .set (by simp) _
      have hrecoverable' := hrecoverable.of_onlyDestinations hset
      have hothers' : ∀ other ∉ receipt.changed,
          s.set (.destination name) (.holds body) (.destination other) =
            start (.destination other) := by
        intro other hother
        rw [← hothers other hother]
        exact Files.set_of_ne _ _ (by rintro ⟨⟩; exact hother hname)
      cases r with
      | error e => exact failPublication_spec hrecoverable' hothers' herr
      | ok u =>
        refine ih (fun n hn => hsub n (by simp [hn])) hrecoverable' hothers' fun t ht hpub => ?_
        refine hok t ((hset.mono (by simp)).trans (ht.mono (by simp +contextual))) ?_
        intro other hother
        by_cases hrest : other ∈ names
        · rw [hpub other hrest]
          exact hset _ (by simp)
        · rcases List.mem_cons.mp hother with rfl | hmem
          · rw [ht _ fun x hx => by rintro ⟨⟩; exact hrest hx, Files.set_self, hbody]
          · exact absurd hmem hrest

/-- What the save loop has done: what was there is saved, and only that. -/
structure SavedFiles (revision : String) (names present : List String)
    (s t : Files (Content β)) : Prop where
  frame : ∀ path, (∀ name ∈ names, path ≠ .saved revision name) → t path = s path
  sub : ∀ name ∈ present, name ∈ names
  saved : ∀ name ∈ present, ∃ body, s (.destination name) = .holds body ∧
    t (.saved revision name) = .holds body
  absent : ∀ name ∈ names, name ∉ present → s (.destination name) = .absent

/-- The destinations are saved; they are not touched in any case. -/
theorem savePrevious_spec
    {Q : Except Err (List String) → Files (Content β) → Prop} (hnodup : names.Nodup)
    (hok : ∀ present t, SavedFiles revision names present s t → Q (.ok present) t)
    (herr : ∀ e t, Untouched s t → Q (.error e) t) :
    wp step (fun _ => True) (savePrevious revision names).run Q s := by
  induction names generalizing s Q with
  | nil => exact hok [] s ⟨fun _ _ => rfl, by simp, by simp, by simp⟩
  | cons name names ih =>
    obtain ⟨hfresh, hnodup⟩ := List.nodup_cons.mp hnodup
    rw [savePrevious, wp_run_bind, wp_run_lift]
    refine wp_file.mpr (wp_stat.mpr ⟨trivial, ?_, herr _ _ fun _ => rfl⟩)
    cases hdest : s (.destination name) with
    | unreadable => exact herr _ _ fun _ => rfl
    | absent =>
      refine ih hnodup (fun present t h => hok present t ⟨fun path hpath => ?_, ?_, ?_, ?_⟩) herr
      · exact h.frame path fun n hn => hpath n (by simp [hn])
      · exact fun n hn => by simp [h.sub n hn]
      · exact h.saved
      · intro n hn hnot
        rcases List.mem_cons.mp hn with rfl | hmem
        · exact hdest
        · exact h.absent n hmem hnot
    | holds body =>
      simp only [either_ok, File.kind]
      rw [wp_run_bind, wp_orStop]
      refine wp_copyFileAtomic trivial fun r t hcopied => ?_
      cases hcopied with
      | kept e => exact herr _ _ fun _ => rfl
      | copied r body' hbody =>
        have hdests : Untouched s (s.set (.saved revision name) (.holds body')) :=
          fun other => Files.set_of_ne _ _ (by simp)
        cases r with
        | error e => exact herr _ _ hdests
        | ok u =>
          rw [Except.mapError, either_ok, wp_run_bind]
          refine ih hnodup (fun present t h => hok (name :: present) t ⟨fun path hpath => ?_,
            ?_, ?_, ?_⟩) fun e t ht => herr e t fun other => (ht other).trans (hdests other)
          · rw [h.frame path fun n hn => hpath n (by simp [hn])]
            exact Files.set_of_ne _ _ (hpath name (by simp))
          · intro n hn
            rcases List.mem_cons.mp hn with rfl | hmem
            · simp
            · simp [h.sub n hmem]
          · intro n hn
            rcases List.mem_cons.mp hn with rfl | hmem
            · refine ⟨body', hbody, ?_⟩
              -- the later copies have other names
              rw [h.frame _ fun x hx => by rintro ⟨⟩; exact hfresh hx, Files.set_self]
            · obtain ⟨b, hb, hsaved⟩ := h.saved n hmem
              exact ⟨b, (hdests n).symm.trans hb, hsaved⟩
          · intro n hn hnot
            rw [List.mem_cons, not_or] at hnot
            rcases List.mem_cons.mp hn with rfl | hmem
            · exact absurd rfl hnot.1
            · exact (hdests n).symm.trans (h.absent n hmem hnot.2)

section Equality

variable [DecidableEq β]

/-- A comparison changes nothing, and equal files have the same contents. -/
theorem filesEqual_spec (hI : I s) : wp step I (filesEqual first second)
      (fun r t => t = s ∧ (r = .ok true → s first = s second)) s := by
  have hreads : wp step I (sameContents first second)
      (fun r t => t = s ∧ (r = .ok true → s first = s second)) s := by
    refine wp_bind.mpr (wp_file.mpr (wp_read.mpr ⟨hI, ?_, rfl, by simp⟩))
    cases hfirst : s first with
    | absent | unreadable => exact ⟨rfl, by simp⟩
    | holds left =>
      refine wp_bind.mpr (wp_file.mpr (wp_read.mpr ⟨hI, ?_, rfl, by simp⟩))
      cases hsecond : s second with
      | absent | unreadable => exact ⟨rfl, by simp⟩
      | holds right =>
        refine ⟨rfl, fun heq => ?_⟩
        simp only [Except.ok.injEq, decide_eq_true_eq] at heq
        rw [heq]
  unfold filesEqual
  refine wp_bind.mpr (wp_file.mpr (wp_stat.mpr ⟨hI, ?_, rfl, by simp⟩))
  cases (s first).kind with
  | error e => exact ⟨rfl, by simp⟩
  | ok regular =>
    refine wp_bind.mpr (wp_file.mpr (wp_stat.mpr ⟨hI, ?_, rfl, by simp⟩))
    cases (s second).kind with
    | error e => exact ⟨rfl, by simp⟩
    | ok regular' =>
      show wp step I (if (regular && regular') = true then _ else _) _ s
      split
      · exact hreads
      · exact ⟨rfl, by simp⟩

/-- A file that does not differ has the same contents. -/
theorem differs_spec (hI : I s) : wp step I (do return differs (← filesEqual first second))
      (fun r t => t = s ∧ (r = .ok false → s first = s second)) s := by
  refine wp_bind.mpr (wp_mono (filesEqual_spec hI) ?_)
  rintro r t ⟨rfl, heq⟩
  refine ⟨rfl, fun hr => heq ?_⟩
  match r with
  | .ok true => rfl
  | .ok false | .error .notExist => simp [differs] at hr
  | .error .failed => simp [differs] at hr

/-- The artifacts that are not in the changed set are in place already. -/
theorem changedNames_spec {Q : Except Err (List String) → Files (Content β) → Prop}
    (hok : ∀ changed, changed.Sublist (files.map Prod.fst) →
      (∀ p ∈ files, p.1 ∉ changed → s (.destination p.1) = s p.2) → Q (.ok changed) s)
    (herr : ∀ e, Q (.error e) s) : wp step (fun _ => True) (changedNames files).run Q s := by
  induction files generalizing Q with
  | nil => exact hok [] (.refl _) (by simp)
  | cons p files ih =>
    obtain ⟨name, source⟩ := p
    rw [changedNames, wp_run_bind, wp_orStop]
    refine wp_mono (differs_spec trivial) ?_
    rintro r t ⟨rfl, heq⟩
    cases r with
    | error e => exact herr _
    | ok changed =>
      rw [Except.mapError, either_ok, wp_run_bind]
      refine ih (fun names hsub hrest => ?_) herr
      cases changed with
      | true =>
        refine hok (name :: names) (hsub.cons_cons name) fun p hp hnot => ?_
        rw [List.mem_cons, not_or] at hnot
        rcases List.mem_cons.mp hp with rfl | hmem
        · exact absurd rfl hnot.1
        · exact hrest p hmem hnot.2
      | false =>
        refine hok names (hsub.cons name) fun p hp hnot => ?_
        rcases List.mem_cons.mp hp with rfl | hmem
        · exact (heq rfl).symm
        · exact hrest p hmem hnot

end Equality

theorem validateFiles_spec (hI : I s)
    (hok : (∀ p ∈ files, p.1 ∈ store.destinations ∧ p.2 = .artifact revision p.1) → Q (.ok ()) s)
    (herr : ∀ e, Q (.error e) s) : wp step I (validateFiles store revision files).run Q s := by
  induction files with
  | nil => exact hok (by simp)
  | cons p files ih =>
    obtain ⟨name, path⟩ := p
    rw [validateFiles]
    split
    · exact herr _
    · next hmanaged =>
      rw [not_or, not_not, not_not] at hmanaged
      rw [wp_run_bind, wp_run_lift]
      refine wp_file.mpr (wp_stat.mpr ⟨hI, ?_, herr _⟩)
      cases s path with
      | absent | unreadable => exact herr _
      | holds body =>
        refine ih fun hfiles => hok fun p hp => ?_
        rcases List.mem_cons.mp hp with rfl | hmem
        · exact hmanaged
        · exact hfiles p hmem

theorem validateCandidate_spec (hI : I s) (hok : (∀ p ∈ candidate.files, p.1 ∈ store.destinations ∧
      p.2 = .artifact candidate.revision p.1) → Q (.ok ()) s) (herr : ∀ e, Q (.error e) s) :
    wp step I (validateCandidate store candidate).run Q s := by
  unfold validateCandidate
  split
  · exact herr _
  · split
    · exact herr _
    · exact validateFiles_spec hI hok herr

/-- What a successful activation has done. -/
structure Activated (store : CandidateStore) (candidate : RuntimeCandidate)
    (start : Files (Content β)) (receipt : ActivationReceipt) (s : Files (Content β)) : Prop where
  of : receipt.candidate = candidate
  managed : ∀ name ∈ receipt.changed, name ∈ store.destinations
  /-- The destinations hold the candidate. -/
  published : ∀ p ∈ candidate.files, s (.destination p.1) = start p.2
  /-- The other destinations are as before. -/
  others : ∀ name ∉ receipt.changed, s (.destination name) = start (.destination name)
  /-- What was replaced is saved. -/
  saved : ∀ name ∈ receipt.changed, name ∈ receipt.previousPresent → ∃ body,
    start (.destination name) = .holds body ∧
      s (.saved candidate.revision name) = .holds body
  absent : ∀ name ∈ receipt.changed, name ∉ receipt.previousPresent →
    start (.destination name) = .absent

theorem Activated.recoverable (h : Activated store candidate start receipt s) :
    Recoverable start receipt s := by
  refine fun name hmem => ⟨fun hpresent => .inl ?_, h.absent name hmem⟩
  obtain ⟨body, hstart, hsaved⟩ := h.saved name hmem hpresent
  rw [h.of, hsaved, hstart]

theorem validateChanged_spec (hQ : ∀ r, Q r s) :
    wp step (fun _ => True) (validateChanged validate changed).run Q s := by
  unfold validateChanged
  split
  · exact wp_orStop.mpr (wp_callback trivial fun r => hQ _)
  · exact hQ _

/-- What the preparation of a publication leaves for it. -/
theorem SavedFiles.recoverable (h : SavedFiles candidate.revision names present s t)
    (hdests : Untouched start s) : Recoverable start ⟨candidate, present, names⟩ t := by
  refine fun name hmem => ⟨fun hpresent => .inl ?_, fun hnot => ?_⟩
  · obtain ⟨body, hbody, hsaved⟩ := h.saved name hpresent
    rw [← hdests name, hbody, hsaved]
  · rw [← hdests name]
    exact h.absent name hmem hnot

/-- A changed set is published as a whole, or everything is restored. -/
theorem activateChanged_spec
    {changed : List String} {Q : Except Err ActivationReceipt → Files (Content β) → Prop}
    (hmanaged : ∀ p ∈ candidate.files, p.1 ∈ store.destinations ∧
      p.2 = .artifact candidate.revision p.1)
    (hsub : changed.Sublist (candidate.files.map Prod.fst))
    (hequal : ∀ p ∈ candidate.files, p.1 ∉ changed → s (.destination p.1) = s p.2)
    (hok : ∀ receipt t, Activated store candidate s receipt t → Q (.ok receipt) t)
    (herr : ∀ e t, (e.restored → Untouched s t) → Q (.error e) t) :
    wp step (fun _ => True) (activateChanged store candidate validate changed).run Q s := by
  rw [activateChanged, wp_run_bind]
  refine validateChanged_spec fun r => ?_
  cases r with
  | error e => exact herr _ _ fun _ _ => rfl
  | ok _ =>
  rw [either_ok, wp_run_bind, wp_orStop]
  refine wp_removeSaved trivial fun r u hu => ?_
  have hdests : Untouched s u := hu.destination
  cases r with
  | error e => exact herr _ _ fun _ => hdests
  | ok _ =>
  rw [Except.mapError, either_ok, wp_run_bind, wp_orStop]
  refine wp_makeDirectory trivial fun r => ?_
  cases r with
  | error e => exact herr _ _ fun _ => hdests
  | ok _ =>
  rw [Except.mapError, either_ok, wp_run_bind]
  refine savePrevious_spec (candidate.nodup.sublist hsub) (fun present v hv => ?_)
    fun e t ht => herr _ _ fun _ name => (ht name).trans (hdests name)
  -- the destinations and the artifacts are still as at the start
  have hstill : ∀ path, (∀ revision name, path ≠ .saved revision name) → v path = s path :=
    fun path hpath => (hv.frame path fun name _ => hpath _ name).trans (hu.1 path hpath)
  rw [either_ok, wp_run_bind]
  refine publishFiles_spec (fun _ h => h) (hv.recoverable hdests)
    (fun name _ => hstill _ (by simp)) (fun t ht hpublished => hok _ t ?_) herr
  have hothers : ∀ name ∉ changed, t (.destination name) = s (.destination name) := by
    intro name hnot
    rw [ht _ fun x hx => by rintro ⟨⟩; exact hnot hx]
    exact hstill _ (by simp)
  refine ⟨rfl, fun name hmem => ?_, fun p hp => ?_, hothers, fun name _ hpresent => ?_, ?_⟩
  · obtain ⟨p, hp, rfl⟩ := List.mem_map.mp (hsub.subset hmem)
    exact (hmanaged p hp).1
  · by_cases hmem : p.1 ∈ changed
    · rw [hpublished _ hmem, (hmanaged p hp).2]
      exact hstill _ (by simp)
    · rw [hothers _ hmem]
      exact hequal p hp hmem
  · obtain ⟨body, hbody, hsaved⟩ := hv.saved name hpresent
    exact ⟨body, (hdests name).symm.trans hbody, (ht.saved ..).trans hsaved⟩
  · exact fun name hmem hnot => (hdests name).symm.trans (hv.absent name hmem hnot)

/-- An activation publishes the candidate, or everything is as before. -/
theorem activateAfter_spec [DecidableEq β] :
    wp step (fun _ => True) (activateAfter store candidate validate).run
      (either (fun receipt t => Activated store candidate s receipt t)
        fun e t => e.restored → Untouched s t) s := by
  rw [activateAfter, wp_run_bind]
  refine validateCandidate_spec trivial (fun hmanaged => ?_) fun e _ _ => rfl
  rw [either_ok, wp_run_bind]
  refine changedNames_spec (fun changed hsub hequal => ?_) fun e _ _ => rfl
  rw [either_ok]
  split
  · next hnil =>
    subst hnil
    exact ⟨rfl, by simp, fun p hp => hequal p hp (by simp), fun _ _ => rfl, by simp, by simp⟩
  · exact activateChanged_spec hmanaged hsub hequal (fun _ _ h => h) fun _ _ h => h

end SbGateway.RuntimeConfig.Candidates
