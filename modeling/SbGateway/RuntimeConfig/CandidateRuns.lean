import SbGateway.RuntimeConfig.CandidateActivation

namespace SbGateway.RuntimeConfig.Candidates

open Lib
open Lib.Calls

/-!
# Activation and rollback

An activation publishes the whole candidate or nothing, and its receipt is good for a rollback
until another candidate is prepared or activated.

* `afterAll_shrinks` — the other operations remove saved files at most;
* `rollbackAfter_working` — on a working disk a rollback right after the activation succeeds;
* `activation_all_or_nothing` — what holds of every run.
-/

variable {β : Type} {s t start : Files (Content β)} {store : CandidateStore}
  {receipt : ActivationReceipt}

/-! ### Operations in between -/

/-- Saved files are as they were, or gone. -/
def SavedShrinks (s t : Files (Content β)) : Prop :=
  ∀ revision name, t (.saved revision name) = s (.saved revision name) ∨
    t (.saved revision name) = .absent

theorem SavedShrinks.refl (s : Files (Content β)) : SavedShrinks s s := fun _ _ => .inl rfl

theorem SavedShrinks.trans (h : SavedShrinks s t) (h' : SavedShrinks t u) : SavedShrinks s u := by
  intro revision name
  rcases h' revision name with heq | hgone
  · rw [heq]
    exact h revision name
  · exact .inr hgone

theorem Recoverable.shrinks (h : Recoverable start receipt s) (ht : SavedShrinks s t) :
    Recoverable start receipt t := by
  refine fun name hmem => ⟨fun hpresent => ?_, (h name hmem).2⟩
  rcases ht receipt.candidate.revision name with heq | hgone
  · rw [heq]
    exact (h name hmem).1 hpresent
  · exact .inr hgone

theorem RolledBack.shrinks (h : RolledBack receipt s t) : SavedShrinks s t := by
  obtain ⟨u, hu, hshrunk⟩ := h
  intro revision name
  rw [← hu.saved revision name]
  exact hshrunk.2 revision name

/-- The operations of the store that neither prepare nor activate a candidate. -/
inductive Operation where
  | rollback (receipt : ActivationReceipt) (prepare : Bool)
  | commit (candidate : RuntimeCandidate)

section Equality

variable [DecidableEq β]

/-- An operation that ends, or is cut off, after these choices. -/
def Operation.after (store : CandidateStore) (operation : Operation) (choices : List Choice)
    (s : Files (Content β)) : Files (Content β) :=
  match operation with
  | .rollback receipt prepare => ((rollbackAfter store receipt prepare).run step choices s).2
  | .commit candidate => ((commitLastKnownGood store candidate).run.run step choices s).2

/-- Operations one after the other. -/
def afterAll (store : CandidateStore) :
    List (Operation × List Choice) → Files (Content β) → Files (Content β)
  | [], s => s
  | (operation, choices) :: rest, s => afterAll store rest (operation.after store choices s)

/-- The last known good copy is not among the saved files. -/
theorem copyAllChanged_shrinks (hs : SavedShrinks start s)
    (hQ : ∀ r t, SavedShrinks start t → Q r t) :
    wp step (SavedShrinks start) (copyAllChanged files).run Q s := by
  induction files generalizing s with
  | nil => exact hQ _ _ hs
  | cons p files ih =>
    rw [copyAllChanged, wp_run_bind, copyIfChanged, wp_run_bind, wp_orStop]
    refine wp_mono (differs_spec hs) ?_
    rintro r t ⟨rfl, -⟩
    cases r with
    | error e => exact hQ _ _ hs
    | ok changed =>
      rw [Except.mapError, either_ok]
      split
      · rw [wp_orStop]
        refine wp_copyFileAtomic hs fun r t hcopied => ?_
        have ht : SavedShrinks start t := by
          cases hcopied with
          | kept e => exact hs
          | copied r body hbody =>
            exact hs.trans fun revision name => .inl (Files.set_of_ne _ _ (by simp))
        cases r with
        | error e => exact hQ _ _ ht
        | ok u => exact ih ht
      · exact ih hs

theorem commitLastKnownGood_shrinks :
    wp step (SavedShrinks s) (commitLastKnownGood store candidate).run
      (fun _ t => SavedShrinks s t) s := by
  have hs := SavedShrinks.refl s
  rw [commitLastKnownGood, wp_run_bind]
  refine validateCandidate_spec hs (fun _ => ?_) fun _ => hs
  rw [either_ok, wp_run_bind, wp_orStop]
  refine wp_makeDirectory hs fun r => ?_
  cases r with
  | error e => exact hs
  | ok u =>
    rw [Except.mapError, either_ok, wp_run_bind]
    refine copyAllChanged_shrinks hs fun r t ht => ?_
    cases r with
    | error e => exact ht
    | ok u =>
      rw [either_ok, wp_orStop]
      exact wp_removeSaved ht fun r v hv => ht.trans hv.2

theorem Operation.after_shrinks (operation : Operation) (choices : List Choice) :
    SavedShrinks s (operation.after store choices s) := by
  cases operation with
  | rollback receipt prepare =>
    exact wp_inv (rollbackAfter_spec (fun t ht => ht.shrinks) fun r t ht _ => ht.shrinks) choices
  | commit candidate => exact wp_inv commitLastKnownGood_shrinks choices

theorem afterAll_shrinks (operations : List (Operation × List Choice)) :
    SavedShrinks s (afterAll store operations s) := by
  induction operations generalizing s with
  | nil => exact .refl s
  | cons p operations ih => exact (p.1.after_shrinks p.2).trans ih

end Equality

/-! ### A working disk -/

/-- The call does not fail. -/
def Choice.working (choice : Choice) : Prop := choice.ending = .done

theorem forall_working {P : { c : Choice // c.working } → Prop}
    (h : ∀ removed, P ⟨⟨.done, removed⟩, rfl⟩) : ∀ c, P c := by
  rintro ⟨⟨ending, removed⟩, hworking⟩
  have hdone : ending = .done := hworking
  subst hdone
  exact h removed

/-- Everything the receipt names is managed, and its saved files are there. -/
def Restorable (store : CandidateStore) (receipt : ActivationReceipt) (names : List String)
    (s : Files (Content β)) : Prop :=
  ∀ name ∈ names, name ∈ store.destinations ∧ (name ∈ receipt.previousPresent →
    ∃ body, s (.saved receipt.candidate.revision name) = .holds body)

theorem restoreFile_working (h : Restorable store receipt [name] s) :
    wp (restrict step Choice.working) (fun _ => True) (restoreFile store receipt name)
      (fun failures t => failures = [] ∧ OnlyDestinations [name] s t) s := by
  have hset : ∀ f : File β, OnlyDestinations [name] s (s.set (.destination name) f) :=
    fun f => .set (by simp) f
  obtain ⟨hmanaged, hsaved⟩ := h name (by simp)
  unfold restoreFile
  rw [if_neg (not_not.mpr hmanaged)]
  split
  · next hpresent =>
    obtain ⟨body, hbody⟩ := hsaved hpresent
    refine wp_bind.mpr (wp_bind.mpr ⟨trivial, forall_working fun removed => ?_⟩)
    have hreply : (restrict step Choice.working (.file (.read
        (.saved receipt.candidate.revision name))) ⟨⟨.done, removed⟩, rfl⟩ s).1 =
          Except.ok body := by
      show (s (.saved receipt.candidate.revision name)).reply = _
      rw [hbody, File.reply]
    rw [hreply]
    exact ⟨trivial, forall_working fun removed => ⟨rfl, hset _⟩⟩
  · refine wp_bind.mpr ⟨trivial, forall_working fun removed => ?_⟩
    have hreply : (restrict step Choice.working (.file (.remove (.destination name)))
        ⟨⟨.done, removed⟩, rfl⟩ s).1 = (s (.destination name)).gone := rfl
    rw [hreply]
    cases (s (.destination name)) <;> exact ⟨rfl, hset _⟩

theorem restoreFiles_working (h : Restorable store receipt names s) :
    wp (restrict step Choice.working) (fun _ => True) (restoreFiles store receipt names)
      (fun failures _ => failures = []) s := by
  induction names generalizing s with
  | nil => exact rfl
  | cons name names ih =>
    refine wp_bind.mpr (wp_mono (restoreFile_working fun n hn => h n (by simp_all)) ?_)
    rintro failures t ⟨rfl, ht⟩
    have hrest : Restorable store receipt names t := by
      intro n hn
      rw [ht.saved]
      exact h n (by simp [hn])
    refine wp_bind.mpr (wp_mono (ih hrest) ?_)
    rintro failures u rfl
    exact rfl

/-- On a working disk nothing keeps a rollback from its success. -/
theorem rollbackAfter_working (h : Restorable store receipt receipt.changed s) :
    wp (restrict step Choice.working) (fun _ => True) (rollbackAfter store receipt prepare)
      (fun r _ => r = none) s := by
  have hlocked : wp (restrict step Choice.working) (fun _ => True) (rollbackLocked store receipt)
      (fun r _ => r = none) s := by
    refine wp_bind.mpr (wp_mono (restoreFiles_working h) ?_)
    rintro failures t rfl
    exact ⟨trivial, forall_working fun removed => rfl⟩
  unfold rollbackAfter
  split
  · exact ⟨trivial, forall_working fun removed => hlocked⟩
  · exact hlocked

/-! ### Runs -/

/-- A rollback without an error right after other operations. -/
theorem Activated.rollback [DecidableEq β] (h : Activated store candidate start receipt s)
    (operations : List (Operation × List Choice))
    (hrun : (rollbackAfter store receipt prepare).run step choices
      (afterAll store operations s) = (some none, t)) :
    (∀ name ∈ receipt.changed, t (.destination name) = start (.destination name)) ∧
      ∀ name ∉ receipt.changed,
        t (.destination name) = afterAll store operations s (.destination name) := by
  have hspec := of_run_some (rollbackAfter_spec (I := fun _ => True) (fun _ _ => trivial)
    fun r t hrolled hput => (⟨hrolled, hput⟩ : RolledBack receipt _ t ∧ (r = none → _))) hrun
  obtain ⟨⟨u, hu, hshrunk⟩, hput⟩ := hspec
  have hshrinks : SavedShrinks s (afterAll store operations s) := afterAll_shrinks operations
  have hrecoverable := h.recoverable.shrinks hshrinks
  refine ⟨fun name hmem => (hput rfl name hmem).eq_start hrecoverable hmem, fun name hnot => ?_⟩
  rw [hshrunk.destination]
  exact hu _ fun x hx => by rintro ⟨⟩; exact hnot hx

/-- On a working disk a rollback right after the activation brings everything back. -/
theorem Activated.rollback_working
    (h : Activated store candidate start receipt s) (prepare : Bool) (choice : Nat → Choice)
    (hworking : ∀ i, (choice i).working) :
    ∃ n, ∀ k, n ≤ k → ∃ t, (rollbackAfter store receipt prepare).run step
      ((List.range k).map choice) s = (some none, t) ∧ Untouched start t := by
  have hrestorable : Restorable store receipt receipt.changed s := by
    refine fun name hmem => ⟨h.managed name hmem, fun hpresent => ?_⟩
    obtain ⟨body, -, hsaved⟩ := h.saved name hmem hpresent
    exact ⟨body, by rw [h.of, hsaved]⟩
  obtain ⟨n, hn⟩ := returns_of_wp (rollbackAfter_working hrestorable) choice hworking
  refine ⟨n, fun k hk => ?_⟩
  obtain ⟨_, t, hrun, rfl⟩ := hn k hk
  refine ⟨t, hrun, fun name => ?_⟩
  classical
  obtain ⟨hchanged, hothers⟩ := h.rollback [] hrun
  by_cases hmem : name ∈ receipt.changed
  · exact hchanged name hmem
  · exact (hothers name hmem).trans (h.others name hmem)

/-- **All or nothing.** An activation that fails leaves every destination as it was, unless the
    restoration has failed as well; one that succeeds leaves the candidate in place.  With its
    receipt, and after any operations but those that prepare or activate a candidate, a rollback
    that succeeds restores exactly the changed destinations; and right after the activation it
    does succeed on a working disk. -/
theorem activation_all_or_nothing [DecidableEq β] (store : CandidateStore)
    (candidate : RuntimeCandidate) (validate : Bool) (start : Files (Content β))
    (choices : List Choice) :
    (∀ e s, (activateAfter store candidate validate).run.run step choices start =
        (some (.error e), s) → e.restored → Untouched start s) ∧
    ∀ receipt s, (activateAfter store candidate validate).run.run step choices start =
        (some (.ok receipt), s) →
      (∀ p ∈ candidate.files, s (.destination p.1) = start p.2) ∧
      (∀ operations prepare choices' t, (rollbackAfter store receipt prepare).run step choices'
          (afterAll store operations s) = (some none, t) →
        (∀ name ∈ receipt.changed, t (.destination name) = start (.destination name)) ∧
        ∀ name ∉ receipt.changed,
          t (.destination name) = afterAll store operations s (.destination name)) ∧
      ∀ prepare choice, (∀ i, (choice i).working) → ∃ n, ∀ k, n ≤ k → ∃ t,
        (rollbackAfter store receipt prepare).run step ((List.range k).map choice) s =
          (some none, t) ∧ Untouched start t := by
  refine ⟨fun e s hrun => ?_, fun receipt s hrun => ?_⟩
  · have hspec := of_run_some activateAfter_spec hrun
    exact hspec
  · have hspec := of_run_some activateAfter_spec hrun
    have hactivated : Activated store candidate start receipt s := hspec
    exact ⟨hactivated.published, fun operations prepare choices' t =>
      hactivated.rollback operations,
      hactivated.rollback_working⟩

/-! ### A candidate of two files -/

/-- One file is new, and one replaces another. -/
def twoFiles : RuntimeCandidate :=
  let revision := String.ofList (List.replicate 64 'a')
  { revision, directory := .managed revision
    files := [("nginx.conf", .artifact revision "nginx.conf"),
      ("xray.json", .artifact revision "xray.json")]
    nodup := by decide }

def twoDestinations : CandidateStore := ⟨["nginx.conf", "xray.json"]⟩

def twoFilesDisk : Files (Content Nat)
  | .destination name => if name = "xray.json" then .holds 1 else .absent
  | .artifact _ _ => .holds 2
  | _ => .absent

/-- A call that does not fail. -/
def smoothly : Choice := ⟨.done, fun _ => true⟩

/-- The activation of both files, a commit in between that is cut off, and a rollback. -/
theorem twoFiles_all_or_nothing : ∃ receipt s t,
    (activateAfter twoDestinations twoFiles true).run.run step (List.replicate 20 smoothly)
      twoFilesDisk = (some (.ok receipt), s) ∧
    s (.destination "xray.json") = .holds 2 ∧
    (rollbackAfter twoDestinations receipt true).run step (List.replicate 9 smoothly)
      (afterAll twoDestinations [(.commit twoFiles, List.replicate 3 smoothly)] s) =
      (some none, t) ∧
    t (.destination "xray.json") = .holds 1 ∧ t (.destination "nginx.conf") = .absent := by
  have hall := activation_all_or_nothing twoDestinations twoFiles true twoFilesDisk
    (List.replicate 20 smoothly)
  obtain ⟨receipt, s, t, hrun, hrollback, hchanged⟩ : ∃ receipt s t,
      (activateAfter twoDestinations twoFiles true).run.run step (List.replicate 20 smoothly)
        twoFilesDisk = (some (.ok receipt), s) ∧
      (rollbackAfter twoDestinations receipt true).run step (List.replicate 9 smoothly)
        (afterAll twoDestinations [(.commit twoFiles, List.replicate 3 smoothly)] s) =
        (some none, t) ∧
      receipt.changed = ["nginx.conf", "xray.json"] := ⟨_, _, _, rfl, rfl, rfl⟩
  obtain ⟨hpublished, hback, -⟩ := hall.2 receipt s hrun
  have hrestored := (hback _ _ _ t hrollback).1
  refine ⟨receipt, s, t, hrun, ?_, hrollback, ?_, ?_⟩
  · exact hpublished (_, _) (List.mem_of_mem_tail List.mem_cons_self)
  · exact hrestored _ (by simp [hchanged])
  · exact hrestored _ (by simp [hchanged])

end SbGateway.RuntimeConfig.Candidates
