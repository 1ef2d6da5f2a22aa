import SbGateway.ControlPlane.RecoveryKeys
import SbGateway.ControlPlane.RecoveryRewrap

namespace SbGateway.ControlPlane.Recovery

open Lib
open Lib.Calls

/-!
# Backups after a change of the password

What a change of the password leaves behind, for every way its calls can end.

* `Target`, `World.lock` — what is locked with the password, and the wrapper a reader finds there;
* `Rewrapped` — the effect of `rewrapRecoveryProtection`: what it has written is locked with the
  new password, and everything else is as it was;
* `changePassword_usable_iff` — when a failed change leaves every backup usable.
-/

variable {c : Crypto}

/-! ### Locks -/

/-- What is locked with the administrator's password. -/
inductive Target where
  | wrapper
  | archive (name : String)
  deriving DecidableEq, Repr

/-- What the password opens. -/
def World.targets (w : World c) : List Target := .wrapper :: w.retained.map .archive

/-- The wrapper of an archive as a reader finds it. -/
def Archive.lock (archive : Archive c) : Option (KeyWrap c) :=
  match readRecoveryArchivePrefix archive with
  | .ok (_, active) => some active.wrapper
  | .error _ => none

/-- The wrapper that opens a target. -/
def World.lock (w : World c) : Target → Option (KeyWrap c)
  | .wrapper =>
    match w.secrets .keyWrap with
    | .holds wrapper => some wrapper
    | _ => none
  | .archive name => (w.archives name).lock

/-- The password gives the master key. -/
def World.Opens (w : World c) (password : String) (target : Target) : Prop :=
  ∃ wrapper master, w.lock target = some wrapper ∧
    unwrapRecoveryMasterKey wrapper password = .ok master

/-- The wrapper was made with this password. -/
def World.LockedBy (w : World c) (password : String) (target : Target) : Prop :=
  ∃ master salt nonce, w.lock target = some (wrapKey master password salt nonce)

/-- The stored hash is that of a password which opens the wrapper and every retained archive. -/
def World.Usable (w : World c) : Prop :=
  ∃ password salt, w.secrets .adminPasswordHash = .holds (c.makeHash password salt) ∧
    ∀ target ∈ w.targets, w.Opens password target

theorem World.LockedBy.opens (hideal : c.Ideal) {w : World c}
    (h : w.LockedBy password target) (hvalid : validateRecoveryPassword password = none) :
    w.Opens password target := by
  obtain ⟨master, salt, nonce, hlock⟩ := h
  exact ⟨_, master, hlock, unwrap_wrapKey hvalid hideal master salt nonce⟩

theorem World.LockedBy.not_opens (hideal : c.Ideal) {w : World c} (h : w.LockedBy password target)
    (hother : other ≠ password) :
    ¬ w.Opens other target := by
  obtain ⟨master, salt, nonce, hlock⟩ := h
  rintro ⟨wrapper, key, hlock', hunwrap⟩
  rw [hlock] at hlock'
  cases hlock'
  unfold unwrapRecoveryMasterKey at hunwrap
  split at hunwrap
  · cases hunwrap
  · simp [KeyWrap.supported, wrapKey, hideal.decrypt_other _ _ _ _ _ _ hother] at hunwrap

theorem World.lock_congr {w w' : World c} (hsecret : w'.secrets .keyWrap = w.secrets .keyWrap)
    (harchives : w'.archives = w.archives) : w'.lock = w.lock := by
  funext target
  cases target with
  | wrapper => simp only [World.lock, hsecret]
  | archive name => simp only [World.lock, harchives]

@[simp] theorem World.targets_setSecret (w : World c) (ref : Ref) (value : Secret c ref) :
    (w.setSecret ref value).targets = w.targets := rfl

theorem World.lock_setSecret (w : World c) {ref : Ref} (value : Secret c ref)
    (h : Ref.keyWrap ≠ ref) : (w.setSecret ref value).lock = w.lock :=
  World.lock_congr (w.setSecret_of_ne value h) rfl

@[simp] theorem World.lockedBy_setHash (w : World c) (hash : Secret c .adminPasswordHash) :
    (w.setSecret .adminPasswordHash hash).LockedBy = w.LockedBy := by
  unfold World.LockedBy
  rw [World.lock_setSecret _ _ (by simp)]

/-! ### Slots -/

theorem Slot.valid_next (generation : Nat) (master : c.Key) (password : String) (salt : c.Salt)
    (nonce : c.Nonce) : Slot.valid ⟨generation + 1, wrapKey master password salt nonce⟩ = true := by
  simp [Slot.valid, KeyWrap.supported, wrapKey]

variable {archive : Archive c}

/-- The active slot is valid, and the other one is not newer; the first slot wins a draw. -/
theorem readPrefix_eq_ok_iff : readRecoveryArchivePrefix archive = .ok (index, active) ↔
      archive.readable = true ∧ (archive.slots index).filter Slot.valid = some active ∧
      ∀ other, (archive.slots (!index)).filter Slot.valid = some other →
        other.generation < active.generation ∨
          (index = false ∧ other.generation = active.generation) := by
  unfold readRecoveryArchivePrefix
  cases archive.readable with
  | false => simp
  | true =>
    cases index <;> cases hfirst : (archive.slots false).filter Slot.valid <;>
      cases hsecond : (archive.slots true).filter Slot.valid <;>
      simp [activeSlot, hfirst, hsecond] <;> grind

/-- The next generation in the inactive slot becomes the active one. -/
theorem readPrefix_setSlot_next (h : readRecoveryArchivePrefix archive = .ok (index, active))
    (hgeneration : active.generation < record.generation) (hvalid : record.valid = true) :
    readRecoveryArchivePrefix (archive.setSlot (!index) (some record)) =
      .ok (!index, record) := by
  obtain ⟨hreadable, hactive, -⟩ := readPrefix_eq_ok_iff.mp h
  refine readPrefix_eq_ok_iff.mpr ⟨hreadable, by simp [Archive.setSlot, hvalid], ?_⟩
  intro other hother
  have hsame : (archive.setSlot (!index) (some record)).slots (!!index) = archive.slots index := by
    simp [Archive.setSlot]
  rw [hsame, hactive] at hother
  cases hother
  exact .inl hgeneration

/-- A torn inactive slot does not matter. -/
theorem readPrefix_setSlot_torn (h : readRecoveryArchivePrefix archive = .ok (index, active)) :
    readRecoveryArchivePrefix (archive.setSlot (!index) none) = .ok (index, active) := by
  obtain ⟨hreadable, hactive, -⟩ := readPrefix_eq_ok_iff.mp h
  refine readPrefix_eq_ok_iff.mpr ⟨hreadable, by simpa [Archive.setSlot] using hactive, ?_⟩
  intro other hother
  simp [Archive.setSlot] at hother

/-! ### Records -/

/-- What a call locks anew. -/
def Call.relocks : Call c → Option Target
  | .secret (.write .keyWrap _) => some .wrapper
  | .writeSlot name _ _ => some (.archive name)
  | _ => none

/-- The new password is stored. -/
def Call.writesHash : Call c → Bool
  | .secret (.write .adminPasswordHash _) => true
  | _ => false

/-- A write to this target has taken effect. -/
def relocked (h : History c) (target : Target) : Bool :=
  h.any fun entry => entry.1.relocks == some target && entry.2.ending.takesEffect

/-- A write of a hash has taken effect. -/
def hashWritten (h : History c) : Bool :=
  h.any fun entry => entry.1.writesHash && entry.2.ending.takesEffect

@[simp] theorem relocked_nil (target : Target) : relocked ([] : History c) target = false := rfl

@[simp] theorem relocked_append (h h' : History c) (target : Target) :
    relocked (h ++ h') target = (relocked h target || relocked h' target) :=
  List.any_append

@[simp] theorem relocked_cons (entry : Call c × Choice c) (h : History c) (target : Target) :
    relocked (entry :: h) target =
      ((entry.1.relocks == some target && entry.2.ending.takesEffect) || relocked h target) :=
  List.any_cons

@[simp] theorem hashWritten_cons (entry : Call c × Choice c) (h : History c) :
    hashWritten (entry :: h) =
      ((entry.1.writesHash && entry.2.ending.takesEffect) || hashWritten h) :=
  List.any_cons

/-- Everything that was written is locked with the password; the rest is as before. -/
structure Rewrapped (password : String) (w : World c) (h : History c) (w' : World c) : Prop where
  hash : w'.secrets .adminPasswordHash = w.secrets .adminPasswordHash
  retained : w'.retained = w.retained
  noHash : ∀ entry ∈ h, entry.1.writesHash = false
  written : ∀ target, relocked h target = true → target ∈ w.targets ∧ w'.LockedBy password target
  same : ∀ target, relocked h target = false → w'.lock target = w.lock target

namespace Rewrapped

variable {password : String} {w w' w'' : World c} {h h' : History c}

theorem refl (password : String) (w : World c) : Rewrapped password w [] w where
  hash := rfl
  retained := rfl
  noHash _ hmem := nomatch hmem
  written _ hlocked := nomatch hlocked
  same _ _ := rfl

theorem targets (hr : Rewrapped password w h w') : w'.targets = w.targets := by
  rw [World.targets, World.targets, hr.retained]

theorem trans (hr : Rewrapped password w h w') (hr' : Rewrapped password w' h' w'') :
    Rewrapped password w (h ++ h') w'' where
  hash := hr'.hash.trans hr.hash
  retained := hr'.retained.trans hr.retained
  noHash entry hmem := (List.mem_append.mp hmem).elim (hr.noHash entry) (hr'.noHash entry)
  written target hlocked := by
    cases hlast : relocked h' target with
    | true => exact hr.targets ▸ hr'.written target hlast
    | false =>
      -- written by the first part, and left alone by the second
      obtain ⟨hmem, hby⟩ := hr.written target (by simpa [hlast] using hlocked)
      refine ⟨hmem, ?_⟩
      rw [World.LockedBy, hr'.same target hlast]
      exact hby
  same target hnot := by
    rw [relocked_append, Bool.or_eq_false_iff] at hnot
    rw [hr'.same target hnot.2, hr.same target hnot.1]

end Rewrapped

/-! ### Single calls -/

/-- The calls that may change a lock or the hash. -/
def Call.touchesLocks : Call c → Bool
  | .secret (.write .keyWrap _) => true
  | .secret (.write .adminPasswordHash _) => true
  | .secret (.remove _) => true
  | .writeSlot _ _ _ => true
  | _ => false

theorem step_write (ref : Ref) (value : Secret c ref) (choice : Choice c) (w : World c) :
    (step (.secret (.write ref value)) choice w).2 =
      if choice.ending.takesEffect then w.setSecret ref value else w := by
  show ({ w with secrets := if choice.ending.takesEffect then _ else _ } : World c) = _
  split <;> rfl

attribute [local simp] Call.touchesLocks

/-- The other calls leave locks and hash alone. -/
theorem rewrapped_quiet (password : String) {op : Call c} (hop : op.touchesLocks = false)
    (choice : Choice c) (w : World c) :
    Rewrapped password w [(op, choice)] (step op choice w).2 := by
  have hrelocks : op.relocks = none := by
    unfold Call.relocks
    split <;> first | rfl | simp at hop
  have hhash : op.writesHash = false := by
    unfold Call.writesHash
    split <;> first | rfl | simp at hop
  have hnot : ∀ target, relocked [(op, choice)] target = false := by simp [hrelocks]
  -- it is enough that locks, hash and archives stay
  have hstays : ∀ w' : World c, (step op choice w).2 = w' →
      w'.secrets .adminPasswordHash = w.secrets .adminPasswordHash →
      w'.secrets .keyWrap = w.secrets .keyWrap → w'.archives = w.archives →
      w'.retained = w.retained → Rewrapped password w [(op, choice)] (step op choice w).2 := by
    rintro w' rfl h1 h2 h3 h4
    exact ⟨h1, h4, by simpa using hhash, fun target h => by simp [hnot] at h,
      fun target _ => congrFun (World.lock_congr h2 h3) target⟩
  cases op with
  | writeSlot => simp at hop
  | secret request =>
    cases request with
    | read | stat => exact hstays w rfl rfl rfl rfl rfl
    | remove => simp at hop
    | write ref value =>
      have hkeyWrap : Ref.keyWrap ≠ ref := by rintro rfl; simp at hop
      have hne : Ref.adminPasswordHash ≠ ref := by rintro rfl; simp at hop
      refine hstays _ (step_write ref value choice w) ?_ ?_ ?_ ?_ <;> split <;>
        first | rfl | simp [hkeyWrap, hne]
  | _ => exact hstays w rfl rfl rfl rfl rfl

attribute [local simp] Call.relocks

/-- The write of the new wrapper. -/
theorem rewrapped_wrapper (password : String) (master : c.Key) (salt : c.Salt) (nonce : c.Nonce)
    (choice : Choice c) (w : World c) :
    Rewrapped password w [(.secret (.write .keyWrap (wrapKey master password salt nonce)), choice)]
      (step (.secret (.write .keyWrap (wrapKey master password salt nonce))) choice w).2 := by
  rw [step_write]
  cases heffect : choice.ending.takesEffect with
  | false =>
    exact ⟨rfl, rfl, by simp [Call.writesHash], by simp [heffect], fun _ _ => rfl⟩
  | true =>
    rw [if_pos rfl]
    refine ⟨by simp, rfl, by simp [Call.writesHash], ?_, ?_⟩
    · intro target h
      obtain rfl : Target.wrapper = target := by simpa [heffect] using h
      exact ⟨by simp [World.targets], master, salt, nonce, by simp [World.lock]⟩
    · intro target h
      cases target with
      | wrapper => simp [heffect] at h
      | archive name => rfl

/-- The slot that is to be written is the inactive one, and the record is the next one. -/
def Planned (w : World c) (wrapper : KeyWrap c) (plan : RewrapPlan c) : Prop :=
  plan.name ∈ w.retained ∧ ∃ active,
    readRecoveryArchivePrefix (w.archives plan.name) = .ok (!plan.index, active) ∧
    plan.record = ⟨active.generation + 1, wrapper⟩

/-- A write to a slot leaves everything else alone. -/
theorem step_writeSlot_frame (plan : RewrapPlan c) (choice : Choice c) (w : World c) :
    let w' := (step (.writeSlot plan.name plan.index plan.record) choice w).2
    w'.secrets = w.secrets ∧ w'.retained = w.retained ∧
      ∀ name, name ≠ plan.name → w'.archives name = w.archives name := by
  have hset : ∀ slot, (w.setSlot plan.name plan.index slot).secrets = w.secrets ∧
      (w.setSlot plan.name plan.index slot).retained = w.retained ∧
      ∀ name, name ≠ plan.name →
        (w.setSlot plan.name plan.index slot).archives name = w.archives name :=
    fun slot => ⟨rfl, rfl, fun name hname => Function.update_of_ne hname ..⟩
  simp only [step]
  split
  · exact hset _
  · split
    · exact hset _
    · exact ⟨rfl, rfl, fun _ _ => rfl⟩

/-- The write of a slot. -/
theorem rewrapped_slot
    (hplan : Planned w (wrapKey master password salt nonce) plan) (choice : Choice c) :
    Rewrapped password w [(.writeSlot plan.name plan.index plan.record, choice)]
      (step (.writeSlot plan.name plan.index plan.record) choice w).2 := by
  obtain ⟨hmem, active, hactive, hrecord⟩ := hplan
  obtain ⟨hsecrets, hretained, harchives⟩ := step_writeSlot_frame plan choice w
  have hothers : ∀ target, target ≠ .archive plan.name →
      (step (.writeSlot plan.name plan.index plan.record) choice w).2.lock target =
        w.lock target := by
    intro target hne
    cases target with
    | wrapper => simp only [World.lock, hsecrets]
    | archive name =>
      rw [World.lock, World.lock, harchives name fun h => hne (h ▸ rfl)]
  have hlock : (step (.writeSlot plan.name plan.index plan.record) choice w).2.lock
      (.archive plan.name) = if choice.ending.takesEffect then
        some (wrapKey master password salt nonce) else w.lock (.archive plan.name) := by
    show Archive.lock ((if _ then _ else if _ then _ else w : World c).archives plan.name) = _
    split
    · have hnext := readPrefix_setSlot_next hactive (by simp [hrecord] : _ < plan.record.generation)
        (by rw [hrecord]; exact Slot.valid_next ..)
      rw [Bool.not_not] at hnext
      simp only [World.setSlot, Function.update_self, Archive.lock, hnext]
      rw [hrecord]
    · split
      · have htorn := readPrefix_setSlot_torn hactive
        rw [Bool.not_not] at htorn
        simp only [World.setSlot, Function.update_self, World.lock, Archive.lock, htorn, hactive]
      · rfl
  refine ⟨by rw [hsecrets], hretained, by simp [Call.writesHash], ?_, ?_⟩
  · intro target h
    obtain ⟨rfl, heffect⟩ :
      Target.archive plan.name = target ∧ choice.ending.takesEffect = true := by
      simpa using h
    exact ⟨by simp [World.targets, hmem], master, salt, nonce, by rw [hlock, if_pos heffect]⟩
  · intro target h
    rcases eq_or_ne target (.archive plan.name) with rfl | hne
    · rw [hlock, if_neg (by simpa using h)]
    · exact hothers target hne

/-! ### Programs -/

section Programs

variable {password : String} {w : World c} {α β : Type}

/-- The program rewraps with this password; `R` says what else is known of its result. -/
def Rewraps (password : String) (program : Program c α) (w : World c)
    (R : α → World c → History c → Prop) : Prop :=
  wpTrace step (fun _ _ => True) program (fun a w' h => Rewrapped password w h w' ∧ R a w' h) w

theorem Rewraps.pure {a : α} (h : R a w []) : Rewraps password (pure a) w R :=
  ⟨.refl _ _, h⟩

variable {program : Program c α}

theorem Rewraps.bind {R' : β → World c → History c → Prop} (h : Rewraps password program w R)
    (hnext : ∀ a w' calls, Rewrapped password w calls w' → R a w' calls →
      Rewraps password (next a) w' fun b w'' later => R' b w'' (calls ++ later)) :
    Rewraps password (program >>= next) w R' := by
  refine wpTrace_bind.mpr (wpTrace_mono h fun a w' calls ha => ?_)
  refine wpTrace_mono (hnext a w' calls ha.1 ha.2) fun b w'' later hb => ?_
  exact ⟨ha.1.trans hb.1, hb.2⟩

variable {R : Except Err α → World c → History c → Prop}
  {R' : Except Err β → World c → History c → Prop}

/-- The rule for code that stops at its first error. -/
theorem Rewraps.run_bind {next : α → Action c β} (h : Rewraps password action.run w R)
    (herr : ∀ e w' calls, R (.error e) w' calls → R' (.error e) w' calls)
    (hok : ∀ a w' calls, Rewrapped password w calls w' → R (.ok a) w' calls →
      Rewraps password (next a).run w' fun b w'' later => R' b w'' (calls ++ later)) :
    Rewraps password (action >>= next).run w R' := by
  refine wpTrace_run_bind.mpr (wpTrace_mono h fun r w' calls hr => ?_)
  cases r with
  | error e => exact ⟨hr.1, herr e w' calls hr.2⟩
  | ok a =>
    refine wpTrace_mono (hok a w' calls hr.1 hr.2) fun b w'' later hb => ?_
    exact ⟨hr.1.trans hb.1, hb.2⟩

/-- The rule for an attempt, which cannot stop the code. -/
theorem Rewraps.lift_bind {next : α → Action c β} {R : α → World c → History c → Prop}
    (h : Rewraps password program w R)
    (hnext : ∀ a w' calls, Rewrapped password w calls w' → R a w' calls →
      Rewraps password (next a).run w' fun b w'' later => R' b w'' (calls ++ later)) :
    Rewraps password (ExceptT.lift program >>= next).run w R' := by
  have hlift : Rewraps password (ExceptT.lift program : Action c α).run w
      fun r w' calls => ∃ a, r = .ok a ∧ R a w' calls := by
    refine .bind h fun a w' calls _ ha => .pure ⟨a, rfl, ?_⟩
    rw [List.append_nil]
    exact ha
  refine .run_bind hlift (fun e w' calls h => ?_) fun a w' calls hr ha => ?_
  · obtain ⟨a, heq, -⟩ := h
    cases heq
  · obtain ⟨a', heq, ha'⟩ := ha
    cases heq
    exact hnext a w' calls hr ha'

theorem Rewraps.mono {R R' : α → World c → History c → Prop}
    (h : Rewraps password program w R) (hR : ∀ a w' calls, R a w' calls → R' a w' calls) :
    Rewraps password program w R' :=
  wpTrace_mono h fun a w' calls ha => ⟨ha.1, hR a w' calls ha.2⟩

theorem Rewraps.orStop {program : Program c (Except FileError α)}
    (h : Rewraps password program w fun r => R (r.mapError .file)) :
    Rewraps password (orStop program).run w R := by
  refine Rewraps.bind h fun r w' calls _ hr => .pure ?_
  rw [List.append_nil]
  exact hr

theorem Rewraps.inContext
    (h : Rewraps password action.run w fun r => R (r.mapError (.wrapped context))) :
    Rewraps password (inContext context action).run w R := by
  refine Rewraps.bind h fun r w' calls _ hr => .pure ?_
  rw [List.append_nil]
  exact hr

theorem Rewraps.quiet (hop : op.touchesLocks = false) {R : Reply op → World c → History c → Prop}
    (hR : ∀ choice, R (step op choice w).1 (step op choice w).2 [(op, choice)]) :
    Rewraps password (perform op) w R :=
  ⟨trivial, fun choice => ⟨rewrapped_quiet password hop choice w, hR choice⟩⟩

theorem wrapRecoveryMasterKey_rewraps (master : c.Key) :
    Rewraps password (wrapRecoveryMasterKey master password).run w fun r w' _ => w' = w ∧
      ∀ wrapper, r = .ok wrapper → ∃ salt nonce, wrapper = wrapKey master password salt nonce := by
  unfold wrapRecoveryMasterKey
  split
  · exact .pure ⟨rfl, nofun⟩
  · have hsalt : Rewraps password (inContext "generate recovery salt" (orStop randomSalt)).run w
        fun _ w' _ => w' = w := .inContext (.orStop (.quiet rfl fun _ => rfl))
    refine .run_bind hsalt (fun e w' calls h => ⟨h, nofun⟩) ?_
    rintro salt w' calls - rfl
    have hnonce : Rewraps password (inContext "generate recovery nonce" (orStop randomNonce)).run w'
        fun _ w'' _ => w'' = w' := .inContext (.orStop (.quiet rfl fun _ => rfl))
    refine .run_bind hnonce (fun e w' calls h => ⟨h, nofun⟩) ?_
    rintro nonce w' calls' - rfl
    exact .pure ⟨rfl, fun wrapper h => ⟨salt, nonce, by cases h; rfl⟩⟩

variable {master : c.Key}

theorem planArchive_planned (hname : name ∈ w.retained)
    (h : planArchive master wrapper name (w.archives name) = .ok plan) :
    plan.name = name ∧ Planned w wrapper plan := by
  unfold planArchive at h
  split at h
  · cases h
  · next index active hactive =>
    split at h
    · cases h
    · split at h
      · cases h
      · cases h
        exact ⟨rfl, hname, active, by simpa using hactive, rfl⟩

/-- A plan is made for every archive that is listed, from what is read there. -/
theorem planArchives_rewraps {wrapper : KeyWrap c} (names : List String)
    (hnames : ∀ name ∈ names, name ∈ w.retained) :
    Rewraps password (planArchives master wrapper names).run w fun r w' _ => w' = w ∧
      ∀ plans, r = .ok plans →
        plans.map (·.name) = names ∧ ∀ plan ∈ plans, Planned w wrapper plan := by
  induction names with
  | nil =>
    refine .pure ⟨rfl, fun plans h => ?_⟩
    cases h
    exact ⟨rfl, by simp⟩
  | cons name names ih =>
    have hread : Rewraps password (inContext s!"retained recovery archive {name} is invalid"
        (orStop (readArchive name))).run w fun r w' _ => w' = w ∧
          ∀ archive, r = .ok archive → archive = w.archives name := by
      refine .inContext (.orStop (.quiet rfl fun choice => ⟨rfl, fun archive h => ?_⟩))
      rcases choice with ⟨_ | _ | _, _⟩ <;> cases h
      rfl
    refine .run_bind hread (fun e w' calls h => ⟨h.1, nofun⟩) ?_
    rintro archive w' calls - ⟨rfl, harchive⟩
    obtain rfl := harchive archive rfl
    cases hplan : planArchive master wrapper name (w'.archives name) with
    | error e => exact .pure ⟨rfl, nofun⟩
    | ok plan =>
      show Rewraps password (planArchives master wrapper names >>= fun plans =>
        pure (plan :: plans) : Action c (List (RewrapPlan c))).run w' _
      refine .run_bind (ih fun n hn => hnames n (List.mem_cons_of_mem _ hn))
        (fun e w' calls h => ⟨h.1, nofun⟩) ?_
      rintro plans w'' calls' - ⟨rfl, hplans⟩
      obtain ⟨hmap, hall⟩ := hplans plans rfl
      refine .pure ⟨rfl, fun result h => ?_⟩
      cases h
      obtain ⟨hname, hplanned⟩ := planArchive_planned (hnames name List.mem_cons_self) hplan
      refine ⟨by rw [List.map_cons, hname, hmap], fun p hp => ?_⟩
      rcases List.mem_cons.mp hp with rfl | hp
      · exact hplanned
      · exact hall p hp

/-- The slots are written one after the other; each plan stays good until its turn. -/
theorem writePlans_rewraps {nonce : c.Nonce}
    (plans : List (RewrapPlan c)) (hnames : (plans.map (·.name)).Nodup)
    (hplans : ∀ plan ∈ plans, Planned w (wrapKey master password salt nonce) plan) :
    Rewraps password (writePlans plans).run w fun r _ h => r = .ok () →
      ∀ plan ∈ plans, relocked h (.archive plan.name) = true := by
  induction plans generalizing w with
  | nil => exact .pure (by simp)
  | cons plan plans ih =>
    have hwrite : Rewraps password (inContext s!"update retained recovery archive {plan.name}"
        (orStop (writeRecoveryWrapperSlot plan))).run w fun r w' h =>
          (r = .ok () → relocked h (.archive plan.name) = true) ∧ w'.retained = w.retained ∧
            ∀ name, name ≠ plan.name → w'.archives name = w.archives name := by
      refine .inContext (.orStop ⟨trivial, fun choice => ?_⟩)
      obtain ⟨-, hretained, harchives⟩ := step_writeSlot_frame plan choice w
      refine ⟨rewrapped_slot (hplans plan List.mem_cons_self) choice, fun hok => ?_, hretained,
        harchives⟩
      rcases choice with ⟨_ | _ | _, _⟩
      · simp [Ending.takesEffect]
      · cases hok
      · cases hok
    refine .run_bind hwrite (by simp) ?_
    rintro _ w' calls - ⟨hwritten, hretained, harchives⟩
    rw [List.map_cons, List.nodup_cons] at hnames
    refine (ih hnames.2 fun p hp => ?_).mono fun r w'' later hlater hok p hp => ?_
    · -- the other archives are as they were when they were read
      have hne : p.name ≠ plan.name := fun h => hnames.1 (h ▸ List.mem_map_of_mem hp)
      obtain ⟨hmem, active, hactive, hrecord⟩ := hplans p (List.mem_cons_of_mem _ hp)
      exact ⟨hretained ▸ hmem, active, by rw [harchives _ hne, hactive], hrecord⟩
    · rw [relocked_append, Bool.or_eq_true]
      rcases List.mem_cons.mp hp with rfl | hp
      · exact .inl (hwritten rfl)
      · exact .inr (hlater hok p hp)

/-- The wrapper in the secret store comes last. -/
theorem rewrapSecrets_rewraps (current : String) (master : c.Key) (salt : c.Salt)
    (nonce : c.Nonce) :
    Rewraps password (rewrapSecrets current password (wrapKey master password salt nonce)).run w
      fun r _ h => r = .ok () → relocked h .wrapper = true := by
  have hbackup : ∀ (value : String) (w : World c), Rewraps password
      (writeSecret .backupPassword value true).run w fun _ _ _ => True := by
    intro value w
    rw [writeSecret]
    split
    · exact .pure trivial
    · exact .orStop (.quiet rfl fun _ => trivial)
  refine .run_bind (hbackup password w) (by simp) ?_
  rintro _ w' calls - -
  have hwrap : Rewraps password (writeSecret .keyWrap (wrapKey master password salt nonce) true).run
      w' fun r _ h => r = .ok () → relocked h .wrapper = true := by
    refine .orStop ⟨trivial, fun choice =>
      ⟨rewrapped_wrapper password master salt nonce choice w', ?_⟩⟩
    rcases choice with ⟨_ | _ | _, _⟩ <;> intro hok
    · simp [Ending.takesEffect]
    · cases hok
    · cases hok
  refine .lift_bind hwrap fun r w'' later _ hr => ?_
  cases r with
  | ok _ => exact .pure fun _ => by simpa using .inr (hr rfl)
  | error e => exact .lift_bind (hbackup current w'') fun _ _ _ _ _ => .pure (by simp)

theorem rewrapAll_rewraps (master : c.Key) (current : String) :
    Rewraps password (rewrapAll master current password).run w fun r _ h =>
      ∀ names, r = .ok names → ∀ target ∈ w.targets, relocked h target = true := by
  refine .run_bind (wrapRecoveryMasterKey_rewraps master) nofun ?_
  rintro wrapper w' calls - ⟨rfl, hwrapper⟩
  obtain ⟨salt, nonce, rfl⟩ := hwrapper wrapper rfl
  have hlist : Rewraps password (inContext "list recovery archives" (orStop listArchives)).run w'
      fun r w'' _ => w'' = w' ∧ ∀ names, r = .ok names → names = w'.retained := by
    refine .inContext (.orStop (.quiet rfl fun choice => ⟨rfl, fun names h => ?_⟩))
    rcases choice with ⟨_ | _ | _, _⟩ <;> cases h
    rfl
  refine .run_bind hlist nofun ?_
  rintro names w'' calls' - ⟨rfl, hnames⟩
  obtain rfl := hnames names rfl
  refine .run_bind (planArchives_rewraps w''.retained fun _ h => h)
    nofun ?_
  rintro plans w''' calls'' - ⟨rfl, hplans⟩
  obtain ⟨hmap, hplanned⟩ := hplans plans rfl
  refine .run_bind (writePlans_rewraps plans (hmap ▸ w'''.distinct) hplanned)
    nofun ?_
  rintro _ x later - hslots
  refine .run_bind (rewrapSecrets_rewraps current master salt nonce)
    nofun ?_
  rintro _ y last - hwrap
  refine .pure fun names _ target htarget => ?_
  simp only [relocked_append, Bool.or_eq_true]
  rcases List.mem_cons.mp htarget with rfl | harchive
  · exact .inr (.inr (.inr (.inr (.inl (hwrap rfl)))))
  · obtain ⟨name, hname, rfl⟩ := List.mem_map.mp harchive
    rw [← hmap] at hname
    obtain ⟨plan, hplan, rfl⟩ := List.mem_map.mp hname
    exact .inr (.inr (.inr (.inl (hslots rfl plan hplan))))

/-- What a call rewraps is locked with the new password, and a successful call rewraps all. -/
theorem rewrapRecoveryProtection_rewraps (current : String) :
    Rewraps password (rewrapRecoveryProtection current password).run w fun r _ h =>
      ∀ names, r = .ok names → ∀ target ∈ w.targets, relocked h target = true := by
  have hread : ∀ (ref : Ref) (w : World c), Rewraps password (readRequired ref).run w
      fun _ w' _ => w' = w := fun _ _ => .orStop (.quiet rfl fun _ => rfl)
  unfold rewrapRecoveryProtection
  split
  · exact .pure nofun
  refine .run_bind (hread _ w) nofun ?_
  rintro master w' calls - rfl
  refine .run_bind (hread _ w') nofun ?_
  rintro wrapper w'' calls' - rfl
  cases hcheck : checkCurrent master wrapper current with
  | error e => exact .pure nofun
  | ok _ =>
    show Rewraps password (rewrapAll master current password).run w'' _
    refine (rewrapAll_rewraps master current).mono fun r x later hall names hok target htarget => ?_
    simp only [relocked_append, Bool.or_eq_true]
    exact .inr (.inr (hall names hok target htarget))

end Programs

/-! ### The handler -/

/-- The first write of a hash, and what comes after it. -/
def afterHash : History c → Option (Choice c × History c)
  | [] => none
  | entry :: h => if entry.1.writesHash then some (entry.2, h) else afterHash h

theorem afterHash_append (h' : History c)
    (hno : ∀ entry ∈ h, entry.1.writesHash = false) : afterHash (h ++ h') = afterHash h' := by
  induction h with
  | nil => rfl
  | cons entry h ih =>
    rw [List.cons_append, afterHash, if_neg (by simp [hno entry List.mem_cons_self])]
    exact ih fun e he => hno e (List.mem_cons_of_mem _ he)

/-- Before the hash is written, nothing may have been rewrapped.  After that, everything must be
    rewrapped again if the old hash is in effect, and nothing if the new one is. -/
def undamaged (targets : List Target) (h : History c) : Bool :=
  match afterHash h with
  | none => targets.all fun target => !relocked h target
  | some (choice, later) =>
    if choice.ending.takesEffect && !hashWritten later then
      targets.all fun target => !relocked later target
    else targets.all fun target => relocked later target

section Handler

variable {w w' : World c} {current new : String} {h : History c} {salt : c.Salt}

theorem usable_iff (hideal : c.Ideal)
    (hhash : w.secrets .adminPasswordHash = .holds (c.makeHash password salt)) :
    w.Usable ↔ ∀ target ∈ w.targets, w.Opens password target := by
  refine ⟨?_, fun h => ⟨password, salt, hhash, h⟩⟩
  rintro ⟨password', salt', hhash', hopens⟩
  rw [hhash] at hhash'
  -- two passwords with one hash are the same
  have hverify : c.verify password' (c.makeHash password salt) = true := by
    rw [File.holds.inj hhash']
    exact (hideal.verify_iff ..).mpr rfl
  rw [← (hideal.verify_iff ..).mp hverify]
  exact hopens

theorem not_usable_of_lockedBy (hideal : c.Ideal) {password other : String}
    (hhash : w.secrets .adminPasswordHash = .holds (c.makeHash password salt))
    (hmem : target ∈ w.targets) (hlocked : w.LockedBy other target) (hne : password ≠ other) :
    ¬ w.Usable := fun husable =>
  hlocked.not_opens hideal hne ((usable_iff hideal hhash).mp husable target hmem)

/-- What is locked with either of two passwords opens with one of them exactly if it is locked
    with that one. -/
theorem opens_iff_of_locked (hideal : c.Ideal) {password other : String}
    (hvalid : validateRecoveryPassword password = none) (hne : password ≠ other)
    (hyes : b = true → w.LockedBy password target) (hno : b = false → w.LockedBy other target) :
    w.Opens password target ↔ b = true := by
  cases b with
  | true => exact iff_of_true ((hyes rfl).opens hideal hvalid) rfl
  | false => exact iff_of_false ((hno rfl).not_opens hideal hne) (by simp)

/-- After a change that stopped before the hash. -/
theorem usable_before_hash (hideal : c.Ideal) (hr : Rewrapped new w h w')
    (hopens : ∀ target ∈ w.targets, w.Opens current target) (hne : current ≠ new)
    (hhash : w.secrets .adminPasswordHash = .holds (c.makeHash current salt)) :
    w'.Usable ↔ undamaged w.targets h = true := by
  have hafter : afterHash h = none := by
    rw [← List.append_nil h, afterHash_append [] hr.noHash]
    rfl
  rw [usable_iff hideal (hr.hash.trans hhash), hr.targets, undamaged, hafter]
  simp only [List.all_eq_true, Bool.not_eq_eq_eq_not, Bool.not_true]
  refine forall₂_congr fun target hmem => ?_
  cases hwritten : relocked h target with
  | true => exact iff_of_false ((hr.written target hwritten).2.not_opens hideal hne) (by simp)
  | false =>
    refine iff_of_true ?_ rfl
    rw [World.Opens, hr.same target hwritten]
    exact hopens target hmem

theorem writeSecret_trace (hvalue : storable ref value = true)
    {Q : Except Err Unit → World c → History c → Prop}
    (hQ : ∀ choice, Q (choice.ending.confirm.mapError .file)
      (if choice.ending.takesEffect then w.setSecret ref value else w)
      [(.secret (.write ref value), choice)]) :
    wpTrace step (fun _ _ => True) (writeSecret ref value true).run Q w := by
  rw [writeSecret, if_neg (by simp [hvalue]), if_pos rfl]
  refine ⟨trivial, fun choice => ?_⟩
  have hstep := hQ choice
  rw [← step_write] at hstep
  exact hstep

/-- What holds after the hash was to be written, from the writes of a hash that took effect and
    the calls that followed. -/
structure Ended (new : String) (targets : List Target) (r : Option RequestFailure)
    (w : World c) (newHash : Bool) (h : History c) : Prop where
  success : r = none → (∃ salt, w.secrets .adminPasswordHash = .holds (c.makeHash new salt)) ∧
    ∀ target ∈ w.targets, w.Opens new target
  failure : ∀ e, r = some e → (w.Usable ↔
    (if newHash then targets.all fun target => !relocked h target
      else targets.all (relocked h)) = true)

theorem hashWritten_eq_false (hr : Rewrapped new w h w') : hashWritten h = false := by
  rw [hashWritten, List.any_eq_false]
  intro entry hmem
  simp [hr.noHash entry hmem]

section Undo

variable (hideal : c.Ideal) (hne : current ≠ new)
  (hcurrent : validateRecoveryPassword current = none)
  (hnew : validateRecoveryPassword new = none)
include hideal hne hcurrent hnew

/-- After an attempt to undo a complete change, it is enough to look at one of the passwords. -/
theorem usable_after_undo (hr : Rewrapped current w h w')
    (hlocked : ∀ target ∈ w.targets, w.LockedBy new target) (newHash : Bool)
    (hhash : ∃ salt, w.secrets .adminPasswordHash =
      .holds (c.makeHash (if newHash then new else current) salt)) :
    w'.Usable ↔ (if newHash then w.targets.all fun target => !relocked h target
      else w.targets.all (relocked h)) = true := by
  obtain ⟨salt, hhash⟩ := hhash
  have hold : ∀ target, relocked h target = true → w'.LockedBy current target :=
    fun target hyes => (hr.written target hyes).2
  have hkept : ∀ target ∈ w.targets, relocked h target = false → w'.LockedBy new target := by
    intro target hmem hnot
    rw [World.LockedBy, hr.same target hnot]
    exact hlocked target hmem
  rw [usable_iff hideal (hr.hash.trans hhash), hr.targets]
  cases newHash with
  | false =>
    rw [if_neg Bool.false_ne_true, if_neg Bool.false_ne_true, List.all_eq_true]
    exact forall₂_congr fun target hmem =>
      opens_iff_of_locked hideal hcurrent hne (hold target) (hkept target hmem)
  | true =>
    rw [if_pos rfl, if_pos rfl, List.all_eq_true]
    refine forall₂_congr fun target hmem =>
      opens_iff_of_locked hideal hnew (Ne.symm hne) (fun h => ?_) fun h => ?_
    · exact hkept target hmem (by simpa using h)
    · exact hold target (by simpa using h)

/-- The end of a change that fails. -/
theorem undo_trace (hlocked : ∀ target ∈ w.targets, w.LockedBy new target) (newHash : Bool)
    (hhash : ∃ salt, w.secrets .adminPasswordHash =
      .holds (c.makeHash (if newHash then new else current) salt)) :
    wpTrace step (fun _ _ => True) (do
        let _ ← (rewrapRecoveryProtection (c := c) new current).run
        return some internalError)
      (fun r w' h => Ended new w.targets r w' newHash h ∧ hashWritten h = false) w := by
  refine wpTrace_bind.mpr (wpTrace_mono (rewrapRecoveryProtection_rewraps new) ?_)
  rintro r w' h ⟨hr, -⟩
  refine ⟨⟨(nomatch ·), fun _ _ => ?_⟩, ?_⟩
  · rw [List.append_nil]
    exact usable_after_undo hideal hne hcurrent hnew hr hlocked newHash hhash
  · rw [List.append_nil]
    exact hashWritten_eq_false hr

/-- The end of a change, with the new hash stored. -/
theorem storeSigningKey_trace (key : c.Key)
    (hlocked : ∀ target ∈ w.targets, w.LockedBy new target) (salt salt' : c.Salt)
    (hhash : w.secrets .adminPasswordHash = .holds (c.makeHash new salt')) :
    wpTrace step (fun _ _ => True) (storeSigningKey (c.makeHash current salt) key current new)
      (fun r w' h => Ended new w.targets r w' (!hashWritten h) h) w := by
  refine wpTrace_bind.mpr (writeSecret_trace rfl fun choice => ?_)
  have hsigned := rewrapped_quiet new
    (rfl : (Call.secret (.write .sessionSigningKey key)).touchesLocks = false) choice w
  rw [step_write] at hsigned
  generalize (if choice.ending.takesEffect then w.setSecret .sessionSigningKey key else w) = w₁
    at hsigned ⊢
  have hlocked₁ : ∀ target ∈ w₁.targets, w₁.LockedBy new target := by
    intro target hmem
    rw [World.LockedBy, hsigned.same target (by simp)]
    exact hlocked target (hsigned.targets ▸ hmem)
  have hhash₁ := hsigned.hash.trans hhash
  cases hreply : choice.ending.confirm with
  | ok _ =>
    refine ⟨fun _ => ⟨⟨salt', hhash₁⟩, fun target hmem => ?_⟩, nofun⟩
    exact (hlocked₁ target hmem).opens hideal hnew
  | error e =>
    refine wpTrace_bind.mpr (writeSecret_trace rfl fun choice' => ?_)
    cases heffect : choice'.ending.takesEffect with
    | true =>
      -- the old hash is back
      rw [if_pos rfl]
      refine wpTrace_mono (undo_trace hideal hne hcurrent hnew
        (by simpa using hlocked₁) false ⟨salt, by simp⟩) fun r w' h hended => ⟨hended.1.success, ?_⟩
      intro e he
      rw [hended.1.failure e he, World.targets_setSecret, hsigned.targets]
      simp [Call.writesHash, heffect, hended.2]
    | false =>
      rw [if_neg (by simp)]
      refine wpTrace_mono (undo_trace hideal hne hcurrent hnew hlocked₁ true
        ⟨salt', hhash₁⟩) fun r w' h hended => ⟨hended.1.success, ?_⟩
      intro e he
      rw [hended.1.failure e he, hsigned.targets]
      simp [Call.writesHash, heffect, hended.2]

/-- The end of a change, with everything rewrapped. -/
theorem storeHash_trace (key : c.Key)
    (hlocked : ∀ target ∈ w.targets, w.LockedBy new target) (salt salt' : c.Salt)
    (hhash : w.secrets .adminPasswordHash = .holds (c.makeHash current salt)) :
    wpTrace step (fun _ _ => True)
      (storeHash (c.makeHash current salt) (c.makeHash new salt') key current new)
      (fun r w' h => ∃ choice later, afterHash h = some (choice, later) ∧
        Ended new w.targets r w' (choice.ending.takesEffect && !hashWritten later) later) w := by
  refine wpTrace_bind.mpr (writeSecret_trace rfl fun choice => ?_)
  have hset : ∀ target ∈ (w.setSecret .adminPasswordHash (c.makeHash new salt')).targets,
      (w.setSecret .adminPasswordHash (c.makeHash new salt')).LockedBy new target := by
    simpa using hlocked
  have hrecord : ∀ later : History c, afterHash ([(.secret (.write .adminPasswordHash
      (c.makeHash new salt')), choice)] ++ later) = some (choice, later) := fun _ => rfl
  -- a failed write is undone, whether it took effect or not
  cases hending : choice.ending with
  | done =>
    refine wpTrace_mono (storeSigningKey_trace hideal hne hcurrent hnew key hset salt salt'
      (by simp)) fun r w' later hended => ⟨choice, later, hrecord later, ?_⟩
    rw [hending]
    exact hended
  | refused =>
    refine wpTrace_mono (undo_trace hideal hne hcurrent hnew hlocked false ⟨salt, hhash⟩)
      fun r w' later hended => ⟨choice, later, hrecord later, ?_⟩
    rw [hending]
    exact hended.1
  | lost =>
    refine wpTrace_mono (undo_trace hideal hne hcurrent hnew hset true ⟨salt', by simp⟩)
      fun r w' later hended => ⟨choice, later, hrecord later, ?_⟩
    rw [hending, hended.2]
    exact hended.1

end Undo

/-- The result of a change, from all its calls. -/
structure Changed (new : String) (targets : List Target) (r : Option RequestFailure)
    (w : World c) (h : History c) : Prop where
  success : r = none → (∃ salt, w.secrets .adminPasswordHash = .holds (c.makeHash new salt)) ∧
    ∀ target ∈ w.targets, w.Opens new target
  failure : ∀ e, r = some e → (w.Usable ↔ undamaged targets h = true)

theorem applyPassword_trace (hideal : c.Ideal) (hne : current ≠ new)
    (hnew : validateRecoveryPassword new = none) (salt : c.Salt)
    (hhash : w.secrets .adminPasswordHash = .holds (c.makeHash current salt))
    (hopens : ∀ target ∈ w.targets, w.Opens current target) :
    wpTrace step (fun _ _ => True) (applyPassword (c.makeHash current salt) current new)
      (fun r w' h => Changed new w.targets r w' h) w := by
  have hrandom : Rewraps new (newCredentials (c := c)).run w fun _ _ _ => True := by
    refine .run_bind (R := fun _ _ _ => True) (.orStop (.quiet rfl fun _ => trivial))
      (fun _ _ _ h => h) fun salt w' calls _ _ => ?_
    refine .run_bind (R := fun _ _ _ => True) (.orStop (.quiet rfl fun _ => trivial))
      (fun _ _ _ h => h) fun key w' calls _ _ => ?_
    exact .run_bind (R := fun _ _ _ => True) (.orStop (.quiet rfl fun _ => trivial))
      (fun _ _ _ h => h) fun _ _ _ _ _ => .pure trivial
  refine wpTrace_bind.mpr (wpTrace_mono hrandom ?_)
  rintro (e | ⟨salt', key⟩) w₁ h₁ ⟨hr₁, -⟩
  · refine ⟨(nomatch ·), fun _ _ => ?_⟩
    rw [List.append_nil]
    exact usable_before_hash hideal hr₁ hopens hne hhash
  refine wpTrace_bind.mpr (wpTrace_mono (rewrapRecoveryProtection_rewraps current) ?_)
  rintro (e | names) w₂ h₂ ⟨hr₂, hall⟩
  · refine ⟨(nomatch ·), fun _ _ => ?_⟩
    rw [List.append_nil]
    exact usable_before_hash hideal (hr₁.trans hr₂) hopens hne hhash
  -- everything is rewrapped
  have hlocked : ∀ target ∈ w₂.targets, w₂.LockedBy new target := fun target hmem =>
    (hr₂.written target (hall names rfl target (hr₂.targets ▸ hmem))).2
  have hcurrent : validateRecoveryPassword current = none := by
    obtain ⟨wrapper, master, -, hunwrap⟩ := hopens .wrapper (by simp [World.targets])
    cases hvalid : validateRecoveryPassword current with
    | none => rfl
    | some e => simp [unwrapRecoveryMasterKey, hvalid] at hunwrap
  have hr := hr₁.trans hr₂
  refine wpTrace_mono (storeHash_trace hideal hne hcurrent hnew key hlocked salt salt'
    (hr.hash.trans hhash)) ?_
  rintro r w' h ⟨choice, later, hafter, hended⟩
  refine ⟨hended.success, fun e he => ?_⟩
  rw [hended.failure e he, undamaged, ← List.append_assoc, afterHash_append h hr.noHash, hafter,
    hr.targets]

/-- A request that is refused has changed nothing. -/
theorem changed_refused (salt : c.Salt)
    (hhash : w.secrets .adminPasswordHash = .holds (c.makeHash current salt))
    (hopens : ∀ target ∈ w.targets, w.Opens current target) (choice : Choice c)
    (failure : RequestFailure) :
    Changed new w.targets (some failure) w [(.secret (.read .adminPasswordHash), choice)] := by
  refine ⟨(nomatch ·), fun _ _ => iff_of_true ⟨current, salt, hhash, hopens⟩ ?_⟩
  simp [undamaged, afterHash, Call.writesHash]

theorem undamaged_read (targets : List Target) (ref : Ref) (choice : Choice c) (h : History c) :
    undamaged targets ((.secret (.read ref), choice) :: h) = undamaged targets h := by
  have hafter : afterHash ((.secret (.read ref), choice) :: h) = afterHash h := rfl
  rw [undamaged, undamaged, hafter]
  split
  · simp
  · rfl

theorem readOptional_trace (hvalue : w.secrets ref = .holds value)
    {Q : Except Err (Option (Secret c ref)) → World c → History c → Prop}
    (hok : ∀ choice, Q (.ok (some value)) w [(.secret (.read ref), choice)])
    (herr : ∀ e choice, Q (.error e) w [(.secret (.read ref), choice)]) :
    wpTrace step (fun _ _ => True) (readOptional ref).run Q w := by
  refine wpTrace_bind.mpr ⟨trivial, fun choice => ?_⟩
  have hreply : (step (.secret (.read ref)) choice w).1 = choice.ending.answer (.ok value) := by
    show choice.ending.answer (w.secrets ref).reply = _
    rw [hvalue]
    rfl
  rw [hreply]
  cases choice.ending with
  | done => exact hok choice
  | refused | lost => exact herr _ choice

theorem changePassword_trace (hideal : c.Ideal) (given confirmation : String) (salt : c.Salt)
    (hhash : w.secrets .adminPasswordHash = .holds (c.makeHash current salt))
    (hopens : ∀ target ∈ w.targets, w.Opens current target) :
    wpTrace step (fun _ _ => True) (changePassword given new confirmation)
      (fun r w' h => Changed new w.targets r w' h) w := by
  have hrefused := fun choice failure =>
    (changed_refused salt hhash hopens choice failure : Changed new _ _ _ _)
  refine wpTrace_bind.mpr (readOptional_trace hhash (fun choice => ?_) fun e choice => ?_)
  · show wpTrace step (fun _ _ => True)
      (if c.verify given (c.makeHash current salt) = false then _ else _) _ w
    split
    · exact hrefused choice _
    next hverify =>
    split
    · exact hrefused choice _
    next hvalid =>
    split
    · exact hrefused choice _
    next hother =>
    -- the given password is the current one, and the new one is valid and different
    obtain rfl : given = current := (hideal.verify_iff ..).mp (by simpa using hverify)
    have hnew : validateRecoveryPassword new = none := by
      by_contra h
      exact hvalid (.inl h)
    have hne : given ≠ new := fun h => hother ((hideal.verify_iff ..).mpr h.symm)
    refine wpTrace_mono (applyPassword_trace hideal hne hnew salt hhash hopens) ?_
    intro r w' h hchanged
    refine ⟨hchanged.success, fun e he => ?_⟩
    rw [hchanged.failure e he, List.singleton_append, undamaged_read]
  · exact hrefused choice _

/-- **The backups after a change of the password.** A change that succeeds leaves everything open
    to the new password.  A change that fails leaves everything open to the password whose hash is
    stored exactly if the writes that took effect have not damaged it. -/
theorem changePassword_usable_iff (hideal : c.Ideal) (start : World c)
    {current new given confirmation : String} {salt : c.Salt}
    (hhash : start.secrets .adminPasswordHash = .holds (c.makeHash current salt))
    (hopens : ∀ target ∈ start.targets, start.Opens current target)
    {choices : List (Choice c)} {r : Option RequestFailure} {w : World c} {h : History c}
    (hrun : (changePassword given new confirmation).run (recorded step) choices (start, []) =
      (some r, (w, h))) :
    (r = none → (∃ salt', w.secrets .adminPasswordHash = .holds (c.makeHash new salt')) ∧
      ∀ target ∈ w.targets, w.Opens new target) ∧
    ∀ failure, r = some failure → (w.Usable ↔ undamaged start.targets h = true) := by
  obtain ⟨calls, hcalls, hchanged⟩ := of_recorded_run
    (changePassword_trace hideal given confirmation salt hhash hopens) hrun
  rw [List.nil_append] at hcalls
  subst hcalls
  exact ⟨hchanged.success, hchanged.failure⟩

end Handler

/-! ### A change that stops halfway -/

/-- Two retained archives and the wrapper, all locked with the administrator's password. -/
def twoArchives : World plainCrypto where
  secrets
    | .masterKey => .holds (7 : Nat)
    | .keyWrap => .holds (wrapKey (c := plainCrypto) (7 : Nat) plainPassword () ())
    | .adminPasswordHash => .holds plainPassword
    | _ => .absent
  archives _ :=
    ⟨fun index => if index then none
      else some ⟨1, wrapKey (c := plainCrypto) (7 : Nat) plainPassword () ()⟩, true⟩
  retained := ["SB-GATEWAY-state-2.sbgw", "SB-GATEWAY-state-1.sbgw"]
  distinct := by decide

/-- The password that is set. -/
def nextPassword : String := "panel-password-456"

theorem twoArchives_hash : twoArchives.secrets .adminPasswordHash =
    .holds (plainCrypto.makeHash plainPassword ()) := rfl

theorem twoArchives_opens : ∀ target ∈ twoArchives.targets,
    twoArchives.Opens plainPassword target := by
  have hlocked : ∀ target, twoArchives.LockedBy plainPassword target := by
    rintro (_ | name) <;> exact ⟨(7 : Nat), (), (), rfl⟩
  exact fun target _ => (hlocked target).opens plainCrypto_ideal (by decide)

/-- The slot of the second archive cannot be written: the first archive is lost to the password
    that is still in force. -/
theorem halfRewrapped_unusable : ∃ w h,
    (changePassword plainPassword nextPassword nextPassword).run (recorded step)
      (List.replicate 12 (plainChoice .done) ++ [plainChoice .refused]) (twoArchives, []) =
        (some (some ⟨500, "recovery_protection_failed",
          "Encrypted recovery protection could not be updated."⟩), (w, h)) ∧
    twoArchives.secrets .adminPasswordHash = .holds (plainCrypto.makeHash plainPassword ()) ∧
    (∀ target ∈ twoArchives.targets, twoArchives.Opens plainPassword target) ∧ ¬ w.Usable := by
  refine ⟨_, _, rfl, twoArchives_hash, twoArchives_opens, ?_⟩
  exact not_usable_of_lockedBy plainCrypto_ideal
    (rfl : _ = File.holds (plainCrypto.makeHash plainPassword ()))
    (by decide : .archive "SB-GATEWAY-state-2.sbgw" ∈ twoArchives.targets)
    (⟨(7 : Nat), (), (), rfl⟩ : World.LockedBy _ nextPassword _) (by decide)

/-- If the first slot cannot be written, nothing is lost. -/
theorem twoArchives_usable : ∃ w h,
    (changePassword plainPassword nextPassword nextPassword).run (recorded step)
      (List.replicate 11 (plainChoice .done) ++ [plainChoice .refused]) (twoArchives, []) =
        (some (some ⟨500, "recovery_protection_failed",
          "Encrypted recovery protection could not be updated."⟩), (w, h)) ∧ w.Usable := by
  refine ⟨_, _, rfl, ?_⟩
  have hiff := (changePassword_usable_iff plainCrypto_ideal twoArchives twoArchives_hash
    twoArchives_opens (rfl : (changePassword plainPassword nextPassword nextPassword).run
      (recorded step) (List.replicate 11 (plainChoice .done) ++ [plainChoice .refused])
        (twoArchives, []) = _)).2 _ rfl
  exact hiff.mpr rfl

end SbGateway.ControlPlane.Recovery
