import SbGateway.ControlPlane.Secrets

namespace SbGateway.ControlPlane.Recovery

open Lib
open Lib.Calls

/-!
# The recovery keys

The first login creates the recovery master key and its wrapper; every login needs them.  They
are two secrets, written one after the other and never overwritten, and a pair that is not
complete is rejected.

* `ensureRecoveryProtection` — create the keys, or check them;
* `authenticateAdministrator` — a login;
* `Paired` — what every call preserves, with the writes that have taken effect;
* `retry_iff` — when a later call succeeds.
-/

variable {c : Crypto}

/-! ### The keys -/

/-- A new master key, wrapped for the password. -/
def createKeys (password : String) : Action c Bool := do
  let master ← inContext "generate recovery master key" (orStop randomKey)
  let wrapper ← wrapRecoveryMasterKey master password
  inContext "store recovery master key" (writeSecret .masterKey master false)
  inContext "store recovery key wrapper" (writeSecret .keyWrap wrapper false)
  return true

/-- A pair of keys is checked; none is created; a single one is refused. -/
def checkKeys (password : String) : Option c.Key → Option (KeyWrap c) → Action c Bool
  | some master, some wrapper =>
    if wrapper.supported = false then throw (.text "recovery key wrapper suite is unsupported")
    else if c.keyID master ≠ wrapper.keyID then
      throw (.text "stored recovery key wrapper is inconsistent")
    else return false
  | none, none => createKeys password
  | _, _ => throw (.text "stored recovery key is incomplete")

/-- The password of the RouterOS backup follows that of the administrator. -/
def storeBackupPassword (password : String) : Action c Unit :=
  inContext "store RouterOS backup password" (writeSecret .backupPassword password true)

/-- The keys, which are made if there are none. -/
def ensureRecoveryProtection (password : String) : Action c Bool :=
  match validateRecoveryPassword password with
  | some e => throw e
  | none => do
    let master ← readOptional .masterKey
    let wrapper ← readOptional .keyWrap
    let initialized ← checkKeys password master wrapper
    storeBackupPassword password
    return initialized

/-! ### The login -/

/-- The answer to a failed login. -/
structure LoginFailure where
  status : Nat
  code : String
  message : String
  deriving DecidableEq, Repr

/-- A login.  The rate limit is decided before, and the session needs random bytes. -/
def authenticateAdministrator (allowed : Bool) (adminUser username password : String) :
    Program c (Except LoginFailure Unit) := do
  if allowed = false then
    return .error ⟨429, "login_rate_limited", "Too many login attempts; try again later."⟩
  else
    match ← (readOptional (c := c) .adminPasswordHash).run with
    | .error _ => return .error ⟨503, "secret_not_provisioned",
        "A required secret is unavailable or has unsafe permissions."⟩
    | .ok none => return .error ⟨409, "bootstrap_required",
        "Create the first administrator through the protected bootstrap flow."⟩
    | .ok (some encoded) =>
      if username ≠ adminUser ∨ c.verify password encoded = false then
        return .error ⟨401, "invalid_credentials", "Username or password is invalid."⟩
      else
        match ← (ensureRecoveryProtection (c := c) password).run with
        | .error _ => return .error ⟨500, "recovery_protection_failed",
            "Encrypted recovery protection could not be initialized."⟩
        | .ok _ =>
          match ← randomKey with
          | .error _ => return .error ⟨500, "internal_error", "The request could not be completed."⟩
          | .ok _ => return .ok ()

/-! ### The pair of keys -/

/-- The calls and how they ended. -/
abbrev History (c : Crypto) := List (Call c × Choice c)

/-- A write of this secret has taken effect. -/
def Stored (ref : Ref) (h : History c) : Prop :=
  ∃ value choice, (.secret (.write ref value), choice) ∈ h ∧ choice.ending.takesEffect = true

/-- The keys match the writes that have taken effect: none, the master key alone, or both. -/
inductive Paired (password : String) : World c × History c → Prop
  | none {w h} (hmaster : ¬ Stored .masterKey h) (hwrap : ¬ Stored .keyWrap h)
      (hm : w.secrets .masterKey = .absent) (hw : w.secrets .keyWrap = .absent) :
      Paired password (w, h)
  | master {w h} (key : c.Key) (hmaster : Stored .masterKey h) (hwrap : ¬ Stored .keyWrap h)
      (hm : w.secrets .masterKey = .holds key) (hw : w.secrets .keyWrap = .absent) :
      Paired password (w, h)
  | both {w h} (key : c.Key) (salt : c.Salt) (nonce : c.Nonce) (hmaster : Stored .masterKey h)
      (hwrap : Stored .keyWrap h) (hm : w.secrets .masterKey = .holds key)
      (hw : w.secrets .keyWrap = .holds (wrapKey key password salt nonce)) :
      Paired password (w, h)

/-- Nothing has happened to the keys. -/
structure SameKeys (s t : World c × History c) : Prop where
  master : t.1.secrets .masterKey = s.1.secrets .masterKey
  wrap : t.1.secrets .keyWrap = s.1.secrets .keyWrap
  storedMaster : Stored .masterKey t.2 ↔ Stored .masterKey s.2
  storedWrap : Stored .keyWrap t.2 ↔ Stored .keyWrap s.2

theorem SameKeys.refl (s : World c × History c) : SameKeys s s := ⟨rfl, rfl, Iff.rfl, Iff.rfl⟩

theorem SameKeys.trans {s t u : World c × History c} (h : SameKeys s t) (h' : SameKeys t u) :
    SameKeys s u :=
  ⟨h'.master.trans h.master, h'.wrap.trans h.wrap, h'.storedMaster.trans h.storedMaster,
    h'.storedWrap.trans h.storedWrap⟩

theorem Paired.of_same (h : Paired password s) (hsame : SameKeys s t) : Paired password t := by
  obtain ⟨w, h'⟩ := t
  cases h with
  | none hmaster hwrap hm hw =>
    exact .none (hsame.storedMaster.not.mpr hmaster) (hsame.storedWrap.not.mpr hwrap)
      (hsame.master.trans hm) (hsame.wrap.trans hw)
  | master key hmaster hwrap hm hw =>
    exact .master key (hsame.storedMaster.mpr hmaster) (hsame.storedWrap.not.mpr hwrap)
      (hsame.master.trans hm) (hsame.wrap.trans hw)
  | both key salt nonce hmaster hwrap hm hw =>
    exact .both key salt nonce (hsame.storedMaster.mpr hmaster) (hsame.storedWrap.mpr hwrap)
      (hsame.master.trans hm) (hsame.wrap.trans hw)

theorem stored_append {choice : Choice c} : Stored ref (h ++ [(op, choice)]) ↔ Stored ref h ∨
      (∃ value, op = .secret (.write ref value)) ∧ choice.ending.takesEffect = true := by
  constructor
  · rintro ⟨value, choice', hmem, heffect⟩
    rcases List.mem_append.mp hmem with hmem | hmem
    · exact .inl ⟨value, choice', hmem, heffect⟩
    · obtain ⟨rfl, rfl⟩ := Prod.mk.inj (List.mem_singleton.mp hmem)
      exact .inr ⟨⟨value, rfl⟩, heffect⟩
  · rintro (⟨value, choice', hmem, heffect⟩ | ⟨⟨value, rfl⟩, heffect⟩)
    · exact ⟨value, choice', List.mem_append_left _ hmem, heffect⟩
    · exact ⟨value, choice, by simp, heffect⟩

/-- The calls that may change a key. -/
def Call.touchesKeys : Call c → Bool
  | .secret (.write .masterKey _) => true
  | .secret (.write .keyWrap _) => true
  | .secret (.remove _) => true
  | _ => false

theorem step_secrets (hop : op.touchesKeys = false) (choice : Choice c)
    (w : World c) (href : ref = .masterKey ∨ ref = .keyWrap) :
    (step op choice w).2.secrets ref = w.secrets ref := by
  cases op with
  | secret request =>
    cases request with
    | read | stat => rfl
    | remove => simp [Call.touchesKeys] at hop
    | write other value =>
      have hne : ref ≠ other := by
        rcases href with rfl | rfl <;> rintro rfl <;> simp [Call.touchesKeys] at hop
      show (if choice.ending.takesEffect then _ else _ : Files (Secret c)) ref = _
      split
      · exact Files.set_of_ne _ _ hne
      · rfl
  | writeSlot name index record =>
    show (if _ then _ else if _ then _ else w : World c).secrets ref = _
    split
    · rfl
    · split <;> rfl
  | _ => rfl

/-- The other calls leave the keys alone. -/
theorem sameKeys_step {op : Call c} (hop : op.touchesKeys = false) (choice : Choice c)
    (s : World c × History c) : SameKeys s (recorded step op choice s).2 := by
  have hno : ∀ ref value, ref = .masterKey ∨ ref = .keyWrap →
      op ≠ .secret (.write ref value) := by
    rintro ref value (rfl | rfl) rfl <;> simp [Call.touchesKeys] at hop
  refine ⟨step_secrets hop choice s.1 (.inl rfl), step_secrets hop choice s.1 (.inr rfl), ?_, ?_⟩
  · exact stored_append.trans (or_iff_left fun h => by
      obtain ⟨⟨value, rfl⟩, -⟩ := h
      exact hno _ _ (.inl rfl) rfl)
  · exact stored_append.trans (or_iff_left fun h => by
      obtain ⟨⟨value, rfl⟩, -⟩ := h
      exact hno _ _ (.inr rfl) rfl)

variable {password : String} {s : World c × History c}

theorem wp_quiet {Q : Reply op → World c × History c → Prop}
    (hop : op.touchesKeys = false) (hs : Paired password s)
    (hQ : ∀ r t, SameKeys s t → Q r t) : wp (recorded step) (Paired password) (perform op) Q s :=
  ⟨hs, fun choice => hQ _ _ (sameKeys_step hop choice s)⟩

variable {ref : Ref}

/-- A secret that is read as absent is absent, and one that is read is there. -/
theorem readOptional_spec {Q : Except Err (Option (Secret c ref)) →
      World c × History c → Prop} (hs : Paired password s)
    (hnone : s.1.secrets ref = .absent → ∀ t, SameKeys s t → Q (.ok none) t)
    (hsome : ∀ value, s.1.secrets ref = .holds value → ∀ t, SameKeys s t → Q (.ok (some value)) t)
    (herr : ∀ e t, SameKeys s t → Q (.error e) t) :
    wp (recorded step) (Paired password) (readOptional ref).run Q s := by
  refine wp_bind.mpr ⟨hs, fun choice => ?_⟩
  have hsame : SameKeys s (recorded step (.secret (.read ref)) choice s).2 :=
    sameKeys_step rfl choice s
  have hreply : (recorded step (.secret (.read ref)) choice s).1 =
      choice.ending.answer (s.1.secrets ref).reply := rfl
  rw [hreply]
  cases choice.ending with
  | refused | lost => exact herr _ _ hsame
  | done =>
    cases hfile : s.1.secrets ref with
    | absent => exact hnone hfile _ hsame
    | unreadable => exact herr _ _ hsame
    | holds value => exact hsome value hfile _ hsame

/-- The random values of a wrapper. -/
theorem wrapRecoveryMasterKey_spec
    {Q : Except Err (KeyWrap c) → World c × History c → Prop} (hs : Paired password s)
    (hok : ∀ salt nonce t, SameKeys s t → Q (.ok (wrapKey master password salt nonce)) t)
    (herr : ∀ e t, SameKeys s t → Q (.error e) t) :
    wp (recorded step) (Paired password) (wrapRecoveryMasterKey master password).run Q s := by
  unfold wrapRecoveryMasterKey
  split
  · exact herr _ _ (.refl s)
  · rw [wp_run_bind, wp_inContext, wp_orStop]
    refine wp_quiet rfl hs fun r t ht => ?_
    cases r with
    | error e => exact herr _ _ ht
    | ok salt =>
      simp only [Except.mapError, either_ok]
      rw [wp_run_bind, wp_inContext, wp_orStop]
      refine wp_quiet rfl (hs.of_same ht) fun r u hu => ?_
      cases r with
      | error e => exact herr _ _ (ht.trans hu)
      | ok nonce => exact hok salt nonce u (ht.trans hu)

/-- A write without effect leaves the keys alone. -/
theorem sameKeys_refused (value : Secret c ref) {choice : Choice c}
    (h : choice.ending.takesEffect = false) (s : World c × History c) :
    SameKeys s (recorded step (.secret (.write ref value)) choice s).2 := by
  have hsecrets : (recorded step (.secret (.write ref value)) choice s).2.1.secrets =
      s.1.secrets := by
    show (if choice.ending.takesEffect then _ else _) = _
    rw [h]
    rfl
  have hstored : ∀ r, Stored r (recorded step (.secret (.write ref value)) choice s).2.2 ↔
      Stored r s.2 := fun r =>
    stored_append.trans (or_iff_left (by simp [h]))
  exact ⟨congrFun hsecrets _, congrFun hsecrets _, hstored _, hstored _⟩

/-- A write of a key that takes effect. -/
structure Wrote (ref : Ref) (value : Secret c ref) (s t : World c × History c) : Prop where
  holds : t.1.secrets ref = .holds value
  other : ∀ r, r ≠ ref → t.1.secrets r = s.1.secrets r
  stored : Stored ref t.2
  storedOther : ∀ r, r ≠ ref → (Stored r t.2 ↔ Stored r s.2)

theorem wrote_step (value : Secret c ref) {choice : Choice c}
    (h : choice.ending.takesEffect = true) (s : World c × History c) :
    Wrote ref value s (recorded step (.secret (.write ref value)) choice s).2 := by
  have hsecrets : (recorded step (.secret (.write ref value)) choice s).2.1.secrets =
      s.1.secrets.set ref (.holds value) := by
    show (if choice.ending.takesEffect then _ else _) = _
    rw [h]
    rfl
  refine ⟨by rw [hsecrets, Files.set_self], fun r hr => by rw [hsecrets, Files.set_of_ne _ _ hr],
    stored_append.mpr (.inr ⟨⟨value, rfl⟩, h⟩), fun r hr => ?_⟩
  refine stored_append.trans (or_iff_left ?_)
  rintro ⟨⟨_, heq⟩, -⟩
  cases heq
  exact hr rfl

variable {Q : Except Err Unit → World c × History c → Prop}

/-- The write of a key: it is stored, or nothing has happened to the keys. -/
theorem writeKey_spec (hvalue : storable ref value = true) (hs : Paired password s)
    (hwrote : ∀ r t u, SameKeys s t → Wrote ref value t u → Q r u)
    (herr : ∀ e t, SameKeys s t → Q (.error e) t) :
    wp (recorded step) (Paired password) (writeSecret ref value false).run Q s := by
  rw [writeSecret, if_neg (by simp [hvalue]), if_neg (by simp), wp_run_bind]
  refine wp_bind.mpr (wp_quiet rfl hs fun r t ht => ?_)
  match r with
  | .ok _ | .error .failed => exact herr _ _ ht
  | .error .notExist =>
    refine wp_orStop.mpr ⟨hs.of_same ht, fun choice => ?_⟩
    cases heffect : choice.ending.takesEffect with
    | true => exact hwrote _ t _ ht (wrote_step value heffect t)
    | false =>
      have hsame := ht.trans (sameKeys_refused value heffect t)
      have hreply : (recorded step (.secret (.write ref value)) choice t).1 =
          Except.error .failed := by
        show choice.ending.confirm = _
        cases hending : choice.ending <;> simp_all [Ending.takesEffect, Ending.confirm]
      rw [hreply]
      exact herr _ _ hsame

section

variable (hs : Paired password s)
include hs

/-- The creation of the keys, step by step. -/
theorem createKeys_spec {Q : Except Err Bool → World c × History c → Prop}
    (hm : s.1.secrets .masterKey = .absent) (hw : s.1.secrets .keyWrap = .absent)
    (hQ : ∀ r t, Paired password t → Q r t) :
    wp (recorded step) (Paired password) (createKeys password).run Q s := by
  obtain ⟨hnoMaster, hnoWrap⟩ : ¬ Stored .masterKey s.2 ∧ ¬ Stored .keyWrap s.2 := by
    cases hs with
    | none h h' => exact ⟨h, h'⟩
    | master key _ _ hk | both key _ _ _ _ hk => simp [hk] at hm
  rw [createKeys, wp_run_bind, wp_inContext, wp_orStop]
  refine wp_quiet rfl hs fun r t ht => ?_
  cases r with
  | error e => exact hQ _ _ (hs.of_same ht)
  | ok master =>
  simp only [Except.mapError, either_ok]
  rw [wp_run_bind]
  refine wrapRecoveryMasterKey_spec (hs.of_same ht) (fun salt nonce u hu => ?_)
    fun e u hu => hQ _ _ (hs.of_same (ht.trans hu))
  have hsu := ht.trans hu
  rw [either_ok, wp_run_bind, wp_inContext]
  refine writeKey_spec rfl (hs.of_same hsu) (fun r v x hv hx => ?_)
    fun e v hv => hQ _ _ (hs.of_same (hsu.trans hv))
  -- the master key is stored, and there is no wrapper yet
  have hsv := hsu.trans hv
  have hx' : Paired password x := by
    obtain ⟨w, h⟩ := x
    exact .master master hx.stored
      ((hx.storedOther _ (by simp)).trans hsv.storedWrap |>.not.mpr hnoWrap) hx.holds
      ((hx.other _ (by simp)).trans (hsv.wrap.trans hw))
  cases r with
  | error e => exact hQ _ _ hx'
  | ok _ =>
  simp only [Except.mapError, either_ok]
  rw [wp_run_bind, wp_inContext]
  refine writeKey_spec rfl hx' (fun r y z hy hz => ?_) fun e y hy => hQ _ _ (hx'.of_same hy)
  have hz' : Paired password z := by
    obtain ⟨w, h⟩ := z
    refine .both master salt nonce ?_ hz.stored ?_ hz.holds
    · exact (hz.storedOther _ (by simp)).mpr (hy.storedMaster.mpr hx.stored)
    · exact (hz.other _ (by simp)).trans (hy.master.trans hx.holds)
  cases r <;> exact hQ _ _ hz'

theorem storeBackupPassword_spec (hQ : ∀ r t, Paired password t → Q r t) :
    wp (recorded step) (Paired password) (storeBackupPassword password).run Q s := by
  rw [storeBackupPassword, wp_inContext, writeSecret]
  split
  · exact hQ _ _ hs
  · rw [if_pos rfl, wp_orStop]
    exact wp_quiet rfl hs fun r t ht => hQ _ _ (hs.of_same ht)

theorem checkKeys_spec {Q : Except Err Bool → World c × History c → Prop}
    (hm : master = none → s.1.secrets .masterKey = .absent)
    (hw : wrapper = none → s.1.secrets .keyWrap = .absent) (hQ : ∀ r t, Paired password t → Q r t) :
    wp (recorded step) (Paired password) (checkKeys password master wrapper).run Q s := by
  match master, wrapper with
  | none, none => exact createKeys_spec hs (hm rfl) (hw rfl) hQ
  | some _, none | none, some _ => exact hQ _ _ hs
  | some master, some wrapper =>
    simp only [checkKeys]
    split
    · exact hQ _ _ hs
    · split <;> exact hQ _ _ hs

/-- Every call keeps the keys in step with their writes. -/
theorem ensureRecoveryProtection_spec :
    wp (recorded step) (Paired password) (ensureRecoveryProtection password).run
      (fun _ => Paired password) s := by
  unfold ensureRecoveryProtection
  split
  · exact hs
  · -- the rest of the call, after both keys are read
    have hrest : ∀ master wrapper t, SameKeys s t →
        (master = none → s.1.secrets .masterKey = .absent) →
        (wrapper = none → s.1.secrets .keyWrap = .absent) →
        wp (recorded step) (Paired password) (checkKeys password master wrapper).run
          (either (fun initialized => wp (recorded step) (Paired password)
            (storeBackupPassword password >>= fun _ => pure initialized : Action c Bool).run
              fun _ => Paired password) fun _ => Paired password) t := by
      intro master wrapper t ht hm hw
      refine checkKeys_spec (hs.of_same ht) (fun h => ht.master.trans (hm h))
        (fun h => ht.wrap.trans (hw h)) fun r u hu => ?_
      cases r with
      | error e => exact hu
      | ok initialized =>
        rw [either_ok, wp_run_bind]
        refine storeBackupPassword_spec hu fun r v hv => ?_
        cases r <;> exact hv
    have hwrap : ∀ master t, SameKeys s t →
        (master = none → s.1.secrets .masterKey = .absent) →
        wp (recorded step) (Paired password) (readOptional .keyWrap >>= fun wrapper =>
          checkKeys password master wrapper >>= fun initialized =>
            storeBackupPassword password >>= fun _ => pure initialized : Action c Bool).run
          (fun _ => Paired password) t := by
      intro master t ht hm
      rw [wp_run_bind]
      refine readOptional_spec (hs.of_same ht) (fun hw u hu => ?_) (fun wrapper hw u hu => ?_)
        fun e u hu => hs.of_same (ht.trans hu)
      · rw [either_ok, wp_run_bind]
        exact hrest master none u (ht.trans hu) hm fun _ => ht.wrap.symm.trans hw
      · rw [either_ok, wp_run_bind]
        exact hrest master (some wrapper) u (ht.trans hu) hm nofun
    rw [wp_run_bind]
    refine readOptional_spec hs (fun hm t ht => ?_) (fun master hm t ht => ?_)
      fun e t ht => hs.of_same ht
    · exact hwrap none t ht fun _ => hm
    · exact hwrap (some master) t ht nofun

end

/-! ### A working store -/

/-- The call succeeds. -/
def Choice.working (choice : Choice c) : Prop := choice.ending = .done

theorem forall_working {P : { choice : Choice c // choice.working } → Prop}
    (h : ∀ torn key salt nonce, P ⟨⟨.done, torn, key, salt, nonce⟩, rfl⟩) : ∀ choice, P choice := by
  rintro ⟨⟨ending, torn, key, salt, nonce⟩, hworking⟩
  have hdone : ending = .done := hworking
  subst hdone
  exact h torn key salt nonce

/-- There are a master key and a wrapper that unwraps to it with the password. -/
def Protected (password : String) (w : World c) : Prop :=
  ∃ master wrapper, w.secrets .masterKey = .holds master ∧ w.secrets .keyWrap = .holds wrapper ∧
    unwrapRecoveryMasterKey wrapper password = .ok master

/-- The keys are not stranded, and the password can be stored. -/
def Retryable (password : String) (h : History c) : Prop :=
  ¬ (Stored .masterKey h ∧ ¬ Stored .keyWrap h) ∧ password.utf8ByteSize ≤ 2 ^ 20

section Working

variable {password : String} {w : World c} {h : History c}

theorem readOptional_working {Q : Except Err (Option (Secret c ref)) → World c → Prop}
    (value : Option (Secret c ref)) (hvalue : w.secrets ref = .ofOption value)
    (hQ : Q (.ok value) w) :
    wp (restrict step Choice.working) (fun _ => True) (readOptional ref).run Q w := by
  refine wp_bind.mpr ⟨trivial, forall_working fun torn key salt nonce => ?_⟩
  have hreply : (restrict step Choice.working (.secret (.read ref))
      ⟨⟨.done, torn, key, salt, nonce⟩, rfl⟩ w).1 = (w.secrets ref).reply := rfl
  rw [hreply, hvalue]
  cases value <;> exact hQ

variable {Q : Except Err Unit → World c → Prop}

theorem writeKey_working (hvalue : storable ref value = true) (habsent : w.secrets ref = .absent)
    (hQ : Q (.ok ()) (w.setSecret ref value)) :
    wp (restrict step Choice.working) (fun _ => True) (writeSecret ref value false).run Q w := by
  rw [writeSecret, if_neg (by simp [hvalue]), if_neg (by simp), wp_run_bind]
  refine wp_bind.mpr ⟨trivial, forall_working fun torn key salt nonce => ?_⟩
  have hreply : (restrict step Choice.working (.secret (.stat ref))
      ⟨⟨.done, torn, key, salt, nonce⟩, rfl⟩ w).1 = (w.secrets ref).kind := rfl
  rw [hreply, habsent]
  exact wp_orStop.mpr ⟨trivial, forall_working fun torn key salt nonce => hQ⟩

theorem randomKey_working {Q : Except FileError c.Key → World c → Prop}
    (hQ : ∀ key, Q (.ok key) w) : wp (restrict step Choice.working) (fun _ => True) randomKey Q w :=
  ⟨trivial, forall_working fun _ key _ _ => hQ key⟩

theorem randomSalt_working {Q : Except FileError c.Salt → World c → Prop}
    (hQ : ∀ salt, Q (.ok salt) w) :
    wp (restrict step Choice.working) (fun _ => True) randomSalt Q w :=
  ⟨trivial, forall_working fun _ _ salt _ => hQ salt⟩

theorem randomNonce_working {Q : Except FileError c.Nonce → World c → Prop}
    (hQ : ∀ nonce, Q (.ok nonce) w) :
    wp (restrict step Choice.working) (fun _ => True) randomNonce Q w :=
  ⟨trivial, forall_working fun _ _ _ nonce => hQ nonce⟩

variable (hvalid : validateRecoveryPassword password = none)
include hvalid

/-- A wrapper unwraps with its password. -/
theorem unwrap_wrapKey (hideal : c.Ideal) (master : c.Key) (salt : c.Salt) (nonce : c.Nonce) :
    unwrapRecoveryMasterKey (wrapKey master password salt nonce) password = .ok master := by
  simp [unwrapRecoveryMasterKey, hvalid, KeyWrap.supported, wrapKey, hideal.decrypt_encrypt]

theorem storable_iff :
    storable (c := c) .backupPassword password = true ↔ password.utf8ByteSize ≤ 2 ^ 20 := by
  have hok : ¬ (password.length < 12 ∨ '\x00' ∈ password.toList) := by
    intro hbad
    simp [validateRecoveryPassword, hbad] at hvalid
  rw [not_or] at hok
  have hne : password ≠ "" := by
    rintro rfl
    exact hok.1 (by decide)
  simp [storable, hne, hok.2]

/-- The last step of a call decides by the length of the password. -/
theorem storeBackupPassword_working
    (hok : password.utf8ByteSize ≤ 2 ^ 20 →
      Q (.ok ()) (w.setSecret .backupPassword password))
    (herr : ¬ password.utf8ByteSize ≤ 2 ^ 20 → ∀ e, Q (.error e) w) :
    wp (restrict step Choice.working) (fun _ => True) (storeBackupPassword password).run Q w := by
  rw [storeBackupPassword, wp_inContext, writeSecret]
  split
  · next hno =>
    refine herr (fun hsize => ?_) _
    rw [(storable_iff hvalid).mpr hsize] at hno
    cases hno
  · next hyes =>
    rw [if_pos rfl, wp_orStop]
    refine ⟨trivial, forall_working fun torn key salt nonce => hok ?_⟩
    exact (storable_iff hvalid).mp (by simpa using hyes)

theorem wrapRecoveryMasterKey_working {Q : Except Err (KeyWrap c) → World c → Prop}
    (hQ : ∀ salt nonce, Q (.ok (wrapKey master password salt nonce)) w) :
    wp (restrict step Choice.working) (fun _ => True)
      (wrapRecoveryMasterKey master password).run Q w := by
  simp only [wrapRecoveryMasterKey, hvalid]
  rw [wp_run_bind, wp_inContext, wp_orStop]
  refine randomSalt_working fun salt => ?_
  simp only [Except.mapError, either_ok]
  rw [wp_run_bind, wp_inContext, wp_orStop]
  exact randomNonce_working fun nonce => hQ salt nonce

theorem createKeys_working (hm : w.secrets .masterKey = .absent)
    (hw : w.secrets .keyWrap = .absent)
    {Q : Except Err Bool → World c → Prop}
    (hQ : ∀ w' master salt nonce, w'.secrets .masterKey = .holds master →
      w'.secrets .keyWrap = .holds (wrapKey master password salt nonce) → Q (.ok true) w') :
    wp (restrict step Choice.working) (fun _ => True) (createKeys password).run Q w := by
  rw [createKeys, wp_run_bind, wp_inContext, wp_orStop]
  refine randomKey_working fun master => ?_
  simp only [Except.mapError, either_ok]
  rw [wp_run_bind]
  refine wrapRecoveryMasterKey_working hvalid fun salt nonce => ?_
  rw [either_ok, wp_run_bind, wp_inContext]
  refine writeKey_working rfl hm ?_
  simp only [Except.mapError, either_ok]
  rw [wp_run_bind, wp_inContext]
  refine writeKey_working rfl (by simpa using hw) ?_
  exact hQ _ master salt nonce (by simp) (by simp)

/-- On a working store a call succeeds exactly if it can be retried. -/
theorem ensureRecoveryProtection_working (hideal : c.Ideal) (hs : Paired password (w, h)) :
    wp (restrict step Choice.working) (fun _ => True) (ensureRecoveryProtection password).run
      (fun r w' => (Retryable password h → (∃ initialized, r = .ok initialized) ∧
        Protected password w') ∧ (¬ Retryable password h → ∃ e, r = .error e)) w := by
  -- the end of a call that has found or made a pair of keys
  have hend : ∀ (initialized : Bool) (w' : World c) master salt nonce,
      ¬ (Stored .masterKey h ∧ ¬ Stored .keyWrap h) →
      w'.secrets .masterKey = .holds master →
      w'.secrets .keyWrap = .holds (wrapKey master password salt nonce) →
      wp (restrict step Choice.working) (fun _ => True)
        (storeBackupPassword password >>= fun _ => pure initialized : Action c Bool).run
        (fun r w' => (Retryable password h → (∃ initialized, r = .ok initialized) ∧
          Protected password w') ∧ (¬ Retryable password h → ∃ e, r = .error e)) w' := by
    intro initialized w' master salt nonce hpair hm hw
    rw [wp_run_bind]
    refine storeBackupPassword_working hvalid (fun hsize => ?_) fun hsize e => ?_
    · exact ⟨fun _ => ⟨⟨initialized, rfl⟩, master, wrapKey master password salt nonce,
        by simpa using hm, by simpa using hw, unwrap_wrapKey hvalid hideal ..⟩,
        fun hno => absurd ⟨hpair, hsize⟩ hno⟩
    · exact ⟨fun hyes => absurd hyes.2 hsize, fun _ => ⟨e, rfl⟩⟩
  simp only [ensureRecoveryProtection, hvalid]
  rw [wp_run_bind]
  cases hs with
  | none hmaster hwrap hm hw =>
    refine readOptional_working none hm ?_
    rw [either_ok, wp_run_bind]
    refine readOptional_working none hw ?_
    rw [either_ok, wp_run_bind]
    exact createKeys_working hvalid hm hw fun w' master salt nonce hm' hw' =>
      hend true w' master salt nonce (fun hbad => hmaster hbad.1) hm' hw'
  | master key hmaster hwrap hm hw =>
    refine readOptional_working (some key) hm ?_
    rw [either_ok, wp_run_bind]
    refine readOptional_working none hw ?_
    exact ⟨fun hyes => absurd ⟨hmaster, hwrap⟩ hyes.1, fun _ => ⟨_, rfl⟩⟩
  | both key salt nonce hmaster hwrap hm hw =>
    refine readOptional_working (some key) hm ?_
    rw [either_ok, wp_run_bind]
    refine readOptional_working (some (wrapKey key password salt nonce)) hw ?_
    rw [either_ok, wp_run_bind]
    simp only [checkKeys]
    rw [if_neg (by simp [KeyWrap.supported, wrapKey]), if_neg (by simp [wrapKey])]
    exact hend false w key salt nonce (fun hbad => hbad.2 hwrap) hm hw

/-- A correct login succeeds exactly if the keys can be had. -/
theorem authenticateAdministrator_working (hideal : c.Ideal) (hs : Paired password (w, h))
    (hhash : w.secrets .adminPasswordHash = .holds encoded)
    (hverify : c.verify password encoded = true) : wp (restrict step Choice.working) (fun _ => True)
      (authenticateAdministrator true adminUser adminUser password)
      (fun r _ => (Retryable password h → r = .ok ()) ∧
        (¬ Retryable password h → ∃ e, r = .error e))
      w := by
  rw [authenticateAdministrator, if_neg (by simp), wp_bind]
  refine readOptional_working (some encoded) hhash ?_
  show wp _ _ (if adminUser ≠ adminUser ∨ c.verify password encoded = false then _ else _) _ w
  rw [if_neg (by simp [hverify]), wp_bind]
  refine wp_mono (ensureRecoveryProtection_working hvalid hideal hs) fun r w' hr => ?_
  cases r with
  | error e =>
    refine ⟨fun hyes => ?_, fun _ => ⟨_, rfl⟩⟩
    obtain ⟨⟨_, hok⟩, -⟩ := hr.1 hyes
    cases hok
  | ok initialized =>
    refine wp_bind.mpr (randomKey_working fun key => ⟨fun _ => rfl, fun hno => ?_⟩)
    obtain ⟨_, herr⟩ := hr.2 hno
    cases herr

end Working

/-! ### Runs -/

/-- Calls one after the other, each complete or cut off. -/
def afterCalls (password : String) :
    List (List (Choice c)) → World c × History c → World c × History c
  | [], s => s
  | choices :: rest, s => afterCalls password rest
      ((ensureRecoveryProtection password).run.run (recorded step) choices s).2

theorem afterCalls_paired (calls : List (List (Choice c))) (hs : Paired password s) :
    Paired password (afterCalls password calls s) := by
  induction calls generalizing s with
  | nil => exact hs
  | cons choices calls ih => exact ih (wp_inv (ensureRecoveryProtection_spec hs) choices)

/-- **Retry.** After calls of which each may have failed or been cut off at any of its writes, a
    call on a working store returns with a pair of keys that the password unlocks, and a correct
    login succeeds, exactly if no master key was stored without its wrapper and the password can
    be stored. -/
theorem retry_iff (hideal : c.Ideal) {password : String}
    (hvalid : validateRecoveryPassword password = none) (start : World c)
    (hm : start.secrets .masterKey = .absent) (hw : start.secrets .keyWrap = .absent)
    (earlier : List (List (Choice c))) (choice : Nat → Choice c)
    (hworking : ∀ i, (choice i).working) {w : World c} {h : History c}
    (hearlier : afterCalls password earlier (start, []) = (w, h)) :
    ((∃ n, ∀ k, n ≤ k → ∃ r w', (ensureRecoveryProtection password).run.run step
        ((List.range k).map choice) w = (some r, w') ∧ (∃ initialized, r = .ok initialized) ∧
          Protected password w') ↔ Retryable password h) ∧
    ∀ adminUser encoded, w.secrets .adminPasswordHash = .holds encoded →
      c.verify password encoded = true →
      ((∃ n, ∀ k, n ≤ k → ∃ w', (authenticateAdministrator true adminUser adminUser password).run
        step ((List.range k).map choice) w = (some (.ok ()), w')) ↔ Retryable password h) := by
  have hnone : ∀ ref, ¬ Stored ref ([] : History c) := by
    rintro ref ⟨_, _, hmem, -⟩
    cases hmem
  have hpaired := afterCalls_paired earlier (.none (hnone _) (hnone _) hm hw : Paired password _)
  rw [hearlier] at hpaired
  refine ⟨?_, fun adminUser encoded hhash hverify => ?_⟩
  · refine returns_iff_of_wp choice hworking
      (wp_mono (ensureRecoveryProtection_working hvalid hideal hpaired) ?_)
    rintro r w' ⟨hyes, hno⟩
    refine ⟨hyes, fun hnot => ?_⟩
    obtain ⟨e, rfl⟩ := hno hnot
    simp
  · have hlogin : wp (restrict step Choice.working) (fun _ => True)
        (authenticateAdministrator true adminUser adminUser password)
        (fun r _ => (Retryable password h → r = .ok () ∧ True) ∧
          (¬ Retryable password h → ¬ r = .ok ()))
        w := by
      refine wp_mono (authenticateAdministrator_working hvalid hideal hpaired hhash hverify) ?_
      rintro r w' ⟨hyes, hno⟩
      refine ⟨fun h => ⟨hyes h, trivial⟩, fun hnot => ?_⟩
      obtain ⟨e, rfl⟩ := hno hnot
      simp
    have hiff := returns_iff_of_wp choice hworking hlogin
    simpa using hiff

/-! ### A key without its wrapper -/

/-- Primitives for an example: a box shows its password. -/
def plainCrypto : Crypto where
  Key := Nat
  Salt := Unit
  Nonce := Unit
  Id := Nat
  Box := String × Nat
  Hash := String
  decideId := inferInstance
  keyID := id
  encrypt password _ _ _ key := (password, key)
  decrypt password _ _ _ box := if password = box.1 then some box.2 else none
  makeHash password _ := password
  verify password hash := password == hash

theorem plainCrypto_ideal : plainCrypto.Ideal where
  decrypt_encrypt := by simp [plainCrypto]
  decrypt_other := by simp +contextual [plainCrypto]
  verify_iff := by simp [plainCrypto]
  keyID_injective := by simp [plainCrypto]

/-- The password of the panel. -/
def plainPassword : String := "panel-password-123"

/-- A store with nothing but the hash of the administrator's password. -/
def freshWorld : World plainCrypto where
  secrets
    | .adminPasswordHash => .holds plainPassword
    | _ => .absent
  archives _ := ⟨fun _ => none, false⟩
  retained := []
  distinct := List.nodup_nil

/-- A call that ends so. -/
def plainChoice (ending : Ending) : Choice plainCrypto := ⟨ending, false, (7 : Nat), (), ()⟩

/-- The write of the wrapper fails: every later call, and with it every login, is refused. -/
theorem strandedKey_refused : ∃ w h w' w'',
    afterCalls plainPassword [List.replicate 8 (plainChoice .done) ++ [plainChoice .refused]]
      (freshWorld, []) = (w, h) ∧
    (ensureRecoveryProtection plainPassword).run.run step
    (List.replicate 20 (plainChoice .done)) w =
      (some (.error (.text "stored recovery key is incomplete")), w') ∧
    (authenticateAdministrator true "admin" "admin" plainPassword).run step
      (List.replicate 20 (plainChoice .done)) w = (some (.error ⟨500, "recovery_protection_failed",
        "Encrypted recovery protection could not be initialized."⟩), w'') :=
  ⟨_, _, _, _, rfl, rfl, rfl⟩

/-- After a failure before the master key was written, the next call creates the keys. -/
theorem freshWorld_retried : ∃ w h,
    afterCalls plainPassword [List.replicate 6 (plainChoice .done) ++ [plainChoice .refused]]
      (freshWorld, []) = (w, h) ∧
    ((∃ n, ∀ k, n ≤ k → ∃ r w', (ensureRecoveryProtection plainPassword).run.run step
        ((List.range k).map fun _ => plainChoice .done) w = (some r, w') ∧
          (∃ initialized, r = .ok initialized) ∧ Protected plainPassword w') ↔
      Retryable plainPassword h) := by
  have hvalid : validateRecoveryPassword plainPassword = none := by decide
  have hworking : ∀ _ : Nat, (plainChoice .done).working := fun _ => rfl
  obtain ⟨w, h, hearlier⟩ : ∃ w h, afterCalls plainPassword
      [List.replicate 6 (plainChoice .done) ++ [plainChoice .refused]] (freshWorld, []) = (w, h) :=
    ⟨_, _, rfl⟩
  exact ⟨w, h, hearlier,
    (retry_iff plainCrypto_ideal hvalid freshWorld rfl rfl _ _ hworking hearlier).1⟩

end SbGateway.ControlPlane.Recovery
