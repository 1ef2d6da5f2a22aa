import Mathlib

namespace SbGateway.Appliance

/-!
# The supervisor of a program

`runProgram` starts one instance of a program after another and answers the requests to restart it.
A step of the model ends where the goroutine reads what others write: the cancellation of its
context, the result of an instance, or a request.  An instance may return at any time.

* `Step.sound`, `Run.sound` — one instance at a time, and an account of the requests;
* `run_disciplined_iff` — all is answered and stopped in the end, exactly if the shutdown does not
  fall into a restart.
-/

/-- An error: that of the cancelled context, that of a program that returned none, and those of the
    programs themselves. -/
inductive Error where
  | context
  | withoutError
  | ofProgram (text : String) (canceled : Bool)
  deriving DecidableEq

/-- A stop that was asked for is no error. -/
def expectedStopError : Option Error → Option Error
  | none | some .context | some (.ofProgram _ true) => none
  | err => err

/-- A stop nobody asked for is always one. -/
def unexpectedStopError : Option Error → Option Error
  | none => some .withoutError
  | err => err

/-- The seconds before the next attempt. -/
def restartDelay (failures : ℕ) : ℕ :=
  if failures < 1 then 0 else 2 ^ (min failures 5 - 1)

/-- A supervised program. -/
structure Program where
  /-- It has a `Reload`. -/
  reload : Bool

/-- Where the goroutine waits, or reads its context. -/
inductive Place where
  | loop
  | serving
  | reloading (request : ℕ)
  | stopping (request : ℕ)
  | waiting (delay : ℕ)
  | ending
  | returned
  deriving DecidableEq

/-- What the log records, newest first. -/
inductive Event where
  | received (request : ℕ)
  | started
  | answered (request : ℕ) (err : Option Error)
  deriving DecidableEq

/-- The supervisor of a program, its requests and its instances. -/
structure State where
  place : Place := .loop
  cancelled : Bool := false
  generation : ℕ := 0
  running : Bool := false
  lastError : Option Error := none
  failures : ℕ := 0
  restarted : Option ℕ := none
  /-- The instances that have not returned. -/
  live : List ℕ := []
  /-- What the channel of the last instance holds. -/
  result : Option (Option Error) := none
  /-- The latest event comes first. -/
  log : List Event := []

namespace State

variable (s : State)

/-- The next instance runs. -/
def setStarted : State :=
  { s with generation := s.generation + 1, running := true, lastError := none }

/-- No instance runs, and this is why. -/
def setStopped (err : Option Error) : State := { s with running := false, lastError := err }

/-- The answer to a request that waits for the next instance. -/
def acknowledge (err : Option Error) : List Event := s.restarted.toList.map (.answered · err)

/-- A restart is under way. -/
def restarting : Bool :=
  match s.place with
  | .stopping _ => true
  | .loop => s.restarted.isSome
  | _ => false

/-- The request that has no answer yet. -/
def outstanding : Option ℕ :=
  match s.place with
  | .reloading request | .stopping request => some request
  | _ => s.restarted

end State

/-- What others do: they shut down, or send a request. -/
inductive Action where
  | shutdown
  | request (request : ℕ)
  | internal

variable (p : Program)

/-- The steps.  Every request has a channel of its own for its answer, so it is received once. -/
inductive Step : Action → State → State → Prop where
  | shutdown : Step .shutdown s { s with cancelled := true }
  | instanceReturns (err : Option Error) (hlive : g ∈ s.live) : Step .internal s
      { s with live := s.live.erase g, result := if g = s.generation then some err else s.result }
  | start (hplace : s.place = .loop) (hgoing : s.cancelled = false) : Step .internal s
      { s.setStarted with
        place := .serving, live := (s.generation + 1) :: s.live, result := none
        restarted := none, log := s.acknowledge none ++ .started :: s.log }
  | leave (hplace : s.place = .loop) (hshut : s.cancelled = true) :
      Step .internal s { s with place := .returned }
  | receive (hplace : s.place = .serving) (hnew : .received r ∉ s.log) : Step (.request r) s
      { s with
        place := if p.reload then .reloading r else .stopping r, log := .received r :: s.log }
  | reload (err : Option Error) (hplace : s.place = .reloading r) :
      Step .internal s { s with place := .serving, log := .answered r err :: s.log }
  | restart (hplace : s.place = .stopping r) (hresult : s.result = some err)
      (hgoing : s.cancelled = false) : Step .internal s
      { s.setStopped (expectedStopError err) with
        place := .loop, failures := 0, restarted := some r, result := none }
  | restartShut (hplace : s.place = .stopping r) (hresult : s.result = some err)
      (hshut : s.cancelled = true) : Step .internal s
      { s with place := .returned, result := none, log := .answered r (some .context) :: s.log }
  | failed (hplace : s.place = .serving) (hresult : s.result = some err)
      (hgoing : s.cancelled = false) : Step .internal s
      { s.setStopped (unexpectedStopError err) with
        place := .waiting (restartDelay (s.failures + 1)), failures := s.failures + 1
        result := none }
  | exited (hplace : s.place = .serving) (hresult : s.result = some err)
      (hshut : s.cancelled = true) :
      Step .internal s { s.setStopped none with place := .returned, result := none }
  | again (hplace : s.place = .waiting delay) : Step .internal s { s with place := .loop }
  | giveUp (hplace : s.place = .waiting delay) (hshut : s.cancelled = true) :
      Step .internal s { s with place := .returned }
  | stop (hplace : s.place = .serving) (hshut : s.cancelled = true) :
      Step .internal s { s with place := .ending }
  | stopped (hplace : s.place = .ending) (hresult : s.result = some err) : Step .internal s
      { s.setStopped none with
        place := .returned, result := none, log := s.acknowledge (some .context) ++ s.log }

/-- The runs, with their steps and the states before them. -/
inductive Run : List (State × Action) → State → Prop where
  | begin : Run [] {}
  | step (h : Run history s) (hstep : Step p action s t) : Run ((s, action) :: history) t

/-! ### The discipline -/

/-- A success is answered after an instance was started that is newer than the request. -/
def AnswersAfterStart : List Event → Prop
  | [] => True
  | .answered r none :: older =>
    (∃ since before, older = since ++ .received r :: before ∧ .started ∈ since) ∧
      AnswersAfterStart older
  | _ :: older => AnswersAfterStart older

/-- How often a request was answered. -/
def answers (r : ℕ) (log : List Event) : ℕ :=
  log.countP fun | .answered r' _ => r' = r | _ => false

/-- One instance at a time, and every request is answered once, in order. -/
structure Disciplined (s : State) : Prop where
  single : s.live.length ≤ 1
  order : p.reload = false → AnswersAfterStart s.log
  answered : s.place = .returned → ∀ r, .received r ∈ s.log → answers r s.log = 1
  stopped : s.place = .returned → s.running = false

/-- No shutdown comes into a restart, and no restart into a shutdown. -/
def Calm (s : State) : Action → Prop
  | .shutdown => s.restarting = false
  | .request _ => p.reload = true ∨ s.cancelled = false
  | .internal => True

/-! ### What all runs keep -/

section Invariant

variable {p}

/-- What is there in each place: no instance, or the last one or its result. -/
def Shape (s : State) : Prop :=
  match s.place with
  | .loop => s.running = false ∧ s.live = []
  | .waiting _ => s.running = false ∧ s.live = [] ∧ s.restarted = none
  | .returned => s.live = []
  | _ => s.running = true ∧ s.restarted = none ∧
    (s.live = [s.generation] ∧ s.result = none ∨ s.live = [] ∧ s.result.isSome)

/-- Every request is received once, and it has been answered or is outstanding. -/
def Account (s : State) : Prop :=
  ∀ r, s.log.count (.received r) ≤ 1 ∧
    answers r s.log + (if s.outstanding = some r then 1 else 0) = s.log.count (.received r)

@[simp] theorem answers_received : answers r (.received r' :: log) = answers r log :=
  List.countP_cons_of_neg (by simp)

@[simp] theorem answers_started : answers r (.started :: log) = answers r log :=
  List.countP_cons_of_neg (by simp)

@[simp] theorem answers_answered :
    answers r (.answered r' err :: log) = answers r log + if r' = r then 1 else 0 := by
  simp [answers, List.countP_cons]

/-- **Instances.** They come one after another. -/
theorem Step.shape (h : Step p action s t) (hs : Shape s) : Shape t := by
  cases h with
  | shutdown => exact hs
  | receive hplace =>
    simp only [Shape, hplace] at hs
    unfold Shape
    cases p.reload <;> exact hs
  | instanceReturns err hlive =>
    unfold Shape at hs ⊢
    grind
  | start hplace | leave hplace | reload _ hplace | restart hplace | restartShut hplace
  | failed hplace | exited hplace | again hplace | giveUp hplace | stop hplace | stopped hplace =>
    simp only [Shape, hplace] at hs ⊢
    first
    | exact hs
    | grind [State.setStarted, State.setStopped]

/-- **Requests.** None is lost, and none is answered twice. -/
theorem Step.account (h : Step p action s t) (hshape : Shape s) (hs : Account s) : Account t := by
  intro r
  have ⟨honce, hsum⟩ := hs r
  cases h with
  | shutdown | instanceReturns => exact hs r
  | receive hplace hnew =>
    simp only [Shape, hplace] at hshape
    have hzero := List.count_eq_zero.mpr hnew
    simp only [State.outstanding, hplace, hshape.2.1] at hsum
    simp only [answers_received, List.count_cons]
    cases p.reload <;> simp only [State.outstanding, reduceCtorEq, if_false, if_true] <;> grind
  | start hplace | leave hplace | reload _ hplace | restart hplace | restartShut hplace
  | failed hplace | exited hplace | again hplace | giveUp hplace | stop hplace | stopped hplace =>
    simp only [Shape, hplace] at hshape
    simp only [State.outstanding, hplace] at hsum ⊢
    cases hrestarted : s.restarted <;> simp_all [State.acknowledge, State.setStopped]
    try grind

/-- A request without an answer was received. -/
theorem Account.received (h : Account s) (hr : s.outstanding = some r) : .received r ∈ s.log := by
  have hsum := (h r).2
  rw [if_pos hr] at hsum
  exact List.count_pos_iff.mp (by omega)

/-- **Answers.** A success is answered with the start of the next instance. -/
theorem Step.order (h : Step p action s t) (hreload : p.reload = false) (hshape : Shape s)
    (hs : Account s) (horder : (∀ r, s.place ≠ .reloading r) ∧ AnswersAfterStart s.log) :
    (∀ r, t.place ≠ .reloading r) ∧ AnswersAfterStart t.log := by
  cases h with
  | shutdown | instanceReturns => exact horder
  | receive => simp [hreload, horder.2, AnswersAfterStart]
  | reload _ hplace => exact absurd hplace (horder.1 _)
  | start hplace =>
    refine ⟨nofun, ?_⟩
    cases hrestarted : s.restarted with
    | none => simpa [State.acknowledge, hrestarted, AnswersAfterStart] using horder.2
    | some r =>
      have hreceived := hs.received (r := r) (by simp [State.outstanding, hplace, hrestarted])
      obtain ⟨since, before, heq⟩ := List.append_of_mem hreceived
      simp only [State.acknowledge, hrestarted, Option.toList_some, List.map_cons, List.map_nil,
        List.cons_append, List.nil_append, AnswersAfterStart]
      exact ⟨⟨.started :: since, before, by rw [heq, List.cons_append], List.mem_cons_self⟩,
        horder.2⟩
  | stopped hplace =>
    simp only [Shape, hplace] at hshape
    simpa [State.acknowledge, hshape.2.1] using horder.2
  | leave | restart | restartShut | failed | exited | again | giveUp | stop =>
    exact ⟨nofun, by simpa [AnswersAfterStart, State.setStopped] using horder.2⟩

/-- A shutdown is in a restart, or was. -/
def Spoiled (s : State) : Prop :=
  match s.place with
  | .stopping _ => s.cancelled = true
  | .loop => s.cancelled = true ∧ s.restarted.isSome
  | .returned => s.running = true ∨ s.restarted.isSome
  | _ => False

/-- **Restarts.** What is spoiled stays so, and only a shutdown in a restart spoils. -/
theorem Step.spoiled_iff (h : Step p action s t) (hshape : Shape s) :
    Spoiled t ↔ Spoiled s ∨ ¬ Calm p s action := by
  cases h with
  | shutdown =>
    unfold Spoiled Calm State.restarting
    grind
  | receive hplace =>
    unfold Spoiled Calm
    cases hreload : p.reload <;> simp [hplace]
  | instanceReturns => simp [Spoiled, Calm]
  | start hplace | leave hplace | reload _ hplace | restart hplace | restartShut hplace
  | failed hplace | exited hplace | again hplace | giveUp hplace | stop hplace | stopped hplace =>
    simp only [Shape, hplace] at hshape
    simp_all [Spoiled, Calm, State.setStopped]

/-- What holds in every run. -/
structure Sound (p : Program) (history : List (State × Action)) (s : State) : Prop where
  shape : Shape s
  account : Account s
  order : p.reload = false → (∀ r, s.place ≠ .reloading r) ∧ AnswersAfterStart s.log
  spoiled_iff : Spoiled s ↔ ¬ ∀ step ∈ history, Calm p step.1 step.2

theorem Run.sound (h : Run p history s) : Sound p history s := by
  induction h with
  | begin =>
    exact ⟨⟨rfl, rfl⟩, fun r => by simp [answers, State.outstanding], fun _ => ⟨nofun, trivial⟩,
      by simp [Spoiled]⟩
  | step h hstep ih =>
    refine ⟨hstep.shape ih.shape, hstep.account ih.shape ih.account,
      fun hreload => hstep.order hreload ih.shape ih.account (ih.order hreload), ?_⟩
    rw [hstep.spoiled_iff ih.shape, ih.spoiled_iff, List.forall_mem_cons]
    tauto

end Invariant

/-- **Discipline.** In every run there is one instance at a time, and a success is answered after a
    newer one was started.  In the end all requests are answered once and the program is reported
    as stopped, exactly if no restart met a shutdown. -/
theorem run_disciplined_iff (h : Run p history s) :
    Disciplined p s ↔ (s.place = .returned → ∀ step ∈ history, Calm p step.1 step.2) := by
  obtain ⟨hshape, haccount, horder, hspoiled⟩ := h.sound
  have hsingle : s.live.length ≤ 1 := by
    unfold Shape at hshape
    grind
  suffices hend : s.place = .returned →
      ((∀ r, .received r ∈ s.log → answers r s.log = 1) ∧ s.running = false ↔ ¬ Spoiled s) by
    rw [hspoiled, not_not] at hend
    refine ⟨fun hd hplace => (hend hplace).mp ⟨hd.answered hplace, hd.stopped hplace⟩,
      fun hcalm => ?_⟩
    exact ⟨hsingle, fun hreload => (horder hreload).2,
      fun hplace => ((hend hplace).mpr (hcalm hplace)).1,
      fun hplace => ((hend hplace).mpr (hcalm hplace)).2⟩
  intro hplace
  simp only [Account, State.outstanding, hplace] at haccount
  simp only [Spoiled, hplace, not_or, Bool.not_eq_true]
  constructor
  · rintro ⟨hanswered, hstopped⟩
    refine ⟨hstopped, ?_⟩
    cases hrestarted : s.restarted with
    | none => rfl
    | some r =>
      -- its answer is missing
      obtain ⟨honce, hsum⟩ := haccount r
      rw [hrestarted, if_pos rfl] at hsum
      have hone := hanswered r (List.count_pos_iff.mp (by omega))
      omega
  · rintro ⟨hstopped, hnone⟩
    refine ⟨fun r hr => ?_, hstopped⟩
    obtain ⟨honce, hsum⟩ := haccount r
    have hpos := List.count_pos_iff.mpr hr
    rw [Option.isSome_eq_false_iff, Option.isNone_iff_eq_none] at hnone
    rw [hnone, if_neg nofun] at hsum
    omega

/-- A program that is restarted while the system shuts down. -/
theorem sampleRun : ∃ history s, Run ⟨false⟩ history s ∧ s.place = .returned ∧ s.running = true :=
  ⟨_, _, (((((Run.begin).step (.start rfl rfl)).step (.receive (r := 0) rfl (by decide))).step
    .shutdown).step (.instanceReturns none List.mem_cons_self)).step (.restartShut rfl rfl rfl),
    rfl, rfl⟩

/-- **A restart in a shutdown.** The program is reported as running when nothing of it is left. -/
theorem restart_spoiled : ∃ history s, Run ⟨false⟩ history s ∧ ¬ Disciplined ⟨false⟩ s := by
  obtain ⟨history, s, hrun, hplace, hrunning⟩ := sampleRun
  exact ⟨history, s, hrun, fun h => by simp [h.stopped hplace] at hrunning⟩

theorem sampleRun_disciplined_iff : ∃ history s, Run ⟨false⟩ history s ∧ s.place = .returned ∧
    (Disciplined ⟨false⟩ s ↔
      (s.place = .returned → ∀ step ∈ history, Calm ⟨false⟩ step.1 step.2)) := by
  obtain ⟨history, s, hrun, hplace, -⟩ := sampleRun
  exact ⟨history, s, hrun, hplace, run_disciplined_iff _ hrun⟩

end SbGateway.Appliance
