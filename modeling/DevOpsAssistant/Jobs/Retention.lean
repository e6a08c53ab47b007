import DevOpsAssistant.Lists.Ordered
import DevOpsAssistant.Specs.Runs
import DevOpsAssistant.Workers.Tasks

/-!
# Retention of background tasks

The lookup of an idempotency key judges a task by the time it has ended, the cleanup by the time it
was created.

* `Replays`: the lookup returns a task; **`replays_iff`**.
* `ends_cleanupBackgroundTasks`: the tasks that are left.
* **`replay_kept_iff`**: a task that is looked up survives a cleanup at the same moment exactly if
  it is not an old one that has succeeded or was cancelled.
-/

namespace DevOps

open Txn

/-- The tasks as a cleanup with the cutoff `cutoff` leaves them. -/
def keptTasks (cutoff : Time) (tasks : List BackgroundTask) : List BackgroundTask :=
  tasks.filter fun t => !TaskRepository.expiredBefore cutoff t

variable (env : Env)

/-- The cutoff that is computed from the next reading of the clock. -/
def cutoffAt (w : World) : Time := w.tick.time - days env.settings.backgroundTaskRetentionDays

/-- The lookup of an idempotency key returns `t`. -/
def Replays (user : User) (taskType : String) (key : Option String) (s : Session Row World)
    (t : BackgroundTask) : Prop :=
  (TaskService.getExistingIdempotentTask env user taskType key).Ends respond s fun r _ =>
    r = .ok (some t)

variable {env} {user : User} {taskType : String} {key : Option String} {s : Session Row World}
  {t : BackgroundTask}

theorem ends_retentionCutoff {α : Type} {g : Time → Db α}
    {Φ : Except Exc α → Session Row World → Prop} :
    (TaskService.retentionCutoff env >>= g).Ends respond s Φ ↔
      (g (cutoffAt env s.world)).Ends respond { s with world := s.world.tick } Φ := by
  unfold TaskService.retentionCutoff cutoffAt
  rw [bind_assoc]
  simp only [pure_bind]
  exact ends_now

/-! ## The lookup -/

/-- The task has ended before the cutoff. -/
def endedBefore (cutoff : Time) (t : BackgroundTask) : Bool :=
  t.status.terminal && t.completedAt.any fun completedAt => decide (completedAt < cutoff)

theorem ends_lookup {k : String} (hne : k ≠ "") :
    (TaskService.getExistingIdempotentTask env user taskType (some k)).Ends respond s fun r s' =>
      r = .ok ((TaskRepository.latest ((rowsOf BackgroundTask s.view).filter
        (keyedBy user.id taskType k))).filter fun t => !endedBefore (cutoffAt env s.world) t) ∧
      s'.view = s.view := by
  have hkey : (some k).filter (fun k => decide (k ≠ "")) = some k := by simp [hne]
  unfold TaskService.getExistingIdempotentTask TaskRepository.getByIdempotencyKey
  rw [hkey]
  simp only [bind_assoc]
  refine ends_selectOf.mpr ?_
  rw [pure_bind]
  cases TaskRepository.latest
    ((rowsOf BackgroundTask s.view).filter (keyedBy user.id taskType k)) with
  | none => exact ⟨rfl, rfl⟩
  | some t =>
    dsimp only
    rw [Option.filter_some]
    cases hdone : t.completedAt with
    | none =>
      have hended : endedBefore (cutoffAt env s.world) t = false := by simp [endedBefore, hdone]
      rw [hended]
      exact ends_pure.mpr ⟨rfl, rfl⟩
    | some completedAt =>
      dsimp only
      by_cases hterminal : t.status.terminal = true
      · rw [if_pos hterminal]
        refine ends_retentionCutoff.mpr ?_
        have hended : endedBefore (cutoffAt env s.world) t =
            decide (completedAt < cutoffAt env s.world) := by
          rw [endedBefore, hdone, hterminal, Option.any_some, Bool.true_and]
        rw [hended]
        by_cases hlt : completedAt < cutoffAt env s.world
        · rw [if_pos hlt, decide_eq_true hlt]
          exact ends_pure.mpr ⟨rfl, rfl⟩
        · rw [if_neg hlt, decide_eq_false hlt]
          exact ends_pure.mpr ⟨rfl, rfl⟩
      · have hended : endedBefore (cutoffAt env s.world) t = false := by
          simp [endedBefore, hterminal]
        rw [if_neg hterminal, hended]
        exact ends_pure.mpr ⟨rfl, rfl⟩

/-- **The lookup** returns the latest task with the key, unless that has ended before the cutoff. -/
theorem replays_iff : Replays env user taskType key s t ↔ ∃ k, key = some k ∧ k ≠ "" ∧
    TaskRepository.latest ((rowsOf BackgroundTask s.view).filter (keyedBy user.id taskType k)) =
      some t ∧ endedBefore (cutoffAt env s.world) t = false := by
  constructor
  · intro h
    have hkey : ∃ k, key = some k ∧ k ≠ "" := by
      by_contra hnone
      have hfilter : key.filter (fun k => decide (k ≠ "")) = none := by
        rw [Option.filter_eq_none_iff]
        intro k hk hne
        exact hnone ⟨k, hk, of_decide_eq_true hne⟩
      unfold Replays TaskService.getExistingIdempotentTask at h
      rw [hfilter] at h
      cases h
    obtain ⟨k, rfl, hne⟩ := hkey
    have hfound := Except.ok.inj ((ends_lookup hne).1.symm.trans h)
    obtain ⟨hlatest, hended⟩ := Option.filter_eq_some_iff.mp hfound
    exact ⟨k, rfl, hne, hlatest, by simpa using hended⟩
  · rintro ⟨k, rfl, hne, hlatest, hended⟩
    refine (ends_lookup hne).mono fun r _ hr => ?_
    rw [hr.1, hlatest, Option.filter_some, hended]
    rfl

/-! ## The cleanup -/

/-- **The cleanup** deletes the tasks that were created before the cutoff and are over, unless they
have failed. -/
theorem ends_cleanupBackgroundTasks (s : State) :
    (cleanupBackgroundTasks env).Ends respond s.session fun _ s' =>
      rowsOf BackgroundTask s'.committed = (rowsOf BackgroundTask s.committed).filter (fun t =>
        !TaskRepository.expiredBefore (cutoffAt env s.world) t) ∧ s'.world = s.world.tick := by
  unfold cleanupBackgroundTasks TaskService.cleanupExpiredTasks TaskRepository.deleteExpiredBefore
  simp only [bind_assoc]
  refine ends_retentionCutoff.mpr ?_
  refine ends_deleteOf.mpr ?_
  rw [pure_bind]
  exact ⟨rowsOf_deleted _, rfl⟩

/-- The state after a cleanup. -/
def State.cleaned (env : Env) (s : State) : State :=
  (s.serve respond (fun _ : Unit => cleanupBackgroundTasks env) ()).2

/-- **A task that is looked up survives** a cleanup at the same moment, and is looked up again,
exactly if it was not created before the cutoff, or has neither succeeded nor been cancelled. -/
theorem replay_kept_iff (env : Env) (s : State) (hmoment : ∀ n, s.world.ticks n = 0) (user : User)
    (taskType : String) (key : Option String) (t : BackgroundTask)
    (h : Replays env user taskType key s.session t) :
    (t ∈ rowsOf BackgroundTask (s.cleaned env).committed ∧
      Replays env user taskType key (s.cleaned env).session t) ↔
    ¬ (t.createdAt < s.world.time - days env.settings.backgroundTaskRetentionDays ∧
      (t.status = .succeeded ∨ t.status = .cancelled)) := by
  obtain ⟨k, rfl, hne, hlatest, hended⟩ := replays_iff.mp h
  obtain ⟨hrows, hworld⟩ : rowsOf BackgroundTask (s.cleaned env).committed =
      (rowsOf BackgroundTask s.committed).filter (fun t =>
        !TaskRepository.expiredBefore (cutoffAt env s.world) t) ∧
      (s.cleaned env).world = s.world.tick :=
    ends_cleanupBackgroundTasks s
  have hticks : ∀ n, s.world.tick.ticks n = 0 := hmoment
  have hcutoff : cutoffAt env s.world =
      s.world.time - days env.settings.backgroundTaskRetentionDays := by
    simp [cutoffAt, World.tick, hmoment]
  have hcutoff' : cutoffAt env s.world.tick = cutoffAt env s.world := by
    simp [cutoffAt, World.tick, hmoment]
  have hmem : t ∈ rowsOf BackgroundTask s.committed :=
    (List.mem_filter.mp (List.mem_mergeSort.mp (List.mem_of_head? hlatest))).1
  have hexpired : TaskRepository.expiredBefore (cutoffAt env s.world) t = true ↔
      t.createdAt < s.world.time - days env.settings.backgroundTaskRetentionDays ∧
        (t.status = .succeeded ∨ t.status = .cancelled) := by
    simp [TaskRepository.expiredBefore, hcutoff]
  rw [← hexpired]
  constructor
  · rintro ⟨hkept, -⟩ hgone
    rw [hrows, List.mem_filter, hgone] at hkept
    exact Bool.false_ne_true hkept.2
  · intro hkept
    have hkept : (!TaskRepository.expiredBefore (cutoffAt env s.world) t) = true := by
      simpa using hkept
    refine ⟨hrows ▸ List.mem_filter.mpr ⟨hmem, hkept⟩, replays_iff.mpr ⟨k, rfl, hne, ?_, ?_⟩⟩
    · change TaskRepository.latest ((rowsOf BackgroundTask (s.cleaned env).committed).filter _) = _
      rw [hrows, List.filter_comm]
      refine Ordered.head?_mergeSort_filter (fun a b c hab hbc => ?_) (fun a b => ?_)
        (nodup_rowsOf.filter _) hlatest hkept
      · exact decide_eq_true (Nat.le_trans (of_decide_eq_true hbc) (of_decide_eq_true hab))
      · rw [Bool.or_eq_true, decide_eq_true_iff, decide_eq_true_iff]
        exact Nat.le_total _ _
    · change endedBefore (cutoffAt env (s.cleaned env).world) t = false
      rw [hworld, hcutoff']
      exact hended

/-- A task that was created on the first day, and is over since the end of the 31st. -/
def slowTask (status : TaskStatus) : BackgroundTask :=
  { id := 2, celeryTaskId := none, userId := 1, organizationId := none
    taskType := TASK_TYPE_LOG_ANALYSIS, status, progress := 0, errorCode := none
    errorMessage := none, idempotencyKey := some "k", createdAt := 0, startedAt := none
    completedAt := some (days 31), expiresAt := some (days 30), cancelledAt := none }

/-- The moment at which the task has ended. -/
def slowState (status : TaskStatus) : State :=
  { State.trial with
    nextId := 3
    world := { State.trial.world with time := days 31, ticks := fun _ => 0 }
    committed := Table.empty.apply [.store (toRow (slowTask status))] }

/-- The user of the task. -/
def slowUser : User :=
  { id := 1, email := "a", username := "a", hashedPassword := "a", role := .user, isActive := true,
    emailVerifiedAt := none }

theorem replays_slowTask (status : TaskStatus) :
    Replays .trial slowUser TASK_TYPE_LOG_ANALYSIS (some "k") (slowState status).session
      (slowTask status) := by
  have hrows : rowsOf BackgroundTask (slowState status).session.view = [slowTask status] := rfl
  have hkeyed : keyedBy slowUser.id TASK_TYPE_LOG_ANALYSIS "k" (slowTask status) = true := rfl
  refine replays_iff.mpr ⟨"k", rfl, by decide, ?_, ?_⟩
  · rw [hrows, List.filter_cons_of_pos hkeyed, List.filter_nil, TaskRepository.latest,
      List.mergeSort_singleton]
    rfl
  · have hended : ¬ days 31 < cutoffAt .trial (slowState status).session.world := by
      change ¬ days 31 < days 31 + 0 - days 30
      decide
    have hdone : (slowTask status).completedAt = some (days 31) := rfl
    rw [endedBefore, hdone, Option.any_some, decide_eq_false hended, Bool.and_false]

/-- A task that has failed stays. -/
theorem replay_kept_failed :
    slowTask .failed ∈ rowsOf BackgroundTask ((slowState .failed).cleaned .trial).committed ∧
      Replays .trial slowUser TASK_TYPE_LOG_ANALYSIS (some "k")
        ((slowState .failed).cleaned .trial).session (slowTask .failed) :=
  (replay_kept_iff .trial (slowState .failed) (fun _ => rfl) slowUser TASK_TYPE_LOG_ANALYSIS
    (some "k") (slowTask .failed) (replays_slowTask .failed)).mpr (by decide)

/-- A task that was cancelled a moment ago is forgotten. -/
theorem replay_forgotten : ¬ ∀ (env : Env) (s : State), (∀ n, s.world.ticks n = 0) →
    ∀ (user : User) (taskType : String) (key : Option String) (t : BackgroundTask),
      Replays env user taskType key s.session t →
        t ∈ rowsOf BackgroundTask (s.cleaned env).committed ∧
          Replays env user taskType key (s.cleaned env).session t := by
  intro h
  obtain ⟨hkept, -⟩ := h .trial (slowState .cancelled) (fun _ => rfl) slowUser
    TASK_TYPE_LOG_ANALYSIS (some "k") (slowTask .cancelled) (replays_slowTask .cancelled)
  have hnone : rowsOf BackgroundTask ((slowState .cancelled).cleaned .trial).committed = [] := by
    decide
  rw [hnone] at hkept
  cases hkept

end DevOps
