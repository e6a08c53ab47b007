import DevOpsAssistant.Specs.Objects
import Std.Data.String.ToNat

/-!
# What sessions do to background tasks

* `jobTables`, `jobDiscipline`: tasks and analyses; neither is deleted, and each keeps its owner and its
  keys.
* `commits`, `publishes`, `Started`: how far a session has come.
* `StatusWrite`: who may write which status of a task, after what it has read.
* `JobWrites`: the writes of a session, one by one; **`JobWrites.task`**: where a task comes from.
* `JobOwes`: what a session owes at a commit; **`commitOk_of_jobOwes`**.
-/

namespace DevOps

open Txn Discipline

/-- The tables of tasks and analyses. -/
def jobTables : TableName → Bool
  | .backgroundTasks | .analyses => true
  | _ => false

/-- A task keeps its owner, its type and its idempotency key. -/
structure SameTask (t t' : BackgroundTask) : Prop where
  id : t'.id = t.id
  userId : t'.userId = t.userId
  taskType : t'.taskType = t.taskType
  idempotencyKey : t'.idempotencyKey = t.idempotencyKey

theorem SameTask.refl (t : BackgroundTask) : SameTask t t := ⟨rfl, rfl, rfl, rfl⟩

theorem SameTask.trans {t t' t'' : BackgroundTask} (s : SameTask t t') (s' : SameTask t' t'') :
    SameTask t t'' :=
  ⟨s'.id.trans s.id, s'.userId.trans s.userId, s'.taskType.trans s.taskType,
    s'.idempotencyKey.trans s.idempotencyKey⟩

theorem SameTask.keyedBy_eq {t t' : BackgroundTask} (s : SameTask t t') (u : UUID)
    (taskType key : String) : keyedBy u taskType key t' = keyedBy u taskType key t := by
  simp [keyedBy, s.userId, s.taskType, s.idempotencyKey]

/-- An analysis keeps its owner and its task. -/
structure SameAnalysis (a a' : Analysis) : Prop where
  id : a'.id = a.id
  userId : a'.userId = a.userId
  taskId : a'.taskId = a.taskId

theorem SameAnalysis.refl (a : Analysis) : SameAnalysis a a := ⟨rfl, rfl, rfl⟩

theorem SameAnalysis.trans {a a' a'' : Analysis} (s : SameAnalysis a a') (s' : SameAnalysis a' a'') :
    SameAnalysis a a'' :=
  ⟨s'.id.trans s.id, s'.userId.trans s.userId, s'.taskId.trans s.taskId⟩

/-- Every task and every analysis of `c` is in `d`. -/
structure JobsKept (c d : Database) : Prop where
  tasks : ∀ t ∈ rowsOf BackgroundTask c, ∃ t' ∈ rowsOf BackgroundTask d, SameTask t t'
  analyses : ∀ a ∈ rowsOf Analysis c, ∃ a' ∈ rowsOf Analysis d, SameAnalysis a a'

theorem JobsKept.refl (c : Database) : JobsKept c c :=
  ⟨fun t ht => ⟨t, ht, .refl t⟩, fun a ha => ⟨a, ha, .refl a⟩⟩

theorem JobsKept.trans {c d e : Database} (k : JobsKept c d) (k' : JobsKept d e) : JobsKept c e := by
  refine ⟨fun t ht => ?_, fun a ha => ?_⟩
  · obtain ⟨t', ht', s⟩ := k.tasks t ht
    obtain ⟨t'', ht'', s'⟩ := k'.tasks t' ht'
    exact ⟨t'', ht'', s.trans s'⟩
  · obtain ⟨a', ha', s⟩ := k.analyses a ha
    obtain ⟨a'', ha'', s'⟩ := k'.analyses a' ha'
    exact ⟨a'', ha'', s.trans s'⟩

/-- Every task of the user `u` with the key `key` has its analysis. -/
def Analysed (u : UUID) (key : String) (c : Database) : Prop :=
  ∀ t ∈ rowsOf BackgroundTask c, keyedBy u TASK_TYPE_LOG_ANALYSIS key t = true →
    ∃ a ∈ rowsOf Analysis c, a.taskId = some (toString t.id)

/-- The identifiers of tasks a row makes known. -/
def jobNames : Row → List ℕ
  | .backgroundTask t => [t.id]
  | .analysis a => (a.taskId.bind String.toNat?).toList
  | _ => []

/-- What sessions assume of tasks while others run; for the sake of the tasks with the key `key`, also
that identifiers of tasks are new when they are drawn. -/
def jobDiscipline (key : Option (UUID × String)) : Discipline Row where
  inv c := ∀ k ∈ key, Analysed k.1 k.2 c
  follows c d := (∀ k ∈ key, Analysed k.1 k.2 c) ∧ JobsKept c d
  names r := if key.isSome then jobNames r else []
  follows_refl h := ⟨h, .refl _⟩

/-! ## How far a session has come -/

/-- The number of commits of a session. -/
def commits (h : Told) : ℕ := h.countP fun
  | .commit => true
  | _ => false

/-- The messages a session has sent to the workers, the latest first. -/
def publishes (h : Told) : List CeleryMessage := h.filterMap fun
  | .answer (.publish m) _ => some m
  | _ => none

theorem commits_commit (h : Told) : commits (.commit :: h) = commits h + 1 := List.countP_cons_of_pos rfl

theorem publishes_commit (h : Told) : publishes (.commit :: h) = publishes h := rfl

theorem ToldMore.commits_eq {h h' : Told} (g : ToldMore h h') : commits h' = commits h := by
  obtain ⟨es, rfl, hes⟩ := g
  have hnil : commits es = 0 := by
    refine List.countP_eq_zero.mpr fun e he => ?_
    have := hes e he
    cases e with
    | commit => exact this.elim
    | read | answer => exact Bool.false_ne_true
  rw [commits, List.countP_append]
  exact (congrArg (· + _) hnil).trans (Nat.zero_add _)

theorem ToldMore.publishes_eq {h h' : Told} (g : ToldMore h h') : publishes h' = publishes h := by
  obtain ⟨es, rfl, hes⟩ := g
  have hnil : publishes es = [] := by
    refine List.filterMap_eq_nil_iff.mpr fun e he => ?_
    have := hes e he
    cases e with
    | answer q a =>
      cases q with
      | publish m => exact this.elim
      | _ => rfl
    | read | commit => rfl
  rw [publishes, List.filterMap_append]
  exact (congrArg (· ++ _) hnil).trans (List.nil_append _)

/-- The read of the rows that satisfy `p`. -/
def readOf {T : Type} [Entity T] (p : T → Bool) (c : Database) : Event Row Answer :=
  .read (fun r => (ofRow r).any p) c

/-- The first two reads of a worker found the analysis and the task of its message. -/
def Started (m : CeleryMessage) (h : Told) : Prop :=
  ∃ es c c', h = es ++ [readOf (taskIs m.backgroundTaskId) c',
      readOf (analysisOf m.analysisId m.userId) c] ∧
    (∃ a ∈ rowsOf Analysis c, analysisOf m.analysisId m.userId a = true) ∧
    ∃ t ∈ rowsOf BackgroundTask c', taskIs m.backgroundTaskId t = true

theorem Started.append {m : CeleryMessage} {h : Told} (s : Started m h) (es : Told) :
    Started m (es ++ h) := by
  obtain ⟨fs, c, c', rfl, found⟩ := s
  exact ⟨es ++ fs, c, c', (List.append_assoc _ _ _).symm, found⟩

/-- A worker whose first read found no analysis has not started. -/
theorem not_started_of_analysis {m : CeleryMessage} {c : Database} {h es : Told}
    (hh : h = es ++ [readOf (analysisOf m.analysisId m.userId) c])
    (hn : ∀ a ∈ rowsOf Analysis c, analysisOf m.analysisId m.userId a = false) : ¬ Started m h := by
  rintro ⟨fs, c₁, c₂, heq, ⟨a, ha, hp⟩, -⟩
  rw [hh, show fs ++ [readOf (taskIs m.backgroundTaskId) c₂,
      readOf (analysisOf m.analysisId m.userId) c₁] = (fs ++ [readOf (taskIs m.backgroundTaskId) c₂])
      ++ [readOf (analysisOf m.analysisId m.userId) c₁] by simp] at heq
  obtain ⟨-, rfl⟩ := Event.read.inj (List.singleton_inj.mp (List.append_inj_right' heq rfl))
  rw [hn a ha] at hp
  cases hp

/-- A worker whose second read found no task has not started. -/
theorem not_started_of_task {m : CeleryMessage} {c : Database} {h es : Told} {e : Event Row Answer}
    (hh : h = es ++ [readOf (taskIs m.backgroundTaskId) c, e])
    (hn : ∀ t ∈ rowsOf BackgroundTask c, taskIs m.backgroundTaskId t = false) : ¬ Started m h := by
  rintro ⟨fs, c₁, c₂, heq, -, t, ht, hp⟩
  rw [hh] at heq
  have hread := List.append_inj_right' heq rfl
  obtain ⟨-, rfl⟩ := Event.read.inj (List.cons.inj hread).1
  rw [hn t ht] at hp
  cases hp

/-- The run of a worker ends with this commit. -/
def LastCommit (m : CeleryMessage) (h : Told) : Prop :=
  (commits h = 0 ∧ ¬ Started m h) ∨ (commits h = 1 ∧ Started m h)

/-! ## Writes -/

/-- A session that has read the status `s` of the task `id` may write the status that follows. -/
inductive StatusWrite (h : Told) : JobRequest → UUID → TaskStatus → TaskStatus → Prop where
  | cancel {access id s} (first : commits h = 0) (going : s.terminal = false) :
      StatusWrite h (.task (.cancel access id)) id s .cancelled
  | run {m : CeleryMessage} {s} (first : commits h = 0) (going : s.terminal = false) :
      StatusWrite h (.analyzeLogs m) m.backgroundTaskId s .running
  | finish {m : CeleryMessage} {s s'} (last : LastCommit m h) (uncancelled : s ≠ .cancelled)
      (ended : s'.terminal = true) : StatusWrite h (.analyzeLogs m) m.backgroundTaskId s s'

/-- What a session may make of the row of a task. -/
structure TaskStep (h : Told) (req : JobRequest) (row row' : BackgroundTask) : Prop where
  same : SameTask row row'
  status : row'.status = row.status ∨
    ∃ t, Saw (taskIs row.id) t h ∧ StatusWrite h req row.id t.status row'.status
  completed : row'.completedAt = row.completedAt ∨
    ∃ t, row'.completedAt = some t ∧ .answer .now t ∈ h

/-- The session has looked for a task of the user `u` with the key `key`, and has found none, or an
expired one. -/
def Unkeyed (env : Env) (u : UUID) (key : String) (h : Told) : Prop :=
  ∃ c, Reads (keyedBy u TASK_TYPE_LOG_ANALYSIS key) c h ∧
    ((∀ t ∈ rowsOf BackgroundTask c, keyedBy u TASK_TYPE_LOG_ANALYSIS key t = false) ∨
      ∃ t ∈ rowsOf BackgroundTask c, keyedBy u TASK_TYPE_LOG_ANALYSIS key t = true ∧
        ∃ done now, t.completedAt = some done ∧ .answer .now now ∈ h ∧
          done < now - days env.settings.backgroundTaskRetentionDays)

/-- A task that an enqueue creates. -/
structure NewTask (env : Env) (h : Told) (ids : List ℕ) (req : JobRequest) (t : BackgroundTask) :
    Prop where
  request : ∃ access content provider o user, SignedIn env access user h ∧ t.userId = user.id ∧
    req = .enqueue access content provider o t.idempotencyKey
  fresh : t.id ∈ ids
  queued : t.status = .queued
  completed : t.completedAt = none ∨ ∃ now, t.completedAt = some now ∧ .answer .now now ∈ h
  unkeyed : ∀ key, t.idempotencyKey = some key → key ≠ "" → Unkeyed env t.userId key h

/-- The session has drawn the identifier `n`, or has read a task with it. -/
def KnownTask (h : Told) (ids : List ℕ) (n : ℕ) : Prop :=
  n ∈ ids ∨ ∃ (p : BackgroundTask → Bool) (t : BackgroundTask), Saw p t h ∧ t.id = n

/-- The writes of a session to tasks and analyses, in their order. -/
inductive JobWrites (env : Env) (h : Told) (ids : List ℕ) (req : JobRequest) (c : Database) :
    List (Write Row Key) → Prop where
  | nil : JobWrites env h ids req c []
  | task {ws row row'} (before : JobWrites env h ids req c ws)
      (mem : row ∈ rowsOf BackgroundTask (c.apply ws)) (step : TaskStep h req row row') :
      JobWrites env h ids req c (ws ++ [.store (toRow row')])
  | newTask {ws} {t : BackgroundTask} (before : JobWrites env h ids req c ws)
      (absent : ∀ u ∈ rowsOf BackgroundTask (c.apply ws), u.id ≠ t.id)
      (new : NewTask env h ids req t) : JobWrites env h ids req c (ws ++ [.store (toRow t)])
  | analysis {ws row row'} (before : JobWrites env h ids req c ws)
      (mem : row ∈ rowsOf Analysis (c.apply ws)) (same : SameAnalysis row row') :
      JobWrites env h ids req c (ws ++ [.store (toRow row')])
  | newAnalysis {ws} {a : Analysis} {n : ℕ} (before : JobWrites env h ids req c ws)
      (absent : ∀ b ∈ rowsOf Analysis (c.apply ws), b.id ≠ a.id)
      (task : a.taskId = some (toString n)) (known : KnownTask h ids n) :
      JobWrites env h ids req c (ws ++ [.store (toRow a)])

/-! ## A session goes on -/

/-- The session has been told more since, and is as far as it was. -/
structure Recalls (req : JobRequest) (h h' : Told) : Prop where
  mem : ∀ e ∈ h, e ∈ h'
  commits : commits h' = commits h
  started : ∀ m, req = .analyzeLogs m → (Started m h' ↔ Started m h)

theorem started_append_iff {m : CeleryMessage} {h : Told} (hlen : 2 ≤ h.length) (es : Told) :
    Started m (es ++ h) ↔ Started m h := by
  refine ⟨fun ⟨fs, c, c', heq, found⟩ => ?_, fun s => s.append es⟩
  rcases List.append_eq_append_iff.mp heq with ⟨as, -, hh⟩ | ⟨bs, -, hh⟩
  · exact ⟨as, c, c', hh, found⟩
  · -- the two reads are all of `h`
    have hbs : bs = [] := by
      have := congrArg List.length hh
      simp only [List.length_append, List.length_cons, List.length_nil] at this
      exact List.length_eq_zero_iff.mp (by omega)
    rw [hbs, List.nil_append] at hh
    exact ⟨[], c, c', hh.symm, found⟩

section Writes

variable {env : Env} {h h' : Told} {ids ids' : List ℕ} {req : JobRequest} {c c' : Database}
  {ws : List (Write Row Key)} {row row' row'' : BackgroundTask}

theorem ToldMore.recalls (g : ToldMore h h')
    (hs : ∀ m, req = .analyzeLogs m → (Started m h' ↔ Started m h)) : Recalls req h h' :=
  ⟨fun _ he => g.mem he, g.commits_eq, hs⟩

theorem StatusWrite.mono {id : UUID} {s s' : TaskStatus} (w : StatusWrite h req id s s')
    (g : Recalls req h h') : StatusWrite h' req id s s' := by
  cases w with
  | cancel first going => exact .cancel (g.commits.trans first) going
  | run first going => exact .run (g.commits.trans first) going
  | finish last uncancelled ended =>
    refine .finish ?_ uncancelled ended
    rwa [LastCommit, g.commits, g.started _ rfl]

theorem TaskStep.refl (row : BackgroundTask) : TaskStep h req row row := ⟨.refl row, .inl rfl, .inl rfl⟩

theorem TaskStep.trans (s : TaskStep h req row row') (s' : TaskStep h req row' row'') :
    TaskStep h req row row'' := by
  refine ⟨s.same.trans s'.same, ?_, ?_⟩
  · rcases s'.status with hs | hs
    · rw [hs]
      exact s.status
    · rw [s.same.id] at hs
      exact .inr hs
  · rcases s'.completed with hs | hs
    · rw [hs]
      exact s.completed
    · exact .inr hs

theorem TaskStep.mono (s : TaskStep h req row row') (g : Recalls req h h') : TaskStep h' req row row' := by
  refine ⟨s.same, ?_, ?_⟩
  · exact s.status.imp_right fun ⟨t, ⟨d, hr, ht⟩, hw⟩ => ⟨t, ⟨d, g.mem _ hr, ht⟩, hw.mono g⟩
  · exact s.completed.imp_right fun ⟨t, ht, ha⟩ => ⟨t, ht, g.mem _ ha⟩

theorem Unkeyed.mono {u : UUID} {key : String} (x : Unkeyed env u key h) (hm : ∀ e ∈ h, e ∈ h') :
    Unkeyed env u key h' := by
  obtain ⟨d, hr, hd⟩ := x
  refine ⟨d, hm _ hr, hd.imp_right fun ⟨t, ht, hk, done, now, hdone, ha, hlt⟩ => ?_⟩
  exact ⟨t, ht, hk, done, now, hdone, hm _ ha, hlt⟩

theorem SignedIn.recall {access : RawToken} {user : User} (s : SignedIn env access user h)
    (hm : ∀ e ∈ h, e ∈ h') : SignedIn env access user h' := by
  obtain ⟨t, d, ht, hr, ha⟩ := s
  exact ⟨t, d, hm _ ht, hm _ hr, ha⟩

theorem NewTask.mono (n : NewTask env h ids req row) (hm : ∀ e ∈ h, e ∈ h') (hi : ∀ i ∈ ids, i ∈ ids') :
    NewTask env h' ids' req row := by
  obtain ⟨access, content, provider, o, user, hs, hu, hreq⟩ := n.request
  refine ⟨⟨access, content, provider, o, user, hs.recall hm, hu, hreq⟩, hi _ n.fresh, n.queued, ?_, ?_⟩
  · exact n.completed.imp_right fun ⟨t, ht, ha⟩ => ⟨t, ht, hm _ ha⟩
  · exact fun key hk hne => (n.unkeyed key hk hne).mono hm

/-- An enqueue that changes the task it has created leaves it a new one. -/
theorem NewTask.step (n : NewTask env h ids req row) (s : TaskStep h req row row') :
    NewTask env h ids req row' := by
  obtain ⟨access, content, provider, o, user, hs, hu, hreq⟩ := n.request
  refine ⟨⟨access, content, provider, o, user, hs, s.same.userId.trans hu, ?_⟩, ?_, ?_, ?_, ?_⟩
  · rw [hreq, s.same.idempotencyKey]
  · rw [s.same.id]
    exact n.fresh
  · rcases s.status with hst | ⟨t, -, hw⟩
    · exact hst.trans n.queued
    · rw [hreq] at hw
      cases hw
  · rcases s.completed with hc | hc
    · rw [hc]
      exact n.completed
    · exact .inr hc
  · rw [s.same.idempotencyKey, s.same.userId]
    exact n.unkeyed

theorem KnownTask.mono {n : ℕ} (k : KnownTask h ids n) (hm : ∀ e ∈ h, e ∈ h') (hi : ∀ i ∈ ids, i ∈ ids') :
    KnownTask h' ids' n :=
  k.imp (hi n) fun ⟨p, t, ⟨d, hr, ht⟩, hid⟩ => ⟨p, t, ⟨d, hm _ hr, ht⟩, hid⟩

/-- A row with the key of one that a session stores is there for it, whatever others commit. -/
theorem mem_apply_of_sameAt {T : Type} [Entity T] {t t' : T}
    (hsame : c.SameAt ((ws ++ [Write.store (toRow t')]).map Write.key) c')
    (hid : Entity.id t = Entity.id t') : t ∈ rowsOf T (c'.apply ws) ↔ t ∈ rowsOf T (c.apply ws) := by
  rw [mem_rowsOf, mem_rowsOf]
  refine hsame.replay ws _ ?_
  rw [Entity.key_toRow_eq hid, List.map_append]
  exact List.mem_append_right _ List.mem_cons_self

/-- The writes of a session that knows more, over rows that are the same at the keys it writes. -/
theorem JobWrites.mono (w : JobWrites env h ids req c ws) (g : Recalls req h h')
    (hi : ∀ i ∈ ids, i ∈ ids') (hsame : c.SameAt (ws.map Write.key) c') :
    JobWrites env h' ids' req c' ws := by
  have hinit : ∀ {ws : List (Write Row Key)} {x : Write Row Key},
      c.SameAt ((ws ++ [x]).map Write.key) c' → c.SameAt (ws.map Write.key) c' := fun hs =>
    hs.mono fun k hk => by rw [List.map_append]; exact List.mem_append_left _ hk
  induction w with
  | nil => exact .nil
  | @task ws row row' before mem step ih =>
    have hid : Entity.id row = Entity.id row' := step.same.id.symm
    exact .task (ih (hinit hsame)) ((mem_apply_of_sameAt hsame hid).mpr mem) (step.mono g)
  | newTask before absent new ih =>
    refine .newTask (ih (hinit hsame)) (fun u hu hid => ?_) (new.mono g.mem hi)
    exact absent u ((mem_apply_of_sameAt hsame hid).mp hu) hid
  | @analysis ws row row' before mem same ih =>
    have hid : Entity.id row = Entity.id row' := same.id.symm
    exact .analysis (ih (hinit hsame)) ((mem_apply_of_sameAt hsame hid).mpr mem) same
  | newAnalysis before absent task known ih =>
    refine .newAnalysis (ih (hinit hsame)) (fun u hu hid => ?_) task (known.mono g.mem hi)
    exact absent u ((mem_apply_of_sameAt hsame hid).mp hu) hid

/-! ## What the writes of a session leave -/

/-- **Where a task comes from**: it was there, and the session has changed it, or the session has
created it. -/
theorem JobWrites.task_origin (w : JobWrites env h ids req c ws)
    (hm : row' ∈ rowsOf BackgroundTask (c.apply ws)) :
    (∃ row ∈ rowsOf BackgroundTask c, TaskStep h req row row') ∨ NewTask env h ids req row' := by
  induction w generalizing row' with
  | nil => exact .inl ⟨row', hm, .refl row'⟩
  | task before mem step ih =>
    rw [Table.apply_append] at hm
    rcases mem_rowsOf_store.mp hm with rfl | ⟨hm, -⟩
    · rcases ih mem with ⟨row₀, hrow₀, s⟩ | n
      · exact .inl ⟨row₀, hrow₀, s.trans step⟩
      · exact .inr (n.step step)
    · exact ih hm
  | newTask before absent new ih =>
    rw [Table.apply_append] at hm
    rcases mem_rowsOf_store.mp hm with rfl | ⟨hm, -⟩
    · exact .inr new
    · exact ih hm
  | analysis before mem same ih =>
    rw [Table.apply_append] at hm
    exact ih ((mem_rowsOf_store_other (by decide)).mp hm)
  | newAnalysis before absent task known ih =>
    rw [Table.apply_append] at hm
    exact ih ((mem_rowsOf_store_other (by decide)).mp hm)

/-- Where an analysis comes from: it was there, or the session has created it for a task it knows. -/
theorem JobWrites.analysis_origin (w : JobWrites env h ids req c ws) {a' : Analysis}
    (hm : a' ∈ rowsOf Analysis (c.apply ws)) :
    (∃ a ∈ rowsOf Analysis c, SameAnalysis a a') ∨
      ∃ n, a'.taskId = some (toString n) ∧ KnownTask h ids n := by
  induction w generalizing a' with
  | nil => exact .inl ⟨a', hm, .refl a'⟩
  | task before mem step ih =>
    rw [Table.apply_append] at hm
    exact ih ((mem_rowsOf_store_other (by decide)).mp hm)
  | newTask before absent new ih =>
    rw [Table.apply_append] at hm
    exact ih ((mem_rowsOf_store_other (by decide)).mp hm)
  | analysis before mem same ih =>
    rw [Table.apply_append] at hm
    rcases mem_rowsOf_store.mp hm with rfl | ⟨hm, -⟩
    · rcases ih mem with ⟨a, ha, s⟩ | ⟨n, hn, hk⟩
      · exact .inl ⟨a, ha, s.trans same⟩
      · exact .inr ⟨n, same.taskId.trans hn, hk⟩
    · exact ih hm
  | newAnalysis before absent task known ih =>
    rw [Table.apply_append] at hm
    rcases mem_rowsOf_store.mp hm with rfl | ⟨hm, -⟩
    · exact .inr ⟨_, task, known⟩
    · exact ih hm

/-- A row that is replaced stays, as far as `S` says. -/
theorem kept_of_store {T : Type} [Entity T] {S : T → T → Prop} (hrefl : ∀ t, S t t) {t t' : T}
    (ht : t ∈ rowsOf T c) (hid : Entity.id t' = Entity.id t) (hs : S t t') {u : T}
    (hu : u ∈ rowsOf T c) : ∃ u' ∈ rowsOf T (c.write (.store (toRow t'))), S u u' := by
  by_cases h : Entity.id u = Entity.id t
  · rw [entity_ext hu ht h]
    exact ⟨t', mem_rowsOf_store.mpr (.inl rfl), hs⟩
  · exact ⟨u, mem_rowsOf_store.mpr (.inr ⟨hu, hid ▸ h⟩), hrefl u⟩

/-- A row that is created replaces none. -/
theorem kept_of_new {T : Type} [Entity T] {t : T} (ht : ∀ u ∈ rowsOf T c, Entity.id u ≠ Entity.id t)
    {u : T} (hu : u ∈ rowsOf T c) : u ∈ rowsOf T (c.write (.store (toRow t))) :=
  mem_rowsOf_store.mpr (.inr ⟨hu, ht u hu⟩)

/-- **A session keeps tasks and analyses.** -/
theorem JobWrites.kept (w : JobWrites env h ids req c ws) : JobsKept c (c.apply ws) := by
  induction w with
  | nil => exact .refl c
  | task before mem step ih =>
    rw [Table.apply_append]
    refine ih.trans ⟨fun t ht => kept_of_store .refl mem step.same.id step.same ht, fun a ha => ?_⟩
    exact ⟨a, (mem_rowsOf_store_other (by decide)).mpr ha, .refl a⟩
  | newTask before absent new ih =>
    rw [Table.apply_append]
    refine ih.trans ⟨fun t ht => ⟨t, kept_of_new absent ht, .refl t⟩, fun a ha => ?_⟩
    exact ⟨a, (mem_rowsOf_store_other (by decide)).mpr ha, .refl a⟩
  | analysis before mem same ih =>
    rw [Table.apply_append]
    refine ih.trans ⟨fun t ht => ?_, fun a ha => kept_of_store .refl mem same.id same ha⟩
    exact ⟨t, (mem_rowsOf_store_other (by decide)).mpr ht, .refl t⟩
  | newAnalysis before absent task known ih =>
    rw [Table.apply_append]
    refine ih.trans ⟨fun t ht => ?_, fun a ha => ⟨a, kept_of_new absent ha, .refl a⟩⟩
    exact ⟨t, (mem_rowsOf_store_other (by decide)).mpr ht, .refl t⟩

end Writes

/-! ## What a session owes -/

/-- The session has written to tasks and analyses as it may, and has locked what it wrote. -/
structure JobOwing (env : Env) (req : JobRequest) (h : Told) (l : OpenTx) (c : Database) : Prop where
  begun : ∀ m, req = .analyzeLogs m → 2 ≤ h.length
  writes : JobWrites env h l.ids req c (logOn jobTables l)
  locked : ∀ w ∈ logOn jobTables l, w.key ∈ l.locks

/-- The message `m` is about the task `t`. -/
structure About (m : CeleryMessage) (t : BackgroundTask) : Prop where
  id : t.id = m.backgroundTaskId
  userId : t.userId = m.userId
  taskType : t.taskType = TASK_TYPE_LOG_ANALYSIS

/-- The idempotency key of a request. -/
def JobRequest.idempotencyKey : JobRequest → Option String
  | .enqueue _ _ _ _ key => key
  | _ => none

/-- What a session owes at a commit. -/
structure JobOwes (env : Env) (key : Option (UUID × String)) (req : JobRequest) (h : Told) (l : OpenTx)
    (c : Database) : Prop extends JobOwing env req h l c where
  analysed : ∀ k ∈ key, Analysed k.1 k.2 (l.view c)
  published : ∀ m ∈ publishes h,
    (∃ t ∈ rowsOf BackgroundTask (l.view c), About m t ∧ t.idempotencyKey = req.idempotencyKey) ∨
      ∃ h₀, (.commit :: h₀) <:+ h ∧ m ∈ publishes h₀
  ended : ∀ m, req = .analyzeLogs m → LastCommit m h → (∃ t, Saw (taskIs m.backgroundTaskId) t h) →
    ∀ t ∈ rowsOf BackgroundTask (l.view c), t.id = m.backgroundTaskId →
      t.status.terminal = true ∨ ∃ t, Saw (taskIs m.backgroundTaskId) t h ∧ t.status.terminal = true

section Owing

variable {env : Env} {key : Option (UUID × String)} {req : JobRequest} {h h' : Told} {l l' : OpenTx}
  {c c' : Database}

/-- **A session goes on** and leaves what it has written. -/
theorem JobOwing.go (o : JobOwing env req h l c) (g : Recalls req h h') (hlen : h.length ≤ h'.length)
    (hi : ∀ n ∈ l.ids, n ∈ l'.ids) (hlog : logOn jobTables l' = logOn jobTables l)
    (hlocks : ∀ k ∈ l.locks, k ∈ l'.locks) (hsame : c.SameAt l.locks c') :
    JobOwing env req h' l' c' := by
  refine ⟨fun m hm => Nat.le_trans (o.begun m hm) hlen, ?_, fun w hw => ?_⟩
  · rw [hlog]
    refine o.writes.mono g hi (hsame.mono fun k hk => ?_)
    obtain ⟨w, hw, rfl⟩ := List.mem_map.mp hk
    exact o.locked w hw
  · exact hlocks _ (o.locked w (hlog ▸ hw))

theorem JobOwing.recalls (o : JobOwing env req h l c) (g : ToldMore h h') : Recalls req h h' := by
  refine g.recalls fun m hm => ?_
  obtain ⟨es, rfl, -⟩ := g
  exact started_append_iff (o.begun m hm) es

theorem JobOwing.since (o : JobOwing env req h l c)
    (x : Since (jobDiscipline key) h l c h' l' c') (hlog : logOn jobTables l' = logOn jobTables l) :
    JobOwing env req h' l' c' := by
  refine o.go (o.recalls x.told) ?_ x.ids hlog x.locks x.env.same
  obtain ⟨es, rfl, -⟩ := x.told
  simp

/-- **Statements on other tables** leave what a session has written of tasks. -/
theorem JobOwing.extends (o : JobOwing env req h l c)
    (x : Extends (jobDiscipline key) jobTables h l c h' l' c') : JobOwing env req h' l' c' :=
  o.since x.toSince x.log

theorem mem_view_jobs {T : Type} [Entity T] (hT : jobTables (Entity.table T) = true) {t : T} :
    t ∈ rowsOf T (l.view c) ↔ t ∈ rowsOf T (c.apply (logOn jobTables l)) := mem_rowsOf_view hT

/-- The identifiers of tasks that the rows of a table name. -/
theorem mem_names {n : ℕ} {r : Row} : n ∈ (jobDiscipline key).names r ↔ key.isSome = true ∧ n ∈ jobNames r := by
  change n ∈ (if key.isSome then jobNames r else []) ↔ _
  cases key <;> simp

theorem jobNames_table {n : ℕ} {r : Row} (hn : n ∈ jobNames r) : jobTables r.table = true := by
  cases r with
  | backgroundTask | analysis => rfl
  | _ => cases hn

/-- **A commit of what a session owes** keeps what other sessions assume. -/
theorem commitOk_of_jobOwes (e : (jobDiscipline key).Env h l c c) (o : JobOwes env key req h l c) :
    (jobDiscipline key).CommitOk l c := by
  have hkept : JobsKept c (l.view c) := by
    have := o.writes.kept
    refine ⟨fun t ht => ?_, fun a ha => ?_⟩
    · obtain ⟨t', ht', s⟩ := this.tasks t ht
      exact ⟨t', (mem_view_jobs rfl).mpr ht', s⟩
    · obtain ⟨a', ha', s⟩ := this.analyses a ha
      exact ⟨a', (mem_view_jobs rfl).mpr ha', s⟩
  refine ⟨o.analysed, fun t ht _ => ⟨ht.1, ht.2.trans hkept⟩, fun r hr n hn => ?_, fun _ _ => trivial⟩
  obtain ⟨hkey, hn⟩ := mem_names.mp hn
  have hold : ∀ s ∈ c.rows, n ∈ jobNames s → n ∈ l.ids ∨ ∃ s ∈ c.rows, n ∈ (jobDiscipline key).names s :=
    fun s hs hns => .inr ⟨s, hs, mem_names.mpr ⟨hkey, hns⟩⟩
  cases r with
  | backgroundTask t =>
    cases List.mem_singleton.mp hn
    rcases o.writes.task_origin ((mem_view_jobs rfl).mp (mem_rowsOf.mpr hr)) with ⟨t₀, ht₀, s⟩ | new
    · exact hold _ (mem_rowsOf.mp ht₀) (List.mem_singleton.mpr s.same.id)
    · exact .inl new.fresh
  | analysis a =>
    rcases o.writes.analysis_origin ((mem_view_jobs rfl).mp (mem_rowsOf.mpr hr)) with
      ⟨a₀, ha₀, s⟩ | ⟨k, hk, known⟩
    · refine hold _ (mem_rowsOf.mp ha₀) ?_
      change n ∈ (a₀.taskId.bind String.toNat?).toList
      rw [← s.taskId]
      exact hn
    · have hnk : n = k := by
        change n ∈ (a.taskId.bind String.toNat?).toList at hn
        rw [hk] at hn
        simpa [Nat.toNat?_repr, toString] using hn
      subst hnk
      rcases known with hid | ⟨p, t, ⟨d, hread, ht, -⟩, rfl⟩
      · exact .inl hid
      · obtain ⟨t', ht', s⟩ := (e.follows _ _ hread).2.tasks t ht
        exact hold _ (mem_rowsOf.mp ht') (List.mem_singleton.mpr s.id.symm)
  | _ => cases hn

end Owing

end DevOps
