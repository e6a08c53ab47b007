import DevOpsAssistant.Organizations.Changes
import Mathlib.Data.List.Induction

/-!
# Requests served one after another

A request that is served alone reads the rows that were committed when it began.

* `served`: the state after a list of requests.
* `StepOf`: what serving one request has done; **`exists_stepOf`**.
* `Signs`, `IsOwner`: the user of a request, and the owners of an organization.
* **`served_induction`**, `served_induction_along`: an invariant of every step, over whole runs.
-/

namespace DevOps

open Txn Discipline

/-- The state after the requests `rs`, each served when the one before has ended. -/
abbrev served (env : Env) (s : State) (rs : List BackendRequest) : State :=
  s.serveAll respond (BackendRequest.serve env) rs

/-- The state after one request. -/
abbrev servedOne (env : Env) (s : State) (r : BackendRequest) : State :=
  (s.serve respond (BackendRequest.serve env) r).2

variable {env : Env} {s s' : State} {r : BackendRequest} {h : Told} {ids : List ℕ}

theorem served_append_singleton (s : State) (rs : List BackendRequest) (r : BackendRequest) :
    served env s (rs ++ [r]) = servedOne env (served env s rs) r :=
  Store.serveAll_append respond (BackendRequest.serve env) s rs [r]

/-- Serving the request `r` has led from `s` to `s'`: its session was told `h` and drew `ids`. -/
structure StepOf (env : Env) (r : BackendRequest) (s s' : State) (h : Told) (ids : List ℕ) :
    Prop where
  time : s.world.time ≤ s'.world.time
  reads : ReadsNow h s.committed
  asked : ∀ t, .answer .now t ∈ h → s.world.time ≤ t ∧ t ≤ s'.world.time
  unused : ∀ n ∈ ids, ∀ row ∈ s.committed.rows, n ∉ orgDiscipline.names row
  members : MemberOutcome env h ids s.committed r s'.committed
  invitations : InvitationOutcome env h ids s.committed r s'.committed
  accepted : ∀ access token, r = .organization (.acceptInvitation access token) →
    ∀ m ∈ rowsOf OrganizationMember s'.committed, m ∈ rowsOf OrganizationMember s.committed ∨
      ∃ user i, InvitationAccepted env h s.committed access token user i ∧ m.organizationId = i.organizationId
  deleted : ∀ org ∈ rowsOf Organization s.committed, org.deletedAt.isSome = true →
    ∃ org' ∈ rowsOf Organization s'.committed, org'.id = org.id ∧ org'.deletedAt.isSome = true

/-- **One request**, served alone. -/
theorem exists_stepOf (env : Env) (b : Between orgDiscipline s) (r : BackendRequest) :
    Between orgDiscipline (servedOne env s r) ∧
      ∃ h ids, StepOf env r s (servedOne env s r) h ids := by
  obtain ⟨hb, hl⟩ := b.serve (fun v w : World => v.time ≤ w.time) (fun _ => Nat.le_refl _)
    Nat.le_trans time_le_respond (ensures_serve env) (fun _ _ _ _ _ ho => commitOk_of_owing ho)
    (fun _ _ _ _ ho => ho.uncommitted) r
  refine ⟨hb, ?_⟩
  rcases hl.commits with heq | ⟨h, l, howes, hcom, hreads, hanswers, hunused⟩
  · refine ⟨[], [], hl.rel, fun _ _ hm => (nomatch hm), fun _ hm => (nomatch hm),
      fun _ hm => (nomatch hm), .same fun m => ?_, .same fun i => ?_, fun _ _ _ m hm => ?_, fun org ho hd => ?_⟩
    · rw [heq]
    · rw [heq]
    · exact .inl (heq ▸ hm)
    · exact ⟨org, heq ▸ ho, rfl, hd⟩
  · change (servedOne env s r).committed = l.view s.committed at hcom
    refine ⟨h, l.ids, hl.rel, hreads, fun t ht => ?_, hunused, ?_, ?_, ?_, fun org ho hd => ?_⟩
    · obtain ⟨u, hu, rfl, hw⟩ := hanswers _ _ ht
      exact ⟨Nat.le_trans hu (Nat.le_add_right _ _), hw⟩
    · rw [hcom]
      exact howes.effect.members.congr (fun m => mem_rowsOf_view rfl)
        fun _ ho => (mem_rowsOf_view rfl).mpr ho
    · rw [hcom]
      exact howes.effect.invitations.congr fun i => mem_rowsOf_view rfl
    · rintro access token rfl m hm
      rw [hcom] at hm
      exact howes.effect.accepted ((mem_rowsOf_view rfl).mp hm)
    · obtain ⟨org', ho', hid, hd'⟩ := howes.effect.deleted_kept hunused ho hd
      exact ⟨org', hcom ▸ (mem_rowsOf_view rfl).mpr ho', hid, hd'⟩

/-! ## What the session was told -/

theorem StepOf.saw (x : StepOf env r s s' h ids) {T : Type} [Entity T] {p : T → Bool} {t : T}
    (hs : Saw p t h) : t ∈ rowsOf T s.committed ∧ p t = true := by
  obtain ⟨c, hr, ht, hp⟩ := hs
  rw [x.reads _ _ hr] at ht
  exact ⟨ht, hp⟩

theorem StepOf.missed (x : StepOf env r s s' h ids) {T : Type} [Entity T] {p : T → Bool}
    (hm : Missed p h) : ∀ t ∈ rowsOf T s.committed, p t = false := by
  obtain ⟨c, hr, hn⟩ := hm
  rw [x.reads _ _ hr] at hn
  exact hn

/-- The access token authenticates the user when a request is served. -/
def Signs (env : Env) (s : State) (access : RawToken) (user : User) : Prop :=
  ∃ t, s.world.time ≤ t ∧ Authenticates env s.committed t access user

theorem StepOf.signs (x : StepOf env r s s' h ids) {access : RawToken} {user : User}
    (hs : SignedIn env access user h) : Signs env s access user := by
  obtain ⟨t, c, ht, hr, ha⟩ := hs
  rw [x.reads _ _ hr] at ha
  exact ⟨t, (x.asked t ht).1, ha⟩

/-- The user `u` is an owner of the organization `o`. -/
def IsOwner (c : Database) (o u : UUID) : Prop :=
  ∃ m ∈ rowsOf OrganizationMember c, memberOf o u m = true ∧ m.role = .owner

theorem StepOf.isOwner (x : StepOf env r s s' h ids) {access : RawToken} {o : UUID}
    {permission : Permission} {user : User} {actor : OrganizationMember}
    (a : Acts env h access o permission user actor) (hr : actor.role = .owner) :
    IsOwner s.committed o user.id :=
  ⟨actor, (x.saw a.member).1, (x.saw a.member).2, hr⟩

/-! ## Runs -/

theorem between_of_empty (h₀ : s.committed = .empty) : Between orgDiscipline s :=
  ⟨trivial, by rw [h₀]; exact fun _ hr => nomatch hr⟩

/-- **An invariant of every step** is an invariant of every run. -/
theorem served_induction {P : List BackendRequest → State → Prop} (h₀ : s.committed = .empty)
    (start : P [] s) (step : ∀ rs r h ids, Between orgDiscipline (served env s rs) →
      P rs (served env s rs) →
      StepOf env r (served env s rs) (servedOne env (served env s rs) r) h ids →
      P (rs ++ [r]) (servedOne env (served env s rs) r)) (rs : List BackendRequest) :
    Between orgDiscipline (served env s rs) ∧ P rs (served env s rs) := by
  induction rs using List.reverseRecOn with
  | nil => exact ⟨between_of_empty h₀, start⟩
  | append_singleton rs r ih =>
    obtain ⟨hb, h, ids, hstep⟩ := exists_stepOf env ih.1 r
    rw [served_append_singleton]
    exact ⟨hb, step rs r h ids ih.1 ih.2 hstep⟩

/-- `G` holds of every request of the run `rs`, in the state in which it is served. -/
def Along (G : State → BackendRequest → Prop) (env : Env) (s : State) (rs : List BackendRequest) :
    Prop :=
  ∀ before r after, rs = before ++ r :: after → G (served env s before) r

theorem Along.snoc {G : State → BackendRequest → Prop} {rs : List BackendRequest}
    (hg : Along G env s (rs ++ [r])) : Along G env s rs ∧ G (served env s rs) r :=
  ⟨fun before q after hrs => hg before q (after ++ [r]) (by simp [hrs]), hg rs r [] rfl⟩

theorem Along.cons {G : State → BackendRequest → Prop} {rs : List BackendRequest} (hr : G s r)
    (hg : Along G env (servedOne env s r) rs) : Along G env s (r :: rs) := by
  rintro (_ | ⟨q, before⟩) q' after hrs
  · obtain ⟨rfl, -⟩ := List.cons.inj hrs
    exact hr
  · obtain ⟨rfl, hrs'⟩ := List.cons.inj hrs
    exact hg before q' after hrs'

theorem Along.nil {G : State → BackendRequest → Prop} : Along G env s [] := fun _ _ _ hrs =>
  absurd hrs (by simp)

/-- **An invariant of the steps that meet a condition** is an invariant of the runs along which the
condition holds. -/
theorem served_induction_along {G : State → BackendRequest → Prop} {P : State → Prop}
    (h₀ : s.committed = .empty) (start : P s) (step : ∀ s' r h ids, Between orgDiscipline s' →
      G s' r → P s' → StepOf env r s' (servedOne env s' r) h ids → P (servedOne env s' r))
    (rs : List BackendRequest) (hg : Along G env s rs) : P (served env s rs) :=
  (served_induction (P := fun rs s' => Along G env s rs → P s') h₀ (fun _ => start)
    (fun _ r h ids hb hp x hg => step _ r h ids hb hg.snoc.2 (hp hg.snoc.1) x) rs).2 hg

end DevOps
