import DevOpsAssistant.Sessions.Rotation
import DevOpsAssistant.Specs.Runs

/-!
# Reuse detection

A refresh with a used or revoked token revokes the family and then raises, so that the unit of work
rolls the revocation back.

* `serve_error`: a request that raises leaves the committed rows alone.
* **`refresh_spent`**: a refresh with a spent token raises.
* `DurablyRevoked`: what reuse detection is meant to leave behind.
* **`reuse_detection_durable_iff`**: it does if and only if the family was revoked already.
-/

namespace DevOps

open Txn

variable (env : Env) {s : State} {c : AccountConfig}

/-! ## Requests that raise -/

theorem allowsSessions_body : AllowsSessions bodyRules := by constructor <;> intros <;> trivial

/-- A route does not end its transaction. -/
theorem route_committed (r : AccountRequest) (s : Session Row World) :
    ((r.route env).exec respond s).2.committed = s.committed := by
  refine Prog.Only.committed_eq respond ((only_route env allowsAccounts_body r fun _ =>
    allowsSessions_body).mono (fun st hst => ?_) fun _ h => h) s
  rintro rfl
  exact hst

/-- The response and the store after a request, from a run of its route. -/
theorem serve_eq (r : AccountRequest) : s.serve respond (AccountRequest.serve env) r =
    match (r.route env).exec respond s.session with
    | (.ok a, s') => (.ok a, s'.commit.toStore)
    | (.error e, s') => (.error e, s'.rollback.toStore) := by
  rw [Store.serve, AccountRequest.serve, getDb, Prog.exec_unitOfWork]
  rcases (r.route env).exec respond s.session with ⟨_ | _, _⟩ <;> rfl

/-- **A request that raises** leaves the committed rows alone. -/
theorem serve_error {r : AccountRequest} {e : Exc}
    (h : (s.serve respond (AccountRequest.serve env) r).1 = .error e) :
    (s.serve respond (AccountRequest.serve env) r).2.committed = s.committed := by
  have hc := route_committed env r s.session
  rw [serve_eq] at h ⊢
  rcases hx : (r.route env).exec respond s.session with ⟨_ | a, s'⟩
  · rw [hx] at hc
    exact hc
  · rw [hx] at h
    cases h

/-! ## Spent tokens -/

variable (payload : TokenPayload) {record : RefreshToken}

/-- **A refresh with a spent token raises.** -/
theorem refresh_spent (h : Protocol.Serial tokenProtocol s) (hm : record ∈ tokens s.committed)
    (hj : record.jti = payload.jti) (hspent : ¬ Live record) :
    ∃ e, (s.serve respond (AccountRequest.serve env) (.refresh (.jwt payload))).1 = .error e := by
  have hc := route_committed env (.refresh (.jwt payload)) s.session
  have hsafe : tokenProtocol.safe (onReturn fun _ l c => ∃ old t raw new,
      old.jti = payload.jti ∧ Rotated old t raw new l c)
      (AccountRequest.route env (.refresh (.jwt payload))) .start s.committed :=
    safe_map_return _ (safe_refresh (.jwt payload) rfl h.alone.rely)
      fun p l' c' ⟨payload', old, t, new, hraw, hj, hrot⟩ => by
        cases hraw
        exact ⟨old, t, p.refreshToken, new, hj, hrot⟩
  obtain ⟨l, -, hpost⟩ := Protocol.safe_exec respond h.alone hsafe
  rw [serve_eq]
  change _ = s.committed at hc
  change onReturn _ ((AccountRequest.route env (.refresh (.jwt payload))).exec respond s.session).1 l
    ((AccountRequest.route env (.refresh (.jwt payload))).exec respond s.session).2.committed at hpost
  rw [hc] at hpost
  rcases hx : (AccountRequest.route env (.refresh (.jwt payload))).exec respond s.session
    with ⟨e | a, s'⟩
  · exact ⟨e, rfl⟩
  · rw [hx] at hpost
    obtain ⟨old, t, raw, new, hjo, hrot⟩ := hpost a rfl
    -- the rotated token would be the spent one
    have := h.inv.jti old hrot.mem_old record hm (hjo.trans hj.symm)
    exact absurd (this ▸ hrot.live) hspent

/-! ## Durability -/

/-- The `n`th session is a refresh with the claims `payload`, and has been committed. -/
def Refreshed (c : AccountConfig) (n : ℕ) (payload : TokenPayload) : Prop :=
  ∃ tx a, c.txs[n]? = some tx ∧ tx.req = .refresh (.jwt payload) ∧ tx.prog = .ret a

/-- The family `f` is revoked, and in every run that goes on from `s` no refresh with one of its
tokens succeeds. -/
def DurablyRevoked (s : State) (f : UUID) : Prop :=
  FamilyRevoked s.committed f ∧
    ∀ c', Reach respond (AccountRequest.serve env) s.open c' → ∀ n payload, Refreshed c' n payload →
      ∀ t ∈ tokens c'.committed, t.jti = payload.jti → t.familyId ≠ f

/-- Reuse detection is not durable: replaying the rotated token leaves its successor live. -/
theorem reuse_detection_not_durable : ¬ ∀ (env : Env) (s₀ : State) (c : AccountConfig)
    (payload : TokenPayload) (record : RefreshToken), s₀.committed = .empty →
      Reach respond (AccountRequest.serve env) s₀.open c → record ∈ tokens c.committed →
      record.jti = payload.jti → record.usedAt.isSome ∨ record.revokedAt.isSome →
      DurablyRevoked env
        (c.toStore.serve respond (AccountRequest.serve env) (.refresh (.jwt payload))).2
        record.familyId := by
  intro h
  obtain ⟨c, hr, old, hold, hj, hu, hf⟩ := exists_rotated
  have hserial : Protocol.Serial tokenProtocol c.toStore := (tokensSound_of_reach rfl hr).serial
  have hspent : ¬ Live old := fun hlive => by simp [hlive.1] at hu
  obtain ⟨e, he⟩ := refresh_spent .trial ⟨some 1, 3, .refresh, 1209600, some 2⟩ hserial
    hold hj hspent
  have hd := h .trial State.trial c ⟨some 1, 3, .refresh, 1209600, some 2⟩ old rfl hr hold hj (.inl hu)
  exact hf (serve_error .trial he ▸ hd.1)

/-- Revoking a family is enough to stop it. -/
theorem durablyRevoked_of_revoked (h : Protocol.Serial tokenProtocol s) {f : UUID}
    (hf : FamilyRevoked s.committed f) (hne : ∃ t ∈ tokens s.committed, t.familyId = f) :
    DurablyRevoked env s f := by
  refine ⟨hf, fun c' hr n payload ⟨tx, a, hn, hq, hp⟩ t ht hj htf => ?_⟩
  have hopen := tokensSound_open h
  have hsound := hopen.reach (keeps_serve env) hr
  have hev := evolves_of_reach hopen hr
  obtain ⟨old, new, tx', payload', p, hn', hq', -, hj', hex⟩ := exchangedBy_of_ret hsound hn hq hp
  cases hn.symm.trans hn'
  cases hq.symm.trans hq'
  have hold : old = t := hsound.inv.jti old hex.mem_old t ht (hj'.trans hj.symm)
  have hnewf : new.familyId = f := hex.family.trans (hold ▸ htf)
  rcases hev.new new hex.mem_new with ⟨t₀, ht₀, hg⟩ | hnew | ⟨q, hq, hqf, -, hlive⟩
  · -- the successor was drawn in the run, so it is not an old token
    have hge := (hr.drawn_ge (Nat.le_refl _) (by simp [Store.open])).2 tx (List.mem_of_getElem? hn)
      new.jti hex.drawn
    have hlt : t₀.jti < s.nextId := h.named (.refreshToken t₀) (mem_tokens.mp ht₀) _
      (show t₀.jti ∈ [t₀.id, t₀.jti, t₀.familyId] by simp)
    rw [hg.jti] at hge
    exact absurd hlt (Nat.not_lt.mpr hge)
  · obtain ⟨t₀, ht₀, hf₀⟩ := hne
    exact hnew t₀ ht₀ (hf₀.trans hnewf.symm)
  · have := hf q hq (hqf.trans hnewf)
    simp [hlive.2] at this

/-- **Reuse detection is durable exactly when there is nothing left to revoke.** After a refresh
with a used or revoked token, its family is revoked for good if and only if it was before. -/
theorem reuse_detection_durable_iff {s₀ : State} (h₀ : s₀.committed = .empty)
    (hr : Reach respond (AccountRequest.serve env) s₀.open c) (hm : record ∈ tokens c.committed)
    (hj : record.jti = payload.jti) (hspent : record.usedAt.isSome ∨ record.revokedAt.isSome) :
    DurablyRevoked env
        (c.toStore.serve respond (AccountRequest.serve env) (.refresh (.jwt payload))).2
        record.familyId ↔
      FamilyRevoked c.committed record.familyId := by
  have hserial : Protocol.Serial tokenProtocol c.toStore := (tokensSound_of_reach h₀ hr).serial
  have hspent : ¬ Live record := by
    rintro ⟨hu, hv⟩
    simp [hu, hv] at hspent
  obtain ⟨e, he⟩ := refresh_spent env payload hserial hm hj hspent
  have hsame := serve_error env he
  have hserial' := (hserial.serve respond (keeps_serve env) (.refresh (.jwt payload))).1
  constructor
  · exact fun hd => hsame ▸ hd.1
  · exact fun hf => durablyRevoked_of_revoked env hserial' (hsame ▸ hf)
      ⟨record, hsame ▸ hm, rfl⟩

theorem reuse_detection_durable_iff_trial : ∃ (c : AccountConfig) (old : RefreshToken),
    old ∈ tokens c.committed ∧ old.usedAt.isSome ∧
      ¬ DurablyRevoked .trial (c.toStore.serve respond (AccountRequest.serve .trial)
        (.refresh (trialToken 3 1209600))).2 old.familyId := by
  obtain ⟨c, hr, old, hold, hj, hu, hf⟩ := exists_rotated
  exact ⟨c, old, hold, hu, fun hd =>
    hf ((reuse_detection_durable_iff .trial _ (rfl : State.trial.committed = .empty) hr hold hj (.inl hu)).mp hd)⟩

end DevOps
