import DevOpsAssistant.Specs.Accounts
import Mathlib.Data.List.Chain

/-!
# Token families

What a commit can do to the refresh tokens, and what every such commit keeps.

* `Linear`: every family is a single chain through `replacedByTokenId`, ending in its only unused
  token.
* `Evolves`: how the tokens of a later state come from those of an earlier one.
* `TokenEffect`: a commit revokes tokens, issues the first token of a new family, or rotates one.
* **`TokenEffect.linear`**, **`TokenEffect.evolves`**: each of the three keeps both.
* `Evolves.family_revoked`: a revoked family stays revoked.
-/

namespace DevOps

open Txn

/-- The refresh tokens of a database. -/
def tokens (c : Database) : List RefreshToken := rowsOf RefreshToken c

theorem mem_tokens {c : Database} {t : RefreshToken} :
    t ∈ tokens c ↔ Row.refreshToken t ∈ c.rows := mem_rowsOf

theorem token_ext {c : Database} {s t : RefreshToken} (hs : s ∈ tokens c) (ht : t ∈ tokens c)
    (h : s.id = t.id) : s = t := by
  have := c.eq_of_key_eq (mem_tokens.mp hs) (mem_tokens.mp ht)
    (show (⟨.refreshTokens, s.id⟩ : Key) = ⟨.refreshTokens, t.id⟩ by rw [h])
  cases this
  rfl

/-- The key of a refresh token. -/
def tokenKey (t : RefreshToken) : Key := ⟨.refreshTokens, t.id⟩

/-! ## Chains -/

/-- `ids` lists the tokens of the family `f`, each the successor of the one before; all but the
last have been used. -/
structure FamilyChain (c : Database) (f : UUID) (ids : List UUID) : Prop where
  nodup : ids.Nodup
  mem : ∀ i, i ∈ ids ↔ ∃ t ∈ tokens c, t.id = i ∧ t.familyId = f
  links : ids.IsChain fun i j => ∀ t ∈ tokens c, t.id = i →
    t.usedAt.isSome ∧ t.replacedByTokenId = some j
  last : ∀ i ∈ ids.getLast?, ∀ t ∈ tokens c, t.id = i →
    t.usedAt = none ∧ t.replacedByTokenId = none

/-- The invariant of the refresh tokens. -/
structure Linear (c : Database) : Prop where
  jti : ∀ s ∈ tokens c, ∀ t ∈ tokens c, s.jti = t.jti → s = t
  owner : ∀ s ∈ tokens c, ∀ t ∈ tokens c, s.familyId = t.familyId → s.userId = t.userId
  chain : ∀ f, ∃ ids, FamilyChain c f ids

namespace FamilyChain

variable {c c' : Database} {f : UUID} {ids : List UUID}

/-- A token of the family that has not been used is the last of the chain. -/
theorem last_of_unused (h : FamilyChain c f ids) {t : RefreshToken} (ht : t ∈ tokens c)
    (hf : t.familyId = f) (hu : t.usedAt = none) : ids.getLast? = some t.id := by
  obtain ⟨a, b, hab⟩ := List.append_of_mem ((h.mem t.id).mpr ⟨t, ht, rfl, hf⟩)
  cases b with
  | nil => rw [hab, List.getLast?_append]; rfl
  | cons j b =>
    have hlinks := h.links
    rw [hab, List.isChain_append_cons_cons] at hlinks
    have := (hlinks.2.1 t ht rfl).1
    simp [hu] at this

/-- A family has at most one unused token. -/
theorem eq_of_unused (h : FamilyChain c f ids) {s t : RefreshToken} (hs : s ∈ tokens c)
    (ht : t ∈ tokens c) (hsf : s.familyId = f) (htf : t.familyId = f) (hsu : s.usedAt = none)
    (htu : t.usedAt = none) : s = t :=
  token_ext hs ht
    (Option.some.inj ((h.last_of_unused hs hsf hsu).symm.trans (h.last_of_unused ht htf htu)))

/-- A chain stays a chain when the tokens of its family keep their ids and links. -/
theorem congr (h : FamilyChain c f ids)
    (came : ∀ t' ∈ tokens c', t'.familyId = f → ∃ t ∈ tokens c, t.id = t'.id ∧ t.familyId = f ∧
      t'.usedAt = t.usedAt ∧ t'.replacedByTokenId = t.replacedByTokenId)
    (kept : ∀ t ∈ tokens c, t.familyId = f → ∃ t' ∈ tokens c', t'.id = t.id ∧ t'.familyId = f) :
    FamilyChain c' f ids := by
  have hback : ∀ i ∈ ids, ∀ t' ∈ tokens c', t'.id = i → ∃ t ∈ tokens c, t.id = i ∧
      t'.usedAt = t.usedAt ∧ t'.replacedByTokenId = t.replacedByTokenId := by
    intro i hi t' ht' hid
    obtain ⟨t, ht, hti, htf⟩ := (h.mem i).mp hi
    obtain ⟨u, hu, hui, huf⟩ := kept t ht htf
    have hut : u = t' := token_ext hu ht' (hui.trans (hti.trans hid.symm))
    obtain ⟨v, hv, hvi, -, hused, hrepl⟩ := came t' ht' (hut ▸ huf)
    exact ⟨v, hv, hvi.trans hid, hused, hrepl⟩
  refine ⟨h.nodup, fun i => ?_, ?_, fun i hi t' ht' hid => ?_⟩
  · rw [h.mem]
    constructor
    · rintro ⟨t, ht, hid, hf⟩
      obtain ⟨t', ht', hid', hf'⟩ := kept t ht hf
      exact ⟨t', ht', hid'.trans hid, hf'⟩
    · rintro ⟨t', ht', hid, hf⟩
      obtain ⟨t, ht, hid', hf', -⟩ := came t' ht' hf
      exact ⟨t, ht, hid'.trans hid, hf'⟩
  · refine h.links.imp_of_mem_imp fun i j hi _ hij t' ht' hid => ?_
    obtain ⟨t, ht, hti, hused, hrepl⟩ := hback i hi t' ht' hid
    rw [hused, hrepl]
    exact hij t ht hti
  · obtain ⟨t, ht, hti, hused, hrepl⟩ := hback i (List.mem_of_mem_getLast? hi) t' ht' hid
    rw [hused, hrepl]
    exact h.last i hi t ht hti

end FamilyChain

/-- The token `t'` is the token `t` at a later time. -/
structure Grows (t t' : RefreshToken) : Prop where
  id : t'.id = t.id
  userId : t'.userId = t.userId
  familyId : t'.familyId = t.familyId
  tokenHash : t'.tokenHash = t.tokenHash
  jti : t'.jti = t.jti
  expiresAt : t'.expiresAt = t.expiresAt
  used : t.usedAt.isSome → t'.usedAt.isSome
  revoked : t.revokedAt.isSome → t'.revokedAt.isSome
  replaced : ∀ i, t.replacedByTokenId = some i → t'.replacedByTokenId = some i

theorem Grows.refl (t : RefreshToken) : Grows t t :=
  ⟨rfl, rfl, rfl, rfl, rfl, rfl, fun h => h, fun h => h, fun _ h => h⟩

theorem Grows.trans {s t u : RefreshToken} (h₁ : Grows s t) (h₂ : Grows t u) : Grows s u :=
  ⟨h₂.id.trans h₁.id, h₂.userId.trans h₁.userId, h₂.familyId.trans h₁.familyId,
    h₂.tokenHash.trans h₁.tokenHash, h₂.jti.trans h₁.jti, h₂.expiresAt.trans h₁.expiresAt,
    fun h => h₂.used (h₁.used h), fun h => h₂.revoked (h₁.revoked h),
    fun i h => h₂.replaced i (h₁.replaced i h)⟩

/-- The token can be exchanged for a successor, as far as the database knows. -/
def Live (t : RefreshToken) : Prop := t.usedAt = none ∧ t.revokedAt = none

/-- Tokens are never deleted; a new one opens a family or continues one that has a live token. -/
structure Evolves (c c' : Database) : Prop where
  kept : ∀ t ∈ tokens c, ∃ t' ∈ tokens c', Grows t t'
  new : ∀ t' ∈ tokens c', (∃ t ∈ tokens c, Grows t t') ∨
    (∀ t ∈ tokens c, t.familyId ≠ t'.familyId) ∨
    ∃ p ∈ tokens c, p.familyId = t'.familyId ∧ p.userId = t'.userId ∧ Live p

theorem Evolves.refl (c : Database) : Evolves c c :=
  ⟨fun t ht => ⟨t, ht, .refl t⟩, fun t ht => .inl ⟨t, ht, .refl t⟩⟩

theorem Live.of_grows {t t' : RefreshToken} (h : Grows t t') (hl : Live t') : Live t := by
  constructor
  · cases ht : t.usedAt with
    | none => rfl
    | some _ => have := h.used (by simp [ht]); simp [hl.1] at this
  · cases ht : t.revokedAt with
    | none => rfl
    | some _ => have := h.revoked (by simp [ht]); simp [hl.2] at this

theorem Evolves.trans {c d e : Database} (h₁ : Evolves c d) (h₂ : Evolves d e) : Evolves c e := by
  refine ⟨fun t ht => ?_, fun t'' ht'' => ?_⟩
  · obtain ⟨t', ht', hg⟩ := h₁.kept t ht
    obtain ⟨t'', ht'', hg'⟩ := h₂.kept t' ht'
    exact ⟨t'', ht'', hg.trans hg'⟩
  · -- a family that has a token in `d` without having one in `c` is new since `c`
    have hfam : (∀ t ∈ tokens d, t.familyId ≠ t''.familyId) →
        ∀ t ∈ tokens c, t.familyId ≠ t''.familyId := fun hd t ht hf => by
      obtain ⟨t', ht', hg⟩ := h₁.kept t ht
      exact hd t' ht' (hg.familyId.trans hf)
    rcases h₂.new t'' ht'' with ⟨t', ht', hg⟩ | hnew | ⟨p, hp, hpf, hpu, hlive⟩
    · rcases h₁.new t' ht' with ⟨t, ht, hg'⟩ | hnew | ⟨p, hp, hpf, hpu, hlive⟩
      · exact .inl ⟨t, ht, hg'.trans hg⟩
      · exact .inr (.inl fun t ht => hg.familyId ▸ hnew t ht)
      · exact .inr (.inr ⟨p, hp, hpf.trans hg.familyId.symm, hpu.trans hg.userId.symm, hlive⟩)
    · exact .inr (.inl (hfam hnew))
    · rcases h₁.new p hp with ⟨t, ht, hg⟩ | hnew | ⟨q, hq, hqf, hqu, hlive'⟩
      · exact .inr (.inr ⟨t, ht, hg.familyId.symm.trans hpf, hg.userId.symm.trans hpu,
          hlive.of_grows hg⟩)
      · exact .inr (.inl fun t ht hf => hnew t ht (hf.trans hpf.symm))
      · exact .inr (.inr ⟨q, hq, hqf.trans hpf, hqu.trans hpu, hlive'⟩)

/-- All tokens of the family `f` are revoked. -/
def FamilyRevoked (c : Database) (f : UUID) : Prop :=
  ∀ t ∈ tokens c, t.familyId = f → t.revokedAt.isSome

/-- **A revoked family stays revoked**, and gets no new token. -/
theorem Evolves.family_revoked {c c' : Database} (h : Evolves c c') {f : UUID}
    (hf : FamilyRevoked c f) (hne : ∃ t ∈ tokens c, t.familyId = f) : FamilyRevoked c' f := by
  intro t' ht' htf
  rcases h.new t' ht' with ⟨t, ht, hg⟩ | hnew | ⟨p, hp, hpf, -, hlive⟩
  · exact hg.revoked (hf t ht (hg.familyId.symm.trans htf))
  · obtain ⟨t, ht, hfam⟩ := hne
    exact absurd (hfam.trans htf.symm) (hnew t ht)
  · have := hf p hp (hpf.trans htf)
    simp [hlive.2] at this

/-! ## What a commit does -/

/-- `t'` is the token `t`, or its revocation by a session that holds the lock on it. -/
def RevokedOf (ks : List Key) (t t' : RefreshToken) : Prop :=
  t' = t ∨ tokenKey t ∈ ks ∧ ∃ at' reason, t' = { t with revokedAt := at', revokedReason := reason } ∧
    (t.revokedAt.isSome → at'.isSome)

theorem RevokedOf.grows {ks : List Key} {t t' : RefreshToken} (h : RevokedOf ks t t') :
    Grows t t' := by
  rcases h with rfl | ⟨-, at', reason, rfl, hr⟩
  · exact .refl _
  · exact ⟨rfl, rfl, rfl, rfl, rfl, rfl, fun h => h, hr, fun _ h => h⟩

theorem RevokedOf.same {ks : List Key} {t t' : RefreshToken} (h : RevokedOf ks t t') :
    t'.usedAt = t.usedAt ∧ t'.replacedByTokenId = t.replacedByTokenId := by
  rcases h with rfl | ⟨-, at', reason, rfl, -⟩ <;> exact ⟨rfl, rfl⟩

/-- A token no one has used, revoked or replaced. -/
def Pristine (t : RefreshToken) : Prop := Live t ∧ t.replacedByTokenId = none

/-- **What the commit of a session that holds the locks `ks` does to the refresh tokens.** -/
inductive TokenEffect (ks : List Key) (c c' : Database) : Prop where
  | revoke (came : ∀ t' ∈ tokens c', ∃ t ∈ tokens c, RevokedOf ks t t')
      (kept : ∀ t ∈ tokens c, ∃ t' ∈ tokens c', RevokedOf ks t t')
  | issue (new : RefreshToken) (pristine : Pristine new)
      (jti : ∀ t ∈ tokens c, t.jti ≠ new.jti) (id : ∀ t ∈ tokens c, t.id ≠ new.id)
      (family : ∀ t ∈ tokens c, t.familyId ≠ new.familyId)
      (mem : ∀ t, t ∈ tokens c' ↔ t = new ∨ t ∈ tokens c)
  | rotate (old new : RefreshToken) (t : Time) (mem_old : old ∈ tokens c) (live : Live old)
      (locked : tokenKey old ∈ ks) (pristine : Pristine new)
      (jti : ∀ t ∈ tokens c, t.jti ≠ new.jti) (id : ∀ t ∈ tokens c, t.id ≠ new.id)
      (family : new.familyId = old.familyId) (user : new.userId = old.userId)
      (mem : ∀ s, s ∈ tokens c' ↔ s = new ∨
        s = { old with usedAt := some t, replacedByTokenId := some new.id } ∨
        (s ∈ tokens c ∧ s.id ≠ old.id))

/-- Rotating the last token of a chain appends its successor. -/
theorem FamilyChain.rotate {c c' : Database} {ids : List UUID} {old new : RefreshToken} {t : Time}
    (h : FamilyChain c old.familyId ids) (mem_old : old ∈ tokens c) (live : Live old)
    (pristine : Pristine new) (id : ∀ t ∈ tokens c, t.id ≠ new.id)
    (family : new.familyId = old.familyId)
    (mem : ∀ s, s ∈ tokens c' ↔ s = new ∨
      s = { old with usedAt := some t, replacedByTokenId := some new.id } ∨
      (s ∈ tokens c ∧ s.id ≠ old.id)) :
    FamilyChain c' old.familyId (ids ++ [new.id]) := by
  have hlast := h.last_of_unused mem_old rfl live.1
  have hfresh : new.id ∉ ids := fun hi => by
    obtain ⟨t, ht, hid, -⟩ := (h.mem new.id).mp hi
    exact id t ht hid
  have hnew : new ∈ tokens c' := (mem new).mpr (.inl rfl)
  have hold : ∀ s ∈ tokens c', s.id = old.id →
      s = { old with usedAt := some t, replacedByTokenId := some new.id } := by
    intro s hs hid
    rcases (mem s).mp hs with rfl | rfl | ⟨-, hne⟩
    · exact absurd hid.symm (id old mem_old)
    · rfl
    · exact absurd hid hne
  refine ⟨?_, fun i => ?_, ?_, fun i hi s hs hid => ?_⟩
  · rw [List.nodup_append]
    exact ⟨h.nodup, List.nodup_singleton _, fun i hi j hj hij =>
      hfresh (List.mem_singleton.mp hj ▸ hij ▸ hi)⟩
  · rw [List.mem_append, List.mem_singleton, h.mem]
    constructor
    · rintro (⟨s, hs, hid, hf⟩ | rfl)
      · by_cases hso : s.id = old.id
        · exact ⟨_, (mem _).mpr (.inr (.inl rfl)), hso.symm.trans hid, rfl⟩
        · exact ⟨s, (mem s).mpr (.inr (.inr ⟨hs, hso⟩)), hid, hf⟩
      · exact ⟨new, hnew, rfl, family⟩
    · rintro ⟨s, hs, hid, hf⟩
      rcases (mem s).mp hs with rfl | rfl | ⟨hs, -⟩
      · exact .inr hid.symm
      · exact .inl ⟨old, mem_old, hid, rfl⟩
      · exact .inl ⟨s, hs, hid, hf⟩
  · rw [List.isChain_append]
    refine ⟨h.links.imp_of_mem_imp fun i j hi _ hij s hs hid => ?_, .singleton _,
      fun i hi j hj s hs hid => ?_⟩
    · rcases (mem s).mp hs with rfl | rfl | ⟨hs, -⟩
      · exact absurd (hid ▸ hi) hfresh
      · -- the rotated token was the last of the chain
        have := (hij old mem_old hid).1
        simp [live.1] at this
      · exact hij s hs hid
    · rw [hlast] at hi
      cases hi
      cases hj
      rw [hold s hs hid]
      exact ⟨rfl, rfl⟩
  · rw [List.getLast?_append] at hi
    cases hi
    cases token_ext hs hnew hid
    exact ⟨pristine.1.1, pristine.2⟩

/-- A live token has no successor yet, so rotating it lets it grow. -/
theorem Linear.grows_rotated {c : Database} (hl : Linear c) {old : RefreshToken}
    (mem_old : old ∈ tokens c) (live : Live old) (t : Time) (i : UUID) :
    Grows old { old with usedAt := some t, replacedByTokenId := some i } := by
  have hnone : old.replacedByTokenId = none := by
    obtain ⟨ids, hids⟩ := hl.chain old.familyId
    exact (hids.last _ (hids.last_of_unused mem_old rfl live.1) old mem_old rfl).2
  exact ⟨rfl, rfl, rfl, rfl, rfl, rfl, fun _ => rfl, fun h => h, fun j hj => by simp [hnone] at hj⟩

namespace TokenEffect

variable {ks : List Key} {c c' : Database}

theorem evolves (hl : Linear c) (h : TokenEffect ks c c') : Evolves c c' := by
  cases h with
  | revoke came kept =>
    refine ⟨fun t ht => ?_, fun t' ht' => .inl ?_⟩
    · obtain ⟨t', ht', hr⟩ := kept t ht
      exact ⟨t', ht', hr.grows⟩
    · obtain ⟨t, ht, hr⟩ := came t' ht'
      exact ⟨t, ht, hr.grows⟩
  | issue new pristine jti id family mem =>
    refine ⟨fun t ht => ⟨t, (mem t).mpr (.inr ht), .refl t⟩, fun t' ht' => ?_⟩
    rcases (mem t').mp ht' with rfl | ht
    · exact .inr (.inl family)
    · exact .inl ⟨t', ht, .refl t'⟩
  | rotate old new t mem_old live locked pristine jti id family user mem =>
    have hold := hl.grows_rotated mem_old live t new.id
    refine ⟨fun s hs => ?_, fun t' ht' => ?_⟩
    · by_cases hid : s.id = old.id
      · cases token_ext hs mem_old hid
        exact ⟨_, (mem _).mpr (.inr (.inl rfl)), hold⟩
      · exact ⟨s, (mem s).mpr (.inr (.inr ⟨hs, hid⟩)), .refl s⟩
    · rcases (mem t').mp ht' with rfl | rfl | ⟨ht, -⟩
      · exact .inr (.inr ⟨old, mem_old, family.symm, user.symm, live⟩)
      · exact .inl ⟨old, mem_old, hold⟩
      · exact .inl ⟨t', ht, .refl t'⟩

theorem linear (hl : Linear c) (h : TokenEffect ks c c') : Linear c' := by
  cases h with
  | revoke came kept =>
    refine ⟨fun s' hs' t' ht' hj => ?_, fun s' hs' t' ht' hf => ?_, fun f => ?_⟩
    · obtain ⟨s, hs, hrs⟩ := came s' hs'
      obtain ⟨t, ht, hrt⟩ := came t' ht'
      have hst := hl.jti s hs t ht (hrs.grows.jti.symm.trans (hj.trans hrt.grows.jti))
      exact token_ext hs' ht' (hrs.grows.id.trans (hst ▸ hrt.grows.id.symm))
    · obtain ⟨s, hs, hrs⟩ := came s' hs'
      obtain ⟨t, ht, hrt⟩ := came t' ht'
      rw [hrs.grows.userId, hrt.grows.userId]
      exact hl.owner s hs t ht (hrs.grows.familyId.symm.trans (hf.trans hrt.grows.familyId))
    · obtain ⟨ids, hids⟩ := hl.chain f
      refine ⟨ids, hids.congr (fun t' ht' hf => ?_) fun t ht hf => ?_⟩
      · obtain ⟨t, ht, hr⟩ := came t' ht'
        exact ⟨t, ht, hr.grows.id.symm, hr.grows.familyId.symm.trans hf, hr.same⟩
      · obtain ⟨t', ht', hr⟩ := kept t ht
        exact ⟨t', ht', hr.grows.id, hr.grows.familyId.trans hf⟩
  | issue new pristine jti id family mem =>
    refine ⟨fun s hs t ht hj => ?_, fun s hs t ht hf => ?_, fun f => ?_⟩
    · rcases (mem s).mp hs with rfl | hs <;> rcases (mem t).mp ht with rfl | ht
      · rfl
      · exact absurd hj.symm (jti t ht)
      · exact absurd hj (jti s hs)
      · exact hl.jti s hs t ht hj
    · rcases (mem s).mp hs with rfl | hs <;> rcases (mem t).mp ht with rfl | ht
      · rfl
      · exact absurd hf.symm (family t ht)
      · exact absurd hf (family s hs)
      · exact hl.owner s hs t ht hf
    · by_cases hf : f = new.familyId
      · subst hf
        have honly : ∀ t ∈ tokens c', t.familyId = new.familyId → t = new := fun t ht hf =>
          ((mem t).mp ht).resolve_right fun ht => family t ht hf
        refine ⟨[new.id], List.nodup_singleton _, fun i => ?_, .singleton _, fun i hi t ht hid => ?_⟩
        · rw [List.mem_singleton]
          constructor
          · rintro rfl
            exact ⟨new, (mem new).mpr (.inl rfl), rfl, rfl⟩
          · rintro ⟨t, ht, rfl, hf⟩
            rw [honly t ht hf]
        · cases Option.mem_some_iff.mp hi
          cases token_ext ht ((mem new).mpr (.inl rfl)) hid
          exact ⟨pristine.1.1, pristine.2⟩
      · obtain ⟨ids, hids⟩ := hl.chain f
        refine ⟨ids, hids.congr (fun t' ht' htf => ?_) fun t ht htf => ?_⟩
        · rcases (mem t').mp ht' with rfl | ht
          · exact absurd htf.symm hf
          · exact ⟨t', ht, rfl, htf, rfl, rfl⟩
        · exact ⟨t, (mem t).mpr (.inr ht), rfl, htf⟩
  | rotate old new t mem_old live locked pristine jti id family user mem =>
    have hback : ∀ s ∈ tokens c', s = new ∨ ∃ s₀ ∈ tokens c, s₀.id = s.id ∧ s₀.jti = s.jti ∧
        s₀.userId = s.userId ∧ s₀.familyId = s.familyId ∧ (s.id ≠ old.id → s = s₀) := by
      intro s hs
      rcases (mem s).mp hs with rfl | rfl | ⟨hs, hid⟩
      · exact .inl rfl
      · exact .inr ⟨old, mem_old, rfl, rfl, rfl, rfl, fun h => absurd rfl h⟩
      · exact .inr ⟨s, hs, rfl, rfl, rfl, rfl, fun _ => rfl⟩
    have hnew : new ∈ tokens c' := (mem new).mpr (.inl rfl)
    refine ⟨fun s hs t ht hj => ?_, fun s hs t ht hf => ?_, fun f => ?_⟩
    · rcases hback s hs with rfl | ⟨s₀, hs₀, hsi, hsj, -⟩ <;>
        rcases hback t ht with rfl | ⟨t₀, ht₀, hti, htj, -⟩
      · rfl
      · exact absurd (htj.trans hj.symm) (jti t₀ ht₀)
      · exact absurd (hsj.trans hj) (jti s₀ hs₀)
      · have := hl.jti s₀ hs₀ t₀ ht₀ (hsj.trans (hj.trans htj.symm))
        exact token_ext hs ht (hsi.symm.trans (this ▸ hti))
    · have howner : ∀ s ∈ tokens c', s.familyId = old.familyId → s.userId = old.userId := by
        intro s hs hf
        rcases hback s hs with rfl | ⟨s₀, hs₀, -, -, hsu, hsf, -⟩
        · exact user
        · exact hsu.symm.trans (hl.owner s₀ hs₀ old mem_old (hsf.trans hf))
      rcases hback s hs with rfl | ⟨s₀, hs₀, -, -, hsu, hsf, -⟩
      · rw [howner t ht (hf.symm.trans family), user]
      · rcases hback t ht with rfl | ⟨t₀, ht₀, -, -, htu, htf, -⟩
        · rw [howner s hs (hf.trans family), user]
        · rw [← hsu, ← htu]
          exact hl.owner s₀ hs₀ t₀ ht₀ (hsf.trans (hf.trans htf.symm))
    · obtain ⟨ids, hids⟩ := hl.chain f
      by_cases hf : f = old.familyId
      · subst hf
        exact ⟨ids ++ [new.id], hids.rotate mem_old live pristine id family mem⟩
      · refine ⟨ids, hids.congr (fun t' ht' htf => ?_) fun t ht htf => ?_⟩
        · rcases (mem t').mp ht' with rfl | rfl | ⟨ht, -⟩
          · exact absurd (htf.symm.trans family) hf
          · exact absurd htf.symm hf
          · exact ⟨t', ht, rfl, htf, rfl, rfl⟩
        · have hid : t.id ≠ old.id := fun hid => by
            cases token_ext ht mem_old hid
            exact hf htf.symm
          exact ⟨t, (mem t).mpr (.inr (.inr ⟨ht, hid⟩)), rfl, htf⟩

end TokenEffect

end DevOps
