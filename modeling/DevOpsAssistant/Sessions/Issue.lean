import DevOpsAssistant.Sessions.Protocol

/-!
# Issuing tokens

* `onReturn`, `safe_bind_frame`, `safe_of_raises`: sequencing for programs that keep the protocol.
* `Issued`: what `createTokenInFamily` leaves; **`safe_createTokenInFamily`**.
* `NewFamily`: what `login` leaves; **`safe_login`**, **`NewFamily.commitOk`**.
-/

namespace DevOps

open Txn AuthService

variable (env : Env)

/-! ## Sequencing -/

/-- A postcondition about what a program returns. -/
def onReturn {α : Type} (Φ : α → Local Row Key → Database → Prop) :
    Except Exc α → Local Row Key → Database → Prop := fun r l c => ∀ a, r = .ok a → Φ a l c

section Sequencing

variable {α β : Type} {l : Local Row Key} {c : Database} {Φ : α → Local Row Key → Database → Prop}

theorem safe_bind_return (Ψ : β → Local Row Key → Database → Prop) {p : Db β} {g : β → Db α}
    (hp : tokenProtocol.safe (onReturn Ψ) p l c)
    (hg : ∀ b l' c', Ψ b l' c' → tokenProtocol.Rely l' c' c' →
      tokenProtocol.safe (onReturn Φ) (g b) l' c') :
    tokenProtocol.safe (onReturn Φ) (p >>= g) l c :=
  Protocol.safe_bind (onReturn Ψ)
    (fun b l' _ h => Protocol.safe_of_rely fun d hd => hg b l' d (h d hd b rfl) hd.again)
    (fun _ _ _ _ _ h => nomatch h) hp

theorem safe_map_return (Ψ : β → Local Row Key → Database → Prop) {p : Db β} {f : β → α}
    (hp : tokenProtocol.safe (onReturn Ψ) p l c) (hf : ∀ b l' c', Ψ b l' c' → Φ (f b) l' c') :
    tokenProtocol.safe (onReturn Φ) (p >>= fun b => pure (f b)) l c := by
  refine Protocol.safe_bind (onReturn Ψ) (fun b l' _ h => ?_) (fun _ _ _ _ _ h => nomatch h) hp
  intro d hd a ha
  cases ha
  exact hf b l' d (h d hd b rfl)

/-- A program on other tables, and what follows it. -/
theorem safe_bind_frame {p : Db β} {g : β → Db α} {S : β → Prop}
    (hp : p.Only (Writes frameRules) S) (hr : tokenProtocol.Rely l c c)
    (hg : ∀ b l' c', S b → TokenFrame l l' → tokenProtocol.Rely l c c' →
      tokenProtocol.Rely l' c' c' → tokenProtocol.safe (onReturn Φ) (g b) l' c') :
    tokenProtocol.safe (onReturn Φ) (p >>= g) l c := by
  refine safe_bind_return (fun b l' c' => S b ∧ TokenFrame l l' ∧ tokenProtocol.Rely l c c') ?_ fun b l' c' h hself => hg b l' c' h.1 h.2.1 h.2.2 hself
  exact Protocol.safe_mono (fun _ _ _ h b hb => ⟨h.2 b hb, h.1⟩)
    (Protocol.safe_of_only (frame_invariant l c) hp ⟨.refl l, hr⟩)

/-- A program on other tables that returns nothing. -/
theorem safe_of_raises {p : Db α}
    (hp : p.Only (Writes frameRules) fun _ => False)
    (hr : tokenProtocol.Rely l c c) : tokenProtocol.safe (onReturn Φ) p l c :=
  Protocol.safe_mono (fun _ _ _ h b hb => (h.2 b hb).elim)
    (Protocol.safe_of_only (frame_invariant l c) hp ⟨.refl l, hr⟩)

/-- A program that revokes tokens at most and returns nothing. -/
theorem safe_of_quiet_raises {p : Db α} (hp : p.Only (Writes quietRules) fun _ => False)
    (hl : QuietLog l c) (hc : Linear c) : tokenProtocol.safe (onReturn Φ) p l c :=
  Protocol.safe_mono (fun _ _ _ h b hb => (h.2 b hb).elim)
    (Protocol.safe_of_only quiet_invariant hp ⟨hl, hc⟩)

end Sequencing

/-! ## New tokens -/

/-- The session has created the token `new` of `user`, presented as `raw`, since it was `l₀`. -/
structure Issued (user : User) (l₀ : Local Row Key) (c₀ : Database) (raw : RawToken)
    (new : RefreshToken) (l : Local Row Key) (c : Database) : Prop where
  rely : tokenProtocol.Rely l₀ c₀ c
  log : tokenLog l = tokenLog l₀ ++ [.store (.refreshToken new)]
  locks : ∀ k ∈ l₀.locks, k ∈ l.locks
  ids : ∀ n ∈ l₀.ids, n ∈ l.ids
  id : new.id ∈ l.ids
  jti : new.jti ∈ l.ids
  drawn : new.jti ∈ l.drawn
  locked : tokenKey new ∈ l.locks
  absent : ∀ t ∈ tokens (c.apply (tokenLog l₀)), t.id ≠ new.id
  pristine : Pristine new
  owner : new.userId = user.id
  signed : ∃ exp, raw = .jwt ⟨some user.id, new.jti, .refresh, exp, some new.familyId⟩
  hash : new.tokenHash = hashRefreshToken env raw

variable {env} {user : User} {l₀ l l' : Local Row Key} {c₀ c c' : Database} {raw : RawToken}
  {new : RefreshToken}

/-- Writing other tables after the token has been created changes nothing. -/
theorem Issued.mono (h : Issued env user l₀ c₀ raw new l c) (hl : TokenFrame l l')
    (hc : tokenProtocol.Rely l c c') : Issued env user l₀ c₀ raw new l' c' := by
  refine ⟨h.rely.trans (hc.mono h.locks h.ids), hl.log.trans h.log,
    fun k hk => hl.locks k (h.locks k hk), fun n hn => hl.ids n (h.ids n hn), hl.ids _ h.id, hl.ids _ h.jti, hl.drawn _ h.drawn, hl.locks _ h.locked,
    fun t ht hid => ?_, h.pristine, h.owner, h.signed, h.hash⟩
  refine h.absent t ?_ hid
  have hk : key (Row.refreshToken t) ∈ l.locks := by
    change (⟨.refreshTokens, t.id⟩ : Key) ∈ l.locks
    rw [hid]
    exact h.locked
  rw [mem_tokens] at ht ⊢
  exact (hc.same.replay (tokenLog l₀) _ hk).mp ht

/-- **Creating a token** draws a new `jti` and inserts a row, or violates a unique constraint. -/
theorem safe_createTokenInFamily (f : UUID) :
    tokenProtocol.safe (onReturn fun p l' c' => Issued env user l c p.1 p.2 l' c' ∧ p.2.familyId = f)
      (createTokenInFamily env user f) l c := by
  intro c₁ h₁ jti hj₁ hj₂ c₂ h₂ t₁ c₃ h₃ t₂ c₄ h₄ id hi₁ hi₂ c₅ h₅ t₃ c₆ h₆
  split
  · exact fun c' hc p hp => by cases hp
  · next hclash =>
    intro c' hc p hp
    cases hp
    refine ⟨Issued.mono ⟨?_, ?_, fun k hk => List.mem_cons_of_mem _ hk,
      fun n hn => List.mem_cons_of_mem _ (List.mem_cons_of_mem _ hn),
      List.mem_cons_self, List.mem_cons_of_mem _ List.mem_cons_self,
      List.mem_cons_of_mem _ List.mem_cons_self, List.mem_cons_self, fun t ht hid => hclash ?_, ⟨⟨rfl, rfl⟩, rfl⟩, rfl, ⟨_, rfl⟩, rfl⟩
      (.refl _) hc, rfl⟩
    · have hdraw : tokenProtocol.Rely l c₁ c₄ := ((h₂.trans h₃).trans h₄).mono
        (fun _ hk => hk) fun _ hn => List.mem_cons_of_mem _ hn
      have hdraw' : tokenProtocol.Rely l c₄ c₆ := (h₅.trans h₆).mono (fun _ hk => hk)
        fun _ hn => List.mem_cons_of_mem _ (List.mem_cons_of_mem _ hn)
      exact (h₁.trans hdraw).trans hdraw'
    · simp [tokenLog, Local.insert, Local.draw, List.filter_append, Write.key, toRow, Row.table]
    · refine List.any_eq_true.mpr ⟨.refreshToken t, ?_, ?_⟩
      · exact mem_tokens.mp (mem_tokens_view.mpr ht)
      · exact (Bool.or_eq_true _ _).mpr (.inl (by simp [Row.id, Row.table, toRow, hid]))

/-! ## Changing a locked token -/

/-- The flush of a change to a token the session has locked. -/
theorem safe_bind_updateById {α : Type} {Φ : α → Local Row Key → Database → Prop}
    (old : RefreshToken) {f : RefreshToken → RefreshToken} (hf : ∀ t, Entity.id (f t) = Entity.id t)
    {g : RefreshToken → Db α} (hm : old ∈ tokens (l.view c)) (hk : tokenKey old ∈ l.locks)
    (hg : ∀ l' c', tokenProtocol.Rely l c c' →
      tokenLog l' = tokenLog l ++ [.store (.refreshToken (f old))] →
      (∀ k ∈ l.locks, k ∈ l'.locks) → l'.ids = l.ids → l'.drawn = l.drawn →
      tokenProtocol.Rely l' c' c' → tokenProtocol.safe (onReturn Φ) (g (f old)) l' c') :
    tokenProtocol.safe (onReturn Φ) (updateById old.id f hf >>= g) l c := by
  obtain ⟨hstore, heff⟩ := updateEffect_toRow hf old
  refine Protocol.safe_modify_locked (mem_tokens.mp hm) hk
    (by simp [ofRow, Entity.id, toRow, Row.id]) (fun s hs => ?_) fun c' hc => ?_
  · obtain ⟨-, t, rfl, ht⟩ := table_of_ofRow_any hs
    exact Entity.key_toRow_eq (of_decide_eq_true ht : Entity.id t = Entity.id old)
  · change tokenProtocol.safe _ (g (f old)) (l.lock (toRow old) (updateEffect f hf (toRow old))) c'
    rw [heff]
    have hlocks : ∀ k ∈ l.locks, k ∈ (l.lock (toRow old) (.store (toRow (f old)) hstore)).locks :=
      fun k hk => List.mem_cons_of_mem _ hk
    refine Protocol.safe_of_rely fun d hd => hg _ d (hc.trans (hd.mono hlocks fun _ hn => hn)) ?_
      hlocks rfl rfl hd.again
    simp [tokenLog, Local.lock, Effect.log, List.filter_append, Write.key, toRow, Row.table]

/-! ## Login -/

/-- The session has opened a family with the token `new`, and written no other token. -/
structure NewFamily (new : RefreshToken) (l : Local Row Key) (c : Database) : Prop where
  rely : tokenProtocol.Rely l c c
  log : tokenLog l = [.store (.refreshToken new)]
  pristine : Pristine new
  id : new.id ∈ l.ids
  jti : new.jti ∈ l.ids
  family : new.familyId ∈ l.ids
  absent : ∀ t ∈ tokens c, t.id ≠ new.id

theorem NewFamily.commitOk (h : NewFamily new l c) : tokenProtocol.CommitOk l c := by
  have hunused : ∀ n ∈ l.ids, ∀ t ∈ tokens c, n ≠ t.id ∧ n ≠ t.jti ∧ n ≠ t.familyId := fun n hn t ht => by
    have := h.rely.unused n hn (.refreshToken t) (mem_tokens.mp ht)
    simpa [tokenProtocol, tokenNames] using this
  have hmem : ∀ t, t ∈ tokens (l.view c) ↔ t = new ∨ t ∈ tokens c := fun t => by
    rw [mem_tokens_view, h.log, Table.apply_cons, Table.apply_nil, mem_tokens, mem_tokens,
      Table.mem_write_store, Row.refreshToken.injEq]
    constructor
    · rintro (rfl | ⟨ht, -⟩)
      · exact .inl rfl
      · exact .inr ht
    · rintro (rfl | ht)
      · exact .inl rfl
      · exact .inr ⟨ht, fun hk => h.absent t (mem_tokens.mpr ht) (congrArg Key.id hk)⟩
  refine commitOk_of_effect h.rely.inv (.issue new h.pristine
    (fun t ht => ((hunused _ h.jti t ht).2.1).symm) h.absent
    (fun t ht => ((hunused _ h.family t ht).2.2).symm) hmem) fun t' ht' => ?_
  rcases (hmem t').mp ht' with rfl | ht
  · exact .inr ⟨h.id, h.jti, .inl h.family⟩
  · exact .inl ⟨t', ht, .refl t'⟩

theorem safe_issueTokenPair (hl : tokenLog l = []) :
    tokenProtocol.safe (onReturn fun _ l' c' => ∃ new, NewFamily new l' c')
      (issueTokenPair env user) l c := by
  -- the family is drawn first
  intro c₁ h₁ f hf₁ hf₂
  have hl' : tokenLog (l.draw f) = [] := hl
  refine safe_bind_return _ (safe_createTokenInFamily f) fun p l₂ c₂ h hself => ?_
  obtain ⟨hissued, hfam⟩ := h
  refine safe_bind_frame (only_buildTokenPair env _ _) hself fun pair l₃ c₃ _ hfr hr hself => ?_
  refine safe_bind_frame (only_recordEvent frameRules_audit _ _ _ _) hself
    fun _ l₄ c₄ _ hfr' hr' hself c' hc a ha => ?_
  have h' := (hissued.mono hfr hr).mono (hfr'.trans (.refl _)) (hr'.trans (hfr'.rely hc))
  refine ⟨p.2, hc.again, ?_, h'.pristine, h'.id, h'.jti, hfam ▸ h'.ids f List.mem_cons_self,
    fun t ht => h'.absent t (by rw [hl']; exact ht)⟩
  rw [h'.log, hl', List.nil_append]

/-- **Login** opens a family, or fails. -/
theorem safe_login (username password : String) (hl : tokenLog l = [])
    (hr : tokenProtocol.Rely l c c) :
    tokenProtocol.safe (onReturn fun _ l' c' => ∃ new, NewFamily new l' c')
      (login env username password) l c := by
  unfold login
  refine safe_bind_frame (only_getByUsername _) hr fun found l₁ c₁ _ hfr _ hself => ?_
  have hl₁ : tokenLog l₁ = [] := hfr.log.trans hl
  cases found with
  | none => exact safe_of_raises (only_loginFailure frameRules_audit _) hself
  | some user =>
    simp only
    split
    · exact safe_of_raises (only_loginFailure frameRules_audit _) hself
    split
    · exact safe_of_raises (only_loginFailure frameRules_audit _) hself
    split
    · exact safe_of_raises (only_loginFailure frameRules_audit _) hself
    split
    · refine safe_bind_frame (only_hashPassword env _) hself fun h l₂ c₂ _ hfr₂ _ hself => ?_
      refine safe_bind_frame (only_updateHashedPassword frameRules_updateUser _ _) hself
        fun _ l₃ c₃ _ hfr₃ _ hself => ?_
      refine safe_bind_frame (only_recordEvent frameRules_audit _ _ _ _) hself
        fun _ l₄ c₄ _ hfr₄ _ _ => ?_
      exact safe_issueTokenPair ((hfr₄.log.trans (hfr₃.log.trans hfr₂.log)).trans hl₁)
    · exact safe_issueTokenPair hl₁

end DevOps
