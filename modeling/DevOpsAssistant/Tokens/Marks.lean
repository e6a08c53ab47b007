import DevOpsAssistant.Specs.Histories

/-!
# Marks on mailed tokens

The three tables of mailed tokens have rows that are only ever marked as used: no request removes a
row, and none takes its mark away.

* `OneTimeToken`, `oneTimeTokens`: what the rows of the three tables share.
* `OneTimeToken.Marks`, `Marked`, `Persist`: a token, a row or a database with more marks.
* `markDiscipline`: what sessions assume of mailed tokens while others run.
* `MarkLog`: a transaction that only adds tokens and marks; **`MarkLog.persist`**, **`preserves_markLog`**.
-/

namespace DevOps

open Txn Discipline

/-- The tables of mailed tokens. -/
def mailTables : TableName → Bool
  | .passwordResetTokens | .emailChangeTokens | .emailVerificationTokens => true
  | _ => false

/-- A row of a table of mailed tokens. -/
structure OneTimeToken where
  key : Key
  tokenHash : String
  expiresAt : Time
  usedAt : Option Time

/-- The mailed token of a row. -/
def oneTimeToken : Row → Option OneTimeToken
  | .passwordResetToken r =>
    some ⟨⟨.passwordResetTokens, r.id⟩, r.tokenHash, r.expiresAt, r.usedAt⟩
  | .emailChangeToken r => some ⟨⟨.emailChangeTokens, r.id⟩, r.tokenHash, r.expiresAt, r.usedAt⟩
  | .emailVerificationToken r =>
    some ⟨⟨.emailVerificationTokens, r.id⟩, r.tokenHash, r.expiresAt, r.usedAt⟩
  | _ => none

/-- The mailed tokens of a database. -/
def oneTimeTokens (c : Database) : List OneTimeToken := c.rows.filterMap oneTimeToken

theorem mem_oneTimeTokens {c : Database} {t : OneTimeToken} :
    t ∈ oneTimeTokens c ↔ ∃ r ∈ c.rows, oneTimeToken r = some t := List.mem_filterMap

theorem key_of_oneTimeToken {r : Row} {t : OneTimeToken} (h : oneTimeToken r = some t) :
    t.key = key r := by
  cases r <;> cases h <;> rfl

theorem mailTables_of_oneTimeToken {r : Row} {t : OneTimeToken} (h : oneTimeToken r = some t) :
    mailTables r.table = true := by
  cases r <;> cases h <;> rfl

theorem oneTimeToken_ext {c : Database} {t t' : OneTimeToken} (ht : t ∈ oneTimeTokens c)
    (ht' : t' ∈ oneTimeTokens c) (h : t.key = t'.key) : t = t' := by
  obtain ⟨r, hr, hrt⟩ := mem_oneTimeTokens.mp ht
  obtain ⟨r', hr', hrt'⟩ := mem_oneTimeTokens.mp ht'
  have hk : key r = key r' := by rw [← key_of_oneTimeToken hrt, ← key_of_oneTimeToken hrt', h]
  rw [c.eq_of_key_eq hr hr' hk, hrt'] at hrt
  exact (Option.some.inj hrt).symm

/-! ## Marks -/

/-- The token `t'` is `t`, possibly marked as used. -/
structure OneTimeToken.Marks (t t' : OneTimeToken) : Prop where
  key : t'.key = t.key
  tokenHash : t'.tokenHash = t.tokenHash
  expiresAt : t'.expiresAt = t.expiresAt
  used : t.usedAt.isSome = true → t'.usedAt.isSome = true

theorem OneTimeToken.Marks.refl (t : OneTimeToken) : t.Marks t := ⟨rfl, rfl, rfl, id⟩

theorem OneTimeToken.Marks.trans {t t' t'' : OneTimeToken} (h : t.Marks t') (h' : t'.Marks t'') :
    t.Marks t'' :=
  ⟨h'.key.trans h.key, h'.tokenHash.trans h.tokenHash, h'.expiresAt.trans h.expiresAt,
    fun hu => h'.used (h.used hu)⟩

/-- If the row `r` has a mailed token, `r'` has it too, possibly marked as used. -/
def Marked (r r' : Row) : Prop :=
  ∀ t, oneTimeToken r = some t → ∃ t', oneTimeToken r' = some t' ∧ t.Marks t'

theorem Marked.refl (r : Row) : Marked r r := fun t ht => ⟨t, ht, .refl t⟩

theorem Marked.trans {r r' r'' : Row} (h : Marked r r') (h' : Marked r' r'') : Marked r r'' := by
  intro t ht
  obtain ⟨t', ht', hm⟩ := h t ht
  obtain ⟨t'', ht'', hm'⟩ := h' t' ht'
  exact ⟨t'', ht'', hm.trans hm'⟩

/-- The mailed tokens of `c` are in `d`, possibly marked as used. -/
def Persist (c d : Database) : Prop := ∀ t ∈ oneTimeTokens c, ∃ t' ∈ oneTimeTokens d, t.Marks t'

theorem Persist.refl (c : Database) : Persist c c := fun t ht => ⟨t, ht, .refl t⟩

theorem Persist.trans {c d e : Database} (h : Persist c d) (h' : Persist d e) : Persist c e := by
  intro t ht
  obtain ⟨t', ht', hm⟩ := h t ht
  obtain ⟨t'', ht'', hm'⟩ := h' t' ht'
  exact ⟨t'', ht'', hm.trans hm'⟩

/-- What sessions assume of mailed tokens while others run: they are marked at most. -/
def markDiscipline : Discipline Row where
  inv _ := True
  follows := Persist
  names _ := []
  follows_refl _ := .refl _

/-! ## The writes of a transaction -/

/-- The writes of the transaction to mailed tokens are of locked rows: they are new, or marks. -/
def MarkLog (l : OpenTx) (c : Database) : Prop :=
  ∀ w ∈ logOn mailTables l, w.key ∈ l.locks ∧
    ∃ r', w = .store r' ∧ ∀ r ∈ c.rows, key r = key r' → Marked r r'

variable {l l' : OpenTx} {c c' : Database} {h h' : Told} {r r' : Row}

theorem MarkLog.of_unwritten (hl : logOn mailTables l = []) : MarkLog l c := by
  intro w hw
  rw [hl] at hw
  cases hw

/-- Others leave the locked rows alone. -/
theorem MarkLog.rely (hl : MarkLog l c) (e : markDiscipline.Env h l c c') : MarkLog l c' := by
  intro w hw
  obtain ⟨hlock, r', rfl, hr'⟩ := hl w hw
  refine ⟨hlock, r', rfl, fun r hr hk => hr' r ?_ hk⟩
  exact (e.same r (by rw [hk]; exact hlock)).mp hr

theorem MarkLog.extends (hl : MarkLog l c)
    (x : Extends markDiscipline mailTables h l c h' l' c') : MarkLog l' c' := by
  intro w hw
  obtain ⟨hlock, hw'⟩ := hl.rely x.env w (x.log ▸ hw)
  exact ⟨x.locks _ hlock, hw'⟩

/-- The row a transaction sees in place of a committed one. -/
theorem MarkLog.marked (hl : MarkLog l c) (ht : mailTables r'.table = true)
    (hr' : r' ∈ (l.view c).rows) (hr : r ∈ c.rows) (hk : key r = key r') : Marked r r' := by
  rw [Local.view, mem_apply_filter (S := mailTables) ht l.log Iff.rfl] at hr'
  rcases Table.mem_apply _ hr' with hw | ⟨hm, -⟩
  · obtain ⟨-, s, hs, hmark⟩ := hl _ hw
    cases hs
    exact hmark r hr hk
  · exact c.eq_of_key_eq hr hm hk ▸ .refl r

/-- A transaction sees a row in place of each committed one. -/
theorem MarkLog.exists_mem (hl : MarkLog l c) (ht : mailTables r.table = true) (hr : r ∈ c.rows) :
    ∃ r' ∈ (l.view c).rows, key r' = key r := by
  obtain ⟨r', hr', hk⟩ := Table.exists_mem_apply (key r) (logOn mailTables l) (fun w hw _ => by
    obtain ⟨-, s, rfl, -⟩ := hl w hw
    exact ⟨s, rfl⟩) ⟨r, hr, rfl⟩
  have ht' : mailTables r'.table = true := by
    rw [show r'.table = r.table from congrArg Key.table hk]
    exact ht
  exact ⟨r', (mem_apply_filter ht' l.log Iff.rfl).mpr hr', hk⟩

/-- **A transaction that only adds tokens and marks** leaves every token, possibly marked. -/
theorem MarkLog.persist (hl : MarkLog l c) : Persist c (l.view c) := by
  intro t ht
  obtain ⟨r, hr, hrt⟩ := mem_oneTimeTokens.mp ht
  have htable := mailTables_of_oneTimeToken hrt
  obtain ⟨r', hr', hk⟩ := hl.exists_mem htable hr
  have ht' : mailTables r'.table = true := by
    rw [show r'.table = r.table from congrArg Key.table hk]
    exact htable
  obtain ⟨t', hrt', hm⟩ := hl.marked ht' hr' hr hk.symm t hrt
  exact ⟨t', mem_oneTimeTokens.mpr ⟨r', hr', hrt'⟩, hm⟩

theorem MarkLog.commitOk (hl : MarkLog l c) : markDiscipline.CommitOk l c :=
  ⟨trivial, fun _ ht _ => ht.trans hl.persist, fun _ _ _ hn => (nomatch hn), fun _ _ => trivial⟩

/-! ## Requests -/

/-- The rules of a request that only adds tokens and marks. -/
def markRules : Rules where
  insert _ := True
  update := Marked
  delete r := mailTables r.table = false
  tx := False

theorem marked_of_other (h : mailTables r.table = false) : Marked r r' := by
  intro t ht
  rw [mailTables_of_oneTimeToken ht] at h
  cases h

theorem allowsAccounts_mark : AllowsAccounts markRules where
  insertUser _ := trivial
  insertReset _ := trivial
  insertChange _ := trivial
  insertVerification _ := trivial
  audit _ _ := trivial
  updateUser _ _ _ _ := marked_of_other rfl
  markReset _ _ := fun _ ht => by cases ht; exact ⟨_, rfl, rfl, rfl, rfl, fun _ => rfl⟩
  markChange _ _ := fun _ ht => by cases ht; exact ⟨_, rfl, rfl, rfl, rfl, fun _ => rfl⟩
  markVerification _ _ := fun _ ht => by cases ht; exact ⟨_, rfl, rfl, rfl, rfl, fun _ => rfl⟩
  revoke _ _ _ := marked_of_other rfl

theorem allowsSessions_mark : AllowsSessions markRules where
  insert _ := trivial
  used _ _ := marked_of_other rfl
  replaced _ _ := marked_of_other rfl

/-- Further writes, of locked rows that are new or marks. -/
theorem MarkLog.append (hl : MarkLog l c) (ws : List (Write Row Key)) (hlog : l'.log = l.log ++ ws)
    (hlocks : ∀ k ∈ l.locks, k ∈ l'.locks)
    (hws : ∀ w ∈ ws, mailTables w.key.table = true → w.key ∈ l'.locks ∧
      ∃ r', w = .store r' ∧ ∀ r ∈ c.rows, key r = key r' → Marked r r') : MarkLog l' c := by
  intro w hw
  rw [logOn_append ws hlog, List.mem_append, List.mem_filter] at hw
  rcases hw with hw | ⟨hw, htable⟩
  · obtain ⟨hlock, hw'⟩ := hl w hw
    exact ⟨hlocks _ hlock, hw'⟩
  · exact hws w hw htable

theorem MarkLog.lock (hl : MarkLog l c) {p : Row → Bool} {f : (r : Row) → Effect r}
    (hφ : Writes markRules (.modify p f)) (hr : r ∈ (l.view c).rows) (hp : p r = true) :
    MarkLog (l.lock r (f r)) c := by
  refine hl.append (f r).log rfl (fun k hk => List.mem_cons_of_mem _ hk) fun w hw htable => ?_
  have hkey := Effect.key_of_mem_log hw
  have hφ := hφ r hp
  cases hf : f r with
  | keep => rw [hf] at hw; cases hw
  | remove =>
    rw [hf] at hφ
    rw [hkey] at htable
    exact absurd htable (by simpa [markRules] using hφ)
  | store r' same =>
    rw [hf] at hφ hw
    cases List.mem_singleton.mp hw
    refine ⟨hkey ▸ List.mem_cons_self, r', rfl, fun r₀ hr₀ hk => ?_⟩
    have ht : mailTables r.table = true := by
      rw [hkey] at htable
      exact htable
    exact (hl.marked ht hr hr₀ (hk.trans same)).trans hφ

theorem MarkLog.insert (hl : MarkLog l c) (hnew : ∀ x ∈ (l.view c).rows, key x ≠ key r) :
    MarkLog (l.insert r) c := by
  refine hl.append [.store r] rfl (fun k hk => List.mem_cons_of_mem _ hk) fun w hw htable => ?_
  cases List.mem_singleton.mp hw
  refine ⟨List.mem_cons_self, r, rfl, fun r₀ hr₀ hk => ?_⟩
  -- a committed row with this key would be seen
  have ht₀ : mailTables r₀.table = true := by
    rw [show r₀.table = r.table from congrArg Key.table hk]
    exact htable
  obtain ⟨x, hx, hxk⟩ := hl.exists_mem ht₀ hr₀
  exact absurd (hxk.trans hk) (hnew x hx)

/-- **The statements of a request that only adds tokens and marks** keep its log so. -/
theorem preserves_markLog {owes : Told → OpenTx → Database → Prop} :
    Preserves markDiscipline (Writes markRules) owes fun _ l c => MarkLog l c where
  rely hl e := hl.rely e
  read hl := hl
  answer _ hl := hl
  lock hφ hl hr hp := hl.lock hφ hr hp
  insert _ hl hnew := hl.insert hnew
  draw hl := hl
  commit hφ := hφ.elim
  rollback hφ := hφ.elim

end DevOps
