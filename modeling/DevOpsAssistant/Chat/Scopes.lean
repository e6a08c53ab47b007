import DevOpsAssistant.Chat.Prompts

/-!
# The scope a stream is charged to

The permission and the quota are those of the organization of the request; the usage is charged to
the organization of the conversation.

* `ends_resolved`, `ends_conversation`: the two organizations.
* `Charges`: the organization a prepared stream is charged to; `ends_prepareStream_charges`.
* `charged_iff`, `organization_of_named`: the organization that is charged.
* **`charged_scope_iff`**: when the usage of a stream is charged to the scope that has admitted it.
-/

namespace DevOps

open Txn

namespace ChatService

section Runs

variable (env : Env) {s : Session Row World}

/-- The scope whose permission and quota are asked is that of the request. -/
theorem ends_resolved (user : User) (organizationId : Option UUID) :
    (resolveOrganizationId user organizationId).Ends respond s
      (unchanged s fun o => o = organizationId) := by
  cases organizationId with
  | none => exact ends_unchanged_pure rfl
  | some o =>
    exact ends_unchanged_bind (ends_requirePermission o user.id .resourceCreate) fun _ _ =>
      ends_unchanged_pure rfl

/-- The conversation has the organization of the stored one, or that of the request if it is new. -/
def Charges (db : Database) (user : User) (payload : ChatRequest)
    (conversation : Conversation) : Prop :=
  match payload.conversationId with
  | none => conversation.organizationId = payload.organizationId
  | some id => ∃ c ∈ rowsOf Conversation db, ownConversation id user.id c = true ∧
      conversation.organizationId = c.organizationId

theorem Charges.congr {db db' : Database} {user : User} {payload : ChatRequest}
    {conversation : Conversation} (h : Charges db user payload conversation)
    (hmem : ∀ c, c ∈ rowsOf Conversation db ↔ c ∈ rowsOf Conversation db') :
    Charges db' user payload conversation := by
  unfold Charges at h ⊢
  generalize payload.conversationId = named at h ⊢
  cases named with
  | none => exact h
  | some id =>
    obtain ⟨c, hc, hown, ho⟩ := h
    exact ⟨c, (hmem c).mp hc, hown, ho⟩

/-- The conversation of a request is a row of the session. -/
theorem ends_conversation (user : User) (payload : ChatRequest) (message provider : String) :
    (conversationFor user payload message payload.organizationId provider).Ends respond s
      (Prog.onOk fun c s' => Charges s.view user payload c ∧ c ∈ rowsOf Conversation s'.view) := by
  unfold conversationFor Charges
  cases payload.conversationId with
  | some id =>
    refine Prog.Ends.bind (ends_unchanged_selectOne _) (fun found s' h => ?_)
      fun _ _ _ _ h => nomatch h
    obtain ⟨rfl, hfound⟩ := h
    have hfound := hfound found rfl
    cases found with
    | none => exact fun _ h => nomatch h
    | some c =>
      intro c' h
      cases h
      exact ⟨⟨c, hfound.1, hfound.2, rfl⟩, hfound.1⟩
  | none =>
    refine ends_uuid4.mpr ?_
    refine Prog.Ends.bind (ends_insert _ _) (fun _ s' h => ?_) fun _ _ _ _ h => nomatch h
    obtain ⟨-, rfl, -⟩ | ⟨he, -⟩ := h
    · intro c' h
      cases h
      exact ⟨rfl, mem_rowsOf.mpr (mem_view_append _ _)⟩
    · cases he

/-- The provider of a conversation is written, its organization is kept. -/
theorem ends_setProvider {conversation : Conversation} (provider : String)
    (hc : conversation ∈ rowsOf Conversation s.view) :
    (ConversationRepository.setProvider conversation provider).Ends respond s (Prog.onOk fun c _ =>
      c.organizationId = conversation.organizationId) := by
  unfold ConversationRepository.setProvider
  split
  · intro c h
    cases h
    rfl
  · refine (ends_update conversation.id (fun c : Conversation => { c with provider })
      fun _ => rfl).mono fun r s' hr c h => ?_
    obtain ⟨row, hrow, hid, he, -⟩ | ⟨-, he⟩ := hr
    · rw [he] at h
      cases h
      rw [← entity_ext hrow hc hid]
    · rw [h] at he
      cases he

/-- **The conversation of a prepared stream.** -/
theorem ends_prepareStream_charges (user : User) (payload : ChatRequest) :
    (prepareStream env user payload).Ends respond s (Prog.onOk fun prepared _ =>
      Charges s.view user payload prepared.conversation) := by
  refine Prog.Ends.bind (ends_resolved user _) (fun organizationId s₀ h₀ => ?_)
    fun _ _ _ _ h => nomatch h
  obtain ⟨rfl, ho⟩ := h₀
  rw [ho organizationId rfl]
  have hprovider : (LLMGateway.resolveStreamProvider env user .chat payload.organizationId
      (estimatedTokens (messageText env payload)) (some payload.provider)).Ends respond s₀
        (Prog.onOk fun _ s' => Unchanged (fun _ => True) s₀ s') :=
    fun _ _ => unchanged_of_only
      (only_resolveStreamProvider env user .chat payload.organizationId _ _) s₀
  refine Prog.Ends.bind_ok hprovider fun (provider, providerName) s₁ h₁ => ?_
  refine Prog.Ends.bind_ok (ends_conversation user payload _ _)
    fun conversation s₂ ⟨hcharges, hc⟩ => ?_
  have hadd : (ConversationRepository.addMessage conversation.id .user
      (messageText env payload)).Ends respond s₂
        (Prog.onOk fun _ s' => Unchanged (· = .conversations) s₂ s') := by
    refine fun _ _ => unchanged_of_only (P := fun _ => True) ?_ s₂
    exact only_bind only_uuid4 fun _ => only_bind only_now fun _ =>
      only_bind (only_insertOf _ _ fun h => nomatch h) fun _ => only_pure _
  refine Prog.Ends.bind_ok hadd fun _ s₃ h₃ => ?_
  refine Prog.Ends.bind_ok (ends_setProvider providerName ((h₃.mem rfl).mpr hc))
    fun updated s₄ hu => ?_
  refine ends_onOk_bind _ fun _ s₅ => ends_onOk_bind _ fun history s₆ => ?_
  intro prepared hp
  cases hp
  have hkept := hcharges.congr fun c => h₁.mem (T := Conversation) trivial
  unfold Charges at hkept ⊢
  generalize payload.conversationId = named at hkept ⊢
  cases named with
  | none => exact hu.trans hkept
  | some id =>
    obtain ⟨c, hc, hown, ho⟩ := hkept
    exact ⟨c, hc, hown, hu.trans ho⟩

end Runs

section Scopes

variable {env : Env} {s : Session Row World} {user : User} {payload : ChatRequest}
  {prepared : PreparedStream}

/-- The usage of a stream is charged to the organization of its conversation. -/
theorem charged_iff (o : Option UUID) (messageId : UUID) :
    (∀ ms w u, (StreamState.start (prepared.context messageId)).run (prepared.context messageId) ms
        = some w → w.recorded = some u → u.organizationId = o) ↔
      prepared.conversation.organizationId = o := by
  constructor
  · intro h
    obtain ⟨w, u, hrun, hu⟩ := exists_recorded (prepared.context messageId)
    have ho := h _ w u hrun hu
    obtain ⟨accumulated, rfl⟩ := exists_of_recorded hrun hu
    exact ho
  · intro h ms w u hrun hu
    obtain ⟨accumulated, rfl⟩ := exists_of_recorded hrun hu
    exact h

/-- A stored conversation that is continued keeps its organization. -/
theorem organization_of_named
    (hstream : ((prepareStream env user payload).exec respond s).1 = .ok prepared) {id : UUID}
    (hid : payload.conversationId = some id) {c : Conversation}
    (hc : c ∈ rowsOf Conversation s.view)
    (hown : ownConversation id user.id c = true) :
    prepared.conversation.organizationId = c.organizationId := by
  have hcharges := ends_prepareStream_charges env (s := s) user payload prepared hstream
  unfold Charges at hcharges
  rw [hid] at hcharges
  obtain ⟨c', hc', hown', ho⟩ := hcharges
  rw [ownConversation_eq] at hown hown'
  rw [ho, entity_ext hc' hc (hown'.1.trans hown.1.symm)]

/-- **When the usage is charged to the scope that has admitted the stream**: the request starts a
conversation, or names one of the same organization. -/
theorem charged_scope_iff
    (hstream : ((prepareStream env user payload).exec respond s).1 = .ok prepared)
    (messageId : UUID) :
    (∀ ms w u, (StreamState.start (prepared.context messageId)).run (prepared.context messageId) ms
        = some w → w.recorded = some u → u.organizationId = payload.organizationId) ↔
      ∀ id, payload.conversationId = some id → ∀ c ∈ rowsOf Conversation s.view,
        ownConversation id user.id c = true → c.organizationId = payload.organizationId := by
  rw [charged_iff]
  constructor
  · intro h id hid c hc hown
    rw [← organization_of_named hstream hid hc hown]
    exact h
  · intro h
    have hcharges := ends_prepareStream_charges env (s := s) user payload prepared hstream
    unfold Charges at hcharges
    cases hid : payload.conversationId with
    | none =>
      rw [hid] at hcharges
      exact hcharges
    | some id =>
      rw [hid] at hcharges
      obtain ⟨c, hc, hown, ho⟩ := hcharges
      exact ho.trans (h id hid c hc hown)

end Scopes

/-! ## A conversation that is continued outside its organization -/

/-- The organization 2 and its owner. -/
def memberSession : Session Row World where
  committed := Table.empty.apply [.store (toRow chatUser),
    .store (toRow (⟨2, "o", "o", 1, 0, 0, none⟩ : Organization)),
    .store (toRow (⟨3, 2, 1, .owner, 0, 0⟩ : OrganizationMember))]
  nextId := 4
  world := World.trial 1
  log := []

/-- The first message of a conversation in the organization. -/
def firstPayload : ChatRequest where
  message := "a"
  organizationId := some 2
  minLength := by decide
  maxLength := by decide

/-- The session after the stream of the first message has been prepared. -/
def continuedSession : Session Row World :=
  ((prepareStream Env.trial chatUser firstPayload).exec respond memberSession).2

theorem minLength_nextMessage : 1 ≤ "b".length := by decide

theorem maxLength_nextMessage : "b".length ≤ 8000 := by decide

/-- The next message, without the organization. -/
def nextPayload : ChatRequest where
  message := "b"
  conversationId := some 4
  minLength := minLength_nextMessage
  maxLength := maxLength_nextMessage

/-- The conversation of the first message is in the organization. -/
theorem exists_continued : ∃ c ∈ rowsOf Conversation continuedSession.view,
    ownConversation 4 chatUser.id c = true ∧ c.organizationId = some 2 := by
  have h : (rowsOf Conversation continuedSession.view).any (fun c =>
      ownConversation 4 chatUser.id c && c.organizationId = some 2) = true := by decide
  obtain ⟨c, hc, hp⟩ := List.any_eq_true.mp h
  rw [Bool.and_eq_true, decide_eq_true_eq] at hp
  exact ⟨c, hc, hp⟩

/-- The stream of the next message is charged to an organization it was not admitted for. -/
theorem charged_elsewhere : ¬ ∀ (env : Env) (s : Session Row World) (user : User)
    (payload : ChatRequest) (prepared : PreparedStream) (messageId : UUID) (ms : List StreamMove)
    (w : StreamState) (u : LlmUsage),
    ((prepareStream env user payload).exec respond s).1 = .ok prepared →
      (StreamState.start (prepared.context messageId)).run (prepared.context messageId) ms = some w →
      w.recorded = some u → u.organizationId = payload.organizationId := by
  intro hall
  obtain ⟨prepared, hstream⟩ := exists_ok (x :=
    ((prepareStream Env.trial chatUser nextPayload).exec respond continuedSession).1) (by decide)
  obtain ⟨c, hc, hown, ho⟩ := exists_continued
  have horg : prepared.conversation.organizationId = none := (charged_iff none 9).mp fun ms w u =>
    hall Env.trial continuedSession chatUser nextPayload prepared 9 ms w u hstream
  rw [organization_of_named hstream rfl hc hown, ho] at horg
  cases horg

theorem charged_scope_iff_chatSession : ∃ prepared,
    ((prepareStream Env.trial chatUser chatPayload).exec respond chatSession).1 = .ok prepared ∧
    ∀ ms w u, (StreamState.start (prepared.context 9)).run (prepared.context 9) ms = some w →
      w.recorded = some u → u.organizationId = none := by
  obtain ⟨prepared, hstream⟩ := exists_ok (x :=
    ((prepareStream Env.trial chatUser chatPayload).exec respond chatSession).1) (by decide)
  refine ⟨prepared, hstream, (charged_scope_iff hstream 9).mpr fun id hid c hc hown => ?_⟩
  have hnone : (rowsOf Conversation chatSession.view).all (·.organizationId = none) = true := by
    decide
  exact of_decide_eq_true (List.all_eq_true.mp hnone c hc)

end ChatService

end DevOps
