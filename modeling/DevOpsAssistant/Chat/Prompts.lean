import DevOpsAssistant.Chat.Metering
import DevOpsAssistant.Services.ChatService
import DevOpsAssistant.Specs.Generators
import DevOpsAssistant.Specs.Usage

/-!
# The prompts of the two chats

A chat in one piece reads the history before it stores the message; a streamed one stores the message
first, reads the history with it, and drops it again. The limit of the history then counts it.

The quota is asked for the tokens of the message; the usage that is recorded is that of the prompt.

* `recentMessages_of_perm`: the latest messages with one that is newer than all.
* `shownHistory_cons_ne`, `buildPrompt_recentMessages`: prompts with different histories.
* **`ends_chatContext`**, **`ends_prepareStream`**: the prompts, from the messages that are stored.
* **`prompts_eq_iff`**: when they are equal; **`prepareStream_forgets_one`**: two that are not.
* `length_buildPrompt`: a prompt is longer than its message by 100 characters at least.
* `exists_of_recorded`: what a stream records is the usage of its prompt.
* **`estimatedTokens_lt_recorded`**: the estimate is below what is recorded, whatever the history is.
-/

namespace DevOps

open Txn

/-! ## The latest messages -/

section Recent

variable {messages stored : List Message} {m : Message}

/-- Messages of different times have one order in which the latest comes first. -/
theorem eq_of_latest_first {l₁ l₂ : List Message} (hperm : l₁.Perm l₂)
    (hdistinct : (l₂.map (·.createdAt)).Nodup)
    (h₁ : l₁.Pairwise fun a b => b.createdAt ≤ a.createdAt)
    (h₂ : l₂.Pairwise fun a b => b.createdAt ≤ a.createdAt) : l₁ = l₂ := by
  refine List.Perm.eq_of_pairwise (fun a b ha hb hab hba => ?_) h₁ h₂ hperm
  exact List.inj_on_of_nodup_map hdistinct (hperm.mem_iff.mp ha) hb (Nat.le_antisymm hba hab)

theorem pairwise_latest (messages : List Message) :
    (messages.mergeSort fun a b => b.createdAt ≤ a.createdAt).Pairwise
      fun a b => b.createdAt ≤ a.createdAt := by
  have htrans : ∀ a b c : Message, decide (b.createdAt ≤ a.createdAt) = true →
      decide (c.createdAt ≤ b.createdAt) = true → decide (c.createdAt ≤ a.createdAt) = true := by
    intro a b c hab hbc
    rw [decide_eq_true_iff] at *
    exact Nat.le_trans hbc hab
  have htotal : ∀ a b : Message,
      (decide (b.createdAt ≤ a.createdAt) || decide (a.createdAt ≤ b.createdAt)) = true := by
    intro a b
    rw [Bool.or_eq_true, decide_eq_true_iff, decide_eq_true_iff]
    exact Nat.le_total _ _
  exact (List.pairwise_mergeSort htrans htotal messages).imp of_decide_eq_true

/-- **A message that is newer than all** is the last of the latest. -/
theorem recentMessages_of_perm (hperm : messages.Perm (m :: stored))
    (hdistinct : (stored.map (·.createdAt)).Nodup)
    (hnew : ∀ x ∈ stored, x.createdAt < m.createdAt) (limit : ℕ) :
    recentMessages messages (limit + 1) = recentMessages stored limit ++ [m] := by
  have hsort := List.mergeSort_perm stored fun a b => b.createdAt ≤ a.createdAt
  have hnodup : ((m :: stored).map (·.createdAt)).Nodup := by
    rw [List.map_cons, List.nodup_cons]
    refine ⟨fun hm => ?_, hdistinct⟩
    obtain ⟨x, hx, hxm⟩ := List.mem_map.mp hm
    exact absurd (hnew x hx) (by rw [hxm]; exact Nat.lt_irrefl _)
  have heq : (messages.mergeSort fun a b => b.createdAt ≤ a.createdAt) =
      m :: stored.mergeSort fun a b => b.createdAt ≤ a.createdAt := by
    have hp : (messages.mergeSort fun a b => b.createdAt ≤ a.createdAt).Perm
        (m :: stored.mergeSort fun a b => b.createdAt ≤ a.createdAt) :=
      (List.mergeSort_perm _ _).trans (hperm.trans (hsort.symm.cons m))
    refine eq_of_latest_first hp ?_ (pairwise_latest messages) ?_
    · exact ((hsort.cons m).map (·.createdAt)).nodup_iff.mpr hnodup
    · rw [List.pairwise_cons]
      exact ⟨fun x hx => Nat.le_of_lt (hnew x (hsort.mem_iff.mp hx)), pairwise_latest stored⟩
  rw [recentMessages, heq, List.take_succ_cons, List.reverse_cons]
  rfl

/-- One more of the latest messages, while there are more. -/
theorem recentMessages_succ (stored : List Message) (limit : ℕ) :
    recentMessages stored (limit + 1) = recentMessages stored limit ∧ stored.length ≤ limit ∨
      ∃ x, recentMessages stored (limit + 1) = x :: recentMessages stored limit ∧
        limit < stored.length := by
  have hlen := (List.mergeSort_perm stored fun a b => b.createdAt ≤ a.createdAt).length_eq
  unfold recentMessages
  generalize (stored.mergeSort fun a b => b.createdAt ≤ a.createdAt) = sorted at hlen
  by_cases h : stored.length ≤ limit
  · left
    rw [List.take_of_length_le (by omega), List.take_of_length_le (by omega)]
    exact ⟨rfl, h⟩
  · right
    have hlt : limit < sorted.length := by omega
    refine ⟨sorted[limit], ?_, by omega⟩
    rw [List.take_succ_eq_append_getElem (by omega), List.reverse_append]
    rfl

end Recent

/-! ## The text of a prompt -/

namespace ChatService

/-- What stands for a history in a prompt. -/
def shownHistory (history : List Message) : String :=
  if historyBlock history = "" then "(none)" else historyBlock history

theorem buildPrompt_inj {h h' : List Message} {message : String} :
    buildPrompt (historyBlock h) message = buildPrompt (historyBlock h') message ↔
      shownHistory h = shownHistory h' := by
  unfold buildPrompt shownHistory
  simp only [String.append_left_inj, String.append_right_inj]

/-- A line starts with the role. -/
theorem historyLine_head (msg : Message) :
    ∃ c cs, (historyLine msg).toList = c :: cs ∧ c ∈ ['U', 'A'] := by
  have hrole : ∃ c cs, msg.role.value.toUpper.toList = c :: cs ∧ c ∈ ['U', 'A'] := by
    rw [String.toUpper, String.toList_map]
    cases msg.role with
    | user => exact ⟨'U', ['S', 'E', 'R'], by decide, by decide⟩
    | assistant => exact ⟨'A', ['S', 'S', 'I', 'S', 'T', 'A', 'N', 'T'], by decide, by decide⟩
  obtain ⟨c, cs, hc, hmem⟩ := hrole
  refine ⟨c, cs ++ ": ".toList ++ msg.content.toList, ?_, hmem⟩
  rw [historyLine, String.toList_append, String.toList_append, hc]
  rfl

theorem historyLine_ne_empty (msg : Message) : historyLine msg ≠ "" := by
  obtain ⟨c, cs, hc, -⟩ := historyLine_head msg
  intro h
  rw [h] at hc
  cases hc

theorem historyBlock_cons {msg : Message} {history : List Message} (h : history ≠ []) :
    historyBlock (msg :: history) = historyLine msg ++ "\n" ++ historyBlock history := by
  rw [historyBlock, List.map_cons, String.intercalate_cons_of_ne_nil (by simpa using h)]
  rfl

theorem historyBlock_ne_empty {history : List Message} (h : history ≠ []) :
    historyBlock history ≠ "" := by
  cases history with
  | nil => exact absurd rfl h
  | cons msg history =>
    intro he
    refine historyLine_ne_empty msg ?_
    cases history with
    | nil => simpa [historyBlock] using he
    | cons msg' history =>
      rw [historyBlock_cons (List.cons_ne_nil _ _)] at he
      have := congrArg String.length he
      simp only [String.length_append] at this
      exact String.length_eq_zero_iff.mp (by simp at this)

/-- **A longer history** makes another prompt. -/
theorem shownHistory_cons_ne (msg : Message) (history : List Message) :
    shownHistory (msg :: history) ≠ shownHistory history := by
  rw [shownHistory, if_neg (historyBlock_ne_empty (List.cons_ne_nil _ _)), shownHistory]
  cases history with
  | nil =>
    obtain ⟨c, cs, hc, hmem⟩ := historyLine_head msg
    intro h
    have h := congrArg String.toList h
    simp only [historyBlock, List.map_cons, List.map_nil, String.intercalate_singleton, hc] at h
    rw [(List.cons.inj h).1] at hmem
    exact absurd hmem (by decide)
  | cons msg' history =>
    rw [if_neg (historyBlock_ne_empty (List.cons_ne_nil _ _)),
      historyBlock_cons (List.cons_ne_nil _ _)]
    intro h
    have := congrArg String.length h
    simp only [String.length_append] at this
    have hnewline : "\n".length = 1 := rfl
    omega

/-- The prompts with the latest messages up to two limits are equal exactly if there are no more. -/
theorem buildPrompt_recentMessages (stored : List Message) (limit : ℕ) (message : String) :
    buildPrompt (historyBlock (recentMessages stored limit)) message =
        buildPrompt (historyBlock (recentMessages stored (limit + 1))) message ↔
      stored.length < limit + 1 := by
  rw [buildPrompt_inj]
  rcases recentMessages_succ stored limit with ⟨heq, hlen⟩ | ⟨x, heq, hlen⟩
  · rw [heq]
    exact ⟨fun _ => by omega, fun _ => rfl⟩
  · rw [heq]
    exact ⟨fun h => absurd h.symm (shownHistory_cons_ne x _), fun h => by omega⟩

/-! ## What the two chats read -/

section Runs

variable (env : Env) {s : Session Row World}

/-- The messages of a conversation. -/
def storedIn (db : Database) (conversationId : UUID) : List Message :=
  (rowsOf Message db).filter (inConversation conversationId)

theorem ends_resolveOrganizationId (user : User) (organizationId : Option UUID) :
    (resolveOrganizationId user organizationId).Ends respond s (unchanged s fun _ => True) := by
  cases organizationId with
  | none => exact ends_unchanged_pure trivial
  | some o =>
    exact ends_unchanged_bind (ends_requirePermission o user.id .resourceCreate) fun _ _ =>
      ends_unchanged_pure trivial

/-- A stored conversation is the one the request names. -/
theorem ends_conversationFor (user : User) {payload : ChatRequest} {conversationId : UUID}
    (hid : payload.conversationId = some conversationId) (message provider : String)
    (organizationId : Option UUID) :
    (conversationFor user payload message organizationId provider).Ends respond s
      (unchanged s fun conversation => conversation.id = conversationId) := by
  unfold conversationFor
  rw [hid]
  have hfound : (ConversationRepository.getForUser conversationId user.id).Ends respond s
      (unchanged s fun found => ∀ c ∈ found, c.id = conversationId) := by
    refine ends_unchanged_bind (ends_unchanged_selectOf _) fun cs hcs => ?_
    have hmem : ∀ c ∈ cs, c.id = conversationId := by
      intro c hc
      rw [hcs, List.mem_filter] at hc
      exact (ownConversation_eq.mp hc.2).1
    cases cs with
    | nil => exact ends_unchanged_pure fun _ h => nomatch h
    | cons c cs =>
      cases cs with
      | nil => exact ends_unchanged_pure fun c' h => by cases h; exact hmem c List.mem_cons_self
      | cons _ _ => exact ends_unchanged_throw
  refine ends_unchanged_bind hfound fun found h => ?_
  cases found with
  | none => exact ends_unchanged_throw
  | some conversation => exact ends_unchanged_pure (h conversation rfl)

theorem ends_getRecentMessages (conversationId : UUID) (limit : ℕ) :
    (ConversationRepository.getRecentMessages conversationId limit).Ends respond s
      (unchanged s fun history =>
        history = recentMessages (storedIn s.view conversationId) limit) :=
  ends_unchanged_bind (ends_unchanged_selectOf _) fun messages h =>
    ends_unchanged_pure (by rw [h]; rfl)

/-- **The prompt of `chat`** has the latest messages up to the limit. -/
theorem ends_chatContext (user : User) {payload : ChatRequest} {conversationId : UUID}
    (hid : payload.conversationId = some conversationId) :
    (chatContext env user payload).Ends respond s (unchanged s fun ctx =>
      ctx.prompt = buildPrompt (historyBlock (recentMessages (storedIn s.view conversationId)
        env.settings.chatHistoryLimit)) (messageText env payload)) := by
  refine ends_unchanged_bind (ends_resolveOrganizationId user _) fun organizationId _ => ?_
  refine ends_unchanged_bind (ends_conversationFor user hid _ _ _) fun conversation hc => ?_
  refine ends_unchanged_bind (ends_getRecentMessages _ _) fun history hh => ?_
  refine ends_unchanged_pure ?_
  rw [hh, hc]

/-- The messages after one more. -/
structure Adds (db db' : Database) (m : Message) : Prop where
  mem : ∀ x, x ∈ rowsOf Message db' ↔ x = m ∨ x ∈ rowsOf Message db
  fresh : m ∉ rowsOf Message db

theorem Adds.perm {db db' : Database} {m : Message} (h : Adds db db' m) :
    (storedIn db' m.conversationId).Perm (m :: storedIn db m.conversationId) := by
  refine (List.perm_ext_iff_of_nodup (nodup_rowsOf.filter _) ?_).mpr fun x => ?_
  · rw [List.nodup_cons]
    exact ⟨fun hm => h.fresh (List.mem_of_mem_filter hm), nodup_rowsOf.filter _⟩
  · unfold storedIn
    rw [List.mem_filter, h.mem, List.mem_cons, List.mem_filter]
    constructor
    · rintro ⟨rfl | hx, hc⟩
      · exact .inl rfl
      · exact .inr ⟨hx, hc⟩
    · rintro (rfl | ⟨hx, hc⟩)
      · exact ⟨.inl rfl, decide_eq_true rfl⟩
      · exact ⟨.inr hx, hc⟩

/-- **One more message**, not older than the clock. -/
theorem ends_addMessage (conversationId : UUID) (role : MessageRole) (content : String) :
    (ConversationRepository.addMessage conversationId role content).Ends respond s
      (Prog.onOk fun m s' => m.conversationId = conversationId ∧ m.content = content ∧
        s.world.time ≤ m.createdAt ∧ Adds s.view s'.view m) := by
  refine ends_uuid4.mpr (ends_now.mpr ?_)
  simp only
  generalize hs' : ({ s with nextId := s.nextId + 1, world := s.world.tick } : Session Row World) = s'
  have hview : s'.view = s.view := by rw [← hs']; rfl
  have htime : s.world.time ≤ s.world.tick.time := s.world.time_le_tick
  generalize hm : (⟨s.nextId, conversationId, role, content, s.world.tick.time⟩ : Message) = m
  refine Prog.Ends.bind (ends_insert _ m) (fun a s'' h => ?_) fun e _ _ a ha => by cases ha
  obtain ⟨-, rfl, hfresh⟩ | ⟨he, -⟩ := h
  · intro a ha
    cases ha
    refine ⟨by rw [← hm], by rw [← hm], by rw [← hm]; exact htime, fun x => ?_, fun hin => ?_⟩
    · rw [← hview]
      exact mem_rowsOf_append fun y hy => (hfresh y hy).1
    · rw [← hview] at hin
      exact (hfresh m hin).1 rfl
  · cases he

theorem only_setProvider (conversation : Conversation) (provider : String) :
    (ConversationRepository.setProvider conversation provider).Only
      (Writes (outside (· = .messages) False)) fun _ => True := by
  unfold ConversationRepository.setProvider
  split
  · trivial
  · exact only_updateById _ _ fun _ _ h => by cases h

theorem priorMessages_concat (history : List Message) (m : Message) :
    priorMessages (history ++ [m]) m.content = history := by
  simp [priorMessages]

/-- **The prompt of `prepareStream`** has one of the latest messages less. -/
theorem ends_prepareStream (user : User) {payload : ChatRequest} {conversationId : UUID}
    (hid : payload.conversationId = some conversationId) {limit : ℕ}
    (hlimit : env.settings.chatHistoryLimit = limit + 1)
    (hdistinct : ((storedIn s.view conversationId).map (·.createdAt)).Nodup)
    (hbefore : ∀ m ∈ storedIn s.view conversationId, m.createdAt < s.world.time) :
    (prepareStream env user payload).Ends respond s (Prog.onOk fun prepared _ =>
      prepared.prompt = buildPrompt (historyBlock (recentMessages (storedIn s.view conversationId)
        limit)) (messageText env payload)) := by
  have horg : (resolveOrganizationId user payload.organizationId).Ends respond s
      (Prog.onOk fun _ s' => s' = s) :=
    (ends_resolveOrganizationId user _).mono fun _ _ h _ _ => h.1
  refine Prog.Ends.bind_ok horg fun organizationId s₀ hs₀ => ?_
  rw [hs₀]
  have hprovider : (LLMGateway.resolveStreamProvider env user .chat organizationId
      (estimatedTokens (messageText env payload)) (some payload.provider)).Ends respond s
        (Prog.onOk fun _ s' => Unchanged (fun _ => True) s s') :=
    fun _ _ => unchanged_of_only (only_resolveStreamProvider env user .chat organizationId _ _) s
  refine Prog.Ends.bind_ok hprovider fun (provider, providerName) s₁ h₁ => ?_
  have hconversation := (ends_conversationFor (s := s₁) user hid (messageText env payload) providerName
    organizationId).mono fun r s' h a ha => (⟨h.1, h.2 a ha⟩ : s' = s₁ ∧ _)
  refine Prog.Ends.bind_ok hconversation fun conversation s₁' ⟨hs₁, hc⟩ => ?_
  rw [hs₁]
  refine Prog.Ends.bind_ok (ends_addMessage conversation.id .user (messageText env payload))
    fun m s₂ ⟨hmc, hcontent, htime, hadds⟩ => ?_
  have hset : (ConversationRepository.setProvider conversation providerName).Ends respond s₂
      (Prog.onOk fun _ s' => Unchanged (· = .messages) s₂ s') :=
    fun _ _ => unchanged_of_only (only_setProvider conversation providerName) s₂
  refine Prog.Ends.bind_ok hset fun updated s₃ h₃ => ?_
  -- the stored messages are those from before and the new one
  have hall : Adds s.view s₃.commit.view m := by
    refine ⟨fun x => ?_, fun hin => hadds.fresh ((h₁.mem trivial).mpr hin)⟩
    rw [Session.view_commit, h₃.mem rfl, hadds.mem, h₁.mem trivial]
  have hperm := hall.perm
  rw [hmc, hc] at hperm
  have hnew : ∀ x ∈ storedIn s.view conversationId, x.createdAt < m.createdAt := fun x hx =>
    Nat.lt_of_lt_of_le (hbefore x hx) (Nat.le_trans h₁.time htime)
  have hrecent : (ConversationRepository.getRecentMessages conversation.id
      env.settings.chatHistoryLimit).Ends respond s₃.commit (Prog.onOk fun history _ =>
        history = recentMessages (storedIn s.view conversationId) limit ++ [m]) := by
    refine (ends_getRecentMessages _ _).mono fun r s' h history ha => ?_
    rw [h.2 history ha, hc, hlimit, recentMessages_of_perm hperm hdistinct hnew]
  have hcommit : (Prog.commitWork : Db Unit).Ends respond s₃ (Prog.onOk fun _ s' => s' = s₃.commit) :=
    fun _ _ => rfl
  refine Prog.Ends.bind_ok hcommit fun _ s₄ hs₄ => ?_
  rw [hs₄]
  refine Prog.Ends.bind_ok hrecent fun history s₅ hh => ?_
  intro prepared hp
  cases hp
  simp only
  rw [hh, ← hcontent, priorMessages_concat]

end Runs

/-! ## The two prompts of one message -/

/-- A stored conversation and a request for it, in a session. The messages of the conversation have
different times, before now. -/
structure Resumes (env : Env) (s : Session Row World) (user : User) (payload : ChatRequest)
    (conversation : Conversation) : Prop where
  stored : conversation ∈ rowsOf Conversation s.view
  owned : conversation.userId = user.id
  named : payload.conversationId = some conversation.id
  distinct : ((storedIn s.view conversation.id).map (·.createdAt)).Nodup
  before : ∀ m ∈ storedIn s.view conversation.id, m.createdAt < s.world.time
  limit : 1 ≤ env.settings.chatHistoryLimit

section Prompts

variable {env : Env} {s : Session Row World} {user : User} {payload : ChatRequest}
  {conversation : Conversation}

/-- **When the two prompts are equal**: while the conversation has fewer messages than the limit. -/
theorem prompts_eq_iff (h : Resumes env s user payload conversation) {prepared : PreparedStream}
    {ctx : ChatContext} (hstream : ((prepareStream env user payload).exec respond s).1 = .ok prepared)
    (hchat : ((chatContext env user payload).exec respond s).1 = .ok ctx) :
    prepared.prompt = ctx.prompt ↔
      (storedIn s.view conversation.id).length < env.settings.chatHistoryLimit := by
  obtain ⟨limit, hlimit⟩ := Nat.exists_eq_add_of_le' h.limit
  have hp := ends_prepareStream env user h.named hlimit h.distinct h.before prepared hstream
  have hc := (ends_chatContext env (s := s) user h.named).2 ctx hchat
  simp only at hp
  rw [hp, hc, hlimit]
  exact buildPrompt_recentMessages _ _ _

end Prompts

/-- A history of one message. -/
def shortEnv : Env :=
  { Env.trial with settings := { Env.trial.settings with chatHistoryLimit := 1 } }

/-- The user 1. -/
def chatUser : User :=
  { id := 1, email := "a", username := "a", hashedPassword := "a", role := .user, isActive := true,
    emailVerifiedAt := none }

/-- A conversation of the user 1. -/
def chatConversation : Conversation := ⟨2, 1, none, "t", "gemini"⟩

/-- The conversation has one message. -/
def chatSession : Session Row World where
  committed := Table.empty.apply [.store (toRow chatUser), .store (toRow chatConversation),
    .store (toRow (⟨3, 2, .user, "a", 0⟩ : Message))]
  nextId := 4
  world := World.trial 1
  log := []

/-- The next message of the conversation. -/
def chatPayload : ChatRequest where
  message := "b"
  conversationId := some 2
  minLength := by decide
  maxLength := by decide

theorem resumes_chatSession {env : Env} (h : 1 ≤ env.settings.chatHistoryLimit) :
    Resumes env chatSession chatUser chatPayload chatConversation where
  stored := mem_rowsOf.mpr (.tail _ (.head _))
  owned := rfl
  named := rfl
  distinct := by decide
  before := by decide
  limit := h

/-- A conversation as long as the limit has two prompts. -/
theorem prepareStream_forgets_one : ¬ ∀ (env : Env) (s : Session Row World) (user : User)
    (payload : ChatRequest) (conversation : Conversation) (prepared : PreparedStream)
    (ctx : ChatContext), Resumes env s user payload conversation →
      ((prepareStream env user payload).exec respond s).1 = .ok prepared →
      ((chatContext env user payload).exec respond s).1 = .ok ctx →
      prepared.prompt = ctx.prompt := by
  intro hall
  have h : Resumes shortEnv chatSession chatUser chatPayload chatConversation :=
    resumes_chatSession (by decide)
  obtain ⟨prepared, hstream⟩ := exists_ok (x :=
    ((prepareStream shortEnv chatUser chatPayload).exec respond chatSession).1) (by decide)
  obtain ⟨ctx, hchat⟩ := exists_ok (x :=
    ((chatContext shortEnv chatUser chatPayload).exec respond chatSession).1) (by decide)
  have heq := hall shortEnv _ _ _ _ prepared ctx h hstream hchat
  have hlimit : shortEnv.settings.chatHistoryLimit = 0 + 1 := rfl
  have hp := ends_prepareStream shortEnv chatUser h.named hlimit h.distinct h.before prepared hstream
  have hc := (ends_chatContext shortEnv (s := chatSession) chatUser h.named).2 ctx hchat
  simp only at hp
  rw [hp, hc, hlimit, buildPrompt_recentMessages] at heq
  exact absurd heq (by decide)

theorem prompts_eq_iff_chatSession : ∃ prepared ctx,
    ((prepareStream Env.trial chatUser chatPayload).exec respond chatSession).1 = .ok prepared ∧
    ((chatContext Env.trial chatUser chatPayload).exec respond chatSession).1 = .ok ctx ∧
    prepared.prompt = ctx.prompt := by
  obtain ⟨prepared, hstream⟩ := exists_ok (x :=
    ((prepareStream Env.trial chatUser chatPayload).exec respond chatSession).1) (by decide)
  obtain ⟨ctx, hchat⟩ := exists_ok (x :=
    ((chatContext Env.trial chatUser chatPayload).exec respond chatSession).1) (by decide)
  exact ⟨prepared, ctx, hstream, hchat,
    (prompts_eq_iff (resumes_chatSession (by decide)) hstream hchat).mpr (by decide)⟩

end ChatService

end DevOps

namespace DevOps

open Txn

namespace ChatService

/-- A prompt is much longer than its message. -/
theorem length_buildPrompt (history : List Message) (message : String) :
    message.length + 100 ≤ (buildPrompt (historyBlock history) message).length := by
  have hbegin : "Conversation history (most recent first limited):\n".length = 50 := by decide
  have hend : ("Respond as the DevOps assistant. Do not claim any command was executed.").length = 71 := by
    decide
  unfold buildPrompt
  simp only [String.length_append]
  omega

/-- The prompt of a stream is that of some history. -/
theorem only_prepareStream (env : Env) (user : User) (payload : ChatRequest) :
    (prepareStream env user payload).Only (fun _ => True) fun prepared => ∃ history,
      prepared.prompt = buildPrompt (historyBlock history) (messageText env payload) := by
  refine (Prog.only_true _).bind fun organizationId _ => ?_
  refine (Prog.only_true _).bind fun (provider, providerName) _ => ?_
  refine (Prog.only_true _).bind fun conversation _ => ?_
  refine (Prog.only_true _).bind fun _ _ => (Prog.only_true _).bind fun updated _ => ?_
  refine (Prog.only_true _).bind fun _ _ => (Prog.only_true _).bind fun history _ => ?_
  exact ⟨_, rfl⟩

/-- What a stream records is the usage of some answer. -/
theorem exists_of_recorded {ctx : StreamContext} {ms : List StreamMove} {w : StreamState}
    (h : (StreamState.start ctx).run ctx ms = some w) {u : LlmUsage} (hu : w.recorded = some u) :
    ∃ accumulated, u = ctx.usageOf accumulated := by
  rcases (StreamState.flowing_start ctx).run ms h with ⟨-, hf | hm⟩ | ⟨-, hc⟩
  · rw [hf.unrecorded] at hu
    cases hu
  · obtain ⟨accumulated, hr⟩ := hm.recorded
    rw [hr] at hu
    exact ⟨accumulated, (Option.some.inj hu).symm⟩
  · rw [hc.unrecorded] at hu
    cases hu

/-- The estimate for a stream is below the input its usage has. -/
theorem estimatedTokens_lt_usage (env : Env) {user : User} {payload : ChatRequest}
    {s : Session Row World} {prepared : PreparedStream}
    (hstream : ((prepareStream env user payload).exec respond s).1 = .ok prepared)
    (messageId : UUID) (accumulated : String) : estimatedTokens (messageText env payload) <
      ((prepared.context messageId).usageOf accumulated).inputTokens := by
  obtain ⟨history, hprompt⟩ := (only_prepareStream env user payload).exec_ok s hstream
  have hlen := length_buildPrompt history (messageText env payload)
  rw [← hprompt] at hlen
  change max 1 _ < max 1 (prepared.prompt.length / 4)
  omega

/-- **No estimate covers what is recorded**: every stream that records its usage has more input than
the quota was asked for. -/
theorem estimatedTokens_lt_recorded (env : Env) {user : User} {payload : ChatRequest}
    {s : Session Row World} {prepared : PreparedStream}
    (hstream : ((prepareStream env user payload).exec respond s).1 = .ok prepared)
    {messageId : UUID} {ms : List StreamMove} {w : StreamState}
    (hrun : (StreamState.start (prepared.context messageId)).run (prepared.context messageId) ms
      = some w) {u : LlmUsage} (hu : w.recorded = some u) :
    ¬ u.inputTokens ≤ estimatedTokens (messageText env payload) := by
  obtain ⟨accumulated, rfl⟩ := exists_of_recorded hrun hu
  have := estimatedTokens_lt_usage env hstream messageId accumulated
  omega

/-- A stream of the conversation records its usage. -/
theorem exists_recorded (ctx : StreamContext) : ∃ w u,
    (StreamState.start ctx).run ctx StreamState.wholeStream = some w ∧ w.recorded = some u :=
  ⟨_, _, rfl, rfl⟩

theorem estimatedTokens_exceeded : ¬ ∀ (env : Env) (user : User) (payload : ChatRequest)
    (s : Session Row World) (prepared : PreparedStream) (messageId : UUID) (ms : List StreamMove)
    (w : StreamState) (u : LlmUsage),
    ((prepareStream env user payload).exec respond s).1 = .ok prepared →
      (StreamState.start (prepared.context messageId)).run (prepared.context messageId) ms = some w →
      w.recorded = some u → u.inputTokens ≤ estimatedTokens (messageText env payload) := by
  intro hall
  obtain ⟨prepared, hstream⟩ := exists_ok (x :=
    ((prepareStream Env.trial chatUser chatPayload).exec respond chatSession).1) (by decide)
  obtain ⟨w, u, hrun, hu⟩ := exists_recorded (prepared.context 9)
  have hle := hall Env.trial _ _ _ prepared 9 _ w u hstream hrun hu
  obtain ⟨accumulated, rfl⟩ := exists_of_recorded hrun hu
  exact absurd (estimatedTokens_lt_usage Env.trial hstream 9 accumulated) (by omega)

theorem estimatedTokens_lt_recorded_chatSession : ∃ prepared w u,
    ((prepareStream Env.trial chatUser chatPayload).exec respond chatSession).1 = .ok prepared ∧
    (StreamState.start (prepared.context 9)).run (prepared.context 9) StreamState.wholeStream
      = some w ∧ w.recorded = some u ∧
    ¬ u.inputTokens ≤ estimatedTokens (messageText Env.trial chatPayload) := by
  obtain ⟨prepared, hstream⟩ := exists_ok (x :=
    ((prepareStream Env.trial chatUser chatPayload).exec respond chatSession).1) (by decide)
  obtain ⟨w, u, hrun, hu⟩ := exists_recorded (prepared.context 9)
  exact ⟨prepared, w, u, hstream, hrun, hu,
    estimatedTokens_lt_recorded Env.trial hstream hrun hu⟩

end ChatService

end DevOps
