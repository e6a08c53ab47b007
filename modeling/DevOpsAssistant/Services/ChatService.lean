import DevOpsAssistant.Chat.Stream
import DevOpsAssistant.Repositories.Chat
import DevOpsAssistant.Services.OrganizationAuthService
import DevOpsAssistant.Services.ProviderService
import DevOpsAssistant.Text.Strings

/-!
# Chat

* `ChatService.buildPrompt`: the prompt of a message after the history of its conversation.
* `ChatService.chatContext`, `ChatService.chat`: an answer in one piece.
* `ChatService.prepareStream`: what comes before a streamed answer.
-/

namespace DevOps

open Txn

variable (env : Env)

def DEVOPS_SYSTEM_PROMPT : String := Text.unlines [
  "You are an AI-Powered DevOps Assistant.",
  "Provide clear, structured, actionable guidance for developers and DevOps engineers.",
  "",
  "Rules:",
  "- Distinguish suggestions from verified facts.",
  "- Never claim you executed a command, applied infrastructure changes, or accessed a cluster.",
  "- Prefer safe defaults: non-root, least privilege, pinned versions, health checks, resource limits.",
  "- Call out security risks and destructive operations explicitly.",
  "- When unsure, say so and recommend verification steps.",
  "- Format answers with short sections and bullet points when helpful."]

/-- `ChatRequest`, with what its fields are checked for; its provider is `"gemini"` unless the client
names another. -/
structure ChatRequest where
  message : String
  conversationId : Option UUID := none
  organizationId : Option UUID := none
  provider : String := "gemini"
  minLength : 1 ≤ message.length
  maxLength : message.length ≤ 8000

/-- `ChatResponse`. -/
structure ChatResponse where
  conversationId : UUID
  answer : String
  provider : String
  createdAt : Time

/-- The stored value of a role. -/
def MessageRole.value : MessageRole → String
  | .user => "user"
  | .assistant => "assistant"

namespace ChatService

/-- The line of a message in the history. -/
def historyLine (msg : Message) : String := msg.role.value.toUpper ++ ": " ++ msg.content

def historyBlock (history : List Message) : String := "\n".intercalate (history.map historyLine)

def buildPrompt (historyBlock message : String) : String :=
  "Conversation history (most recent first limited):\n" ++
    (if historyBlock = "" then "(none)" else historyBlock) ++ "\n\n" ++ "USER: " ++ message ++
    "\n\n" ++ "Respond as the DevOps assistant. Do not claim any command was executed."

/-- The text of a request, as it is stored and sent. -/
def messageText (payload : ChatRequest) : String := sanitizeText env payload.message (some 8000)

def resolveOrganizationId (user : User) : Option UUID → Db (Option UUID)
  | none => pure none
  | some organizationId => do
    let _ ← OrganizationAuthService.requirePermission organizationId user.id .resourceCreate
    return some organizationId

def markFirstChat (userId : UUID) : Db Unit :=
  OnboardingService.tryMarkFlag userId (·.firstChatCompleted)
    (fun o => { o with firstChatCompleted := true }) fun _ => rfl

/-- The conversation of a request: one the user has, or a new one with the provider `provider`. -/
def conversationFor (user : User) (payload : ChatRequest) (message : String)
    (organizationId : Option UUID) (provider : String) : Db Conversation :=
  match payload.conversationId with
  | some conversationId => do
    match ← ConversationRepository.getForUser conversationId user.id with
    | none => throw (NotFoundError "Conversation not found")
    | some conversation => return conversation
  | none =>
    let title := firstChars 80 message
    ConversationRepository.create user.id (if title = "" then "New conversation" else title) provider
      organizationId

/-- What `chat` has before it calls the gateway. -/
structure ChatContext where
  conversation : Conversation
  organizationId : Option UUID
  message : String
  prompt : String

def chatContext (user : User) (payload : ChatRequest) : Db ChatContext := do
  let message := messageText env payload
  let organizationId ← resolveOrganizationId user payload.organizationId
  let initialProvider :=
    env.lower (if payload.provider = "" then env.settings.llmProvider else payload.provider)
  let conversation ← conversationFor user payload message organizationId initialProvider
  let history ←
    ConversationRepository.getRecentMessages conversation.id env.settings.chatHistoryLimit
  return ⟨conversation, organizationId, message, buildPrompt (historyBlock history) message⟩

def chat (user : User) (payload : ChatRequest) : Db ChatResponse := do
  let ctx ← chatContext env user payload
  let (answer, providerName) ← LLMGateway.generate env user .chat ctx.organizationId ctx.prompt
    (some DEVOPS_SYSTEM_PROMPT) (some payload.provider) none
  let _ ← ConversationRepository.addMessage ctx.conversation.id .user ctx.message
  let assistantMessage ←
    ConversationRepository.addMessage ctx.conversation.id .assistant answer
  markFirstChat user.id
  let _ ← ConversationRepository.setProvider ctx.conversation providerName
  return ⟨ctx.conversation.id, answer, providerName, assistantMessage.createdAt⟩

/-- What `prepare_stream` passes on to the stream. -/
structure PreparedStream where
  conversation : Conversation
  prompt : String
  providerName : String
  provider : String

/-- `estimated_tokens`. -/
def estimatedTokens (message : String) : ℕ := max 1 (message.length / 4)

/-- The history without a last message that says `message`. -/
def priorMessages (history : List Message) (message : String) : List Message :=
  match history.getLast? with
  | none => history
  | some last => if last.content = message then history.dropLast else history

def prepareStream (user : User) (payload : ChatRequest) : Db PreparedStream := do
  let message := messageText env payload
  let organizationId ← resolveOrganizationId user payload.organizationId
  let (provider, providerName) ← LLMGateway.resolveStreamProvider env user .chat organizationId
    (estimatedTokens message) (some payload.provider)
  let conversation ← conversationFor user payload message organizationId providerName
  let _ ← ConversationRepository.addMessage conversation.id .user message
  let updated ← ConversationRepository.setProvider conversation providerName
  Prog.commitWork
  let history ←
    ConversationRepository.getRecentMessages conversation.id env.settings.chatHistoryLimit
  return ⟨updated, buildPrompt (historyBlock (priorMessages history message)) message,
    providerName, provider⟩

/-- What `iter_stream_events` is given; the answer gets the id `messageId`. -/
def PreparedStream.context (prepared : PreparedStream) (messageId : UUID) : StreamContext :=
  ⟨prepared.conversation, prepared.prompt, prepared.providerName, messageId⟩

end ChatService

end DevOps
