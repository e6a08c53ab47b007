import DevOpsAssistant.Repositories.Organizations
import DevOpsAssistant.Utils.Sanitization

/-!
# Repository of conversations

* `ConversationRepository`: conversations and their messages.
* `recentMessages`: the last messages of a conversation, the oldest first.
-/

namespace DevOps

open Txn

/-- The conversation `id` of the user `u`. -/
def ownConversation (id u : UUID) (c : Conversation) : Bool := c.id = id && c.userId = u

/-- A message of the conversation `id`. -/
def inConversation (id : UUID) (m : Message) : Bool := m.conversationId = id

theorem ownConversation_eq {id u : UUID} {c : Conversation} :
    ownConversation id u c = true ↔ c.id = id ∧ c.userId = u := by
  simp [ownConversation]

/-- The latest `limit` of the messages, in the order in which they were created. -/
def recentMessages (messages : List Message) (limit : ℕ) : List Message :=
  ((messages.mergeSort fun a b => b.createdAt ≤ a.createdAt).take limit).reverse

namespace ConversationRepository

def create (userId : UUID) (title provider : String) (organizationId : Option UUID) :
    Db Conversation := do
  let id ← uuid4
  let conversation : Conversation := ⟨id, userId, organizationId, firstChars 255 title, provider⟩
  insertOf (fun _ : Conversation => false) conversation
  return conversation

def getForUser (conversationId userId : UUID) : Db (Option Conversation) := do
  scalarOneOrNone (← selectOf (ownConversation conversationId userId))

def addMessage (conversationId : UUID) (role : MessageRole) (content : String) : Db Message := do
  let id ← uuid4
  let createdAt ← now
  let message : Message := ⟨id, conversationId, role, content, createdAt⟩
  insertOf (fun _ : Message => false) message
  return message

def getRecentMessages (conversationId : UUID) (limit : ℕ) : Db (List Message) := do
  return recentMessages (← selectOf (inConversation conversationId)) limit

/-- The flush of `conversation.provider`. -/
def setProvider (conversation : Conversation) (provider : String) : Db Conversation :=
  if provider = conversation.provider then pure conversation
  else updateById conversation.id (fun c : Conversation => { c with provider }) fun _ => rfl

end ConversationRepository

end DevOps
