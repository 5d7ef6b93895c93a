import Oac.Draft

/-! The headers a reply carries (`core/src/reply.rs`). -/

namespace Oac

/-- The reply headers a sending implementation sets; none of them for an uncorrelated reply. -/
structure ReplyHeaders where
  replyTo : Option Token := none
  conversationId : Option Token := none
  correlationId : Option Token := none
  deriving DecidableEq

namespace ReplyHeaders

def correlated (headers : ReplyHeaders) : Bool := headers.replyTo.isSome

/-- The draft with the headers that are present. -/
def apply (headers : ReplyHeaders) (draft : EnvelopeDraft) : EnvelopeDraft :=
  let draft := headers.replyTo.elim draft draft.withReplyTo
  let draft := headers.conversationId.elim draft draft.withConversationId
  headers.correlationId.elim draft draft.withCorrelationId

theorem apply_content (headers : ReplyHeaders) (draft : EnvelopeDraft) :
    (headers.apply draft).content = draft.content := by
  obtain ⟨replyTo, conversationId, correlationId⟩ := headers
  cases replyTo <;> cases conversationId <;> cases correlationId <;> rfl

theorem apply_frame (headers : ReplyHeaders) (draft : EnvelopeDraft) :
    (headers.apply draft).version = draft.version ∧ (headers.apply draft).fromSession = draft.fromSession ∧
      (headers.apply draft).toSession = draft.toSession ∧ (headers.apply draft).ttlMs = draft.ttlMs := by
  obtain ⟨replyTo, conversationId, correlationId⟩ := headers
  cases replyTo <;> cases conversationId <;> cases correlationId <;> exact ⟨rfl, rfl, rfl, rfl⟩

end ReplyHeaders

end Oac
