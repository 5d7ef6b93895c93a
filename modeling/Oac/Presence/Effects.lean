import Oac.Authorization.PresenceBound
import Oac.Presence.AuthenticatedProofs
import Oac.Presence.Forgetting

/-! What an authenticated presence record does to the binding table: a refused claim may mark the
session it is about, sessions the registry forgot lose their bindings, and the session of an
accepted record is bound to the signing key. -/

namespace Oac

open AuthorizationEngine

namespace AuthorizationEngine

variable {e : AuthorizationEngine} {s : SessionId}

section

variable (sessions : List SessionId) (e : AuthorizationEngine)

theorem forgetBinding_unbacked (s : SessionId) : (e.forgetBinding s).2.boundByPresence s = false := by
  rw [Bool.eq_false_iff, ne_eq, boundByPresence_iff]
  rintro ⟨⟨key, found⟩, foreign, -⟩
  unfold forgetBinding at found foreign
  split at found
  · next owned =>
    rw [if_pos owned] at foreign
    rw [foreign] at owned
    cases owned
  next notOwn =>
  split at found
  · change AList.lookup s (e.bindings.erase s) = _ at found
    simp at found
  · next marked =>
    rw [marked] at found
    cases found
  · next unbound =>
    rw [unbound] at found
    cases found

theorem forgetBindings_settles : Settles 0 e (e.forgetBindings sessions) := by
  induction sessions generalizing e with
  | nil => exact .refl e
  | cons s rest ih => exact (forgetBinding_settles s).trans (ih _)

theorem forgetBindings_unlisted (bound : (e.forgetBindings sessions).boundByPresence s = true) :
    s ∉ sessions := by
  induction sessions generalizing e with
  | nil => simp
  | cons first rest ih =>
    have later : s ∉ rest := ih _ bound
    have here : (e.forgetBinding first).2.boundByPresence s = true :=
      (forgetBindings_settles rest (e.forgetBinding first).2).presence s bound
    rw [List.mem_cons, not_or]
    refine ⟨fun same => ?_, later⟩
    rw [same, forgetBinding_unbacked] at here
    cases here

theorem forgetBindings_lookup (s : SessionId) :
    (e.forgetBindings sessions).bindings.lookup s = e.bindings.lookup s ∨
      (e.forgetBindings sessions).bindings.lookup s = none ∧ s ∈ sessions := by
  induction sessions generalizing e with
  | nil => exact .inl rfl
  | cons first rest ih =>
    have here : (e.forgetBinding first).2.bindings.lookup s = e.bindings.lookup s ∨
        (e.forgetBinding first).2.bindings.lookup s = none ∧ s = first := by
      fun_cases forgetBinding
      · exact .inl rfl
      · by_cases same : s = first
        · exact .inr ⟨by rw [same]; exact AList.lookup_erase first e.bindings, same⟩
        · exact .inl (AList.lookup_erase_ne same)
      · exact .inl rfl
      · exact .inl rfl
    rcases ih (e.forgetBinding first).2 with kept | ⟨gone, mem⟩
    · rcases here with same | ⟨gone, same⟩
      · exact .inl (kept.trans same)
      · exact .inr ⟨kept.trans gone, same ▸ List.mem_cons_self⟩
    · exact .inr ⟨gone, List.mem_cons_of_mem _ mem⟩

end

theorem bind_presence (bound : (e.bind session key).2.boundByPresence s = true) :
    e.boundByPresence s = true ∨ s = session := by
  by_cases same : s = session
  · exact .inr same
  refine .inl (boundByPresence_of_same ?_ ?_ ?_ bound)
  · unfold bind
    split
    · exact AList.lookup_insert_ne same
    · split <;> rfl
    · rfl
  · unfold bind
    split
    · rfl
    · split <;> rfl
    · rfl
  · unfold bind
    split
    · rfl
    · split
      · rw [EnvelopeBindings.untrack_sessions, if_neg same]
      · rfl
    · rfl

theorem bind_tracked (e : AuthorizationEngine) (session : SessionId) (key : KeyId) :
    (e.bind session key).2.envelopeBound.capacity = e.envelopeBound.capacity ∧
      (e.bind session key).2.envelopeBound.sessions.size ≤ e.envelopeBound.sessions.size := by
  fun_cases bind
  · exact ⟨rfl, Nat.le_refl _⟩
  · refine ⟨(EnvelopeBindings.untrack_limits _ _).2.2, Table.size_le_of_keys fun x present => ?_⟩
    rw [EnvelopeBindings.untrack_sessions] at present
    split at present
    · cases present
    · exact present
  · exact ⟨rfl, Nat.le_refl _⟩
  · exact ⟨rfl, Nat.le_refl _⟩

theorem bind_binds (free : e.bindings.lookup session = none ∨ e.bindings.lookup session =
    some (.key key)) : (e.bind session key).2.bindings.lookup session = some (.key key) := by
  unfold bind
  rcases free with unbound | bound
  · rw [unbound]
    exact AList.lookup_insert e.bindings
  · rw [bound]
    dsimp only
    rw [if_pos rfl]
    exact bound

theorem bind_conflict (marked : (e.bind session key).2.bindings.lookup s = some (.conflict keys)) :
    e.bindings.lookup s = some (.conflict keys) := by
  unfold bind at marked
  split at marked
  · rw [Table.lookup_insert_if] at marked
    split at marked
    · cases marked
    · exact marked
  · split at marked
    · exact marked
    · exact marked
  · exact marked

theorem refuseClaim_settles (key : KeyId) (session : SessionId) (now : Timestamp) :
    Settles 0 e (e.refuseClaim key session now) := by
  unfold refuseClaim
  split
  · exact markConflict_settles session key
  · exact .refl e

theorem refuseClaim_lookup (key : KeyId) (session : SessionId) (now : Timestamp) (s : SessionId) :
    (e.refuseClaim key session now).bindings.lookup s = e.bindings.lookup s ∨ (e.bindings.lookup s).isSome ∧
        ∃ keys, (e.refuseClaim key session now).bindings.lookup s = some (.conflict keys) := by
  unfold refuseClaim
  split
  · unfold markConflict
    split
    · exact .inl rfl
    cases held : e.bindings.lookup session with
    | none => exact .inl rfl
    | some entry =>
      by_cases same : s = session
      · subst same
        exact .inr ⟨by rw [held]; rfl, _, AList.lookup_insert e.bindings⟩
      · exact .inl (AList.lookup_insert_ne same)
  · exact .inl rfl

variable [Libraries]

theorem Reachable.forgetBindings (reachable : e.Reachable) (sessions : List SessionId) :
    (e.forgetBindings sessions).Reachable := by
  induction sessions generalizing e with
  | nil => exact reachable
  | cons s rest ih => exact ih (reachable.after (.forgetBinding s))

theorem Reachable.refuseClaim (reachable : e.Reachable) (key : KeyId)
    (session : SessionId) (now : Timestamp) : (e.refuseClaim key session now).Reachable := by
  unfold AuthorizationEngine.refuseClaim
  split
  · exact reachable.after (.markConflict session key)
  · exact reachable

theorem Reachable.trusted_keyId (reachable : e.Reachable)
    (trusted : e.trusted.lookup key = some entry) : entry.keyId = key := by
  obtain ⟨own, reached⟩ := reachable.of_device
  have consistent := reached.consistent
  by_cases isOwn : key = own.keyId
  · rw [isOwn, consistent.ownTrusted, Option.some.injEq] at trusted
    rw [← trusted, isOwn]
    rfl
  · obtain ⟨record, paired⟩ := Option.isSome_iff_exists.mp (consistent.onlyPaired key entry trusted isOwn)
    obtain ⟨sameKey, -, entered⟩ := consistent.paired key record paired
    rw [trusted, Option.some.injEq] at entered
    rw [entered, ← sameKey]
    rfl

end AuthorizationEngine

namespace Consumer

section Offers

variable (c : Consumer) (key : KeyId) (record : PresenceRecord) (carrier : CarrierHandle)
  (now : Instant)

/-- The registry after the record was offered to it, with the list of forgotten sessions not yet
taken. -/
def offeredRegistry : PresenceRegistry := (c.registry.acceptSigned record carrier key now).2

def offeredEngine : AuthorizationEngine :=
  c.engine.forgetBindings (c.offeredRegistry key record carrier now).forgotten

theorem offer_cases :
    (∃ lifetime, (c.registry.acceptSigned record carrier key now).1 = .accepted lifetime ∧
      c.offer key record carrier now = (⟨.ok (.accepted lifetime), false⟩,
        ⟨((c.offeredEngine key record carrier now).bind record.sessionId key).2,
          { c.offeredRegistry key record carrier now with forgotten := [] }⟩)) ∨
    ∃ why, (c.registry.acceptSigned record carrier key now).1 = .discarded why ∧
      c.offer key record carrier now = (.discard .registry, ⟨c.offeredEngine key record carrier now,
        { c.offeredRegistry key record carrier now with forgotten := [] }⟩) := by
  cases answer : (c.registry.acceptSigned record carrier key now).1 with
  | accepted lifetime =>
    refine .inl ⟨lifetime, rfl, ?_⟩
    simp only [offer, answer]
    rfl
  | discarded why =>
    refine .inr ⟨why, rfl, ?_⟩
    simp only [offer, answer]
    rfl

variable {c key record carrier now}

/-- Each session bound by presence alone has a record in the registry or is on its list. -/
def Backed (c : Consumer) : Prop :=
  ∀ s, c.engine.boundByPresence s = true → (c.registry.held.lookup s).isSome ∨ s ∈ c.registry.forgotten

theorem Backed.offer_held (backed : c.Backed)
    (listed : (c.registry.held.lookup record.sessionId).isSome ∨ c.registry.ListsAll)
    (bound : (c.offer key record carrier now).2.engine.boundByPresence s = true) :
    ((c.offer key record carrier now).2.registry.held.lookup s).isSome := by
  have offered := c.registry.acceptSigned_offered record carrier key now
  have kept := offered.keeps listed
  have held : (c.offeredEngine key record carrier now).boundByPresence s = true →
      ((c.offeredRegistry key record carrier now).held.lookup s).isSome := by
    intro bound
    have unlisted := forgetBindings_unlisted _ _ bound
    have before := (forgetBindings_settles _ _).presence s bound
    rcases backed s before with known | mem
    · exact (kept.held s known).resolve_right unlisted
    · exact absurd (kept.listed s mem) unlisted
  rcases c.offer_cases key record carrier now with ⟨lifetime, accepted, same⟩ | ⟨why, -, same⟩
  · rw [same] at bound ⊢
    rcases bind_presence bound with bound | rfl
    · exact held bound
    · obtain ⟨h, found, -⟩ := offered.accepted lifetime accepted
      exact Option.isSome_iff_exists.mpr ⟨h, found⟩
  · rw [same] at bound ⊢
    exact held bound

theorem offer_registry_bounds : (c.offer key record carrier now).2.registry.capacity = c.registry.capacity ∧
    (c.registry.held.size ≤ c.registry.capacity →
      (c.offer key record carrier now).2.registry.held.size ≤ c.registry.capacity) := by
  have offered := c.registry.acceptSigned_offered record carrier key now
  rcases c.offer_cases key record carrier now with ⟨lifetime, -, same⟩ | ⟨why, -, same⟩
  · rw [same]
    exact ⟨offered.capacity, offered.bounded⟩
  · rw [same]
    exact ⟨offered.capacity, offered.bounded⟩

theorem offer_tracked :
    (c.offer key record carrier now).2.engine.envelopeBound.capacity = c.engine.envelopeBound.capacity ∧
    (c.offer key record carrier now).2.engine.envelopeBound.sessions.size ≤
      max c.engine.envelopeBound.sessions.size c.engine.envelopeBound.capacity := by
  have forgot : AuthorizationEngine.Settles 0 c.engine (c.offeredEngine key record carrier now) :=
    forgetBindings_settles _ _
  have bound := (c.offeredEngine key record carrier now).bind_tracked record.sessionId key
  rcases c.offer_cases key record carrier now with ⟨lifetime, -, same⟩ | ⟨why, -, same⟩
  · rw [same]
    exact ⟨bound.1.trans forgot.capacity, Nat.le_trans bound.2 forgot.tracked⟩
  · rw [same]
    exact ⟨forgot.capacity, forgot.tracked⟩

theorem offer_conflicts
    (marked : (c.offer key record carrier now).2.engine.bindings.lookup s = some (.conflict keys)) :
    c.engine.bindings.lookup s = some (.conflict keys) := by
  have forgot : (c.offeredEngine key record carrier now).bindings.lookup s = some (.conflict keys) := by
    rcases c.offer_cases key record carrier now with ⟨lifetime, -, same⟩ | ⟨why, -, same⟩
    · rw [same] at marked
      exact bind_conflict marked
    · rw [same] at marked
      exact marked
  rcases forgetBindings_lookup _ c.engine s with kept | ⟨gone, -⟩
  · exact kept.symm.trans forgot
  · rw [offeredEngine, gone] at forgot
    cases forgot

theorem offer_accepted (free : c.engine.bindings.lookup record.sessionId = none ∨
      c.engine.bindings.lookup record.sessionId = some (.key key))
    (accepted : (c.offer key record carrier now).1.accepted = true) :
    (c.offer key record carrier now).2.registry.latestSeq record.sessionId = some record.seq ∧
      (c.offer key record carrier now).2.engine.bindings.lookup record.sessionId = some (.key key) := by
  have offered := c.registry.acceptSigned_offered record carrier key now
  rcases c.offer_cases key record carrier now with ⟨lifetime, answered, same⟩ | ⟨why, -, same⟩
  · rw [same]
    obtain ⟨h, found, latest⟩ := offered.accepted lifetime answered
    constructor
    · change ((c.offeredRegistry key record carrier now).held.lookup record.sessionId).map _ = _
      rw [offeredRegistry, found, ← latest]
      rfl
    · apply bind_binds
      rcases forgetBindings_lookup
        (c.offeredRegistry key record carrier now).forgotten c.engine record.sessionId with kept | ⟨gone, -⟩
      · rw [offeredEngine, kept]
        exact free
      · exact .inl gone
  · rw [same] at accepted
    cases accepted

theorem offer_discarded (refused : (c.offer key record carrier now).1.result = .error why) (s : SessionId) :
    (c.offer key record carrier now).2.engine.bindings.lookup s = c.engine.bindings.lookup s ∨
      (c.offer key record carrier now).2.engine.bindings.lookup s = none ∧
        (s ∈ c.registry.forgotten ∨ c.registry.Knows s ∧
          (c.offer key record carrier now).2.registry.held.lookup s = none) := by
  have offered := c.registry.acceptSigned_offered record carrier key now
  rcases c.offer_cases key record carrier now with ⟨lifetime, -, same⟩ | ⟨cause, answered, same⟩
  · rw [same] at refused
    cases refused
  · rw [same]
    apply (forgetBindings_lookup _ c.engine s).imp_right
    rintro ⟨gone, mem⟩
    exact ⟨gone, (offered.discarded cause answered).listed s mem⟩

end Offers

end Consumer

theorem AuthorizationEngine.Reachable.offer [Libraries] {c : Consumer}
    (reachable : c.engine.Reachable) : (c.offer key record carrier now).2.engine.Reachable := by
  have forgot : (c.offeredEngine key record carrier now).Reachable := reachable.forgetBindings _
  rcases c.offer_cases key record carrier now with ⟨lifetime, -, same⟩ | ⟨why, -, same⟩
  · rw [same]
    exact forgot.after (.bind record.sessionId key)
  · rw [same]
    exact forgot

end Oac
