import Oac.Authorization.EngineProofs

/-! What the engine's decisions mean: a rule over the plain sets of facts the engine holds, with no
partitions, and that `evaluate` permits exactly what the rule does. -/

namespace Oac

open List
open Option hiding or_assoc

/-- The facts an engine holds. -/
structure Facts where
  ownKey : KeyId
  own : OwnSessions
  bound : SessionId → Option Binding
  grants : Grant → Prop
  sent : SentRecord → Prop
  handedOff : HandOffRecord → Prop
  relay : SessionId → Prop

namespace Facts

variable (f : Facts)

def IsOwn (s : SessionId) : Prop := (f.own.lookup s).isSome

def GrantsInbound (key : KeyId) (writer target : SessionId) : Prop :=
  ∃ from' to', f.grants (.inbound from' to') ∧ from'.names key writer ∧ to'.includes target f.own

def GrantsOutbound (writer : SessionId) (key : KeyId) (target : SessionId) : Prop :=
  ∃ from' to', f.grants (.outbound from' to') ∧ from'.includes writer f.own ∧ to'.names key target

def deliver (q : DeliverQuestion) (now : Timestamp) : Prop :=
  (f.bound q.fromSession = none ∨ f.bound q.fromSession = some (.key q.verifyingKey)) ∧
    (f.GrantsInbound q.verifyingKey q.fromSession q.toSession ∨
      ∃ r, f.sent r ∧ r.toKeyId = q.verifyingKey ∧ r.toSession = q.fromSession ∧
        r.fromSession = q.toSession ∧ q.replyTo = some r.id ∧ f.IsOwn r.fromSession ∧
        withinReplyPeriod r.createdAt now)

/-- A live hand-off record from `s`, verified under the key `s` is bound to now or under none. -/
def HandedTo (s : SessionId) (now : Timestamp) (r : HandOffRecord) : Prop :=
  f.handedOff r ∧ r.fromSession = s ∧ withinReplyPeriod r.createdAt now ∧
    (r.keyId = none ∨ ∃ k, f.bound s = some (.key k) ∧ r.keyId = some k)

/-- Discovery with one rule for every session: the outbound grants count for own ones too. -/
def discoverUniform (l s : SessionId) (now : Timestamp) : Prop :=
  f.IsOwn l ∧
    ((f.IsOwn s ∧ f.GrantsInbound f.ownKey l s) ∨
      (∃ k, f.bound s = some (.key k) ∧ f.GrantsOutbound l k s) ∨
      ∃ r, f.HandedTo s now r ∧ r.toSession = l)

/-- Discovery as the engine decides it: between two own sessions the inbound grant alone serves. -/
def discover (l s : SessionId) (now : Timestamp) : Prop :=
  f.IsOwn l ∧
    ((f.IsOwn s ∧ f.GrantsInbound f.ownKey l s) ∨
      (¬f.IsOwn s ∧ ∃ k, f.bound s = some (.key k) ∧ f.GrantsOutbound l k s) ∨
      ∃ r, f.HandedTo s now r ∧ r.toSession = l)

/-- A grant in either direction between the own session `s` and device `k`. -/
def release (s : SessionId) (k : KeyId) : Prop :=
  f.IsOwn s ∧
    ((∃ from' to', f.grants (.inbound from' to') ∧ from'.keyId = k ∧ to'.includes s f.own) ∨
      ∃ from' to', f.grants (.outbound from' to') ∧ to'.keyId = k ∧ from'.includes s f.own)

/-- Device `k` stands in some relation to session `r`. -/
def related (k : KeyId) (r : SessionId) (now : Timestamp) : Prop :=
  (∃ from' to', f.grants (.inbound from' to') ∧ from'.names k r) ∨
    (∃ from' to', f.grants (.outbound from' to') ∧ to'.names k r) ∨
    (∃ record, f.sent record ∧ record.toSession = r ∧ record.toKeyId = k ∧
      withinReplyPeriod record.createdAt now) ∨
    ∃ record, f.HandedTo r now record

def permits (request : AuthorizationRequest) (now : Timestamp) : Prop :=
  match request with
  | .deliver q => f.deliver q now
  | .discover (.session l) s => f.discover l s now
  | .discover (.device k) s => f.release s k
  | .releasePresence s k => f.release s k
  | .acceptPresence k s => f.related k s now
  | .relayPermission s => f.IsOwn s ∧ f.relay s

/-- The rule with uniform discovery. -/
def permitsUniform (request : AuthorizationRequest) (now : Timestamp) : Prop :=
  match request with
  | .discover (.session l) s => f.discoverUniform l s now
  | request => f.permits request now

def holds : Basis → Prop
  | .inboundGrant g | .outboundGrant g => f.grants g
  | .replyRight r | .sent r => f.sent r
  | .handOff r => f.handedOff r
  | .relaySetting s => f.relay s

end Facts

namespace AuthorizationEngine

variable {e : AuthorizationEngine} {now : Timestamp}

def facts (e : AuthorizationEngine) : Facts where
  ownKey := e.ownKey
  own := e.ownSessions
  bound := e.bindings.lookup
  grants g := g ∈ e.grants
  sent r := ∃ k, r ∈ e.sent.partition k
  handedOff r := ∃ k, r ∈ e.handedOff.partition k
  relay s := s ∈ e.relay

/-- The answer to a question: a basis, and it is a fact, exactly when the rule permits. -/
def Answers (f : Facts) (found : Option Basis) (rule : Prop) : Prop :=
  (found.isSome ↔ rule) ∧ ∀ basis, found = some basis → f.holds basis

theorem Answers.nothing (denied : ¬rule) : Answers f none rule := by
  refine ⟨⟨fun found => ?_, fun permitted => absurd permitted denied⟩, fun basis found => ?_⟩
  · cases found
  · cases found

theorem Answers.something (permitted : rule) (held : f.holds basis) : Answers f (some basis) rule := by
  refine ⟨⟨fun _ => permitted, fun _ => rfl⟩, fun found same => ?_⟩
  cases same
  exact held

theorem grantBasis_held (held : g ∈ e.grants) : e.facts.holds (grantBasis g) := by
  cases g with
  | inbound | outbound => exact held

theorem Sound.sent_in_partition (sound : Sound e) (r : SentRecord) :
    e.facts.sent r ↔ r ∈ e.sent.partition r.fromSession := by
  constructor
  · rintro ⟨k, mem⟩
    rw [sound.sentHome k r mem]
    exact mem
  · exact fun mem => ⟨_, mem⟩

theorem Sound.handoffs_from (sound : Sound e) (s : SessionId) (r : HandOffRecord) (sent : r.fromSession = s) :
    r ∈ e.handoffsFrom s ↔
      e.facts.handedOff r ∧ (r.keyId = none ∨ ∃ k, e.bindings.lookup s = some (.key k) ∧ r.keyId = some k) := by
  have inHome : ∀ k, r ∈ e.handedOff.partition k → e.handoffPartition r.keyId s = k := by
    intro k mem
    rw [← sent]
    exact sound.handedHome k r mem
  have unkeyed : r ∈ e.handedOff.partition ⟨none, none⟩ ↔ e.facts.handedOff r ∧ r.keyId = none := by
    constructor
    · intro mem
      exact ⟨⟨_, mem⟩, congrArg HandOffPartition.key (inHome _ mem)⟩
    · rintro ⟨⟨k, mem⟩, unverified⟩
      have isHome := inHome k mem
      rw [unverified] at isHome
      have here : (⟨none, none⟩ : HandOffPartition) = k := isHome
      rw [here]
      exact mem
  have keyed : ∀ k, r ∈ e.handedOff.partition (e.handoffPartition (some k) s) ↔
      e.facts.handedOff r ∧ r.keyId = some k := by
    intro k
    constructor
    · intro mem
      exact ⟨⟨_, mem⟩, congrArg HandOffPartition.key (inHome _ mem)⟩
    · rintro ⟨⟨k', mem⟩, verified⟩
      have isHome := inHome k' mem
      rw [verified] at isHome
      exact isHome ▸ mem
  unfold handoffsFrom
  cases bound : e.bindings.lookup s with
  | none => simp [unkeyed]
  | some entry =>
    cases entry with
    | conflict keys => simp [unkeyed]
    | key k =>
      simp only [mem_append, unkeyed, keyed, some.injEq, Binding.key.injEq, exists_eq_left']
      tauto

theorem Sound.find_handoff (sound : Sound e) (now : Timestamp) (s : SessionId) (p : HandOffRecord → Bool)
    (only : ∀ r, p r = true → r.fromSession = s ∧ withinReplyPeriod r.createdAt now) :
    (((e.handoffsFrom s).find? p).isSome ↔ ∃ r, e.facts.HandedTo s now r ∧ p r = true) ∧
      ∀ r, (e.handoffsFrom s).find? p = some r → e.facts.handedOff r := by
  constructor
  · rw [find?_isSome]
    constructor
    · rintro ⟨r, mem, matched⟩
      obtain ⟨sent, live⟩ := only r matched
      obtain ⟨held, verified⟩ := (sound.handoffs_from s r sent).mp mem
      exact ⟨r, ⟨held, sent, live, verified⟩, matched⟩
    · rintro ⟨r, ⟨held, sent, -, verified⟩, matched⟩
      exact ⟨r, (sound.handoffs_from s r sent).mpr ⟨held, verified⟩, matched⟩
  · intro r found
    obtain ⟨sent, -⟩ := only r (find?_some found)
    exact ((sound.handoffs_from s r sent).mp (mem_of_find?_eq_some found)).1

theorem inboundLets_iff (e : AuthorizationEngine) (key : KeyId) (writer target : SessionId) :
    (∃ g ∈ e.grants, inboundLets e.ownSessions key writer target g = true) ↔
      e.facts.GrantsInbound key writer target := by
  constructor
  · rintro ⟨g, mem, lets⟩
    cases g with
    | outbound side peer => cases lets
    | inbound peer side =>
      simp only [inboundLets, Bool.and_eq_true] at lets
      exact ⟨peer, side, mem, lets⟩
  · rintro ⟨peer, side, mem, names, includes⟩
    exact ⟨.inbound peer side, mem, by simp only [inboundLets, names, Bool.true_and]; exact includes⟩

theorem outboundLets_iff : (∃ g ∈ e.grants, outboundLets e.ownSessions writer key target g = true) ↔
      e.facts.GrantsOutbound writer key target := by
  constructor
  · rintro ⟨g, mem, lets⟩
    cases g with
    | inbound peer side => cases lets
    | outbound side peer =>
      simp only [outboundLets, Bool.and_eq_true] at lets
      exact ⟨side, peer, mem, lets⟩
  · rintro ⟨side, peer, mem, includes, names⟩
    exact ⟨.outbound side peer, mem, by simp only [outboundLets, names, Bool.and_true]; exact includes⟩

theorem refusesSender_eq_false : e.refusesSender sender key = false ↔
      (e.bindings.lookup sender = none ∨ e.bindings.lookup sender = some (.key key)) := by
  unfold refusesSender
  cases e.bindings.lookup sender with
  | none => simp
  | some entry => cases entry <;> simp

theorem Sound.replyRight_iff (sound : Sound e) (asked : q.replyTo = some replyTo) :
    (∃ r ∈ e.sent.partition q.toSession, e.hasReplyRight q replyTo now r = true) ↔
      ∃ r, e.facts.sent r ∧ r.toKeyId = q.verifyingKey ∧ r.toSession = q.fromSession ∧
        r.fromSession = q.toSession ∧ q.replyTo = some r.id ∧ e.facts.IsOwn r.fromSession ∧
        withinReplyPeriod r.createdAt now := by
  constructor
  · rintro ⟨r, mem, right⟩
    simp only [hasReplyRight, Bool.and_eq_true, beq_iff_eq] at right
    obtain ⟨⟨⟨⟨⟨toKey, toSender⟩, fromTarget⟩, named⟩, live⟩, isOwn⟩ := right
    exact ⟨r, ⟨_, mem⟩, toKey, toSender, fromTarget, by rw [asked, named], isOwn, live⟩
  · rintro ⟨r, held, toKey, toSender, fromTarget, named, isOwn, live⟩
    rw [asked, some.injEq] at named
    refine ⟨r, fromTarget ▸ (sound.sent_in_partition r).mp held, ?_⟩
    simp only [hasReplyRight, Bool.and_eq_true, beq_iff_eq]
    exact ⟨⟨⟨⟨⟨toKey, toSender⟩, fromTarget⟩, named.symm⟩, live⟩, isOwn⟩

theorem Sound.deliver_answers (sound : Sound e) (q : DeliverQuestion) :
    Answers e.facts (e.deliver q now) (e.facts.deliver q now) := by
  unfold deliver
  by_cases refused : e.refusesSender q.fromSession q.verifyingKey = true
  · rw [if_pos refused]
    refine .nothing fun rule => ?_
    have allowed := refusesSender_eq_false.mpr rule.1
    rw [refused] at allowed
    cases allowed
  · rw [if_neg refused]
    have allowed := refusesSender_eq_false.mp (by simpa using refused)
    have byGrant := e.inboundLets_iff q.verifyingKey q.fromSession q.toSession
    cases found : e.grants.find? (inboundLets e.ownSessions q.verifyingKey q.fromSession q.toSession) with
    | some g =>
      have mem := mem_of_find?_eq_some found
      exact .something ⟨allowed, .inl (byGrant.mp ⟨g, mem, find?_some found⟩)⟩ mem
    | none =>
      have noGrant : ¬e.facts.GrantsInbound q.verifyingKey q.fromSession q.toSession := fun granted => by
        obtain ⟨g, mem, lets⟩ := byGrant.mpr granted
        exact find?_eq_none.mp found g mem lets
      cases asked : q.replyTo with
      | none =>
        refine .nothing ?_
        rintro ⟨-, granted | ⟨r, -, -, -, -, named, -⟩⟩
        · exact absurd granted noGrant
        · rw [asked] at named
          cases named
      | some replyTo =>
        simp only [bind_some]
        refine ⟨?_, ?_⟩
        · rw [isSome_map, find?_isSome, sound.replyRight_iff asked]
          exact ⟨fun right => ⟨allowed, .inr right⟩, fun rule => rule.2.resolve_left noGrant⟩
        · intro basis found
          obtain ⟨r, chosen, rfl⟩ := map_eq_some_iff.mp found
          exact ⟨_, mem_of_find?_eq_some chosen⟩

theorem discoverGrant_iff : ((e.discoverGrant l s).isSome ↔
      (e.facts.IsOwn s ∧ e.facts.GrantsInbound e.ownKey l s) ∨
        (¬e.facts.IsOwn s ∧ ∃ k, e.facts.bound s = some (.key k) ∧ e.facts.GrantsOutbound l k s)) ∧
      ∀ g, e.discoverGrant l s = some g → g ∈ e.grants := by
  unfold discoverGrant
  by_cases isOwn : (e.ownSessions.lookup s).isSome
  · have own : e.facts.IsOwn s := isOwn
    rw [if_pos isOwn, find?_isSome, inboundLets_iff]
    refine ⟨?_, fun g found => mem_of_find?_eq_some found⟩
    simp only [own, true_and, not_true_eq_false, false_and, or_false]
  · have foreign : ¬e.facts.IsOwn s := isOwn
    rw [if_neg isOwn]
    simp only [foreign, false_and, not_false_eq_true, true_and, false_or]
    cases bound : e.bindings.lookup s with
    | none =>
      refine ⟨⟨?_, ?_⟩, fun g found => ?_⟩
      · rintro ⟨⟩
      · rintro ⟨k, held, -⟩
        exact absurd (bound.symm.trans held) (by simp)
      · cases found
    | some entry =>
      cases entry with
      | conflict keys =>
        refine ⟨⟨?_, ?_⟩, fun g found => ?_⟩
        · rintro ⟨⟩
        · rintro ⟨k, held, -⟩
          exact absurd (bound.symm.trans held) (by simp)
        · cases found
      | key k =>
        rw [find?_isSome, outboundLets_iff]
        refine ⟨⟨fun granted => ⟨k, bound, granted⟩, ?_⟩, fun g found => mem_of_find?_eq_some found⟩
        rintro ⟨k', held, granted⟩
        have same : k = k' := by simpa using bound.symm.trans held
        exact same ▸ granted

theorem Sound.discover_answers (sound : Sound e) (l s : SessionId) :
    Answers e.facts (e.discover l s now) (e.facts.discover l s now) := by
  unfold discover
  cases owned : e.ownSessions.lookup l with
  | none =>
    refine .nothing fun rule => ?_
    have isOwn : (e.ownSessions.lookup l).isSome := rule.1
    rw [owned] at isOwn
    cases isOwn
  | some scope =>
    have isOwn : e.facts.IsOwn l := by simp [Facts.IsOwn, facts, owned]
    obtain ⟨grantIff, grantHeld⟩ := discoverGrant_iff
    cases chosen : e.discoverGrant l s with
    | some g =>
      rw [chosen] at grantIff
      refine .something ⟨isOwn, ?_⟩ (grantBasis_held (grantHeld g chosen))
      rcases grantIff.mp rfl with own | foreign
      · exact .inl own
      · exact .inr (.inl foreign)
    | none =>
      rw [chosen] at grantIff
      obtain ⟨recordIff, recordHeld⟩ := sound.find_handoff now s
        (fun h => h.toSession == l && h.fromSession == s && withinReplyPeriod h.createdAt now) (by
          intro r matched
          simp only [Bool.and_eq_true, beq_iff_eq] at matched
          exact ⟨matched.1.2, matched.2⟩)
      have byRecord : (∃ r, e.facts.HandedTo s now r ∧
          (r.toSession == l && r.fromSession == s && withinReplyPeriod r.createdAt now) = true) ↔
          ∃ r, e.facts.HandedTo s now r ∧ r.toSession = l := by
        refine exists_congr fun r => and_congr_right fun handed => ?_
        simp only [Bool.and_eq_true, beq_iff_eq]
        exact ⟨fun h => h.1.1, fun h => ⟨⟨h, handed.2.1⟩, handed.2.2.1⟩⟩
      simp only [isNone_some, Bool.false_eq_true, if_false]
      refine ⟨?_, fun basis found => ?_⟩
      · rw [isSome_map, recordIff, byRecord]
        constructor
        · exact fun handed => ⟨isOwn, .inr (.inr handed)⟩
        · rintro ⟨-, own | foreign | handed⟩
          · cases grantIff.mpr (.inl own)
          · cases grantIff.mpr (.inr foreign)
          · exact handed
      · obtain ⟨r, first, rfl⟩ := map_eq_some_iff.mp found
        exact recordHeld r first

theorem release_answers (s : SessionId) (k : KeyId) :
    Answers e.facts (e.release s k) (e.facts.release s k) := by
  unfold release
  cases owned : e.ownSessions.lookup s with
  | none =>
    refine .nothing fun rule => ?_
    have isOwn : (e.ownSessions.lookup s).isSome := rule.1
    rw [owned] at isOwn
    cases isOwn
  | some scope =>
    have isOwn : e.facts.IsOwn s := by simp [Facts.IsOwn, facts, owned]
    simp only [isNone_some, Bool.false_eq_true, if_false]
    refine ⟨?_, fun basis found => ?_⟩
    · rw [isSome_map, find?_isSome]
      constructor
      · rintro ⟨g, mem, releases⟩
        refine ⟨isOwn, ?_⟩
        cases g with
        | inbound peer side =>
          simp only [releasesTo, Bool.and_eq_true, beq_iff_eq] at releases
          exact .inl ⟨peer, side, mem, releases⟩
        | outbound side peer =>
          simp only [releasesTo, Bool.and_eq_true, beq_iff_eq] at releases
          exact .inr ⟨side, peer, mem, releases⟩
      · rintro ⟨-, ⟨peer, side, mem, named, includes⟩ | ⟨side, peer, mem, named, includes⟩⟩
        · exact ⟨.inbound peer side, mem, by simpa [releasesTo, named, facts] using includes⟩
        · exact ⟨.outbound side peer, mem, by simpa [releasesTo, named, facts] using includes⟩
    · obtain ⟨g, first, rfl⟩ := map_eq_some_iff.mp found
      exact grantBasis_held (mem_of_find?_eq_some first)

theorem Answers.orElse (a : Answers f first rule) (b : Answers f second rule') :
    Answers f (first.orElse fun _ => second) (rule ∨ rule') := by
  cases first with
  | some basis => exact .something (.inl (a.1.mp rfl)) (a.2 basis rfl)
  | none =>
    refine ⟨?_, b.2⟩
    have no : ¬rule := fun permitted => by cases a.1.mpr permitted
    change second.isSome ↔ _
    rw [b.1]
    exact ⟨.inr, fun either => either.resolve_left no⟩

theorem Sound.related_answers (sound : Sound e) (k : KeyId) (r : SessionId) :
    Answers e.facts (e.related k r now) (e.facts.related k r now) := by
  have byGrant : Answers e.facts ((e.grants.find? (namesPeer k r)).map grantBasis)
      ((∃ from' to', e.facts.grants (.inbound from' to') ∧ from'.names k r) ∨
        ∃ from' to', e.facts.grants (.outbound from' to') ∧ to'.names k r) := by
    refine ⟨?_, fun basis found => ?_⟩
    · rw [isSome_map, find?_isSome]
      constructor
      · rintro ⟨g, mem, names⟩
        cases g with
        | inbound peer side => exact .inl ⟨peer, side, mem, names⟩
        | outbound side peer => exact .inr ⟨side, peer, mem, names⟩
      · rintro (⟨peer, side, mem, names⟩ | ⟨side, peer, mem, names⟩)
        · exact ⟨_, mem, names⟩
        · exact ⟨_, mem, names⟩
    · obtain ⟨g, first, rfl⟩ := map_eq_some_iff.mp found
      exact grantBasis_held (mem_of_find?_eq_some first)
  have bySent : Answers e.facts ((e.sent.iter.find? fun s =>
      s.toSession == r && s.toKeyId == k && withinReplyPeriod s.createdAt now).map Basis.sent)
      (∃ record, e.facts.sent record ∧ record.toSession = r ∧ record.toKeyId = k ∧
        withinReplyPeriod record.createdAt now) := by
    refine ⟨?_, fun basis found => ?_⟩
    · rw [isSome_map, find?_isSome]
      refine exists_congr fun record => ?_
      rw [RecordBook.mem_iter]
      simp only [Bool.and_eq_true, beq_iff_eq, and_assoc]
      exact Iff.rfl
    · obtain ⟨record, first, rfl⟩ := map_eq_some_iff.mp found
      exact (RecordBook.mem_iter record).mp (mem_of_find?_eq_some first)
  have byHandoff : Answers e.facts (((e.handoffsFrom r).find? fun h =>
      h.fromSession == r && withinReplyPeriod h.createdAt now).map Basis.handOff)
      (∃ record, e.facts.HandedTo r now record) := by
    obtain ⟨recordIff, recordHeld⟩ := sound.find_handoff now r
      (fun h => h.fromSession == r && withinReplyPeriod h.createdAt now) (by
        intro record matched
        simpa only [Bool.and_eq_true, beq_iff_eq] using matched)
    refine ⟨?_, fun basis found => ?_⟩
    · rw [isSome_map, recordIff]
      refine exists_congr fun record => ⟨And.left, fun handed => ⟨handed, ?_⟩⟩
      simp only [Bool.and_eq_true, beq_iff_eq]
      exact ⟨handed.2.1, handed.2.2.1⟩
    · obtain ⟨record, first, rfl⟩ := map_eq_some_iff.mp found
      exact recordHeld record first
  have all := byGrant.orElse (bySent.orElse byHandoff)
  rwa [or_assoc] at all

/-- Every request is answered by the rule over the facts. -/
theorem Sound.evaluate_answers (sound : Sound e) (request : AuthorizationRequest) (now : Timestamp) :
    ((∃ basis, e.evaluate request now = .permit basis) ↔ e.facts.permits request now) ∧
      ∀ basis, e.evaluate request now = .permit basis → e.facts.holds basis := by
  have answered : ∀ {found : Option Basis} {rule : Prop}, Answers e.facts found rule →
      ((∃ basis, found.elim Outcome.deny Outcome.permit = .permit basis) ↔ rule) ∧
        ∀ basis, found.elim Outcome.deny Outcome.permit = .permit basis → e.facts.holds basis := by
    intro found rule answers
    rw [← answers.1]
    cases found with
    | none => simp
    | some basis => simpa using answers.2 basis rfl
  cases request with
  | deliver q => exact answered (sound.deliver_answers q)
  | discover requester s =>
    cases requester with
    | session l => exact answered (sound.discover_answers l s)
    | device k => exact answered (release_answers s k)
  | releasePresence s k => exact answered (release_answers s k)
  | acceptPresence k s => exact answered (sound.related_answers k s)
  | relayPermission s =>
    refine @answered (if (e.ownSessions.lookup s).isSome && decide (s ∈ e.relay) then
      some (.relaySetting s) else none) _ ?_
    by_cases enabled : (e.ownSessions.lookup s).isSome ∧ s ∈ e.relay
    · rw [if_pos (by simpa using enabled)]
      exact .something enabled enabled.2
    · rw [if_neg (by simpa using enabled)]
      exact .nothing enabled

/-- In every engine that operations lead to, a request is permitted exactly when the rule over the
facts held permits it, on the basis of one of those facts; with nothing held, nothing is
permitted. -/
theorem decisions_follow_facts [Libraries] (e : AuthorizationEngine) (reachable : e.Reachable)
    (request : AuthorizationRequest) (now : Timestamp) :
    ((∃ basis, e.evaluate request now = .permit basis) ↔ e.facts.permits request now) ∧
      (∀ basis, e.evaluate request now = .permit basis → e.facts.holds basis) ∧
      (e.grants = [] → (∀ r, ¬e.facts.sent r) → (∀ r, ¬e.facts.handedOff r) → e.relay = [] →
        e.evaluate request now = .deny) := by
  obtain ⟨permitted, based⟩ := reachable.sound.evaluate_answers request now
  refine ⟨permitted, based, fun noGrants noSent noHandOff noRelay => ?_⟩
  cases outcome : e.evaluate request now with
  | deny => rfl
  | permit basis =>
    -- whatever the basis is, it would be held
    have held := based basis outcome
    cases basis with
    | inboundGrant g =>
      have mem : g ∈ e.grants := held
      simp [noGrants] at mem
    | outboundGrant g =>
      have mem : g ∈ e.grants := held
      simp [noGrants] at mem
    | replyRight r => exact absurd held (noSent r)
    | sent r => exact absurd held (noSent r)
    | handOff r => exact absurd held (noHandOff r)
    | relaySetting s =>
      have mem : s ∈ e.relay := held
      simp [noRelay] at mem

section Sample

def sampleOwnKey : KeyId := ⟨String.ofList (replicate 64 '0'), by decide +kernel⟩

def samplePeerKey : KeyId := ⟨String.ofList (replicate 64 '1'), by decide +kernel⟩

/-- Libraries small enough to compute with: a key signs by repeating its own octets. -/
@[reducible] def sampleLibraries : Libraries where
  Double := Unit
  parseDouble _ := ()
  isFinite _ := true
  isZero _ := true
  zero := ()
  writeDouble _ := .ok "0"
  writeString s := .ok s
  verifyStrict key _ signature := signature == key.octets ++ key.octets
  keyId key := if key.octets = replicate 32 0 then sampleOwnKey else samplePeerKey

attribute [local instance] sampleLibraries

def sampleOwn : DeviceIdentity := DeviceIdentity.new (.replicate 0) sampleName

def sampleSession (n : BitVec 128) : SessionId := .fromRandomOctets n

def sampleRegistration (s : SessionId) : RegistrationRecord where
  sessionId := s
  harnessLabel := sampleHarness
  registeredAt := .epoch
  wire := [("working_directory", .string "/work"), ("security", .object [("principal", .string "alice"),
    ("key_id", .string sampleOwnKey.text), ("signature", .string (String.ofList (replicate 86 'A')))])]

def sampleOps : List Op :=
  [.registerSession (sampleRegistration (sampleSession 1)) sampleOwn,
    .registerSession (sampleRegistration (sampleSession 2)) sampleOwn,
    .addGrant (.outbound .device ⟨sampleOwnKey, none⟩) fun _ => .ok ()]

theorem reachable_of_ops [Libraries] (own : DeviceIdentity) (ops : List Op) :
    Reachable (ops.foldl after (new own)) := by
  refine ⟨new own, ⟨own, .inl rfl⟩, ?_⟩
  generalize new own = e
  induction ops generalizing e with
  | nil => exact .refl
  | cons op rest ih => exact .head ⟨op, trivial, rfl⟩ (ih _)

def sampleEngine : AuthorizationEngine := sampleOps.foldl after (new sampleOwn)

theorem decisions_follow_facts_sample : ∃ e, Reachable e ∧
      ((∃ basis, e.evaluate (.releasePresence (sampleSession 1) sampleOwnKey) .epoch = .permit basis) ↔
        e.facts.permits (.releasePresence (sampleSession 1) sampleOwnKey) .epoch) ∧
      e.evaluate (.releasePresence (sampleSession 1) sampleOwnKey) .epoch =
        .permit (.outboundGrant (.outbound .device ⟨sampleOwnKey, none⟩)) :=
  ⟨sampleEngine, reachable_of_ops sampleOwn sampleOps,
    (@decisions_follow_facts _ sampleEngine
      (reachable_of_ops sampleOwn sampleOps) _ _).1, by decide +kernel⟩

/-- Uniform discovery would permit what the engine denies: an outbound grant to the own device does
not let one own session discover another. -/
theorem own_discovery_ignores_outbound : ∃ e, Reachable e ∧
      e.facts.permitsUniform (.discover (.session (sampleSession 1)) (sampleSession 2)) .epoch ∧
      e.evaluate (.discover (.session (sampleSession 1)) (sampleSession 2)) .epoch = .deny := by
  refine ⟨sampleEngine, reachable_of_ops sampleOwn sampleOps,
    ⟨?_, .inr (.inl ⟨sampleOwnKey, ?_, .device, ⟨sampleOwnKey, none⟩, ?_, ?_, ?_⟩)⟩, ?_⟩
  · change (sampleEngine.ownSessions.lookup (sampleSession 1)).isSome = true
    decide +kernel
  · decide +kernel
  · change Grant.outbound .device ⟨sampleOwnKey, none⟩ ∈ sampleEngine.grants
    decide +kernel
  · decide +kernel
  · decide +kernel
  · decide +kernel

end Sample

end AuthorizationEngine

end Oac
