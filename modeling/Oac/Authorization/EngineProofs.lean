import Oac.Authorization.EnvelopeBindingsProofs
import Oac.Authorization.Moves
import Oac.Foundation.Results

/-! The invariant of the authorization engine: what ties the binding table, the tracking of
envelope-created entries and the two record books together, kept by every operation. -/

namespace Oac.AuthorizationEngine

open Table List
open RecordBook hiding new

open EnvelopeBindings (Exact)

variable {e : AuthorizationEngine}

def home (e : AuthorizationEngine) (r : HandOffRecord) : HandOffPartition :=
  e.handoffPartition r.keyId r.fromSession

/-- Every fact about the engine except that the pins agree with the record book. -/
structure Linked (e : AuthorizationEngine) : Prop where
  ownBound : ∀ s scope, e.ownSessions.lookup s = some scope → e.bindings.lookup s = some (.key e.ownKey)
  trackedBound : ∀ s b, e.envelopeBound.sessions.lookup s = some b → e.bindings.lookup s = some (.key b.key)
  trackedForeign : ∀ s b, e.envelopeBound.sessions.lookup s = some b → e.ownSessions.lookup s = none
  exact : e.envelopeBound.Exact
  sentIndexed : e.sent.Indexed
  sentBounded : e.sent.Bounded
  sentHome : ∀ k r, r ∈ e.sent.partition k → r.fromSession = k
  handedIndexed : e.handedOff.Indexed
  handedBounded : e.handedOff.Bounded
  handedHome : ∀ k r, r ∈ e.handedOff.partition k → e.home r = k
  ownSenders : ∀ k r, r ∈ e.handedOff.partition k → r.keyId = some e.ownKey →
    (e.ownSessions.lookup r.fromSession).isSome
  counting : e.handedOff.senders.enabled = true

def PinnedBy (e : AuthorizationEngine) (index : SenderIndex HandOffPartition) : Prop :=
  ∀ s b, e.envelopeBound.sessions.lookup s = some b →
    b.pinned = index.held (e.handoffPartition (some b.key) s) s

structure Sound (e : AuthorizationEngine) : Prop extends Linked e where
  drained : e.handedOff.senders.changes = []
  pinned : e.PinnedBy e.handedOff.senders

/-- A change of the sender index is about a sender in the partition its records belong to. -/
def Homed (e : AuthorizationEngine) (k : HandOffPartition) (s : SessionId) : Prop :=
  k = e.handoffPartition k.key s

theorem Linked.homed (linked : Linked e) (k : HandOffPartition) (s : SessionId)
    (sends : e.handedOff.Sends k s) : e.Homed k s := by
  obtain ⟨r, mem, rfl⟩ := sends
  have isHome := linked.handedHome k r mem
  have sameKey : r.keyId = k.key := congrArg HandOffPartition.key isHome
  rw [Homed, ← sameKey]
  exact isHome.symm

def notedPin (key : KeyId) (s : SessionId) (before : Bool)
    (log : List (HandOffPartition × SessionId × Bool)) : Bool :=
  log.foldl (fun held c => if c.1.key = some key ∧ c.2.1 = s then c.2.2 else held) before

theorem notedPin_eq_noted (key : KeyId) (s : SessionId) (before : Bool)
    (log : List (HandOffPartition × SessionId × Bool)) (homed : ∀ c ∈ log, e.Homed c.1 c.2.1) :
    notedPin key s before log = noted (e.handoffPartition (some key) s) s before log := by
  induction log generalizing before with
  | nil => rfl
  | cons c rest ih =>
    have here : (c.1.key = some key ∧ c.2.1 = s) ↔
        (c.1 = e.handoffPartition (some key) s ∧ c.2.1 = s) := by
      have own : c.1 = e.handoffPartition c.1.key c.2.1 := homed c mem_cons_self
      constructor
      · rintro ⟨sameKey, sameSender⟩
        refine ⟨?_, sameSender⟩
        rw [own, sameKey, sameSender]
      · rintro ⟨same, sameSender⟩
        exact ⟨congrArg HandOffPartition.key same, sameSender⟩
    simp only [notedPin, noted, foldl_cons, here]
    exact ih _ fun c mem => homed c (mem_cons_of_mem _ mem)

theorem noteChange_sessions (t : EnvelopeBindings) (c : HandOffPartition × SessionId × Bool)
    (s : SessionId) :
    (noteChange t c).sessions.lookup s = (t.sessions.lookup s).map fun b =>
      { b with pinned := if c.1.key = some b.key ∧ c.2.1 = s then c.2.2 else b.pinned } := by
  unfold noteChange
  cases key : c.1.key with
  | none => cases t.sessions.lookup s <;> simp
  | some k =>
    rw [EnvelopeBindings.setPinned_sessions]
    by_cases same : s = c.2.1
    · subst same
      rw [if_pos rfl]
      congr 1
      funext b
      by_cases own : b.key = k
      · simp [EnvelopeBindings.repin, own]
      · simp [EnvelopeBindings.repin, own, Ne.symm own]
    · rw [if_neg same]
      have other : c.2.1 ≠ s := Ne.symm same
      cases t.sessions.lookup s <;> simp [other]

theorem noteChange_exact (exact : t.Exact) (c : HandOffPartition × SessionId × Bool) :
    (noteChange t c).Exact := by
  unfold noteChange
  cases c.1.key with
  | none => exact exact
  | some k => exact exact.setPinned c.2.1 k c.2.2

theorem noteChange_limits (t : EnvelopeBindings) (c : HandOffPartition × SessionId × Bool) :
    (noteChange t c).perKey = t.perKey ∧ (noteChange t c).capacity = t.capacity := by
  unfold noteChange
  cases c.1.key with
  | none => exact ⟨rfl, rfl⟩
  | some k => exact (EnvelopeBindings.setPinned_limits t c.2.1 k c.2.2).2

theorem noteChanges (log : List (HandOffPartition × SessionId × Bool)) (exact : t.Exact) :
    (log.foldl noteChange t).Exact ∧
      ∀ s, (log.foldl noteChange t).sessions.lookup s = (t.sessions.lookup s).map fun b =>
        { b with pinned := notedPin b.key s b.pinned log } := by
  induction log generalizing t with
  | nil =>
    refine ⟨exact, fun s => ?_⟩
    rw [foldl_nil]
    cases t.sessions.lookup s <;> rfl
  | cons c rest ih =>
    obtain ⟨kept, looked⟩ := ih (noteChange_exact exact c)
    refine ⟨kept, fun s => ?_⟩
    rw [foldl_cons, looked, noteChange_sessions]
    cases t.sessions.lookup s <;> rfl

theorem noteChanges_limits (log : List (HandOffPartition × SessionId × Bool)) (t : EnvelopeBindings) :
    (log.foldl noteChange t).perKey = t.perKey ∧ (log.foldl noteChange t).capacity = t.capacity := by
  induction log generalizing t with
  | nil => exact ⟨rfl, rfl⟩
  | cons c rest ih =>
    obtain ⟨perKey, capacity⟩ := ih (noteChange t c)
    obtain ⟨perKey', capacity'⟩ := noteChange_limits t c
    exact ⟨perKey.trans perKey', capacity.trans capacity'⟩

/-- Draining the log makes the pins agree with the record book again. -/
theorem Linked.syncPins (linked : Linked e) (drained : before.changes = [])
    (logs : SenderIndex.Logs e.Homed before e.handedOff.senders) (pinned : e.PinnedBy before) :
    Sound e.syncPins := by
  obtain ⟨log, changes, homed, held⟩ := logs.changes
  rw [drained, nil_append] at changes
  obtain ⟨exact, looked⟩ := noteChanges log linked.exact
  have tracked : ∀ s b, e.syncPins.envelopeBound.sessions.lookup s = some b →
      ∃ old, e.envelopeBound.sessions.lookup s = some old ∧
        b = { old with pinned := notedPin old.key s old.pinned log } := by
    intro s b found
    have found : (log.foldl noteChange e.envelopeBound).sessions.lookup s = some b := changes ▸ found
    rw [looked] at found
    obtain ⟨old, held, rfl⟩ := Option.map_eq_some_iff.mp found
    exact ⟨old, held, rfl⟩
  refine ⟨⟨linked.ownBound, ?_, ?_, ?_, linked.sentIndexed, linked.sentBounded, linked.sentHome, ?_, ?_,
    linked.handedHome, linked.ownSenders, linked.counting⟩, rfl, ?_⟩
  · intro s b found
    obtain ⟨old, held, rfl⟩ := tracked s b found
    exact linked.trackedBound s old held
  · intro s b found
    obtain ⟨old, held, rfl⟩ := tracked s b found
    exact linked.trackedForeign s old held
  · change (e.handedOff.senders.changes.foldl noteChange e.envelopeBound).Exact
    rw [changes]
    exact exact
  · exact ⟨linked.handedIndexed.nonempty, linked.handedIndexed.sizes, linked.handedIndexed.ends,
      linked.handedIndexed.covers, linked.handedIndexed.total, linked.handedIndexed.counts⟩
  · exact ⟨linked.handedBounded.records, linked.handedBounded.partitions, linked.handedBounded.total⟩
  · intro s b found
    obtain ⟨old, was, rfl⟩ := tracked s b found
    have agreed := pinned s old was
    have now := held (e.handoffPartition (some old.key) s) s
    rw [← agreed, ← notedPin_eq_noted _ _ _ _ homed] at now
    exact now.symm

/-- An operation that only takes hand-off records away and then draws the pins after them. -/
theorem Sound.trimmed (sound : Sound e) (e' : AuthorizationEngine) (linked : Linked e')
    (sameKey : e'.ownKey = e.ownKey) (sameBound : e'.envelopeBound = e.envelopeBound)
    (trims : Trims e.handedOff e'.handedOff) : Sound e'.syncPins := by
  have samePartition : ∀ key s, e'.handoffPartition key s = e.handoffPartition key s := by
    intro key s
    simp only [handoffPartition, sameKey]
  refine linked.syncPins sound.drained (trims.logs.mono fun k s sends => ?_) ?_
  · rw [Homed, samePartition]
    exact sound.homed k s sends
  · intro s b found
    rw [samePartition]
    exact sound.pinned s b (sameBound ▸ found)

theorem Linked.trimHanded (linked : Linked e) (trims : Trims e.handedOff b) :
    Linked { e with handedOff := b } where
  ownBound := linked.ownBound
  trackedBound := linked.trackedBound
  trackedForeign := linked.trackedForeign
  exact := linked.exact
  sentIndexed := linked.sentIndexed
  sentBounded := linked.sentBounded
  sentHome := linked.sentHome
  handedIndexed := trims.indexed
  handedBounded := trims.bounded linked.handedIndexed linked.handedBounded
  handedHome k r mem := linked.handedHome k r ((trims.sublist k).subset mem)
  ownSenders k r mem := linked.ownSenders k r ((trims.sublist k).subset mem)
  counting := trims.logs.enabled.trans linked.counting

theorem Linked.trimSent (linked : Linked e) (trims : Trims e.sent b) : Linked { e with sent := b } where
  ownBound := linked.ownBound
  trackedBound := linked.trackedBound
  trackedForeign := linked.trackedForeign
  exact := linked.exact
  sentIndexed := trims.indexed
  sentBounded := trims.bounded linked.sentIndexed linked.sentBounded
  sentHome k r mem := linked.sentHome k r ((trims.sublist k).subset mem)
  handedIndexed := linked.handedIndexed
  handedBounded := linked.handedBounded
  handedHome := linked.handedHome
  ownSenders := linked.ownSenders
  counting := linked.counting

section Tables

variable {s : SessionId} {key : KeyId}

theorem Sound.settings (sound : Sound e) (trusted : TrustedKeySet) (paired : Table KeyId PairingRecord)
    (grants : List Grant) (relay : List SessionId) (agreements : Table KeyId HeldStatement) :
    Sound { e with trusted, paired, grants, relay, agreements } :=
  ⟨⟨sound.ownBound, sound.trackedBound, sound.trackedForeign, sound.exact, sound.sentIndexed,
    sound.sentBounded, sound.sentHome, sound.handedIndexed, sound.handedBounded, sound.handedHome,
    sound.ownSenders, sound.counting⟩, sound.drained, sound.pinned⟩

theorem Sound.tables (sound : Sound e) (bindings : Table SessionId Binding) (bound : EnvelopeBindings)
    (own : OwnSessions) (ownBound : ∀ s scope, own.lookup s = some scope →
      bindings.lookup s = some (.key e.ownKey))
    (tracked : ∀ s b, bound.sessions.lookup s = some b → bindings.lookup s = some (.key b.key) ∧
      own.lookup s = none ∧
        b.pinned = e.handedOff.senders.held (e.handoffPartition (some b.key) s) s)
    (exact : bound.Exact) (ownKept : ∀ s, (e.ownSessions.lookup s).isSome → (own.lookup s).isSome) :
    Sound { e with bindings := bindings, envelopeBound := bound, ownSessions := own } :=
  ⟨⟨ownBound, fun s b found => (tracked s b found).1, fun s b found => (tracked s b found).2.1, exact,
    sound.sentIndexed, sound.sentBounded, sound.sentHome, sound.handedIndexed, sound.handedBounded,
    sound.handedHome, fun k r mem isOwn => ownKept _ (sound.ownSenders k r mem isOwn), sound.counting⟩,
    sound.drained, fun s b found => (tracked s b found).2.2⟩

theorem Sound.tracked (sound : Sound e) (found : e.envelopeBound.sessions.lookup s = some b) :
    e.bindings.lookup s = some (.key b.key) ∧ e.ownSessions.lookup s = none ∧
      b.pinned = e.handedOff.senders.held (e.handoffPartition (some b.key) s) s :=
  ⟨sound.trackedBound s b found, sound.trackedForeign s b found, sound.pinned s b found⟩

theorem untracked_of_found {t : EnvelopeBindings}
    (found : (t.untrack s).sessions.lookup s' = some b) : s' ≠ s ∧ t.sessions.lookup s' = some b := by
  rw [EnvelopeBindings.untrack_sessions] at found
  split at found
  · cases found
  · next other => exact ⟨other, found⟩

theorem Sound.rewrite {bindings : Table SessionId Binding} (sound : Sound e)
    (foreign : e.ownSessions.lookup s = none)
    (others : ∀ s', s' ≠ s → bindings.lookup s' = e.bindings.lookup s') :
    Sound { e with bindings := bindings, envelopeBound := e.envelopeBound.untrack s } := by
  refine sound.tables _ _ e.ownSessions ?_ ?_ (sound.exact.untrack s) fun _ held => held
  · intro s' scope owned
    have other : s' ≠ s := by
      rintro rfl
      rw [foreign] at owned
      cases owned
    rw [others s' other]
    exact sound.ownBound s' scope owned
  · intro s' b found
    obtain ⟨other, was⟩ := untracked_of_found found
    obtain ⟨bound, notOwn, pinned⟩ := sound.tracked was
    exact ⟨(others s' other).trans bound, notOwn, pinned⟩

theorem Sound.dropBinding (sound : Sound e) (foreign : e.ownSessions.lookup s = none) :
    Sound (e.dropBinding s) :=
  sound.rewrite foreign fun s' other => by rw [lookup_erase_if, if_neg other]

theorem Sound.evict (sound : Sound e) (tracked : e.envelopeBound.sessions.lookup s = some b) :
    Sound (e.evict s) :=
  sound.dropBinding (sound.trackedForeign s b tracked)

theorem Sound.bindTracked (sound : Sound e) (unbound : e.bindings.lookup s = none) :
    Sound (e.bindTracked s key (e.handoffPartition (some key) s)) := by
  refine sound.tables _ _ e.ownSessions ?_ ?_ (sound.exact.track _ _ _) fun _ held => held
  · intro s' scope owned
    have bound := sound.ownBound s' scope owned
    have other : s' ≠ s := by
      rintro rfl
      rw [unbound] at bound
      cases bound
    rw [lookup_insert_if, if_neg other]
    exact bound
  · intro s' b found
    rw [EnvelopeBindings.track_sessions] at found
    rw [lookup_insert_if]
    by_cases same : s' = s
    · subst same
      rw [if_pos rfl] at found
      cases found
      refine ⟨if_pos rfl, ?_, rfl⟩
      cases owned : e.ownSessions.lookup s' with
      | none => rfl
      | some scope =>
        have bound := sound.ownBound s' scope owned
        rw [unbound] at bound
        cases bound
    · rw [if_neg same] at found
      obtain ⟨bound, notOwn, pinned⟩ := sound.tracked found
      exact ⟨(if_neg same).trans bound, notOwn, pinned⟩

end Tables

section Operations

/-- An operation that touches only the trust tables and the settings. -/
def SettingsOnly (e e' : AuthorizationEngine) : Prop :=
  ∃ trusted paired grants relay agreements, e' = { e with trusted, paired, grants, relay, agreements }

theorem Sound.settingsOnly (sound : Sound e) (only : SettingsOnly e e') : Sound e' := by
  obtain ⟨trusted, paired, grants, relay, agreements, rfl⟩ := only
  exact sound.settings trusted paired grants relay agreements

theorem SettingsOnly.refl (e : AuthorizationEngine) : SettingsOnly e e := ⟨_, _, _, _, _, rfl⟩

theorem addGrant_settings (grant : Grant) (store : PairingSave) :
    SettingsOnly e (e.addGrant grant store).2 := by
  unfold addGrant
  split
  · exact .refl e
  · dsimp only
    split <;> exact ⟨_, _, _, _, _, rfl⟩

theorem removeGrant_settings (grant : Grant) (store : PairingSave) :
    SettingsOnly e (e.removeGrant grant store).2 := by
  fun_cases removeGrant <;> exact ⟨_, _, _, _, _, rfl⟩

theorem setRelay_settings (session : SessionId) (enabled : Bool) (store : PairingSave) :
    SettingsOnly e (e.setRelay session enabled store).2 := by
  unfold setRelay
  split
  · dsimp only
    split
    · exact ⟨_, _, _, _, _, rfl⟩
    · split <;> exact ⟨_, _, _, _, _, rfl⟩
  · dsimp only
    split <;> exact ⟨_, _, _, _, _, rfl⟩

section Pairing

variable [Libraries]

theorem pair_settings (peer : PairedPeer) (store : PairingSave) (now : Timestamp) :
    SettingsOnly e (e.pair peer store now).2 := by
  unfold pair
  dsimp only
  split
  · exact .refl e
  · split <;> exact ⟨_, _, _, _, _, rfl⟩

theorem admitOwnStatement_settings (statement : AgreementStatement) (now : Timestamp) :
    SettingsOnly e (e.admitOwnStatement statement now).2 := by
  fun_cases admitOwnStatement
  · exact .refl e
  · exact .refl e
  · exact .refl e
  · exact ⟨_, _, _, _, _, rfl⟩
  · exact ⟨_, _, _, _, _, rfl⟩
  · exact ⟨_, _, _, _, _, rfl⟩

theorem admitStatement_settings (statement : AgreementStatement) (store : PairingSave)
    (now again : Timestamp) : SettingsOnly e (e.admitStatement statement store now again).2 := by
  fun_cases admitStatement
  · exact .refl e
  · exact admitOwnStatement_settings statement again
  · exact .refl e
  · exact ⟨_, _, _, _, _, rfl⟩
  · exact ⟨_, _, _, _, _, rfl⟩

theorem Sound.registerSession (sound : Sound e) (record : RegistrationRecord)
    (own : DeviceIdentity) : Sound (e.registerSession record own).2 := by
  unfold AuthorizationEngine.registerSession
  split
  · exact sound
  · refine sound.tables _ _ _ ?_ ?_ (sound.exact.untrack _) ?_
    · intro s scope owned
      rw [lookup_insert_if] at owned ⊢
      split
      · rfl
      · next other =>
        rw [if_neg other] at owned
        exact sound.ownBound s scope owned
    · intro s b found
      obtain ⟨other, was⟩ := untracked_of_found found
      rw [lookup_insert_if, lookup_insert_if, if_neg other, if_neg other]
      exact sound.tracked was
    · intro s owned
      rw [lookup_insert_if]
      split
      · rfl
      · exact owned

end Pairing

theorem Sound.endSession (sound : Sound e) (session : SessionId) : Sound (e.endSession session).2 := by
  unfold AuthorizationEngine.endSession
  cases owned : e.ownSessions.lookup session with
  | none => exact sound
  | some scope =>
    obtain ⟨received, receivedContents⟩ := sound.handedIndexed.retain fun r => r.toSession ≠ session
    obtain ⟨dropped, contents⟩ := received.indexed.dropPartitions
      fun p => p.key == some e.ownKey && p.sender == some session
    have trims := received.trans dropped
    obtain ⟨sentTrims, -⟩ := sound.sentIndexed.dropPartitions (· == session)
    have linked := (sound.toLinked.trimSent sentTrims).trimHanded trims
    refine sound.trimmed { e with
      ownSessions := e.ownSessions.erase session
      bindings := e.bindings.erase session
      sent := e.sent.dropPartitions (· == session)
      handedOff := (e.handedOff.retain fun r => r.toSession ≠ session).dropPartitions
        fun p => p.key == some e.ownKey && p.sender == some session } ⟨?_, ?_, ?_, linked.exact,
      linked.sentIndexed, linked.sentBounded, linked.sentHome, linked.handedIndexed,
      linked.handedBounded, linked.handedHome, ?_, linked.counting⟩ rfl rfl trims
    · intro s scope' found
      rw [lookup_erase_if] at found ⊢
      split at found
      · cases found
      · next other => rw [if_neg other]; exact sound.ownBound s scope' found
    · intro s b found
      have other : s ≠ session := by
        rintro rfl
        rw [sound.trackedForeign s b found] at owned
        cases owned
      rw [lookup_erase_if, if_neg other]
      exact sound.trackedBound s b found
    · intro s b found
      rw [lookup_erase_if]
      split
      · rfl
      · exact sound.trackedForeign s b found
    · intro k r mem isOwn
      -- a record that the ended session sent was in its own partition, which is gone
      have isHome := linked.handedHome k r mem
      have other : r.fromSession ≠ session := by
        intro same
        rw [contents k] at mem
        have matched : (k.key == some e.ownKey && k.sender == some session) = true := by
          rw [← isHome]
          simp [home, handoffPartition, isOwn, same]
        rw [if_pos matched] at mem
        cases mem
      rw [lookup_erase_if, if_neg other]
      exact linked.ownSenders k r mem isOwn

theorem Sound.bind (sound : Sound e) (session : SessionId) (key : KeyId) : Sound (e.bind session key).2 := by
  unfold AuthorizationEngine.bind
  cases bound : e.bindings.lookup session with
  | none =>
    refine sound.tables _ e.envelopeBound e.ownSessions ?_ ?_ sound.exact fun _ h => h
    · intro s scope owned
      have held := sound.ownBound s scope owned
      have other : s ≠ session := by
        rintro rfl
        rw [bound] at held
        cases held
      rw [lookup_insert_if, if_neg other]
      exact held
    · intro s b found
      obtain ⟨held, notOwn, pinned⟩ := sound.tracked found
      have other : s ≠ session := by
        rintro rfl
        rw [bound] at held
        cases held
      rw [lookup_insert_if, if_neg other]
      exact ⟨held, notOwn, pinned⟩
  | some entry =>
    cases entry with
    | conflict keys => exact sound
    | key k =>
      dsimp only
      split
      · refine sound.tables e.bindings _ e.ownSessions sound.ownBound ?_
          (sound.exact.untrack session) fun _ h => h
        intro s b found
        exact sound.tracked (untracked_of_found found).2
      · exact sound

theorem Sound.markConflict (sound : Sound e) (session : SessionId) (claimant : KeyId) :
    Sound (e.markConflict session claimant).2 := by
  unfold AuthorizationEngine.markConflict
  split
  · exact sound
  · next foreign =>
    cases e.bindings.lookup session with
    | none => exact sound
    | some entry =>
      refine sound.rewrite (by simpa using foreign) fun s' other => ?_
      rw [lookup_insert_if, if_neg other]

theorem Sound.forgetBinding (sound : Sound e) (session : SessionId) : Sound (e.forgetBinding session).2 := by
  unfold AuthorizationEngine.forgetBinding
  split
  · exact sound
  · next foreign =>
    split
    · exact sound.dropBinding (by simpa using foreign)
    · exact sound
    · exact sound

theorem Sound.withEnvelopeBindingLimits (sound : Sound e) (capacity perKey : Nat) :
    Sound (e.withEnvelopeBindingLimits capacity perKey) := by
  refine sound.tables e.bindings _ e.ownSessions sound.ownBound ?_
    (EnvelopeBindings.new_exact capacity perKey) fun _ h => h
  intro s b found
  simp [EnvelopeBindings.new] at found

theorem evict_unbound (unbound : e.bindings.lookup s = none) : (e.evict victim).bindings.lookup s = none := by
  change AList.lookup s (e.bindings.erase victim) = none
  rw [lookup_erase_if]
  split
  · rfl
  · exact unbound

theorem Sound.placed (sound : Sound e) (unbound : e.bindings.lookup session = none)
    (placed : Placed e session key (e.handoffPartition (some key) session) e') : Sound e' := by
  cases placed with
  | added => exact sound.bindTracked unbound
  | evicting victim found =>
    obtain ⟨b, tracked, -⟩ := sound.exact.victim found
    exact (sound.evict tracked).bindTracked (evict_unbound unbound)

theorem Sound.recordSent (sound : Sound e) (record : SentRecord) (now : Timestamp) :
    Sound (e.recordSent record now) := by
  obtain ⟨pushed, -⟩ := sound.sentIndexed.push sound.sentBounded record.fromSession record now
  refine ⟨⟨sound.ownBound, sound.trackedBound, sound.trackedForeign, sound.exact, pushed.indexed,
    pushed.bounded, ?_, sound.handedIndexed, sound.handedBounded, sound.handedHome, sound.ownSenders,
    sound.counting⟩, sound.drained, sound.pinned⟩
  intro k r mem
  rcases pushed.mem k r mem with mem | ⟨rfl, rfl⟩
  · exact sound.sentHome k r mem
  · rfl

/-- The book with a record added to its partition, and the pins drawn after it. -/
theorem Sound.keepHandoff (sound : Sound e) (record : HandOffRecord) (now : Timestamp)
    (ownSender : record.keyId = some e.ownKey → (e.ownSessions.lookup record.fromSession).isSome) :
    Sound { e with handedOff := (e.handedOff.push (e.home record) record now).2 }.syncPins := by
  obtain ⟨pushed, -⟩ := sound.handedIndexed.push sound.handedBounded (e.home record) record now
  refine Linked.syncPins ⟨sound.ownBound, sound.trackedBound, sound.trackedForeign, sound.exact,
    sound.sentIndexed, sound.sentBounded, sound.sentHome, pushed.indexed, pushed.bounded, ?_, ?_,
    pushed.logs.enabled.trans sound.counting⟩ sound.drained (pushed.logs.mono ?_) sound.pinned
  · intro k r mem
    rcases pushed.mem k r mem with mem | ⟨rfl, rfl⟩
    · exact sound.handedHome k r mem
    · rfl
  · intro k r mem isOwn
    rcases pushed.mem k r mem with mem | ⟨rfl, rfl⟩
    · exact sound.ownSenders k r mem isOwn
    · exact ownSender isOwn
  · rintro k s (sends | ⟨rfl, rfl⟩)
    · exact sound.homed k s sends
    · rfl

theorem Sound.recordHandoff (sound : Sound e) (record : HandOffRecord) (outcome : DeliveryState)
    (now : Timestamp) : Sound (e.recordHandoff record outcome now) := by
  have recorded := e.recordHandoff_recorded record outcome now
  generalize e.recordHandoff record outcome now = e' at recorded ⊢
  cases recorded with
  | ignored => exact sound
  | kept ownSender taken none => exact sound.keepHandoff record now ownSender
  | rebound ownSender taken key verified unbound found =>
    have kept := sound.keepHandoff record now ownSender
    rw [home, verified] at kept
    exact kept.placed unbound (rebind_placed _ _ _ _)

theorem Sound.forgetHandoff (sound : Sound e) (record : HandOffRecord) : Sound (e.forgetHandoff record).2 := by
  obtain ⟨trims, -⟩ := sound.handedIndexed.removeFirst (e.home record) fun r =>
    r.id == record.id && r.fromSession == record.fromSession && r.toSession == record.toSession
  exact sound.trimmed _ (sound.toLinked.trimHanded trims) rfl rfl trims

theorem Sound.prune (sound : Sound e) (now : Timestamp) : Sound (e.prune now) := by
  obtain ⟨sentTrims, -⟩ := sound.sentIndexed.retain fun r => withinReplyPeriod r.createdAt now
  obtain ⟨trims, -⟩ := sound.handedIndexed.retain fun r => withinReplyPeriod r.createdAt now
  exact sound.trimmed _ ((sound.toLinked.trimSent sentTrims).trimHanded trims) rfl rfl trims

/-- The engine without what `removeKey` takes from the tables of keys and the grants. -/
abbrev withoutKey (e : AuthorizationEngine) (key : KeyId) : AuthorizationEngine := { e with
  trusted := e.trusted.erase key
  paired := e.paired.erase key
  agreements := e.agreements.erase key
  grants := e.grants.filter (!·.namesKey key) }

theorem Sound.dropBindings (sessions : List SessionId) (sound : Sound e)
    (foreign : ∀ s ∈ sessions, e.ownSessions.lookup s = none) :
    Sound (sessions.foldl AuthorizationEngine.dropBinding e) ∧
      (sessions.foldl AuthorizationEngine.dropBinding e).handedOff = e.handedOff ∧
      (sessions.foldl AuthorizationEngine.dropBinding e).ownKey = e.ownKey := by
  induction sessions generalizing e with
  | nil => exact ⟨sound, rfl, rfl⟩
  | cons s rest ih =>
    have dropped := sound.dropBinding (foreign s mem_cons_self)
    exact ih dropped fun s' mem => foreign s' (mem_cons_of_mem _ mem)

theorem Sound.named_foreign (sound : Sound e) (other : key ≠ e.ownKey)
    (named : (e.bindings.lookup s).any (·.names key)) : e.ownSessions.lookup s = none := by
  cases owned : e.ownSessions.lookup s with
  | none => rfl
  | some scope =>
    rw [sound.ownBound s scope owned] at named
    simp only [Option.any_some, Binding.names, beq_iff_eq] at named
    exact absurd named.symm other

theorem Sound.removeKey (sound : Sound e) (key : KeyId) (store : PairingSave) :
    Sound (e.removeKey key store).2 := by
  unfold AuthorizationEngine.removeKey
  split
  · exact sound
  · next other =>
    cases e.trusted.lookup key with
    | none => exact sound
    | some entry =>
      have cleared := sound.settings (e.trusted.erase key) (e.paired.erase key)
        (e.grants.filter (!·.namesKey key)) e.relay (e.agreements.erase key)
      obtain ⟨dropped, sameBook, -⟩ := Sound.dropBindings
        ((sortedKeys e.bindings.keys).filter fun s => (e.bindings.lookup s).any (·.names key)) cleared
        (fun s mem => sound.named_foreign other (mem_filter.mp mem).2)
      obtain ⟨trims, -⟩ := dropped.handedIndexed.dropPartitions fun p => p.key == some key
      have synced := dropped.trimmed _ (dropped.toLinked.trimHanded trims) rfl rfl trims
      dsimp only
      split
      · exact synced
      · exact synced

theorem Sound.authorizeDelivery (sound : Sound e) (msg : ChannelMessage) (now : Timestamp) :
    Sound (e.authorizeDelivery msg now).2 := by
  rcases e.authorizeDelivery_state msg now with same | ⟨key, unbound, bound⟩
  · rw [same]
    exact sound
  · rw [bound]
    rcases e.bindFromEnvelope_placed msg.envelope.fromSession key with same | placed
    · rw [same]
      exact sound
    · exact sound.placed unbound placed

theorem new_sound (own : DeviceIdentity) : Sound (new own) := by
  have capped : ∀ {K R : Type} [DecidableEq K] [Dated R] (enabled : Bool),
      Bounded (RecordBook.new enabled : RecordBook K R) := fun enabled =>
    ⟨fun k => Nat.zero_le _, Nat.zero_le _, Nat.zero_le _⟩
  refine ⟨⟨?_, ?_, ?_, EnvelopeBindings.new_exact _ _, new_indexed _ _, capped _, ?_,
    new_indexed _ _, capped _, ?_, ?_, rfl⟩, rfl, ?_⟩
  · intro s scope owned
    simp [new] at owned
  · intro s b tracked
    simp [new, EnvelopeBindings.new] at tracked
  · intro s b tracked
    simp [new, EnvelopeBindings.new] at tracked
  · intro k r mem
    cases mem
  · intro k r mem
    cases mem
  · intro k r mem
    cases mem
  · intro s b tracked
    simp [new, EnvelopeBindings.new] at tracked

end Operations

section Restore

theorem SettingsOnly.trans (first : SettingsOnly a b) (second : SettingsOnly b c) : SettingsOnly a c := by
  obtain ⟨_, _, _, _, _, rfl⟩ := first
  obtain ⟨_, _, _, _, _, rfl⟩ := second
  exact ⟨_, _, _, _, _, rfl⟩

theorem restoreGrant_settings (e : AuthorizationEngine) (grant : Grant) :
    SettingsOnly e (restoreGrant e grant) := by
  unfold restoreGrant
  split
  · exact .refl e
  · exact ⟨_, _, _, _, _, rfl⟩

theorem restoreGrants_settings (grants : List Grant) (e : AuthorizationEngine) :
    SettingsOnly e (grants.foldl restoreGrant e) := by
  induction grants generalizing e with
  | nil => exact .refl e
  | cons grant rest ih => exact (restoreGrant_settings e grant).trans (ih _)

theorem restoreStatement_settings (restored : restoreStatement e held = .ok e') : SettingsOnly e e' := by
  unfold restoreStatement at restored
  dsimp only at restored
  split at restored
  · cases restored
  · split at restored
    · cases restored
    · cases restored
      exact ⟨_, _, _, _, _, rfl⟩

variable [Libraries]

theorem restorePaired_settings (restored : restorePaired e record = .ok e') : SettingsOnly e e' := by
  revert restored
  fun_cases restorePaired <;> rintro ⟨⟩
  exact ⟨_, _, _, _, _, rfl⟩

theorem restore_settings (restored : restore own loaded = .ok e) : SettingsOnly (new own) e := by
  obtain ⟨snapshot, -, restored⟩ := Results.bind_eq_ok.mp restored
  obtain ⟨middle, paired, restored⟩ := Results.bind_eq_ok.mp restored
  have first := Results.foldlM_keeps (R := SettingsOnly) .refl .trans
    (fun _ _ _ => restorePaired_settings) _ paired
  have last := Results.foldlM_keeps (R := SettingsOnly) .refl .trans
    (fun _ _ _ => restoreStatement_settings) _ restored
  have grants := restoreGrants_settings snapshot.grants middle
  exact ((first.trans grants).trans ⟨_, _, _, _, _, rfl⟩).trans last

theorem Started.sound (started : Started e) : Sound e := by
  obtain ⟨own, rfl | ⟨loaded, restored⟩⟩ := started
  · exact new_sound own
  · exact (new_sound own).settingsOnly (restore_settings restored)

end Restore

section Runs

variable [Libraries]

/-- Every operation keeps the invariant. -/
theorem after_settings (e : AuthorizationEngine) (op : Op) (sets : op.onlySets = true) :
    SettingsOnly e (e.after op) := by
  cases op with
  | pair peer store now => exact pair_settings peer store now
  | admitStatement statement store now again => exact admitStatement_settings statement store now again
  | admitOwnStatement statement now => exact admitOwnStatement_settings statement now
  | addGrant grant store => exact addGrant_settings grant store
  | removeGrant grant store => exact removeGrant_settings grant store
  | setRelay session enabled store => exact setRelay_settings session enabled store
  | _ => cases sets

theorem Sound.after (sound : Sound e) (op : Op) : Sound (e.after op) := by
  cases op with
  | pair | admitStatement | admitOwnStatement | addGrant | removeGrant | setRelay =>
    exact sound.settingsOnly (after_settings e _ rfl)
  | removeKey key store => exact sound.removeKey key store
  | registerSession record own => exact sound.registerSession record own
  | endSession session => exact sound.endSession session
  | bind session key => exact sound.bind session key
  | markConflict session claimant => exact sound.markConflict session claimant
  | forgetBinding session => exact sound.forgetBinding session
  | withEnvelopeBindingLimits capacity perKey => exact sound.withEnvelopeBindingLimits capacity perKey
  | recordSent record now => exact sound.recordSent record now
  | recordHandoff record outcome now => exact sound.recordHandoff record outcome now
  | forgetHandoff record => exact sound.forgetHandoff record
  | prune now => exact sound.prune now
  | decide request now => exact sound
  | authorizeDelivery msg now => exact sound.authorizeDelivery msg now

/-- The invariant holds in every engine that a sequence of operations leads to. -/
theorem Reachable.sound (reachable : Reachable e) : Sound e :=
  reachable.invariant (fun _ started => started.sound) fun _ op sound => sound.after op

end Runs

end Oac.AuthorizationEngine
