import Oac.Authorization.KeyRemoval
import Oac.Authorization.RecordRuns

/-! A hand-off record taken back after its call: what the engine holds is what it held before,
unless an earlier record of the same sender carries the same message id and target. -/

namespace Oac.AuthorizationEngine

variable {e e' : AuthorizationEngine} {now : Timestamp}

/-- The two envelopes share their id, their sender and their target. -/
def sameMessage (record r : HandOffRecord) : Bool :=
  r.id == record.id && r.fromSession == record.fromSession && r.toSession == record.toSession

/-- Everything but the records that were expired at `now`, and the pins, is as it was. -/
structure Undone (now : Timestamp) (e e' : AuthorizationEngine) : Prop where
  live : ∀ p, (e'.handedOff.partition p).filter (RecordBook.live now) =
    (e.handedOff.partition p).filter (RecordBook.live now)
  tracked : ∀ s, (e'.envelopeBound.sessions.lookup s).map EnvelopeBinding.key =
      (e.envelopeBound.sessions.lookup s).map EnvelopeBinding.key ∧
    (e'.envelopeBound.sessions.lookup s).map EnvelopeBinding.seq =
      (e.envelopeBound.sessions.lookup s).map EnvelopeBinding.seq
  rest : ∃ handedOff envelopeBound, e' = { e with handedOff := handedOff, envelopeBound := envelopeBound }

theorem syncPins_entries (exact : e.envelopeBound.Exact) (s : SessionId) :
    (e.syncPins.envelopeBound.sessions.lookup s).map EnvelopeBinding.key =
        (e.envelopeBound.sessions.lookup s).map EnvelopeBinding.key ∧
      (e.syncPins.envelopeBound.sessions.lookup s).map EnvelopeBinding.seq =
        (e.envelopeBound.sessions.lookup s).map EnvelopeBinding.seq := by
  obtain ⟨-, looked⟩ := noteChanges e.handedOff.senders.changes exact
  change (AList.lookup s (e.handedOff.senders.changes.foldl noteChange e.envelopeBound).sessions).map _ = _ ∧
    (AList.lookup s (e.handedOff.senders.changes.foldl noteChange e.envelopeBound).sessions).map _ = _
  rw [looked, Option.map_map, Option.map_map]
  exact ⟨rfl, rfl⟩

/-- The hand-off record is taken back, when no other record of its partition is of the same
message. -/
theorem Sound.handoff_undone (sound : Sound e) (verified : record.keyId = some key)
    (bound : e.bindings.lookup record.fromSession = some (.key key))
    (below : e.handedOff.BelowCaps (e.home record))
    (others : ∀ r ∈ e.handedOff.partition (e.home record), sameMessage record r = false) :
    Undone now e ((e.recordHandoff record .handedToHarness now).forgetHandoff record).2 := by
  by_cases ended : record.keyId = some e.ownKey ∧ (e.ownSessions.lookup record.fromSession).isNone
  · -- the sender was an own session that has ended: nothing was kept and nothing is found
    have kept : e.recordHandoff record .handedToHarness now = e := by
      unfold AuthorizationEngine.recordHandoff
      rw [if_neg (by simp), if_pos ended]
    rw [kept]
    obtain ⟨-, contents⟩ := sound.handedIndexed.removeFirst (e.home record) (sameMessage record)
    refine ⟨fun p => ?_, syncPins_entries sound.exact, _, _, rfl⟩
    change ((e.handedOff.removeFirst (e.home record) (sameMessage record)).2.partition p).filter _ = _
    rw [contents]
    split
    · next same => rw [same, List.eraseP_of_forall_not fun r mem => by simp [others r mem]]
    · rfl
  · have ownSender : record.keyId = some e.ownKey → (e.ownSessions.lookup record.fromSession).isSome := by
      intro isOwn
      cases owned : e.ownSessions.lookup record.fromSession with
      | some scope => rfl
      | none => exact absurd ⟨isOwn, by simp [owned]⟩ ended
    have known : e.rebindKey record = none := by
      unfold rebindKey
      rw [verified, bound]
    have kept : e.recordHandoff record .handedToHarness now =
        { e with handedOff := (e.handedOff.push (e.home record) record now).2 }.syncPins := by
      unfold AuthorizationEngine.recordHandoff
      rw [if_neg ended, known]
      rfl
    have keptSound := sound.keepHandoff record now ownSender
    rw [← kept] at keptSound
    have matched : sameMessage record record = true := by simp [sameMessage]
    have sameHome : (e.recordHandoff record .handedToHarness now).home record = e.home record := by
      rw [kept]
      rfl
    refine ⟨fun p => ?_, fun s => ?_, ?_⟩
    · change (((e.recordHandoff record .handedToHarness now).handedOff.removeFirst
        ((e.recordHandoff record .handedToHarness now).home record)
          (sameMessage record)).2.partition p).filter _ = _
      rw [sameHome]
      refine sound.handedIndexed.push_removeFirst below matched others keptSound.handedIndexed (fun k => ?_) p
      rw [kept]
      rfl
    · have first := syncPins_entries
        (e := { e with handedOff := (e.handedOff.push (e.home record) record now).2 }) sound.exact s
      rw [← kept] at first
      obtain ⟨keys, places⟩ := syncPins_entries (e := { e.recordHandoff record .handedToHarness now with
        handedOff := ((e.recordHandoff record .handedToHarness now).handedOff.removeFirst
          ((e.recordHandoff record .handedToHarness now).home record)
            (sameMessage record)).2 }) keptSound.exact s
      exact ⟨keys.trans first.1, places.trans first.2⟩
    · rw [kept]
      exact ⟨_, _, rfl⟩

/-- A tracked sender of a record that counts is pinned before and after. -/
theorem Undone.pins (undone : Undone now e e') (sound : Sound e) (sound' : Sound e')
    (tracked : e.envelopeBound.sessions.lookup s = some b)
    (mem : r ∈ e.handedOff.partition (e.handoffPartition (some b.key) s)) (sent : r.fromSession = s)
    (counts : withinReplyPeriod r.createdAt now = true) : e'.envelopeBound.sessions.lookup s = some b := by
  obtain ⟨keys, places⟩ := undone.tracked s
  rw [tracked] at keys places
  obtain ⟨b', found, sameKey⟩ := Option.map_eq_some_iff.mp keys
  rw [found] at places
  have samePlace : b'.seq = b.seq := Option.some.inj places
  have samePartition : e'.handoffPartition (some b'.key) s = e.handoffPartition (some b.key) s := by
    obtain ⟨_, _, rfl⟩ := undone.rest
    rw [sameKey]
    rfl
  have still : r ∈ e'.handedOff.partition (e'.handoffPartition (some b'.key) s) := by
    have both : r ∈ (e.handedOff.partition (e.handoffPartition (some b.key) s)).filter (RecordBook.live now) :=
      List.mem_filter.mpr ⟨mem, counts⟩
    rw [← undone.live, ← samePartition] at both
    exact List.mem_of_mem_filter both
  have pinned : b.pinned = true := by
    rw [sound.pinned s b tracked]
    exact (sound.handedIndexed.holdsSender sound.counting _ s).mpr ⟨r, mem, sent⟩
  have pinned' : b'.pinned = true := by
    rw [sound'.pinned s b' found]
    exact (sound'.handedIndexed.holdsSender sound'.counting _ s).mpr ⟨r, still, sent⟩
  rw [found]
  obtain ⟨_, _, _⟩ := b
  obtain ⟨_, _, _⟩ := b'
  cases sameKey
  cases samePlace
  cases pinned
  cases pinned'
  rfl

theorem find?_of_filter_eq {l l' : List α} (same : l'.filter q = l.filter q)
    (only : ∀ a, p a = true → q a = true) : l'.find? p = l.find? p := by
  have both : (fun a => decide (q a = true ∧ p a = true)) = p := by
    funext a
    cases counts : p a with
    | false => simp
    | true => simp [only a counts]
  rw [← both, ← List.find?_filter, ← List.find?_filter, same]

/-- Every decision from then on is the one that would have been made. -/
theorem Undone.evaluate (undone : Undone now e e') (request : AuthorizationRequest) {later : Timestamp}
    (after : now.unixNanos ≤ later.unixNanos) : e'.evaluate request later = e.evaluate request later := by
  have counted : ∀ createdAt : Timestamp, withinReplyPeriod createdAt later = true →
      withinReplyPeriod createdAt now = true := by
    intro createdAt counts
    simp only [withinReplyPeriod, decide_eq_true_eq] at counts ⊢
    omega
  have handoffs : ∀ s, (e'.handoffsFrom s).filter (RecordBook.live now) =
      (e.handoffsFrom s).filter (RecordBook.live now) := by
    intro s
    obtain ⟨handedOff, envelopeBound, same⟩ := undone.rest
    have live := undone.live
    subst same
    simp only [handoffsFrom]
    cases e.bindings.lookup s with
    | none => exact live _
    | some entry =>
      cases entry with
      | conflict keys => exact live _
      | key k =>
        simp only [List.filter_append, live]
        rfl
  obtain ⟨handedOff, envelopeBound, same⟩ := undone.rest
  cases request with
  | discover requester s =>
    cases requester with
    | session l =>
      have found : (e'.handoffsFrom s).find? (fun h =>
          h.toSession == l && h.fromSession == s && withinReplyPeriod h.createdAt later) =
          (e.handoffsFrom s).find? fun h =>
            h.toSession == l && h.fromSession == s && withinReplyPeriod h.createdAt later := by
        refine find?_of_filter_eq (handoffs s) fun h matched => ?_
        simp only [Bool.and_eq_true] at matched
        exact counted _ matched.2
      simp only [AuthorizationEngine.evaluate, discover, found]
      subst same
      rfl
    | device k =>
      subst same
      rfl
  | acceptPresence k s =>
    have found : (e'.handoffsFrom s).find? (fun h =>
        h.fromSession == s && withinReplyPeriod h.createdAt later) =
        (e.handoffsFrom s).find? fun h => h.fromSession == s && withinReplyPeriod h.createdAt later := by
      refine find?_of_filter_eq (handoffs s) fun h matched => ?_
      simp only [Bool.and_eq_true] at matched
      exact counted _ matched.2
    simp only [AuthorizationEngine.evaluate, related, found]
    subst same
    rfl
  | deliver q =>
    subst same
    rfl
  | releasePresence s k =>
    subst same
    rfl
  | relayPermission s =>
    subst same
    rfl

/-- A hand-off that is recorded and taken back at the same time leaves the records that count, the
pins of their senders and every later decision as they were, when no record of the partition is of
the same message: the search for the record then finds it and no earlier one. -/
theorem failed_handoff_leaves_no_right [Libraries] (e : AuthorizationEngine) (reachable : e.Reachable)
    (record : HandOffRecord) (key : KeyId) (verified : record.keyId = some key)
    (bound : e.bindings.lookup record.fromSession = some (.key key))
    (below : e.handedOff.BelowCaps (e.home record))
    (others : ∀ r ∈ e.handedOff.partition (e.home record), sameMessage record r = false) (now : Timestamp) :
    (∀ p, (((e.recordHandoff record .handedToHarness now).forgetHandoff record).2.handedOff.partition p).filter
        (RecordBook.live now) = (e.handedOff.partition p).filter (RecordBook.live now)) ∧
      (∀ s b r, e.envelopeBound.sessions.lookup s = some b →
        r ∈ e.handedOff.partition (e.handoffPartition (some b.key) s) → r.fromSession = s →
        withinReplyPeriod r.createdAt now = true →
        ((e.recordHandoff record .handedToHarness now).forgetHandoff record).2.envelopeBound.sessions.lookup s =
          some b) ∧ ∀ request (later : Timestamp), now.unixNanos ≤ later.unixNanos →
        ((e.recordHandoff record .handedToHarness now).forgetHandoff record).2.evaluate
          request later = e.evaluate request later := by
  have sound := reachable.sound
  have undone : Undone now e ((e.recordHandoff record .handedToHarness now).forgetHandoff record).2 :=
    sound.handoff_undone verified bound below others
  have sound' := (sound.recordHandoff record .handedToHarness now).forgetHandoff record
  refine ⟨undone.live, ?_, fun request later after => undone.evaluate request after⟩
  intro s b r tracked mem sent counts
  exact undone.pins sound sound' tracked mem sent counts

section Sample

attribute [local instance] sampleLibraries

def sampleHour : Timestamp := ⟨"1970-01-01T01:00:00Z", 3600000000000, by decide +kernel⟩

def sampleNextDay : Timestamp := ⟨"1970-01-02T00:30:00Z", 88200000000000, by decide +kernel⟩

def sampleSecond : HandOffRecord :=
  { sampleHandOff with id := ⟨"m2", by decide +kernel⟩, createdAt := sampleHour }

def sampleResent : HandOffRecord := { sampleHandOff with createdAt := sampleHour }

theorem failed_handoff_leaves_no_right_sample :
    ∃ e, Reachable e ∧ e.bindings.lookup sampleSecond.fromSession = some (.key samplePeerKey) ∧
      (((e.recordHandoff sampleSecond .handedToHarness sampleHour).forgetHandoff sampleSecond).2.handedOff.partition
          ⟨some samplePeerKey, none⟩).filter (RecordBook.live sampleHour) =
        (e.handedOff.partition ⟨some samplePeerKey, none⟩).filter (RecordBook.live sampleHour) := by
  have reachable : Reachable samplePeerEngine :=
    reachable_of_ops sampleOwn samplePeerOps
  obtain ⟨bound, records, partitions, total, others⟩ :
      samplePeerEngine.bindings.lookup sampleSecond.fromSession = some (.key samplePeerKey) ∧
      (samplePeerEngine.handedOff.partition (samplePeerEngine.home sampleSecond)).length <
        maxRecordsPerPartition ∧
      Table.size samplePeerEngine.handedOff.parts < samplePeerEngine.handedOff.maxPartitions ∧
      samplePeerEngine.handedOff.total < maxRecordsTotal ∧
      ∀ r ∈ samplePeerEngine.handedOff.partition (samplePeerEngine.home sampleSecond),
        sameMessage sampleSecond r = false := by decide +kernel
  exact ⟨samplePeerEngine, reachable, bound,
    (@failed_handoff_leaves_no_right _ samplePeerEngine reachable sampleSecond
      samplePeerKey rfl bound ⟨records, partitions, total⟩ others sampleHour).1 _⟩

/-- The search takes the earlier record of the same message and leaves the new one, which grants
discovery for longer than the record that was held. -/
theorem failed_handoff_takes_earlier_record :
    ∃ e, Reachable e ∧ e.bindings.lookup sampleResent.fromSession = some (.key samplePeerKey) ∧
      e.handedOff.partition ⟨some samplePeerKey, none⟩ = [sampleHandOff] ∧
      ((e.recordHandoff sampleResent .handedToHarness sampleHour).forgetHandoff
        sampleResent).2.handedOff.partition ⟨some samplePeerKey, none⟩ = [sampleResent] ∧
      e.evaluate (.discover (.session (sampleSession 1)) (sampleSession 3)) sampleNextDay = .deny ∧
      ((e.recordHandoff sampleResent .handedToHarness sampleHour).forgetHandoff sampleResent).2.evaluate
        (.discover (.session (sampleSession 1)) (sampleSession 3)) sampleNextDay =
          .permit (.handOff sampleResent) :=
  ⟨samplePeerEngine, reachable_of_ops sampleOwn samplePeerOps, by decide +kernel⟩

end Sample

end Oac.AuthorizationEngine
