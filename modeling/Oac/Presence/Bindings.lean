import Oac.Presence.Effects

/-! The binding table and the presence registry of one consumer over whole runs: which bindings a
presence record stands behind, and how many bindings there can be. -/

namespace Oac

open Transition AuthorizationEngine PresenceRecord

namespace Consumer

/-- A call made on the consumer's engine or on its registry. -/
inductive Call where
  | accept (record : AuthenticatedPresenceRecord) (carrier : CarrierHandle)
      (clock again : Timestamp) (now : Instant)
  | engine (op : Op)
  | registerOwn (descriptor : SessionDescriptor)
  | setWithheld (session : SessionId) (withheld : Bool)
  | deregisterOwn (session : SessionId)
  | carrierLoss (carrier : CarrierHandle)

/-- A consumer, and how many hand-offs were recorded after the binding of their sender was gone. -/
structure Run where
  consumer : Consumer
  rebound : Nat

def onRegistry (run : Run) (registry : PresenceRegistry) : Run :=
  { run with consumer := { run.consumer with registry := registry } }

section Runs

variable [Libraries]

/-- The engine's bindings and limits are changed from outside by `isOutward` calls only. -/
def step : Call → Run → Option Run
  | .accept record carrier clock again now, run =>
    some { run with consumer :=
      (run.consumer.acceptAuthenticatedRecord record carrier clock again now).2 }
  | .engine op, run =>
    if op.isOutward then some ⟨{ run.consumer with engine := run.consumer.engine.after op },
      run.rebound + (run.consumer.engine.rebinds op).toNat⟩
    else none
  | .registerOwn descriptor, run =>
    some (onRegistry run (run.consumer.registry.registerOwn descriptor))
  | .setWithheld session withheld, run =>
    some (onRegistry run (run.consumer.registry.setWithheld session withheld).2)
  | .deregisterOwn session, run =>
    some (onRegistry run (run.consumer.registry.deregisterOwn session).2)
  | .carrierLoss carrier, run => some (onRegistry run (run.consumer.registry.carrierLoss carrier))

/-- A new or restored engine, with its own limits or given ones, and an empty registry. -/
def Starts (run : Run) : Prop :=
  (∃ e, Started e ∧ (run.consumer.engine = e ∨
    ∃ capacity perKey, run.consumer.engine = e.withEnvelopeBindingLimits capacity perKey)) ∧
  (∃ capacity quota, run.consumer.registry = .withLimits capacity quota) ∧ run.rebound = 0

/-- A call that forgets sessions finds room for all of them on the list of forgotten ones. -/
def listsForgotten : Call → Run → Prop
  | .accept record _ _ _ _, run =>
    record.about.all (fun s => (run.consumer.registry.held.lookup s).isSome) = true ∨
      run.consumer.registry.ListsAll
  | .deregisterOwn _, run => run.consumer.registry.EndsListed
  | _, _ => True

instance : ∀ call run, Decidable (listsForgotten call run)
  | .accept _ _ _ _ _, _ => inferInstanceAs (Decidable (_ ∨ _))
  | .deregisterOwn _, _ => inferInstanceAs (Decidable (PresenceRegistry.EndsListed _))
  | .engine _, _ | .registerOwn _, _ | .setWithheld _ _, _ | .carrierLoss _, _ => .isTrue trivial

/-- The record is the claim of a related key on a session bound to another. -/
def contests (c : Consumer) (record : AuthenticatedPresenceRecord) (now : Timestamp) : Bool :=
  match c.engine.presenceSigner record.wire, record.about with
  | .ok key, some s => match c.engine.bindings.lookup s with
      | some (.key bound) => bound != key && c.engine.acceptsPresence key s now
      | _ => false
  | _, _ => false

/-- Every call finds room on the list, and no record contests a binding. -/
def uncontested (call : Call) (run : Run) : Prop :=
  listsForgotten call run ∧ match call with
    | .accept record _ _ again _ => run.consumer.contests record again = false
    | _ => True

/-- What a run keeps. -/
structure Accounted (run : Run) : Prop where
  reachable : run.consumer.engine.Reachable
  backed : run.consumer.Backed
  bounded : run.consumer.registry.held.size ≤ run.consumer.registry.capacity
  counted : run.consumer.engine.byPresence.length ≤ run.consumer.registry.capacity
  tracked : run.consumer.engine.envelopeBound.sessions.size ≤
    run.consumer.engine.envelopeBound.capacity + run.rebound

theorem Starts.reachable (starts : Starts run) : run.consumer.engine.Reachable := by
  obtain ⟨⟨e, started, same | ⟨capacity, perKey, same⟩⟩, -⟩ := starts
  · rw [same]
    exact ⟨e, started, .refl⟩
  · have reachable : e.Reachable := ⟨e, started, .refl⟩
    rw [same]
    exact reachable.after (.withEnvelopeBindingLimits capacity perKey)

theorem started_empty {e : AuthorizationEngine} (started : e.Started) :
    e.bindings = ∅ ∧ e.envelopeBound.sessions = ∅ := by
  obtain ⟨own, rfl | ⟨loaded, restored⟩⟩ := started
  · exact ⟨rfl, rfl⟩
  · obtain ⟨_, _, _, _, _, same⟩ := restore_settings restored
    rw [same]
    exact ⟨rfl, rfl⟩

theorem Starts.empty {run : Run} (starts : Starts run) :
    run.consumer.engine.bindings = ∅ ∧ run.consumer.engine.envelopeBound.sessions = ∅ := by
  obtain ⟨⟨e, started, same | ⟨capacity, perKey, same⟩⟩, -⟩ := starts
  · rw [same]
    exact started_empty started
  · rw [same]
    exact ⟨(started_empty started).1, rfl⟩

theorem Starts.accounted (starts : Starts run) : Accounted run := by
  have empty := starts.empty
  have unbound : ∀ s, run.consumer.engine.boundByPresence s = false := by
    intro s
    rw [Bool.eq_false_iff, ne_eq, boundByPresence_iff, empty.1]
    rintro ⟨⟨key, found⟩, -⟩
    simp at found
  refine ⟨starts.reachable, fun s bound => ?_, ?_, ?_, ?_⟩
  · rw [unbound] at bound
    cases bound
  · obtain ⟨-, ⟨capacity, quota, same⟩, -⟩ := starts
    rw [same]
    exact Nat.zero_le _
  · have none_ : ∀ s, run.consumer.engine.boundByPresence s = true → s ∈ ([] : List SessionId) := by
      intro s bound
      rw [unbound] at bound
      cases bound
    exact Nat.le_trans (byPresence_length none_) (Nat.zero_le _)
  · rw [empty.2]
    exact Nat.zero_le _

section Steps

variable {run : Run}

theorem Accounted.settled (accounted : Accounted run) (reachable : e.Reachable)
    (settles : Settles n run.consumer.engine e) :
    Accounted ⟨{ run.consumer with engine := e }, run.rebound + n⟩ := by
  have tracked := settles.tracked
  have before := accounted.tracked
  refine ⟨reachable, fun s bound => accounted.backed s (settles.presence s bound),
    accounted.bounded, ?_, ?_⟩
  · apply Nat.le_trans (byPresence_length fun s bound => ?_) accounted.counted
    exact mem_byPresence.mpr (settles.presence s bound)
  · change e.envelopeBound.sessions.size ≤ e.envelopeBound.capacity + (run.rebound + n)
    rw [settles.capacity]
    omega

theorem Accounted.kept {registry : PresenceRegistry} (accounted : Accounted run)
    (keeps : PresenceRegistry.Keeps run.consumer.registry registry)
    (capacity : registry.capacity = run.consumer.registry.capacity)
    (size : registry.held.size ≤ run.consumer.registry.held.size) :
    Accounted (onRegistry run registry) := by
  refine ⟨accounted.reachable, fun s bound => ?_, ?_, ?_, accounted.tracked⟩
  · rcases accounted.backed s bound with known | mem
    · exact keeps.held s known
    · exact .inr (keeps.listed s mem)
  · change registry.held.size ≤ registry.capacity
    rw [capacity]
    exact Nat.le_trans size accounted.bounded
  · change run.consumer.engine.byPresence.length ≤ registry.capacity
    rw [capacity]
    exact accounted.counted

theorem Accounted.offer (accounted : Accounted run)
    (listed : (run.consumer.registry.held.lookup record.sessionId).isSome ∨
      run.consumer.registry.ListsAll) :
    Accounted { run with consumer := (run.consumer.offer key record carrier now).2 } := by
  have bounds := @offer_registry_bounds run.consumer key record carrier now
  have tracked := @offer_tracked run.consumer key record carrier now
  have before := accounted.tracked
  have held : ∀ s, (run.consumer.offer key record carrier now).2.engine.boundByPresence s = true →
      ((run.consumer.offer key record carrier now).2.registry.held.lookup s).isSome :=
    fun s bound => accounted.backed.offer_held listed bound
  refine ⟨?_, fun s bound => .inl (held s bound), ?_, ?_, ?_⟩
  · exact accounted.reachable.offer
  · rw [bounds.1]
    exact bounds.2 accounted.bounded
  · rw [bounds.1]
    apply Nat.le_trans (byPresence_length fun s bound => AList.lookup_isSome.mp (held s bound))
    rw [← Table.size_eq_keys_length]
    exact bounds.2 accounted.bounded
  · rw [tracked.1]
    exact Nat.le_trans tracked.2 (Nat.max_le.mpr ⟨before, Nat.le_add_right _ _⟩)

theorem Accounted.step (accounted : Accounted run) (listed : listsForgotten call run)
    (stepped : step call run = some run') : Accounted run' := by
  cases call with
  | accept record carrier clock again now =>
    cases stepped
    have took := run.consumer.accept_took record carrier clock again now
    generalize run.consumer.acceptAuthenticatedRecord record carrier clock again now = taken at took
    cases took with
    | nothing why => exact accounted
    | refused key bound inner s =>
      exact accounted.settled (accounted.reachable.refuseClaim key s again)
        (refuseClaim_settles key s again)
    | offered key inner parsed attested read =>
      apply accounted.offer
      have about := attested.about_eq.trans (fromJson_eq_ok read).1
      exact listed.imp_left fun known => by simpa [about] using known
  | engine op =>
    simp only [Consumer.step] at stepped
    split at stepped
    · next outward =>
      cases stepped
      exact accounted.settled (accounted.reachable.after op)
        (accounted.reachable.sound.after_settles outward)
    · cases stepped
  | registerOwn descriptor =>
    cases stepped
    exact accounted.kept ⟨fun _ mem => mem, fun _ known => .inl known⟩ rfl (Nat.le_refl _)
  | setWithheld session withheld =>
    cases stepped
    unfold PresenceRegistry.setWithheld
    split
    · exact accounted.kept ⟨fun _ mem => mem, fun _ known => .inl known⟩ rfl (Nat.le_refl _)
    · exact accounted
  | deregisterOwn session =>
    cases stepped
    unfold PresenceRegistry.deregisterOwn
    split
    · have keeps : PresenceRegistry.Keeps _ _ := PresenceRegistry.forgetEnded_keeps
        (r := { run.consumer.registry with own := run.consumer.registry.own.erase session }) listed
      exact accounted.kept ⟨keeps.listed, keeps.held⟩
        (PresenceRegistry.forgetEnded_settings _).capacity (PresenceRegistry.forgetEnded_size _)
    · exact accounted
  | carrierLoss carrier =>
    cases stepped
    have held := run.consumer.registry.carrierLoss_held carrier
    have keeps : PresenceRegistry.Keeps run.consumer.registry
      (run.consumer.registry.carrierLoss carrier) :=
      ⟨fun _ mem => mem, fun s known => .inl (by rwa [held])⟩
    exact accounted.kept keeps rfl (Table.size_le_of_keys fun s present => by rwa [held] at present)

/-- The accounts of every run whose calls find room on the list. -/
theorem accounts_of_run (starts : Starts first) (run : Reaches step listsForgotten first last) :
    Accounted last :=
  run.invariant (fun _ _ _ listed stepped accounted => accounted.step listed stepped)
    starts.accounted

end Steps

section Effects

/-- What a consumer did with a record: it is accepted only when the trusted key `K` signed it, it
was issued to this device inside the replay window and, for an announcement, `K` passed the relation
test, and then it is the latest record of its session, which is bound to `K`; a discarded one
creates no binding and changes none, except to a conflict mark or where the registry forgot the
session. -/
structure TookEffect (c : Consumer) (record : AuthenticatedPresenceRecord) (clock again : Timestamp)
    (taken : PresenceAuthOutcome × Consumer) : Prop where
  accepted : taken.1.accepted = true → ∃ entry inner parsed,
    SignedUnder .presence c.engine.trusted record.wire entry ∧
    c.engine.trusted.lookup entry.keyId = some entry ∧
    JsonObject.get record.wire "audience" = some (.string c.engine.ownKey.text) ∧
    JsonObject.get record.wire "record" = some (.object inner) ∧
    fromJson (.object inner) = .ok parsed ∧
    insideReplayWindow parsed.issuedAt clock = true ∧
    (parsed.present = true → c.engine.acceptsPresence entry.keyId parsed.sessionId again = true) ∧
    taken.2.registry.latestSeq parsed.sessionId = some parsed.seq ∧
    taken.2.engine.bindings.lookup parsed.sessionId = some (.key entry.keyId)
  discarded : ∀ why, taken.1.result = .error why → ∀ s,
    taken.2.engine.bindings.lookup s = c.engine.bindings.lookup s ∨
      ((c.engine.bindings.lookup s).isSome ∧
        ∃ keys, taken.2.engine.bindings.lookup s = some (.conflict keys)) ∨
      (taken.2.engine.bindings.lookup s = none ∧ (s ∈ c.registry.forgotten ∨
        c.registry.Knows s ∧ taken.2.registry.held.lookup s = none))

theorem tookEffect (c : Consumer) (reachable : c.engine.Reachable)
    (record : AuthenticatedPresenceRecord)
    (carrier : CarrierHandle) (clock again : Timestamp) (now : Instant) :
    TookEffect c record clock again
      (c.acceptAuthenticatedRecord record carrier clock again now) := by
  have took := c.accept_took record carrier clock again now
  generalize c.acceptAuthenticatedRecord record carrier clock again now = taken at took
  constructor
  · intro accepted
    obtain ⟨key, inner, parsed, attested, read, free, related, rfl⟩ := took.accepted accepted
    obtain ⟨entry, verified, sameKey⟩ := attested.signed
    have signed := verifySigned_eq_ok verified
    obtain ⟨sec, named, -, -, -, trusted⟩ := signed.named
    obtain ⟨about, -, issued⟩ := fromJson_eq_ok read
    have latest := offer_accepted free accepted
    refine ⟨entry, inner, parsed, signed, ?_, attested.audience, attested.about,
      read, ?_, ?_, latest.1, ?_⟩
    · rw [reachable.trusted_keyId trusted]
      exact trusted
    · have fresh := attested.fresh
      rw [issuedInWindow, issued] at fresh
      exact fresh
    · rw [sameKey]
      exact related
    · rw [sameKey]
      exact latest.2
  · intro why refused s
    cases took with
    | nothing => exact .inl rfl
    | refused key bound inner session =>
      rcases c.engine.refuseClaim_lookup key session again s with kept | ⟨held, marked⟩
      · exact .inl kept
      · exact .inr (.inl ⟨held, marked⟩)
    | offered key inner parsed =>
      rcases offer_discarded refused s with kept | gone
      · exact .inl kept
      · exact .inr (.inr gone)

theorem reachable_of_run (starts : Starts first) (run : Reaches step anyMove first last) :
    last.consumer.engine.Reachable := by
  refine Reaches.invariant (P := fun run => run.consumer.engine.Reachable)
    (fun call before after _ stepped reachable => ?_) run starts.reachable
  cases call with
  | accept record carrier clock again now =>
    cases stepped
    have took := before.consumer.accept_took record carrier clock again now
    generalize before.consumer.acceptAuthenticatedRecord record carrier clock
      again now = taken at took
    cases took with
    | nothing why => exact reachable
    | refused key bound inner s => exact reachable.refuseClaim key s again
    | offered key inner parsed => exact reachable.offer
  | engine op =>
    simp only [Consumer.step] at stepped
    split at stepped
    · cases stepped
      exact reachable.after op
    · cases stepped
  | registerOwn | setWithheld | deregisterOwn | carrierLoss => cases stepped; exact reachable

/-- Presence takes effect only when it is authentic and related. As long as the registry finds room
on its list for whatever it forgets, a session bound to another device's key that is neither tracked
nor under conflict has a record in the registry or is on its list. -/
theorem presence_takes_effect_when_authentic (first : Run) (starts : Starts first) :
    (∀ last, Reaches step anyMove first last →
      ∀ record carrier clock again now, TookEffect last.consumer record clock again
        (last.consumer.acceptAuthenticatedRecord record carrier clock again now)) ∧
    ∀ last, Reaches step listsForgotten first last →
      ∀ s key, last.consumer.engine.bindings.lookup s = some (.key key) →
        key ≠ last.consumer.engine.ownKey →
        last.consumer.engine.envelopeBound.sessions.lookup s = none →
        (last.consumer.registry.held.lookup s).isSome ∨ s ∈ last.consumer.registry.forgotten := by
  constructor
  · intro last run record carrier clock again now
    exact tookEffect last.consumer (reachable_of_run starts run) record carrier clock again now
  · intro last run s key bound foreign untracked
    have accounted := accounts_of_run starts run
    apply accounted.backed
    rw [boundByPresence_iff]
    refine ⟨⟨key, bound⟩, ?_, untracked⟩
    cases owned : last.consumer.engine.ownSessions.lookup s with
    | none => rfl
    | some scope =>
      have ownBound := accounted.reachable.sound.ownBound s scope owned
      rw [bound, Option.some.injEq, Binding.key.injEq] at ownBound
      exact absurd ownBound foreign

end Effects

section Bounds

theorem unmarked_step (reachable : run.consumer.engine.Reachable)
    (guard : uncontested call run) (stepped : step call run = some run')
    (unmarked : ∀ s keys, run.consumer.engine.bindings.lookup s ≠ some (.conflict keys)) :
    ∀ s keys, run'.consumer.engine.bindings.lookup s ≠ some (.conflict keys) := by
  cases call with
  | accept record carrier clock again now =>
    cases stepped
    have took := run.consumer.accept_took record carrier clock again now
    generalize run.consumer.acceptAuthenticatedRecord record carrier clock again now = taken at took
    cases took with
    | nothing why => exact unmarked
    | refused key bound inner session attested about held other =>
      -- the claimant is unrelated, so the session is left as it was
      have signer := presenceSigner_eq_ok.mpr attested.signed
      have claimed := attested.about_eq.trans about
      have refuses : run.consumer.engine.acceptsPresence key session again = false := by
        have nothing := guard.2
        simpa [contests, signer, claimed, held, other] using nothing
      have kept : run.consumer.engine.refuseClaim key session again = run.consumer.engine := by
        simp [refuseClaim, refuses]
      rw [kept]
      exact unmarked
    | offered key inner parsed =>
      exact fun s keys marked => unmarked s keys (offer_conflicts marked)
  | engine op =>
    simp only [Consumer.step] at stepped
    split at stepped
    · next outward =>
      cases stepped
      exact fun s keys marked => unmarked s keys
        (reachable.sound.after_unmarked outward s keys marked)
    · cases stepped
  | registerOwn | setWithheld | deregisterOwn | carrierLoss => cases stepped; exact unmarked

theorem unmarked_of_run (starts : Starts first) (run : Reaches step uncontested first last) :
    last.consumer.engine.underConflict = [] := by
  have unmarked : ∀ s keys, last.consumer.engine.bindings.lookup s ≠ some (.conflict keys) := by
    refine (Reaches.invariant (P := fun run => Accounted run ∧
      ∀ s keys, run.consumer.engine.bindings.lookup s ≠
        some (.conflict keys)) ?_ run ⟨starts.accounted, ?_⟩).2
    · rintro call before after guard stepped ⟨accounted, held⟩
      exact ⟨accounted.step guard.1 stepped, unmarked_step accounted.reachable guard stepped held⟩
    · intro s keys marked
      rw [starts.empty.1] at marked
      simp at marked
  rw [underConflict, List.filter_eq_nil_iff]
  intro s _ marked
  split at marked
  · next keys found => exact unmarked s keys found
  · cases marked

theorem Accounted.size (accounted : Accounted run) :
    run.consumer.engine.bindings.size ≤ run.consumer.engine.ownSessions.size +
      run.consumer.registry.capacity + run.consumer.engine.envelopeBound.capacity + run.rebound +
      run.consumer.engine.underConflict.length := by
  have split := run.consumer.engine.bindings_split
  have counted := accounted.counted
  have tracked := accounted.tracked
  omega

/-- As long as the registry finds room on its list for whatever it forgets, the binding table has no
more entries than there are own sessions, places in the registry, places for envelope-created
entries, hand-offs recorded after their binding was gone, and sessions under conflict; and no
session is under conflict unless a related device claimed it. -/
theorem binding_table_bounded (first : Run) (starts : Starts first) :
    (∀ last, Reaches step listsForgotten first last →
      last.consumer.engine.bindings.size ≤ last.consumer.engine.ownSessions.size +
        last.consumer.registry.capacity + last.consumer.engine.envelopeBound.capacity +
          last.rebound +
        last.consumer.engine.underConflict.length) ∧
    ∀ last, Reaches step uncontested first last →
      last.consumer.engine.bindings.size ≤ last.consumer.engine.ownSessions.size +
        last.consumer.registry.capacity + last.consumer.engine.envelopeBound.capacity +
          last.rebound := by
  constructor
  · intro last run
    exact (accounts_of_run starts run).size
  · intro last run
    have unmarked := unmarked_of_run starts run
    have listed : Reaches step listsForgotten first last := run.weaken fun _ _ guard => guard.1
    have size := (accounts_of_run starts listed).size
    rw [unmarked] at size
    exact size

end Bounds

end Runs

section Sample

open AuthorizationEngine

attribute [local instance] sampleLibraries

def sampleSnapshot : PairingSnapshot :=
  ⟨[samplePeer.record], [.inbound ⟨samplePeerKey, none⟩ .device], [], []⟩

def sampleTrusting : AuthorizationEngine :=
  (restore sampleOwn (.ok sampleSnapshot)).toOption.getD (new sampleOwn)

theorem sampleTrusting_started : Started sampleTrusting := by
  have restored : (restore sampleOwn (.ok sampleSnapshot)).toOption.isSome := by decide +kernel
  obtain ⟨e, found⟩ := Option.isSome_iff_exists.mp restored
  have same : sampleTrusting = e := by rw [sampleTrusting, found, Option.getD_some]
  exact ⟨sampleOwn, .inr ⟨.ok sampleSnapshot, same ▸ Results.ok_of_toOption found⟩⟩

/-- One place for an envelope-created entry and `capacity` places in the registry. -/
def sampleRun (capacity : Nat) : Run :=
  ⟨⟨sampleTrusting.withEnvelopeBindingLimits 1 1, .withLimits capacity capacity⟩, 0⟩

theorem sampleRun_starts (capacity : Nat) : Starts (sampleRun capacity) :=
  ⟨⟨sampleTrusting, sampleTrusting_started, .inr ⟨1, 1, rfl⟩⟩, ⟨capacity, capacity, rfl⟩, rfl⟩

def announces (n : BitVec 128) (at_ : Nat) : Call :=
  .accept (sampleIssued "bob" samplePeerKey "AQEB" (sampleAnnouncement (sampleSession n) 1))
    0 .epoch .epoch (fromMillis (1000 * at_))

def comesAndGoes (n : BitVec 128) : List Call :=
  [.engine (.registerSession (sampleRegistration (sampleSession n)) sampleOwn),
    .registerOwn ⟨sampleSession n, ⟨.object []⟩, []⟩, .engine (.endSession (sampleSession n)),
    .deregisterOwn (sampleSession n)]

/-- The calls that make a registry with one place forget two sessions at once, twice. -/
def forgetful : List Call := [announces 3 0] ++ comesAndGoes 1 ++ [announces 4 2] ++
    comesAndGoes 2 ++ [announces 5 4]

instance : ∀ call run, Decidable (uncontested call run)
  | .accept _ _ _ _ _, _ => inferInstanceAs (Decidable (_ ∧ _ = false))
  | .engine _, _ | .registerOwn _, _ | .setWithheld _ _, _ | .deregisterOwn _, _ | .carrierLoss _, _ =>
    inferInstanceAs (Decidable (_ ∧ True))

/-- The two runs that keep to the conditions, evaluated once. -/
theorem sample_performed :
    (performWithin step listsForgotten ([announces 3 0] ++ comesAndGoes 1) (sampleRun 4)).map (fun run =>
      (run.consumer.engine.bindings.lookup (sampleSession 3),
        decide (samplePeerKey ≠ run.consumer.engine.ownKey),
        run.consumer.engine.envelopeBound.sessions.lookup (sampleSession 3))) =
      some (some (.key samplePeerKey), true, none) ∧
    (performWithin step uncontested ([announces 3 0] ++ comesAndGoes 1) (sampleRun 4)).map (fun run =>
      run.consumer.engine.bindings.size) = some 1 := by decide +kernel

theorem presence_takes_effect_when_authentic_sample :
    ∃ last, Reaches step listsForgotten (sampleRun 4) last ∧
      last.consumer.engine.bindings.lookup (sampleSession 3) = some (.key samplePeerKey) ∧
      ((last.consumer.registry.held.lookup (sampleSession 3)).isSome ∨
        sampleSession 3 ∈ last.consumer.registry.forgotten) := by
  obtain ⟨last, reached, found⟩ := reachedWithin_of_map _ sample_performed.1
  simp only [Prod.mk.injEq, decide_eq_true_eq] at found
  exact ⟨last, reached, found.1, (@presence_takes_effect_when_authentic _ (sampleRun 4)
    (sampleRun_starts 4)).2 last reached (sampleSession 3) samplePeerKey found.1
      found.2.1 found.2.2⟩

theorem binding_table_bounded_sample :
    ∃ last, Reaches step uncontested (sampleRun 4) last ∧
      last.consumer.engine.bindings.size = 1 ∧
      last.consumer.engine.bindings.size ≤ last.consumer.engine.ownSessions.size +
        last.consumer.registry.capacity + last.consumer.engine.envelopeBound.capacity +
          last.rebound := by
  obtain ⟨last, reached, found⟩ := reachedWithin_of_map _ sample_performed.2
  exact ⟨last, reached, found, (@binding_table_bounded _ (sampleRun 4) (sampleRun_starts 4)).2
    last reached⟩

/-- The runs that leave bindings behind, evaluated once. -/
theorem forgetful_performed :
    (perform step (forgetful.take 6) (sampleRun 1)).map (fun run =>
      (run.consumer.engine.bindings.lookup (sampleSession 3),
        decide (samplePeerKey ≠ run.consumer.engine.ownKey),
        run.consumer.engine.envelopeBound.sessions.lookup (sampleSession 3),
        (run.consumer.registry.held.lookup (sampleSession 3)).isSome,
        decide (sampleSession 3 ∉ run.consumer.registry.forgotten))) =
      some (some (.key samplePeerKey), true, none, false, true) ∧
    (perform step forgetful (sampleRun 1)).map (fun run =>
      (run.consumer.engine.ownSessions.size + run.consumer.registry.capacity +
        run.consumer.engine.envelopeBound.capacity + run.rebound,
        run.consumer.engine.bindings.size)) = some (2, 3) := by decide +kernel

/-- A full registry that also remembers an ended own session forgets both for a new record, but its
list has one place: the binding of the first stays, with no record and not listed. -/
theorem forgotten_session_stays_bound : ∃ last, Starts (sampleRun 1) ∧
      Reaches step anyMove (sampleRun 1) last ∧
      last.consumer.engine.bindings.lookup (sampleSession 3) = some (.key samplePeerKey) ∧
      samplePeerKey ≠ last.consumer.engine.ownKey ∧
      last.consumer.engine.envelopeBound.sessions.lookup (sampleSession 3) = none ∧
      (last.consumer.registry.held.lookup (sampleSession 3)).isSome = false ∧
      sampleSession 3 ∉ last.consumer.registry.forgotten := by
  obtain ⟨last, reached, found⟩ := reached_of_map _ forgetful_performed.1
  simp only [Prod.mk.injEq, decide_eq_true_eq] at found
  exact ⟨last, sampleRun_starts 1, reached, found⟩

/-- Two forgotten sessions stay bound: three entries with no own session, one place in the registry
and one for envelope-created entries. -/
theorem leaked_bindings_exceed_bound : ∃ last, Starts (sampleRun 1) ∧
      Reaches step anyMove (sampleRun 1) last ∧
      last.consumer.engine.ownSessions.size + last.consumer.registry.capacity +
        last.consumer.engine.envelopeBound.capacity + last.rebound <
          last.consumer.engine.bindings.size := by
  obtain ⟨last, reached, found⟩ := reached_of_map _ forgetful_performed.2
  simp only [Prod.mk.injEq] at found
  exact ⟨last, sampleRun_starts 1, reached, by omega⟩

end Sample

end Consumer

end Oac
