import Oac.Authorization.Pins

/-! What an insertion evicts at the capacity or at a key's share (`EnvelopeBindings::victim`), and
why keys cannot take entries from one another for ever: each time, the sum of the squared counts
falls. -/

namespace Oac

open Table

namespace EnvelopeBindings

variable {t t' : EnvelopeBindings} {s session : SessionId} {key : KeyId} {pinned : Bool}

def ownedBy (k : KeyId) (b : EnvelopeBinding) : Nat := if b.key = k then 1 else 0

theorem Exact.heldBy_update (exact : t.Exact) (exact' : t'.Exact)
    (changed : ∀ s, t'.sessions.lookup s = if s = session then entry else t.sessions.lookup s) (k : KeyId) :
    t'.heldBy k + (t.sessions.lookup session).elim 0 (ownedBy k) = t.heldBy k + entry.elim 0 (ownedBy k) := by
  have split : ∀ b : Option EnvelopeBinding,
      b.elim 0 (weight k false session) + b.elim 0 (weight k true session) = b.elim 0 (ownedBy k) := by
    intro b
    cases b with
    | none => rfl
    | some b =>
      obtain ⟨owner, seq, pinned⟩ := b
      cases pinned <;> simp [weight, ownedBy]
  have free : t'.tracked k false + _ = t.tracked k false + _ := sum_update changed
  have pins : t'.tracked k true + _ = t.tracked k true + _ := sum_update changed
  have before := split (t.sessions.lookup session)
  have after := split entry
  rw [heldBy_eq, heldBy_eq, exact.freeCount, exact.pinnedCount, exact'.freeCount, exact'.pinnedCount]
  omega

theorem Exact.untrack_heldBy (exact : t.Exact) (tracked : t.sessions.lookup s = some b)
    (k : KeyId) : (t.untrack s).heldBy k + ownedBy k b = t.heldBy k := by
  have less := exact.heldBy_update (exact.untrack s) untrack_sessions k
  rwa [tracked] at less

theorem Exact.track_heldBy (exact : t.Exact) (absent : t.sessions.lookup session = none) (k : KeyId) :
    (t.track session key pinned).heldBy k = t.heldBy k + if key = k then 1 else 0 := by
  have more := exact.heldBy_update (exact.track session key pinned) track_sessions k
  rwa [absent] at more

theorem untrack_size (tracked : t.sessions.lookup s = some b) :
    size (t.untrack s).sessions + 1 = size t.sessions := by
  have less : sum _ (t.untrack s).sessions + _ = _ := sum_update (f := fun _ _ => 1) untrack_sessions
  rw [tracked] at less
  rwa [size_eq_sum, size_eq_sum]

theorem track_size (absent : t.sessions.lookup session = none) :
    size (t.track session key pinned).sessions = size t.sessions + 1 := by
  have more : sum _ (t.track session key pinned).sessions + _ = _ :=
    sum_update (f := fun _ _ => 1) track_sessions
  rw [absent] at more
  rwa [size_eq_sum, size_eq_sum]

def squares (t : EnvelopeBindings) : Nat := sum (fun _ kb => kb.len * kb.len) t.keys

theorem KeyMoved.squares (moved : KeyMoved t t' key kb) :
    t'.squares + t.heldBy key * t.heldBy key = t.squares + t'.heldBy key * t'.heldBy key := by
  have updated := sum_update (f := fun _ (kb : KeyBindings) => kb.len * kb.len) moved.keys
  have held : ∀ x : EnvelopeBindings,
      (x.keys.lookup key).elim 0 (fun kb => kb.len * kb.len) = x.heldBy key * x.heldBy key := by
    intro x
    unfold heldBy
    cases x.keys.lookup key <;> rfl
  rw [held, ← (moved.keys key).trans (if_pos rfl), held] at updated
  exact updated

/-- The entry `b` of the session `s` made place for one of `key`. -/
structure Swapped (t : EnvelopeBindings) (s : SessionId) (b : EnvelopeBinding)
    (session : SessionId) (key : KeyId) (t' : EnvelopeBindings) : Prop where
  sessions : ∀ s', s' ≠ session → t'.sessions.lookup s' = if s' = s then none else t.sessions.lookup s'
  heldBy : ∀ k, t'.heldBy k + ownedBy k b = t.heldBy k + if key = k then 1 else 0
  size : size t'.sessions = size t.sessions
  capacity : t'.capacity = t.capacity
  squares : t'.squares + 2 * t.heldBy b.key = t.squares + 2 * t'.heldBy key

theorem Exact.swap (exact : t.Exact) (absent : t.sessions.lookup session = none)
    (tracked : t.sessions.lookup s = some b) (key : KeyId) (pinned : Bool) :
    Swapped t s b session key ((t.untrack s).track session key pinned) := by
  have gone : (t.untrack s).sessions.lookup session = none := by
    rw [untrack_sessions, absent, ite_self]
  have fewer := exact.untrack_heldBy tracked
  have more : ∀ k, ((t.untrack s).track session key pinned).heldBy k = _ := (exact.untrack s).track_heldBy gone
  refine ⟨fun s' other => ?_, fun k => ?_, ?_, (track_limits ..).2.2.trans (untrack_limits t s).2.2, ?_⟩
  · rw [track_sessions, if_neg other, untrack_sessions]
  · rw [more, ← fewer k]
    omega
  · rw [track_size gone, untrack_size tracked]
  · obtain ⟨kb, keyed, -⟩ := exact.keyed tracked
    have lost := (untrack_moved tracked keyed).squares
    have won : ((t.untrack s).track session key pinned).squares + _ = _ :=
      KeyMoved.squares (untrack_absent gone ▸ track_moved)
    have one := fewer b.key
    rw [more, if_pos rfl] at won ⊢
    simp only [ownedBy, if_true] at one
    rw [← one] at lost ⊢
    simp only [Nat.add_mul, Nat.mul_add, Nat.mul_one, Nat.one_mul] at lost won
    omega

theorem Swapped.kept (swapped : Swapped t s b session key t') (absent : t.sessions.lookup session = none)
    (other : s' ≠ s) (held : t.sessions.lookup s' = some b') : t'.sessions.lookup s' = some b' := by
  refine (swapped.sessions s' ?_).trans ((if_neg other).trans held)
  rintro rfl
  rw [absent] at held
  cases held

end EnvelopeBindings

namespace AuthorizationEngine

open EnvelopeBindings

variable {e : AuthorizationEngine} {session : SessionId} {key : KeyId}

variable (e : AuthorizationEngine) (session : SessionId) (key : KeyId) in
/-- What an envelope of `key` from `session` leads to. -/
inductive Bound : Bool × AuthorizationEngine → Prop
  | added (below : e.envelopeBound.heldBy key < e.envelopeBound.perKey)
      (room : size e.envelopeBound.sessions < e.envelopeBound.capacity) :
      Bound (true, e.bindTracked session key (e.handoffPartition (some key) session))
  | refused : Bound (false, e)
  | swapped (s : SessionId) (found : e.envelopeBound.victim key = some s) :
      Bound (true, (e.evict s).bindTracked session key (e.handoffPartition (some key) session))

theorem bindFromEnvelope_bound (e : AuthorizationEngine) (session : SessionId) (key : KeyId) :
    Bound e session key (e.bindFromEnvelope session key) := by
  fun_cases bindFromEnvelope
  · next room =>
    simp only [hasRoom, Bool.and_eq_true, decide_eq_true_eq] at room
    exact .added room.1 room.2
  · exact .refused
  · next s found => exact .swapped s found

/-- The entries of other keys that are gone after an insertion for `key`. -/
def takenFromOthers (e e' : AuthorizationEngine) (key : KeyId) : Nat :=
  sum (fun s b => if b.key ≠ key ∧ e'.envelopeBound.sessions.lookup s = none then 1 else 0)
    e.envelopeBound.sessions

/-- `bind_from_envelope` as security step 4 calls it, for a session that is not bound. -/
def insertion (e : AuthorizationEngine) (session : SessionId) (key : KeyId) : AuthorizationEngine :=
  if (e.bindings.lookup session).isSome then e else (e.bindFromEnvelope session key).2

def taken (e : AuthorizationEngine) : List (SessionId × KeyId) → Nat
  | [] => 0
  | (session, key) :: rest =>
    e.takenFromOthers (e.insertion session key) key + (e.insertion session key).taken rest

theorem takenFromOthers_self : e.takenFromOthers e key = 0 := by
  refine Nat.le_zero.mp (sum_indicator_le (l := []) ?_)
  rintro s b found ⟨-, gone⟩
  rw [found] at gone
  cases gone

theorem Sound.untracked (sound : Sound e) (unbound : e.bindings.lookup session = none) :
    e.envelopeBound.sessions.lookup session = none := by
  rw [Option.eq_none_iff_forall_ne_some]
  intro b found
  rw [sound.trackedBound session b found] at unbound
  cases unbound

theorem Sound.swapped (sound : Sound e) (unbound : e.bindings.lookup session = none)
    (tracked : e.envelopeBound.sessions.lookup s = some b) (key : KeyId) (partition : HandOffPartition) :
    Swapped e.envelopeBound s b session key ((e.evict s).bindTracked session key partition).envelopeBound :=
  sound.exact.swap (sound.untracked unbound) tracked key _

/-- In a full table an insertion that takes an entry of another key lowers the squares. -/
theorem Sound.insertion (sound : Sound e) (full : e.envelopeBound.capacity ≤ size e.envelopeBound.sessions)
    (session : SessionId) (key : KeyId) : let e' := e.insertion session key
    Sound e' ∧ e'.envelopeBound.capacity ≤ size e'.envelopeBound.sessions ∧
      e'.envelopeBound.squares + 2 * e.takenFromOthers e' key ≤ e.envelopeBound.squares := by
  have same : Sound e ∧ e.envelopeBound.capacity ≤ size e.envelopeBound.sessions ∧
      e.envelopeBound.squares + 2 * e.takenFromOthers e key ≤ e.envelopeBound.squares := by
    rw [takenFromOthers_self]
    exact ⟨sound, full, Nat.le_refl _⟩
  unfold AuthorizationEngine.insertion
  split
  · exact same
  · next unbound =>
    replace unbound : e.bindings.lookup session = none := by simpa using unbound
    have bound := e.bindFromEnvelope_bound session key
    generalize e.bindFromEnvelope session key = result at bound ⊢
    cases bound with
    | added _ room => exact absurd full (Nat.not_le.mpr room)
    | refused => exact same
    | swapped s found =>
      obtain ⟨b, tracked, -, -, share⟩ := sound.exact.victim found
      have swapped := sound.swapped unbound tracked key (e.handoffPartition (some key) session)
      have placed := sound.placed unbound (.evicting s found)
      dsimp only
      generalize (e.evict s).bindTracked session key (e.handoffPartition (some key) session) =
        e' at swapped placed ⊢
      have only : ∀ s' b', e.envelopeBound.sessions.lookup s' = some b' →
          e'.envelopeBound.sessions.lookup s' = none → s' = s := by
        intro s' b' held gone
        by_contra other
        rw [swapped.kept (sound.untracked unbound) other held] at gone
        cases gone
      refine ⟨placed, (swapped.capacity.le.trans full).trans swapped.size.ge, ?_⟩
      have counts := swapped.heldBy key
      have squares := swapped.squares
      rcases share with ⟨-, own⟩ | ⟨-, other, more⟩
      · have none : e.takenFromOthers e' key ≤ 0 := by
          refine sum_indicator_le (l := []) fun s' b' held gone => absurd ?_ gone.1
          cases only s' b' held gone.2
          cases held.symm.trans tracked
          exact own
        simp only [ownedBy, own, if_true] at counts squares
        omega
      · have one : e.takenFromOthers e' key ≤ 1 := sum_indicator_le fun s' b' held gone =>
          List.mem_singleton.mpr (only s' b' held gone.2)
        simp only [ownedBy, other, if_true, if_false] at counts
        omega

theorem Sound.taken_le (sound : Sound e) (full : e.envelopeBound.capacity ≤ size e.envelopeBound.sessions)
    (insertions : List (SessionId × KeyId)) : 2 * e.taken insertions ≤ e.envelopeBound.squares := by
  induction insertions generalizing e with
  | nil => exact Nat.zero_le _
  | cons first rest ih =>
    obtain ⟨session, key⟩ := first
    obtain ⟨sound', full', falls⟩ := sound.insertion full session key
    have later := ih sound' full'
    simp only [taken]
    omega

/-- Let `bind_from_envelope` admit a session that was not bound for a key, in a table at its
capacity or with the key at its share. One entry goes, the oldest free one of the key itself when it
is at its share and otherwise of a key that keeps more entries than this one had; nothing of a key
below its share goes for its own insertion, and neither count grows above its bound. Insertions into
a full table take a bounded number of entries from one key for another. -/
theorem binding_shares_fair [Libraries] (e : AuthorizationEngine) (reachable : e.Reachable) :
    (∀ session key, e.bindings.lookup session = none → (e.bindFromEnvelope session key).1 = true →
      let t := e.envelopeBound
      let t' := (e.bindFromEnvelope session key).2.envelopeBound
      (t.capacity ≤ size t.sessions ∨ t.perKey ≤ t.heldBy key →
        ∃ s b, t.sessions.lookup s = some b ∧ b.pinned = false ∧
          (∀ s' b', t.sessions.lookup s' = some b' → b'.key = b.key → b'.pinned = false → b.seq ≤ b'.seq) ∧
          (∀ s', s' ≠ session → t'.sessions.lookup s' = if s' = s then none else t.sessions.lookup s') ∧
          ((t.perKey ≤ t.heldBy key ∧ b.key = key) ∨
            (t.heldBy key < t.perKey ∧ b.key ≠ key ∧ t.heldBy key + 1 ≤ t'.heldBy b.key))) ∧
      (t.heldBy key < t.perKey → ∀ s b, t.sessions.lookup s = some b → b.key = key →
        t'.sessions.lookup s = some b) ∧
      (t.capacity ≤ size t.sessions → size t'.sessions ≤ size t.sessions) ∧
      (t.perKey ≤ t.heldBy key → t'.heldBy key ≤ t.heldBy key)) ∧
    (e.envelopeBound.capacity ≤ size e.envelopeBound.sessions →
      ∃ bound, ∀ insertions, e.taken insertions ≤ bound) := by
  have sound := reachable.sound
  refine ⟨fun session key unbound admitted => ?_, fun full => ⟨_, fun insertions => Nat.le_trans
    (Nat.le_mul_of_pos_left _ Nat.two_pos) (sound.taken_le full insertions)⟩⟩
  have absent := sound.untracked unbound
  have bound := e.bindFromEnvelope_bound session key
  generalize e.bindFromEnvelope session key = result at bound admitted ⊢
  cases bound with
  | added below room =>
    refine ⟨by omega, fun _ s b found _ => ?_, by omega, by omega⟩
    refine track_sessions s |>.trans ((if_neg ?_).trans found)
    rintro rfl
    rw [absent] at found
    cases found
  | refused => cases admitted
  | swapped s found =>
    obtain ⟨b, tracked, free, first, share⟩ := sound.exact.victim found
    have swapped := sound.swapped unbound tracked key (e.handoffPartition (some key) session)
    have counts := swapped.heldBy key
    refine ⟨fun _ => ⟨s, b, tracked, free, first, swapped.sessions, ?_⟩,
      fun below s' b' held own => ?_, fun _ => swapped.size.le, fun share' => ?_⟩
    · refine share.imp_right fun ⟨below, other, more⟩ => ⟨below, other, ?_⟩
      have less := swapped.heldBy b.key
      simp only [ownedBy, if_true, if_neg (Ne.symm other)] at less
      dsimp only
      omega
    · refine swapped.kept absent ?_ held
      rintro rfl
      cases tracked.symm.trans held
      exact share.elim (fun full => absurd below (Nat.not_lt.mpr full.1)) fun taken => taken.2.1 own
    · have own : b.key = key := share.elim And.right fun taken => absurd taken.1 (Nat.not_lt.mpr share')
      simp only [ownedBy, own, if_true] at counts
      exact (Nat.add_right_cancel counts).le

section Sample

/-- A table of one entry, which no record is read through any more. -/
def fullOps : List Op :=
  [.pair samplePeer (fun _ => .ok ()) .epoch, .withEnvelopeBindingLimits 1 1,
    .recordHandoff sampleHandOff .handedToHarness .epoch, .forgetHandoff sampleHandOff]

def fullEngine : AuthorizationEngine := fullOps.foldl (@after sampleLibraries) (new sampleOwn)

theorem binding_shares_fair_sample :
    (fullEngine.envelopeBound.sessions.lookup (sampleSession 3)).isSome ∧
      (fullEngine.bindFromEnvelope (sampleSession 4) samplePeerKey).2.envelopeBound.sessions.lookup
        (sampleSession 3) = none ∧ ∃ bound, ∀ insertions, fullEngine.taken insertions ≤ bound := by
  have state : fullEngine.envelopeBound.sessions.keys = [sampleSession 3] ∧
      fullEngine.bindings.lookup (sampleSession 4) = none ∧ fullEngine.envelopeBound.capacity = 1 ∧
      (fullEngine.bindFromEnvelope (sampleSession 4) samplePeerKey).1 = true ∧
        sampleSession 3 ≠ sampleSession 4 := by
    decide +kernel
  obtain ⟨keys, unbound, capacity, admitted, other⟩ := state
  have full : fullEngine.envelopeBound.capacity ≤ size fullEngine.envelopeBound.sessions := by
    exact Nat.le_refl 1
  obtain ⟨once, bounded⟩ := @binding_shares_fair sampleLibraries fullEngine
    (@reachable_of_ops sampleLibraries sampleOwn fullOps)
  obtain ⟨s, b, tracked, -, -, gone, -⟩ := (once _ _ unbound admitted).1 (.inl full)
  have only : s = sampleSession 3 := by
    refine List.mem_singleton.mp (keys ▸ AList.lookup_isSome.mp ?_)
    rw [tracked, Option.isSome_some]
  subst only
  refine ⟨by rw [tracked, Option.isSome_some], ?_, bounded full⟩
  rw [gone _ other, if_pos rfl]

end Sample

end AuthorizationEngine

end Oac
