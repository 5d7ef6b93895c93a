import Oac.Presence.Limits

/-! Which session a full registry gives up for a new one (`PresenceRegistry::make_room`), and why
two issuers with equal counts do not take sessions from one another. -/

namespace Oac.PresenceRegistry

open Transition List Option

variable {r : PresenceRegistry} {now : Instant} {issuer : Option KeyId}

section Most

theorem heldBy_le_mostHeld (r : PresenceRegistry) (issuer : Option KeyId) : r.heldBy issuer ≤ r.mostHeld := by
  rcases Nat.eq_zero_or_pos (r.heldBy issuer) with none_ | some_
  · omega
  · obtain ⟨e, mem, mine⟩ := countP_pos_iff.mp some_
    rw [← eq_of_beq mine]
    exact (Table.foldl_max_spec _ 0).2.1 _ (mem_map.mpr ⟨e, mem, rfl⟩)

theorem foldl_isSome {f : Option β → α → Option β} (always : ∀ best a, (f best a).isSome)
    (filled : l ≠ []) (best : Option β) : (l.foldl f best).isSome := by
  induction l generalizing best with
  | nil => exact absurd rfl filled
  | cons a rest ih =>
    cases rest with
    | nil => exact always best a
    | cons b rest => exact ih (cons_ne_nil b rest) _

theorem newestOf_mostHeld (some_ : 0 < r.mostHeld) : (r.newestOf r.mostHeld).isSome := by
  rcases (Table.foldl_max_spec (r.held.entries.map fun e => r.heldBy e.2.issuer) 0).2.2 with none_ | mem
  · exact absurd none_ (Nat.ne_of_gt some_)
  · obtain ⟨e, held, most⟩ := mem_map.mp mem
    have listed : e ∈ r.held.entries.filter fun e => r.heldBy e.2.issuer == r.mostHeld :=
      mem_filter.mpr ⟨held, beq_iff_eq.mpr most⟩
    unfold newestOf
    rw [isSome_map]
    refine foldl_isSome (fun best e => ?_) (ne_nil_of_mem listed) none
    cases best with
    | none => rfl
    | some known =>
      dsimp only
      split <;> rfl

end Most

section Crowded

/-- A full registry all of whose sessions are online. -/
structure Crowded (r : PresenceRegistry) (now : Instant) : Prop where
  full : r.capacity ≤ r.len
  ended : r.ended.keys = []
  online : ∀ s h, r.held.lookup s = some h → h.state now = .online

theorem Crowded.none_stale (crowded : Crowded r now) (p : SessionId → HeldPresence → Bool) :
    (r.held.entries.filter fun e => p e.1 e.2 && e.2.state now ≠ .online).map (·.1) = [] := by
  rw [map_eq_nil_iff, filter_eq_nil_iff]
  intro e mem
  simp [crowded.online e.1 e.2 (AList.mem_lookup_iff.mpr mem)]

theorem Crowded.sweep (crowded : Crowded r now) : r.sweep now = r := by
  have none_ := crowded.none_stale fun s _ => (r.own.lookup s).isNone
  unfold PresenceRegistry.sweep
  rw [none_, crowded.ended]
  rfl

theorem Crowded.makeIssuerRoom (crowded : Crowded r now) : r.makeIssuerRoom issuer now = r := by
  have none_ := crowded.none_stale fun _ h => h.issuer == issuer
  unfold PresenceRegistry.makeIssuerRoom
  split
  · rw [none_]
    rfl
  · rfl

variable (r : PresenceRegistry) (record : PresenceRecord) (carrier : CarrierHandle)
  (lifetime : Option Nat) (issuer : Option KeyId) (now : Instant) in
/-- What a record of a new session from `issuer` comes to in a crowded registry. -/
inductive Crowds : PresenceAcceptance × PresenceRegistry → Prop
  | refused (why) (cause : r.perIssuerQuota ≤ r.heldBy issuer ∨ ∀ other, r.heldBy other < r.heldBy issuer + 2) :
      Crowds (.discarded why, r)
  | swapped (share : r.heldBy issuer < r.perIssuerQuota) (s h) (held : r.held.lookup s = some h)
      (more : r.heldBy issuer + 2 ≤ r.heldBy h.issuer)
      (most : ∀ other, r.heldBy other ≤ r.heldBy h.issuer)
      (newest : ∀ s' h', r.held.lookup s' = some h' → r.heldBy h'.issuer = r.heldBy h.issuer →
        h'.admitted ≤ h.admitted) :
      Crowds (.accepted lifetime, (r.evict s).place record carrier lifetime issuer now)

theorem Crowded.insert (crowded : Crowded r now) (fresh : r.held.lookup record.sessionId = none) :
    Crowds r record carrier (effectiveLifetime record.kind origin) issuer now
      (r.insert record carrier origin issuer now) := by
  have full := crowded.full
  have limit := r.heldBy_le_mostHeld
  unfold PresenceRegistry.insert PresenceRegistry.makeRoom
  dsimp only
  rw [fresh, crowded.makeIssuerRoom, crowded.sweep]
  simp only [if_neg (Nat.not_lt.mpr full)]
  by_cases share : r.heldBy issuer ≥ r.perIssuerQuota
  · rw [if_pos share]
    exact .refused _ (.inl share)
  rw [if_neg share]
  by_cases few : r.mostHeld < r.heldBy issuer + 2
  · rw [if_pos few]
    exact .refused _ (.inr fun other => Nat.lt_of_le_of_lt (limit other) few)
  rw [if_neg few]
  obtain ⟨s, found⟩ := isSome_iff_exists.mp (newestOf_mostHeld (r := r) (by omega))
  obtain ⟨h, held, most, newest⟩ := newestOf_newest found
  rw [found]
  rw [← most] at newest limit
  exact .swapped (by omega) s h held (by omega) limit newest

section Swap

variable {s : SessionId} {h : HeldPresence} {record : PresenceRecord}
  (held : r.held.lookup s = some h)
include held

theorem evict_lookup (s' : SessionId) :
    (r.evict s).held.lookup s' = if s' = s then none else r.held.lookup s' := by
  unfold evict
  rw [held]
  exact Table.lookup_erase_if s s' r.held

theorem swapped_lookup (lifetime : Option Nat) (other : s' ≠ record.sessionId) :
    ((r.evict s).place record carrier lifetime issuer now).held.lookup s' =
      if s' = s then none else r.held.lookup s' := by
  obtain ⟨placed, -, looked⟩ := (r.evict s).place_held record carrier lifetime issuer now
  rw [looked, if_neg other, evict_lookup held]

theorem swapped_heldBy (fresh : r.held.lookup record.sessionId = none)
    (lifetime : Option Nat) (other : Option KeyId) :
    ((r.evict s).place record carrier lifetime issuer now).heldBy other +
      (if h.issuer = other then 1 else 0) = r.heldBy other + if issuer = other then 1 else 0 := by
  have gone : (r.evict s).held.lookup record.sessionId = none := by
    rw [evict_lookup held, fresh, ite_self]
  have placed := place_heldBy record carrier issuer now (r.evict s) lifetime other
  have evicted := Table.sum_update
    (f := fun _ (h : HeldPresence) => if h.issuer = other then 1 else 0) (evict_lookup held)
  rw [gone, elim_none] at placed
  rw [← heldBy_eq_sum, ← heldBy_eq_sum, held] at evicted
  simp only [elim_some, elim_none] at evicted
  omega

end Swap

end Crowded

section Rivals

structure Announcement where
  record : PresenceRecord
  carrier : CarrierHandle
  origin : RecordOrigin
  now : Instant

/-- A registry and two issuers that announce sessions in turn. -/
structure Rivals where
  registry : PresenceRegistry
  next : Option KeyId
  other : Option KeyId

namespace Rivals

def announce (x : Announcement) (w : Rivals) : Rivals :=
  ⟨(w.registry.insert x.record x.carrier x.origin w.next x.now).2, w.other, w.next⟩

def step (x : Announcement) (w : Rivals) : Option Rivals := some (w.announce x)

/-- The registry is full of online sessions, and a new one is announced. -/
def crowded (x : Announcement) (w : Rivals) : Prop :=
  Crowded w.registry x.now ∧ w.registry.held.lookup x.record.sessionId = none

/-- The two hold as many sessions, or the next to announce holds one fewer, or one more while no
issuer holds enough for either of them to be given a session. -/
structure Level (w : Rivals) : Prop where
  differ : w.next ≠ w.other
  shared : Shared w.registry
  level : w.registry.heldBy w.next = w.registry.heldBy w.other ∨
    w.registry.heldBy w.other = w.registry.heldBy w.next + 1 ∨
    (w.registry.heldBy w.next = w.registry.heldBy w.other + 1 ∧
      ∀ issuer, w.registry.heldBy issuer < w.registry.heldBy w.other + 2)

theorem Level.announce (level : Level w) (crowded : crowded x w) : Level (w.announce x) ∧
    ∀ s h, w.registry.held.lookup s = some h → h.issuer = w.next ∨ h.issuer = w.other →
      (w.announce x).registry.held.lookup s = some h := by
  obtain ⟨differ, shared, level⟩ := level
  have within := shared w.other
  have crowds : Crowds _ _ _ _ _ _ (w.registry.insert x.record x.carrier x.origin w.next x.now) :=
    crowded.1.insert crowded.2
  have quota := (insert_settings x.record x.carrier x.origin w.next x.now w.registry).quota
  unfold Rivals.announce
  generalize w.registry.insert x.record x.carrier x.origin w.next x.now = result at crowds quota ⊢
  cases crowds with
  | refused why cause =>
    refine ⟨⟨differ.symm, shared, ?_⟩, fun s h found _ => found⟩
    rcases level with even | behind | ⟨ahead, few⟩
    · exact .inl even.symm
    · refine .inr (.inr ⟨behind, ?_⟩)
      rcases cause with over_ | few
      · omega
      · exact few
    · exact .inr (.inl ahead)
  | swapped share s h held more most newest =>
    have counts : ∀ issuer, ((w.registry.evict s).place x.record x.carrier _ w.next x.now).heldBy
      issuer + _ = _ :=
      swapped_heldBy held crowded.2 (effectiveLifetime x.record.kind x.origin)
    have mine := counts w.next
    have theirs := counts w.other
    have foreign : h.issuer ≠ w.next := fun same => by rw [same] at more; omega
    have third : h.issuer ≠ w.other := fun same => by rw [same] at more; omega
    rw [if_neg foreign, if_pos rfl] at mine
    rw [if_neg third, if_neg differ] at theirs
    refine ⟨⟨differ.symm, fun issuer => ?_, ?_⟩, fun s' h' found rival => ?_⟩
    · have here := counts issuer
      have bound := shared issuer
      dsimp only at quota ⊢
      by_cases same : w.next = issuer
      · rw [← same] at here ⊢
        omega
      · rw [if_neg same] at here
        omega
    · dsimp only
      rcases level with even | behind | ⟨ahead, few⟩
      · exact .inr (.inl (by omega))
      · exact .inl (by omega)
      · have bound := few h.issuer
        omega
    · refine (swapped_lookup held _ ?_).trans ((if_neg ?_).trans found)
      · rintro rfl
        rw [crowded.2] at found
        cases found
      · rintro rfl
        cases held.symm.trans found
        exact rival.elim foreign third

theorem Level.reached (run : Reaches step crowded w w') (level : Level w) :
    Level w' ∧ (w'.next = w.next ∧ w'.other = w.other ∨ w'.next = w.other ∧ w'.other = w.next) := by
  refine run.invariant (P := fun v => Level v ∧
    (v.next = w.next ∧ v.other = w.other ∨ v.next = w.other ∧ v.other = w.next)) ?_ ⟨level, .inl ⟨rfl, rfl⟩⟩
  rintro x v _ guard ⟨⟩ ⟨level, turns⟩
  exact ⟨(level.announce guard).1, turns.symm.imp And.symm And.symm⟩

end Rivals

end Rivals

theorem place_admitted (held : r.held.lookup record.sessionId = some h)
    (lifetime : Option Nat) (s : SessionId) :
    ((r.place record carrier lifetime issuer now).held.lookup s).map (·.admitted) =
      (r.held.lookup s).map (·.admitted) := by
  unfold place
  rw [held]
  rw [Table.lookup_insert_if]
  split
  · next same => rw [same, held, map_some, map_some]
  · rfl

/-- In a registry whose issuers keep to their quotas: a new session announced while the registry is
full of online sessions is taken exactly when its issuer is below its quota and some issuer holds
two more; then the newest session of the issuers that hold the most goes, and its issuer keeps as
many as the newcomer has. A newer record of a held session leaves every place in the order as it
was. Two issuers with equal counts that announce new sessions in turn never lose one to each
other. -/
theorem registry_shares_fair (r : PresenceRegistry) (shared : ∀ issuer, r.heldBy issuer ≤ r.perIssuerQuota) :
    (∀ record carrier origin issuer now, Crowded r now → r.held.lookup record.sessionId = none →
      let offered := r.insert record carrier origin issuer now
      let n := r.heldBy issuer
      ((∃ lifetime, offered.1 = .accepted lifetime) ↔ n < r.perIssuerQuota ∧ ∃ other, n + 2 ≤ r.heldBy other) ∧
      ((∃ lifetime, offered.1 = .accepted lifetime) → ∃ s h, r.held.lookup s = some h ∧
        (∀ other, r.heldBy other ≤ r.heldBy h.issuer) ∧
        (∀ s' h', r.held.lookup s' = some h' → r.heldBy h'.issuer = r.heldBy h.issuer →
          h'.admitted ≤ h.admitted) ∧
        (∀ s', s' ≠ record.sessionId → offered.2.held.lookup s' = if s' = s then none else r.held.lookup s') ∧
        offered.2.heldBy issuer = n + 1 ∧ n + 1 ≤ offered.2.heldBy h.issuer)) ∧
    (∀ record carrier origin issuer now, (r.held.lookup record.sessionId).isSome → ∀ s,
      ((r.insert record carrier origin issuer now).2.held.lookup s).map (·.admitted) =
        (r.held.lookup s).map (·.admitted)) ∧
    (∀ a b, a ≠ b → r.heldBy a = r.heldBy b → ∀ last, Reaches Rivals.step Rivals.crowded ⟨r, a, b⟩ last →
      ∀ x, Rivals.crowded x last → ∀ s h, last.registry.held.lookup s = some h →
        h.issuer = a ∨ h.issuer = b → (last.announce x).registry.held.lookup s = some h) := by
  refine ⟨fun record carrier origin issuer now crowded fresh => ?_,
    fun record carrier origin issuer now known s => ?_,
    fun a b differ even last run x guard s h found rival => ?_⟩
  · have crowds : Crowds _ _ _ _ _ _ (r.insert record carrier origin issuer now) := crowded.insert fresh
    generalize r.insert record carrier origin issuer now = result at crowds ⊢
    cases crowds with
    | refused why cause =>
      refine ⟨⟨?_, fun room => ?_⟩, ?_⟩
      · rintro ⟨_, ⟨⟩⟩
      · obtain ⟨share, other, more⟩ := room
        rcases cause with over_ | few
        · omega
        · exact absurd more (Nat.not_le.mpr (few other))
      · rintro ⟨_, ⟨⟩⟩
    | swapped share s h held more most newest =>
      have counts : ∀ other, ((r.evict s).place record carrier _ issuer now).heldBy other + _ = _ :=
        swapped_heldBy held fresh (effectiveLifetime record.kind origin)
      have mine := counts issuer
      have theirs := counts h.issuer
      have foreign : h.issuer ≠ issuer := fun same => by rw [same] at more; omega
      rw [if_neg foreign, if_pos rfl] at mine
      rw [if_pos rfl] at theirs
      refine ⟨⟨fun _ => ⟨share, h.issuer, more⟩, fun _ => ⟨_, rfl⟩⟩,
        fun _ => ⟨s, h, held, most, newest, ?_, mine, ?_⟩⟩
      · exact fun s' other => swapped_lookup held _ other
      · dsimp only
        omega
  · have inserted := insert_inserted record carrier origin issuer now r
    generalize r.insert record carrier origin issuer now = result at inserted ⊢
    cases inserted with
    | late => rfl
    | refused _ fresh _ | taken fresh _ =>
      rw [fresh] at known
      cases known
    | renewed h found seq => exact place_admitted found _ s
  · obtain ⟨level, turns⟩ := Rivals.Level.reached run ⟨differ, shared, .inl even⟩
    refine (level.announce guard).2 s h found ?_
    rcases turns with ⟨first, second⟩ | ⟨first, second⟩
    · rw [first, second]
      exact rival
    · rw [first, second]
      exact rival.symm

section Sample

open AuthorizationEngine

/-- Two sessions from inside the implementation fill the registry, and a peer announces a third. -/
theorem registry_shares_fair_sample : ∃ (r : PresenceRegistry) (record : PresenceRecord), Crowded r 0 ∧
    (∃ lifetime, (r.insert record 0 .otherImplementation (some samplePeerKey) 0).1 = .accepted lifetime) ∧
      (r.insert record 0 .otherImplementation (some samplePeerKey) 0).2.heldBy (some samplePeerKey) = 1 := by
  have performed : ((PresenceRecord.fromJson (.object (sampleAnnouncement (sampleSession 5) 1))).toOption.bind
      fun record => (performWithin step (fun call r => sharesKept call r = true)
        [announced 3, announced 4] (withLimits 2 2)).map fun r =>
          ([r.capacity, r.len, r.heldBy (some samplePeerKey), r.perIssuerQuota, r.heldBy none], r.ended.keys,
            r.held.entries.all fun e => e.2.state 0 = .online, (r.held.lookup record.sessionId).isSome)) =
      some ([2, 2, 0, 2, 2], [], true, false) := by decide +kernel
  obtain ⟨record, -, performed⟩ := bind_eq_some_iff.mp performed
  obtain ⟨r, reached, found⟩ := reachedWithin_of_map _ performed
  simp only [Prod.mk.injEq, cons.injEq, and_true] at found
  obtain ⟨⟨capacity, len, none_, quota, two⟩, ended, online, fresh⟩ := found
  have shared : Shared r := reached.invariant
    (fun _ _ _ guard stepped shared => Shared.step shared guard stepped) (Shared.withLimits 2 2)
  have crowded : Crowded r 0 := by
    refine ⟨by omega, ended, fun s h held => ?_⟩
    simpa using all_eq_true.mp online ⟨s, h⟩ (AList.mem_lookup_iff.mp held)
  obtain ⟨taken, swaps⟩ := (registry_shares_fair r shared).1 record 0 .otherImplementation
    (some samplePeerKey) 0 crowded (by simpa using fresh)
  have accepted := taken.mpr ⟨by omega, none, by omega⟩
  obtain ⟨s, h, -, -, -, -, one, -⟩ := swaps accepted
  exact ⟨r, record, crowded, accepted, by rw [one, none_]⟩

end Sample

end Oac.PresenceRegistry
