import Oac.Presence

/-! The registry's own sessions: only a registration adds one, only its end removes one, and a
record from elsewhere leaves them as they are. -/

namespace Oac.PresenceRegistry

/-- The list of forgotten sessions has a place and no more entries than places. -/
structure Lists (r : PresenceRegistry) : Prop where
  places : 0 < r.capacity
  length : r.forgotten.length ≤ r.capacity

theorem Lists.note (lists : Lists r) (s : SessionId) (held : Table SessionId HeldPresence)
    (ended : Table SessionId Unit) : Lists ({ r with held := held, ended := ended }.noteForgotten s) := by
  have places := lists.places
  have length := lists.length
  refine ⟨places, ?_⟩
  simp only [noteForgotten, List.length_append, List.length_singleton]
  split
  · rw [List.length_drop]
    omega
  · omega

/-- Own sessions and limits are as they were, and the list of forgotten sessions keeps to its
bound. -/
structure SameSettings (r r' : PresenceRegistry) : Prop where
  own : r'.own = r.own
  capacity : r'.capacity = r.capacity
  quota : r'.perIssuerQuota = r.perIssuerQuota
  lists : Lists r → Lists r'

theorem SameSettings.refl (r : PresenceRegistry) : SameSettings r r := ⟨rfl, rfl, rfl, id⟩

theorem SameSettings.trans (first : SameSettings r r') (second : SameSettings r' r'') : SameSettings r r'' :=
  ⟨second.own.trans first.own, second.capacity.trans first.capacity, second.quota.trans first.quota,
    second.lists ∘ first.lists⟩

theorem SameSettings.foldl {f : PresenceRegistry → α → PresenceRegistry} (each : ∀ r a, SameSettings r (f r a))
    (items : List α) (r : PresenceRegistry) : SameSettings r (items.foldl f r) := by
  induction items generalizing r with
  | nil => exact .refl r
  | cons a rest ih => exact (each r a).trans (ih (f r a))

section

variable (r : PresenceRegistry) (issuer : Option KeyId) (now : Instant)

theorem evict_settings (s : SessionId) : SameSettings r (r.evict s) := by
  unfold evict
  split
  · exact ⟨rfl, rfl, rfl, fun lists => lists.note s _ _⟩
  · exact .refl r

theorem sweep_settings : SameSettings r (r.sweep now) :=
  SameSettings.foldl (f := sweepOne) (fun _ s => ⟨rfl, rfl, rfl, fun lists => lists.note s _ _⟩) _ _

theorem makeIssuerRoom_settings : SameSettings r (r.makeIssuerRoom issuer now) := by
  unfold makeIssuerRoom
  split
  · exact .foldl evict_settings _ _
  · exact .refl r

variable (r : PresenceRegistry) (issuer : Option KeyId) (now : Instant) in
/-- The ways a registry that dropped withdrawn entries of `issuer` makes room for a session of it,
or fails to. -/
inductive Made : Except PresenceDiscard Unit × PresenceRegistry → Prop
  | overQuota (quota : r.perIssuerQuota ≤ r.heldBy issuer) : Made (.error .issuerQuota, r)
  | free (share : r.heldBy issuer < r.perIssuerQuota) (room : r.len < r.capacity) : Made (.ok (), r)
  | swept (share : r.heldBy issuer < r.perIssuerQuota) (room : (r.sweep now).len < (r.sweep now).capacity) :
      Made (.ok (), r.sweep now)
  | full (before : r.capacity ≤ r.len) (after : (r.sweep now).capacity ≤ (r.sweep now).len) :
      Made (.error .full, r.sweep now)
  | evicted (victim : SessionId) (most : Nat) (share : r.heldBy issuer < r.perIssuerQuota)
      (chosen : (r.sweep now).newestOf most = some victim) : Made (.ok (), (r.sweep now).evict victim)

theorem makeRoom_made : Made (r.makeIssuerRoom issuer now) issuer now (r.makeRoom issuer now) := by
  unfold makeRoom
  dsimp only
  split
  · next quota => exact .overQuota quota
  next share =>
  split
  · next room => exact .free (by omega) room
  next full =>
  split
  · next room => exact .swept (by omega) room
  next stillFull =>
  split
  · exact .full (by omega) (by omega)
  split
  · next victim chosen => exact .evicted victim _ (by omega) chosen
  · exact .full (by omega) (by omega)

theorem makeRoom_settings : SameSettings r (r.makeRoom issuer now).2 := by
  have issuerRoom := r.makeIssuerRoom_settings issuer now
  have swept := issuerRoom.trans ((r.makeIssuerRoom issuer now).sweep_settings now)
  have made := r.makeRoom_made issuer now
  generalize r.makeRoom issuer now = result at made ⊢
  cases made with
  | overQuota | free => exact issuerRoom
  | swept | full => exact swept
  | evicted victim _ _ _ => exact swept.trans (evict_settings _ victim)

theorem place_settings (record : PresenceRecord) (carrier : CarrierHandle) (lifetime : Option Nat)
    (issuer : Option KeyId) (now : Instant) :
    SameSettings r (r.place record carrier lifetime issuer now) := by
  fun_cases place <;> exact ⟨rfl, rfl, rfl, fun lists => ⟨lists.places, lists.length⟩⟩

end

section Offering

variable (record : PresenceRecord) (carrier : CarrierHandle) (origin : RecordOrigin)
  (issuer : Option KeyId) (now : Instant)

variable (r : PresenceRegistry) in
/-- What offering a record comes to: it is not newer, or there is no room for its session, or it is
placed in the registry as it was, for a session already held, or with room made. -/
inductive Inserted : PresenceAcceptance × PresenceRegistry → Prop
  | late (h) (found : r.held.lookup record.sessionId = some h) (seq : record.seq ≤ h.record.seq) :
      Inserted (.discarded .notNewer, r)
  | refused (why) (fresh : r.held.lookup record.sessionId = none)
      (made : (r.makeRoom issuer now).1 = .error why) :
      Inserted (.discarded why, (r.makeRoom issuer now).2)
  | renewed (h) (found : r.held.lookup record.sessionId = some h) (seq : h.record.seq < record.seq) :
      Inserted (.accepted (effectiveLifetime record.kind origin),
        r.place record carrier (effectiveLifetime record.kind origin) issuer now)
  | taken (fresh : r.held.lookup record.sessionId = none) (made : (r.makeRoom issuer now).1 = .ok ()) :
      Inserted (.accepted (effectiveLifetime record.kind origin),
        (r.makeRoom issuer now).2.place record carrier (effectiveLifetime record.kind origin) issuer now)

theorem insert_inserted (r : PresenceRegistry) :
    Inserted record carrier origin issuer now r (r.insert record carrier origin issuer now) := by
  unfold PresenceRegistry.insert
  cases found : r.held.lookup record.sessionId with
  | some h =>
    dsimp only
    split
    · next seq => exact .late h found seq
    · next seq => exact .renewed h found (by omega)
  | none =>
    cases made : r.makeRoom issuer now with
    | mk answer room =>
      have second : room = (r.makeRoom issuer now).2 := by rw [made]
      cases answer with
      | error why =>
        rw [second]
        exact .refused why found (by rw [made])
      | ok done =>
        rw [second]
        exact .taken found (by rw [made])

theorem insert_settings (r : PresenceRegistry) :
    SameSettings r (r.insert record carrier origin issuer now).2 := by
  have inserted := insert_inserted record carrier origin issuer now r
  generalize r.insert record carrier origin issuer now = result at inserted ⊢
  cases inserted with
  | late => exact .refl r
  | refused => exact r.makeRoom_settings issuer now
  | renewed => exact place_settings r _ _ _ _ _
  | taken => exact (r.makeRoom_settings issuer now).trans (place_settings _ _ _ _ _ _)

end Offering

variable (r : PresenceRegistry) (s s' : SessionId)

theorem after_own (op : Op) : (r.after op).own = r.own := by
  cases op with
  | accept | acceptSigned => exact (insert_settings _ _ _ _ _ r).own
  | carrierLoss carrier => rfl
  | forget session now =>
    simp only [after, PresenceRegistry.forget]
    split
    · rfl
    · rfl
  | takeForgotten => rfl

theorem forgetEnded_settings : SameSettings r r.forgetEnded := by
  fun_cases forgetEnded
  · exact ⟨rfl, rfl, rfl, fun lists => lists.note _ _ _⟩
  · exact .refl r
  · exact .refl r

theorem deregisterOwn_own : (r.deregisterOwn s).2.own.lookup s' = if s' = s then none
    else r.own.lookup s' := by
  cases held : r.own.lookup s with
  | none =>
    simp only [deregisterOwn, held]
    split
    · next same => rw [same, held]
    · rfl
  | some o =>
    simp only [deregisterOwn, held, (forgetEnded_settings _).own]
    exact Table.lookup_erase_if s s' _

theorem registerOwn_own (d : SessionDescriptor) (s : SessionId) :
    (r.registerOwn d).own.lookup s =
      if s = d.sessionId then some ⟨d, (r.own.lookup d.sessionId).any (·.withheld)⟩ else r.own.lookup s :=
  Table.lookup_insert_if _ _ _ _

end Oac.PresenceRegistry
