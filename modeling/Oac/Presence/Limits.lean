import Oac.Presence.Bindings

/-! The limits of the presence registry over whole runs: how many sessions it holds, how many of
them one issuer holds, and what a record it discards leaves behind. -/

namespace Oac.PresenceRegistry

open Table PresenceRegistry Transition
open List hiding sum

variable {r r' : PresenceRegistry}

section Counting

theorem heldBy_eq_sum (r : PresenceRegistry) (issuer : Option KeyId) :
    r.heldBy issuer = sum (fun _ h => if h.issuer = issuer then 1 else 0) r.held := by
  unfold heldBy sum
  induction r.held.entries with
  | nil => rfl
  | cons e rest ih =>
    rw [countP_cons, ih, map_cons, sum_cons, Nat.add_comm]
    simp only [beq_iff_eq]

theorem Sheds.heldBy_le (sheds : Sheds r r') (issuer : Option KeyId) : r'.heldBy issuer ≤ r.heldBy issuer := by
  rw [heldBy_eq_sum, heldBy_eq_sum]
  exact sum_le_of_lookup sheds.held

theorem Sheds.len_le (sheds : Sheds r r') : r'.len ≤ r.len :=
  Nat.add_le_add sheds.held_le (size_le_of_keys sheds.ended)

theorem evict_len (found : r.held.lookup s = some h) : (r.evict s).len < r.len := by
  have ended : (r.evict s).ended = r.ended := by
    unfold evict
    rw [found]
    rfl
  have size := evict_size found
  unfold len
  rw [ended]
  omega

theorem makeRoom_len (bounded : r.len ≤ r.capacity) (found : (r.makeRoom issuer now).1 = .ok ()) :
    (r.makeRoom issuer now).2.len < r.capacity :=
  makeRoom_free len (fun _ => Nat.le_refl _) Sheds.len_le evict_len bounded found

theorem makeRoom_share (found : (r.makeRoom issuer now).1 = .ok ()) :
    (r.makeRoom issuer now).2.heldBy issuer < r.perIssuerQuota := by
  have quota := (r.makeIssuerRoom_settings issuer now).quota
  have swept := (r.makeIssuerRoom issuer now).sweep_sheds now
  have made := r.makeRoom_made issuer now
  generalize r.makeRoom issuer now = result at made found ⊢
  cases made with
  | overQuota _ => cases found
  | free share _ =>
    rw [quota] at share
    exact share
  | swept share _ =>
    rw [quota] at share
    exact Nat.lt_of_le_of_lt (swept.heldBy_le issuer) share
  | full _ _ => cases found
  | evicted victim _ share _ =>
    rw [quota] at share
    exact Nat.lt_of_le_of_lt ((swept.trans (evict_sheds _ victim)).heldBy_le issuer) share

end Counting

section Listing

theorem Lists.of_same (lists : Lists r) (capacity : r'.capacity = r.capacity)
    (forgotten : r'.forgotten = r.forgotten) : Lists r' := by
  refine ⟨capacity ▸ lists.places, ?_⟩
  rw [forgotten, capacity]
  exact lists.length

end Listing

section Offering

variable (record : PresenceRecord) (carrier : CarrierHandle) (origin : RecordOrigin)
  (issuer : Option KeyId) (now : Instant)

theorem place_len (r : PresenceRegistry) (lifetime : Option Nat) :
    (r.place record carrier lifetime issuer now).len ≤ r.len + 1 ∧
      ((r.held.lookup record.sessionId).isSome → (r.place record carrier lifetime issuer now).len ≤ r.len) := by
  have ended : (r.place record carrier lifetime issuer now).ended = r.ended := by
    fun_cases place <;> rfl
  obtain ⟨more, same⟩ := r.place_size record carrier lifetime issuer now
  unfold len
  rw [ended]
  exact ⟨by omega, fun known => Nat.add_le_add_right (same known) _⟩

theorem place_heldBy (r : PresenceRegistry) (lifetime : Option Nat) (other : Option KeyId) :
    (r.place record carrier lifetime issuer now).heldBy other +
        (r.held.lookup record.sessionId).elim 0 (fun h => if h.issuer = other then 1 else 0) =
      r.heldBy other + if issuer = other then 1 else 0 := by
  have changed : ∃ h : HeldPresence, h.issuer = issuer ∧
    ∀ s, (r.place record carrier lifetime issuer now).held.lookup s =
      if s = record.sessionId then some h else r.held.lookup s := by
    fun_cases place <;> exact ⟨_, rfl, fun s => lookup_insert_if _ _ _ _⟩
  obtain ⟨h, same, held⟩ := changed
  have updated := sum_update (f := fun _ h => if h.issuer = other then 1 else 0) held
  rw [Option.elim_some, same] at updated
  rw [heldBy_eq_sum, heldBy_eq_sum]
  exact updated

theorem insert_len (r : PresenceRegistry) (bounded : r.len ≤ r.capacity) :
    (r.insert record carrier origin issuer now).2.len ≤ r.capacity := by
  have inserted := insert_inserted record carrier origin issuer now r
  generalize r.insert record carrier origin issuer now = result at inserted ⊢
  cases inserted with
  | late _ _ _ => exact bounded
  | refused _ _ _ => exact Nat.le_trans (r.makeRoom_sheds issuer now).len_le bounded
  | renewed h found _ =>
    exact Nat.le_trans ((place_len record carrier issuer now r _).2 (by rw [found]; rfl)) bounded
  | taken _ made =>
    have free := makeRoom_len bounded made
    have more := (place_len record carrier issuer now (r.makeRoom issuer now).2
      (effectiveLifetime record.kind origin)).1
    exact Nat.le_trans more free

end Offering

variable {guard : Call → PresenceRegistry → Prop}

section Capacity

theorem carrierLoss_sum (same : ∀ s h, f s (HeldPresence.lose carrier h) = f s h)
    (r : PresenceRegistry) : sum f (r.carrierLoss carrier).held = sum f r.held := by
  have kept : ∀ (sessions : List SessionId) (held : Table SessionId HeldPresence),
      sum f (sessions.foldl (fun held s => modify s (HeldPresence.lose carrier) held) held) = sum f held := by
    intro sessions
    induction sessions with
    | nil => exact fun _ => rfl
    | cons s rest ih =>
      intro held
      rw [foldl_cons, ih, sum_modify held (same s)]
  exact kept _ _

theorem forgetEnded_len (bounded : r.len ≤ r.capacity)
    (room : r.len < r.capacity ∨ r.ended.keys ≠ []) : r.forgetEnded.len < r.capacity := by
  unfold forgetEnded
  split
  · next full =>
    cases first : (sortedKeys r.ended.keys).head? with
    | none =>
      have nothing : r.ended.keys = [] := by
        refine eq_nil_iff_forall_not_mem.mpr fun s mem => ?_
        have listed := mem_sortedKeys.mpr mem
        rw [head?_eq_none_iff.mp first] at listed
        cases listed
      rcases room with less | some_
      · omega
      · exact absurd nothing some_
    | some evicted =>
      have mem : evicted ∈ r.ended.keys := mem_sortedKeys.mp (mem_of_head? first)
      obtain ⟨u, present⟩ := Option.isSome_iff_exists.mp (AList.lookup_isSome.mpr mem)
      have smaller := size_erase_of_lookup_some present
      have others := size_erase_le evicted r.held
      change size (r.held.erase evicted) + size (r.ended.erase evicted) < r.capacity
      unfold len at bounded
      omega
  · next free => omega

/-- No own session ends in a registry that is full and has no ended session to forget. -/
def endsWithRoom : Call → PresenceRegistry → Prop
  | .deregisterOwn session, r => (r.own.lookup session).isSome → r.len < r.capacity ∨ r.ended.keys ≠ []
  | _, _ => True

instance : ∀ call r, Decidable (endsWithRoom call r)
  | .deregisterOwn _, _ => inferInstanceAs (Decidable (_ → _))
  | .registerOwn _, _ | .setWithheld _ _, _ | .acceptJson _ _ _ _, _ | .on _, _ => .isTrue trivial

/-- The limits of a registry with `capacity` places. -/
structure Fits (capacity : Nat) (r : PresenceRegistry) : Prop where
  capacity : r.capacity = capacity
  len : r.len ≤ r.capacity
  lists : Lists r

namespace Fits

variable {capacity : Nat}

section

variable (fits : Fits capacity r)

include fits

theorem insert (record : PresenceRecord) (carrier : CarrierHandle) (origin : RecordOrigin)
    (issuer : Option KeyId) (now : Instant) : Fits capacity (r.insert record carrier origin issuer now).2 := by
  have same := (insert_settings record carrier origin issuer now r).capacity
  refine ⟨same.trans fits.capacity, ?_, (insert_settings _ _ _ _ _ r).lists fits.lists⟩
  rw [same]
  exact insert_len record carrier origin issuer now r fits.len

theorem shrink (same : r'.capacity = r.capacity) (fewer : r'.len ≤ r.len)
    (forgotten : r'.forgotten = r.forgotten) : Fits capacity r' := by
  refine ⟨same.trans fits.capacity, ?_, fits.lists.of_same same forgotten⟩
  rw [same]
  exact Nat.le_trans fewer fits.len

theorem deregisterOwn (session : SessionId)
    (room : (r.own.lookup session).isSome → r.len < r.capacity ∨ r.ended.keys ≠ []) :
    Fits capacity (r.deregisterOwn session).2 := by
  unfold PresenceRegistry.deregisterOwn
  cases found : r.own.lookup session with
  | none => exact fits
  | some o =>
    have removed : Fits capacity { r with own := r.own.erase session } := fits.shrink rfl (Nat.le_refl _) rfl
    have free : ({ r with own := r.own.erase session } : PresenceRegistry).forgetEnded.len < r.capacity :=
      forgetEnded_len removed.len (room (by rw [found]; rfl))
    have settings := forgetEnded_settings { r with own := r.own.erase session }
    have same := settings.capacity
    have lists := settings.lists removed.lists
    generalize ({ r with own := r.own.erase session } : PresenceRegistry).forgetEnded =
      left at free settings same lists ⊢
    refine ⟨same.trans fits.capacity, ?_, lists.of_same rfl rfl⟩
    have more : size (left.ended.insert session ()) ≤ left.ended.size + 1 :=
      size_le_succ_of_keys fun s present => by
        rw [lookup_insert_if] at present
        split at present
        · next here => exact .inl here
        · exact .inr present
    change left.held.size + size (left.ended.insert session ()) ≤ left.capacity
    rw [same]
    unfold PresenceRegistry.len at free
    change _ ≤ r.capacity
    omega

theorem after (op : Op) : Fits capacity (r.after op) := by
  cases op with
  | accept | acceptSigned => exact fits.insert _ _ _ _ _
  | carrierLoss carrier =>
    refine fits.shrink rfl (Nat.add_le_add_right (size_le_of_keys fun s present => ?_) _) rfl
    rw [← r.carrierLoss_held carrier]
    exact present
  | forget session now =>
    simp only [PresenceRegistry.after, PresenceRegistry.forget]
    split
    · exact fits
    · exact fits.shrink rfl (Nat.add_le_add (size_erase_le _ _) (size_erase_le _ _)) rfl
  | takeForgotten => exact ⟨fits.capacity, fits.len, ⟨fits.lists.places, Nat.zero_le _⟩⟩

theorem step (room : endsWithRoom call r)
    (stepped : step call r = some r') : Fits capacity r' := by
  cases call with
  | registerOwn descriptor =>
    cases stepped
    exact fits.shrink rfl (Nat.add_le_add_left (size_erase_le _ _) _) rfl
  | setWithheld session withheld =>
    cases stepped
    fun_cases setWithheld
    · exact fits.shrink rfl (Nat.le_refl _) rfl
    · exact fits
  | deregisterOwn session =>
    cases stepped
    exact fits.deregisterOwn session room
  | acceptJson record carrier origin now =>
    cases stepped
    unfold acceptJson
    split
    · exact fits.insert _ _ _ _ _
    · exact fits
  | on op =>
    cases stepped
    exact fits.after op

end

theorem of_run (room : ∀ call r, guard call r → endsWithRoom call r)
    (run : Reaches PresenceRegistry.step guard (withLimits capacity quota) last) :
    Fits (max capacity 1) last :=
  run.invariant (fun _ _ _ guarded stepped fits => Fits.step fits (room _ _ guarded) stepped)
    ⟨rfl, Nat.zero_le _, ⟨Nat.le_max_right _ _, Nat.zero_le _⟩⟩

end Fits

/-- In a run in which every own session ends with room for it, the registry never holds more
sessions besides the own bound ones than its capacity, nor lists more forgotten ones. -/
theorem sessions_within_capacity (capacity quota : Nat) (last : PresenceRegistry)
    (run : Reaches step endsWithRoom (withLimits capacity quota) last) :
    last.capacity = max capacity 1 ∧ last.len ≤ last.capacity ∧ last.forgotten.length ≤ last.capacity := by
  have fits := Fits.of_run (fun _ _ room => room) run
  exact ⟨fits.capacity, fits.len, fits.lists.length⟩

end Capacity

section Shares

/-- The issuer of a record that replaces one of another issuer is below its quota. -/
def movesWithinQuota (r : PresenceRegistry) (record : PresenceRecord) (issuer : Option KeyId) : Bool :=
  (r.held.lookup record.sessionId).all fun h => h.issuer == issuer ||
    decide (r.heldBy issuer < r.perIssuerQuota)

/-- No call gives a session to an issuer that holds its quota already. -/
def sharesKept : Call → PresenceRegistry → Bool
  | .acceptJson v _ _ _, r => (PresenceRecord.fromJson v).toOption.all (r.movesWithinQuota · none)
  | .on (.accept record _ _ _), r => r.movesWithinQuota record none
  | .on (.acceptSigned record _ issuer _), r => r.movesWithinQuota record (some issuer)
  | _, _ => true

def Shared (r : PresenceRegistry) : Prop := ∀ issuer, r.heldBy issuer ≤ r.perIssuerQuota

namespace Shared

section

variable (shared : Shared r)

include shared

theorem of_held (held : r'.held = r.held) (quota : r'.perIssuerQuota = r.perIssuerQuota) :
    Shared r' := by
  intro issuer
  unfold heldBy
  rw [held, quota]
  exact shared issuer

theorem insert (carrier : CarrierHandle) (origin : RecordOrigin) (now : Instant)
    (moves : r.movesWithinQuota record issuer = true) :
    Shared (r.insert record carrier origin issuer now).2 := by
  intro other
  rw [(insert_settings _ _ _ _ _ r).quota]
  have inserted := insert_inserted record carrier origin issuer now r
  generalize r.insert record carrier origin issuer now = result at inserted ⊢
  cases inserted with
  | late _ _ _ => exact shared other
  | refused _ _ _ => exact Nat.le_trans ((r.makeRoom_sheds issuer now).heldBy_le other) (shared other)
  | renewed h found _ =>
    have placed := place_heldBy record carrier issuer now r (effectiveLifetime record.kind origin) other
    have within := shared other
    rw [movesWithinQuota, found, Option.all_some, Bool.or_eq_true, beq_iff_eq, decide_eq_true_eq] at moves
    rw [found, Option.elim_some] at placed
    rcases moves with same | below
    · rw [same] at placed
      dsimp only
      omega
    · by_cases mine : issuer = other
      · subst mine
        rw [if_pos (rfl : issuer = issuer)] at placed
        dsimp only
        omega
      · rw [if_neg mine] at placed
        dsimp only
        omega
  | taken fresh made =>
    have placed := place_heldBy record carrier issuer now (r.makeRoom issuer now).2
      (effectiveLifetime record.kind origin) other
    have less := (r.makeRoom_sheds issuer now).heldBy_le other
    have within := shared other
    by_cases mine : issuer = other
    · subst mine
      have below := makeRoom_share made
      rw [if_pos rfl] at placed
      dsimp only
      omega
    · rw [if_neg mine] at placed
      dsimp only
      omega

theorem erase (held : r'.held = r.held.erase s) (quota : r'.perIssuerQuota = r.perIssuerQuota) :
    Shared r' := by
  intro issuer
  rw [quota]
  refine Nat.le_trans ?_ (shared issuer)
  rw [heldBy_eq_sum, heldBy_eq_sum, held]
  refine sum_le_of_lookup fun k v found => ?_
  rw [lookup_erase_if] at found
  split at found
  · cases found
  · exact found

theorem carrierLoss (carrier : CarrierHandle) : Shared (r.carrierLoss carrier) := by
  intro issuer
  have same : ∀ h, (HeldPresence.lose carrier h).issuer = h.issuer := by
    intro h
    fun_cases HeldPresence.lose <;> rfl
  have kept : sum (fun _ h => if h.issuer = issuer then 1 else 0) (r.carrierLoss carrier).held = _ :=
    carrierLoss_sum (fun _ h => by rw [same]) r
  rw [heldBy_eq_sum, kept, ← heldBy_eq_sum]
  exact shared issuer

theorem setWithheld (session : SessionId) (withheld : Bool) :
    Shared (r.setWithheld session withheld).2 := by
  unfold PresenceRegistry.setWithheld
  split
  · exact shared.of_held rfl rfl
  · exact shared

theorem deregisterOwn (session : SessionId) : Shared (r.deregisterOwn session).2 := by
  unfold PresenceRegistry.deregisterOwn
  split
  · have removed : Shared { r with own := r.own.erase session } := shared.of_held rfl rfl
    unfold forgetEnded
    split
    · split
      · exact removed.erase rfl rfl
      · exact removed.of_held rfl rfl
    · exact removed.of_held rfl rfl
  · exact shared

theorem step (shares : sharesKept call r = true)
    (stepped : step call r = some r') : Shared r' := by
  cases call with
  | registerOwn descriptor =>
    cases stepped
    exact shared.of_held rfl rfl
  | setWithheld session withheld =>
    cases stepped
    exact shared.setWithheld session withheld
  | deregisterOwn session =>
    cases stepped
    exact shared.deregisterOwn session
  | acceptJson v carrier origin now =>
    cases stepped
    unfold acceptJson
    dsimp only [sharesKept] at shares
    split
    · next record read =>
      rw [read] at shares
      exact shared.insert carrier origin now shares
    · exact shared
  | on op =>
    cases stepped
    cases op with
    | accept record carrier origin now => exact shared.insert carrier origin now shares
    | acceptSigned record carrier issuer now => exact shared.insert carrier _ now shares
    | carrierLoss carrier => exact shared.carrierLoss carrier
    | forget session now =>
      simp only [after, forget]
      split
      · exact shared
      · exact shared.erase rfl rfl
    | takeForgotten => exact shared.of_held rfl rfl

end

theorem withLimits (capacity quota : Nat) : Shared (.withLimits capacity quota) :=
  fun _ => Nat.zero_le _

theorem of_run {capacity : Nat}
    (shares : ∀ call r, guard call r → sharesKept call r = true)
    (run : Reaches PresenceRegistry.step guard (.withLimits capacity quota) last) : Shared last :=
  run.invariant (fun _ _ _ guarded stepped shared =>
    Shared.step shared (shares _ _ guarded) stepped) (Shared.withLimits capacity quota)

end Shared

end Shares

section Discarding

theorem foldl_evict (sessions : List SessionId) (r : PresenceRegistry) (s : SessionId) :
    (sessions.foldl evict r).held.lookup s = if s ∈ sessions then none else r.held.lookup s := by
  induction sessions generalizing r with
  | nil => simp
  | cons first rest ih =>
    have here : (r.evict first).held.lookup s = if s = first then none else r.held.lookup s := by
      unfold evict
      split
      · exact lookup_erase_if first s r.held
      · next absent =>
        split
        · next same => rw [same, absent]
        · rfl
    rw [foldl_cons, ih, here]
    by_cases same : s = first
    · simp [same]
    · simp [same]

theorem makeIssuerRoom_cases (share : r.heldBy issuer ≤ r.perIssuerQuota) (now : Instant) :
    r.makeIssuerRoom issuer now = r ∨
      (r.makeIssuerRoom issuer now).heldBy issuer < r.perIssuerQuota ∧
        (r.makeIssuerRoom issuer now).len < r.len := by
  have sheds := r.makeIssuerRoom_sheds issuer now
  unfold makeIssuerRoom at sheds ⊢
  split
  · next atQuota =>
    rw [if_pos atQuota] at sheds
    generalize listed :
      (r.held.entries.filter fun e => e.2.issuer == issuer && e.2.state now ≠ .online).map (·.1) =
      stale at sheds ⊢
    cases stale with
    | nil => exact .inl rfl
    | cons s rest =>
      refine .inr ?_
      have mem : s ∈ (r.held.entries.filter fun e => e.2.issuer == issuer &&
          e.2.state now ≠ .online).map (·.1) := by
        rw [listed]
        exact mem_cons_self
      obtain ⟨e, filtered, rfl⟩ := mem_map.mp mem
      obtain ⟨held, mine⟩ := mem_filter.mp filtered
      simp only [Bool.and_eq_true, beq_iff_eq] at mine
      have present : r.held.lookup e.1 = some e.2 := AList.mem_lookup_iff.mpr held
      have gone : ((e.1 :: rest).foldl evict r).held.lookup e.1 = none := by
        rw [foldl_evict, if_pos mem_cons_self]
      constructor
      · have fewer := sum_add_le_of_lookup (f := fun _ h => if h.issuer = issuer then 1 else 0)
          sheds.held gone present
        rw [if_pos mine.1, ← heldBy_eq_sum, ← heldBy_eq_sum] at fewer
        omega
      · refine Nat.add_lt_add_of_lt_of_le (size_lt_of_keys (fun k found => ?_) gone (by rw [present]; rfl))
          (size_le_of_keys sheds.ended)
        obtain ⟨h, found⟩ := Option.isSome_iff_exists.mp found
        rw [sheds.held k h found]
        rfl
  · exact .inl rfl

theorem sweep_cases (r : PresenceRegistry) (now : Instant) : r.sweep now = r ∨ (r.sweep now).len < r.len := by
  have held := r.sweep_held now
  have ended := r.sweep_ended now
  by_cases nothing : r.stale now = [] ∧ r.ended.keys = []
  · left
    rw [sweep_eq, nothing.1, nothing.2]
    rfl
  · right
    have some_ : 0 < (r.stale now).length + r.ended.size := by
      rw [size_eq_keys_length]
      by_contra none_
      exact nothing ⟨length_eq_zero_iff.mp (by omega), length_eq_zero_iff.mp (by omega)⟩
    unfold len
    omega

theorem makeRoom_error (bounded : r.len ≤ r.capacity) (share : r.heldBy issuer ≤ r.perIssuerQuota)
    (failed : (r.makeRoom issuer now).1 = .error why) : (r.makeRoom issuer now).2 = r := by
  have quota := (r.makeIssuerRoom_settings issuer now).quota
  have capacity := (r.makeIssuerRoom_sheds issuer now).capacity
  have made := r.makeRoom_made issuer now
  generalize r.makeRoom issuer now = result at made failed ⊢
  cases made with
  | overQuota exceeded =>
    rcases makeIssuerRoom_cases share now with same | ⟨below, _⟩
    · exact same
    · omega
  | free | swept => cases failed
  | full before after =>
    rcases makeIssuerRoom_cases share now with same | ⟨_, less⟩
    · rw [same] at before after ⊢
      rcases r.sweep_cases now with unswept | less
      · exact unswept
      · have kept := (r.sweep_sheds now).capacity
        omega
    · omega
  | evicted _ _ _ _ => cases failed

theorem insert_discarded (bounded : r.len ≤ r.capacity) (share : r.heldBy issuer ≤ r.perIssuerQuota)
    (discarded : (r.insert record carrier origin issuer now).1 = .discarded why) :
    (r.insert record carrier origin issuer now).2 = r := by
  have inserted := insert_inserted record carrier origin issuer now r
  generalize r.insert record carrier origin issuer now = result at inserted discarded ⊢
  cases inserted with
  | late _ _ _ => rfl
  | refused _ _ made => exact makeRoom_error bounded share made
  | renewed | taken => cases discarded

/-- A record that the registry discards changes nothing. -/
def DiscardsUnchanged (r : PresenceRegistry) : Prop :=
  ∀ carrier origin now why,
    (∀ record, (r.accept record carrier origin now).1 = .discarded why →
      (r.accept record carrier origin now).2 = r) ∧
    (∀ record issuer, (r.acceptSigned record carrier issuer now).1 = .discarded why →
      (r.acceptSigned record carrier issuer now).2 = r) ∧
    ∀ v, (r.acceptJson v carrier origin now).1 = .discarded why → (r.acceptJson v carrier origin now).2 = r

theorem discardsUnchanged (bounded : r.len ≤ r.capacity) (shared : Shared r) : r.DiscardsUnchanged := by
  intro carrier origin now why
  refine ⟨fun record => insert_discarded bounded (shared none),
    fun record issuer => insert_discarded bounded (shared (some issuer)), fun v => ?_⟩
  unfold acceptJson
  split
  · exact insert_discarded bounded (shared none)
  · exact fun _ => rfl

/-- In a registry within its limits, a record that is discarded changes nothing, and a run that
keeps to the conditions of both limits stays within them. -/
theorem discarded_changes_nothing (r : PresenceRegistry) :
    (r.len ≤ r.capacity → (∀ issuer, r.heldBy issuer ≤ r.perIssuerQuota) → r.DiscardsUnchanged) ∧
    ∀ capacity quota, Reaches step (fun call r => endsWithRoom call r ∧ sharesKept call r)
      (withLimits capacity quota) r → r.DiscardsUnchanged := by
  refine ⟨discardsUnchanged, fun capacity quota run => discardsUnchanged ?_ ?_⟩
  · exact (Fits.of_run (fun _ _ guard => guard.1) run).len
  · exact Shared.of_run (fun _ _ guard => guard.2) run

end Discarding

end Oac.PresenceRegistry

namespace Oac.Consumer

theorem shared_offer {c : Consumer} (shared : c.registry.Shared)
    (moves : c.registry.movesWithinQuota record (some key) = true) :
    (c.offer key record carrier now).2.registry.Shared := by
  have taken : (c.registry.acceptSigned record carrier key now).2.Shared := shared.insert carrier _ now moves
  unfold offer
  generalize c.registry.acceptSigned record carrier key now = accepted at taken
  obtain ⟨acceptance, registry⟩ := accepted
  cases acceptance with
  | accepted | discarded => exact taken.of_held rfl rfl

variable [Libraries]

/-- The signing key of a record that replaces one of another key is below its quota. -/
def sharesKept : Call → Run → Bool
  | .accept record _ _ _ _, run =>
    match run.consumer.engine.presenceSigner record.wire, record.about with
    | .ok key, some s => (run.consumer.registry.held.lookup s).all fun h => h.issuer == some key ||
        decide (run.consumer.registry.heldBy (some key) < run.consumer.registry.perIssuerQuota)
    | _, _ => true
  | _, _ => true

theorem shared_step (shared : run.consumer.registry.Shared)
    (shares : sharesKept call run = true) (stepped : step call run = some run') :
    run'.consumer.registry.Shared := by
  cases call with
  | accept record carrier clock again now =>
    cases stepped
    have took := run.consumer.accept_took record carrier clock again now
    generalize run.consumer.acceptAuthenticatedRecord record carrier clock again now = taken at took
    cases took with
    | nothing | refused => exact shared
    | offered key inner parsed attested read =>
      apply shared_offer shared
      have signer := AuthorizationEngine.presenceSigner_eq_ok.mpr attested.signed
      have about := attested.about_eq.trans (PresenceRecord.fromJson_eq_ok read).1
      simp only [sharesKept, signer, about] at shares
      exact shares
  | engine op =>
    simp only [step] at stepped
    split at stepped
    · cases stepped
      exact shared
    · cases stepped
  | registerOwn descriptor =>
    cases stepped
    exact shared.of_held rfl rfl
  | setWithheld session withheld =>
    cases stepped
    exact shared.setWithheld session withheld
  | deregisterOwn session =>
    cases stepped
    exact shared.deregisterOwn session
  | carrierLoss carrier =>
    cases stepped
    exact shared.carrierLoss carrier

/-- In a run in which no record gives a session to an issuer that holds its quota already, no issuer
holds more than its quota: on a registry alone, and on one fed by authenticated records beside an
engine. -/
theorem issuer_quota_kept :
    (∀ capacity quota last, Transition.Reaches PresenceRegistry.step (PresenceRegistry.sharesKept · ·)
        (.withLimits capacity quota) last → ∀ issuer, last.heldBy issuer ≤ last.perIssuerQuota) ∧
    ∀ first last, Starts first → Transition.Reaches step (sharesKept · ·) first last →
      ∀ key, last.consumer.registry.heldBy (some key) ≤ last.consumer.registry.perIssuerQuota := by
  constructor
  · intro capacity quota last run
    exact PresenceRegistry.Shared.of_run (fun _ _ shares => shares) run
  · intro first last starts run key
    obtain ⟨-, ⟨capacity, quota, same⟩, -⟩ := starts
    have empty : first.consumer.registry.Shared := by
      rw [same]
      exact PresenceRegistry.Shared.withLimits capacity quota
    exact run.invariant (P := fun run => run.consumer.registry.Shared)
      (fun _ _ _ shares stepped shared => shared_step shared shares stepped) empty (some key)

end Oac.Consumer

namespace Oac.PresenceRegistry

section Sample

open AuthorizationEngine Transition

def ends (n : BitVec 128) : List Call :=
  [.registerOwn ⟨sampleSession n, ⟨.object []⟩, []⟩, .deregisterOwn (sampleSession n)]

def announced (n : BitVec 128) : Call :=
  .acceptJson (.object (sampleAnnouncement (sampleSession n) 1)) 0 .sameImplementation 0

theorem sessions_within_capacity_sample :
    ∃ last, Reaches step endsWithRoom (withLimits 2 1) last ∧ last.len = 2 ∧
      last.capacity = max 2 1 ∧ last.len ≤ last.capacity ∧ last.forgotten.length ≤ last.capacity := by
  have performed :
    (performWithin step endsWithRoom (announced 3 :: ends 1 ++ ends 2) (withLimits 2 1)).map
      len = some 2 := by decide +kernel
  obtain ⟨last, reached, found⟩ := reachedWithin_of_map _ performed
  exact ⟨last, reached, found, sessions_within_capacity 2 1 last reached⟩

/-- An own session ends in a registry that is full of records: it is kept beside them. -/
theorem ended_session_exceeds_capacity :
    ∃ last, Reaches step anyMove (withLimits 1 1) last ∧ last.capacity < last.len := by
  have performed : (perform step (announced 3 :: ends 1) (withLimits 1 1)).map
      (fun r => (r.capacity, r.len)) = some (1, 2) := by decide +kernel
  obtain ⟨last, reached, found⟩ := reached_of_map _ performed
  simp only [Prod.mk.injEq] at found
  exact ⟨last, reached, by omega⟩

/-- The registry over its capacity discards a peer's record for want of room and forgets the ended
session first. -/
theorem discarded_record_forgets_session :
    ∃ r record, Reaches step anyMove (withLimits 1 1) r ∧
      PresenceRecord.fromJson (.object (sampleAnnouncement (sampleSession 4) 1)) = .ok record ∧
      let offered := r.acceptSigned record 0 samplePeerKey 0
      offered.1 = .discarded .full ∧ (r.ended.lookup (sampleSession 1)).isSome ∧ r.forgotten = [] ∧
        offered.2.ended.lookup (sampleSession 1) = none ∧ offered.2.forgotten = [sampleSession 1] := by
  have performed : ((PresenceRecord.fromJson (.object (sampleAnnouncement (sampleSession 4) 1))).toOption.bind
      fun record => (perform step (announced 3 :: ends 1) (withLimits 1 1)).map fun r =>
        let offered := r.acceptSigned record 0 samplePeerKey 0
        (offered.1, (r.ended.lookup (sampleSession 1)).isSome, r.forgotten,
          offered.2.ended.lookup (sampleSession 1), offered.2.forgotten)) =
      some (.discarded .full, true, [], none, [sampleSession 1]) := by decide +kernel
  obtain ⟨record, read, performed⟩ := Option.bind_eq_some_iff.mp performed
  obtain ⟨r, reached, found⟩ := reached_of_map _ performed
  simp only [Prod.mk.injEq] at found
  exact ⟨r, record, reached, Results.ok_of_toOption read, found⟩

theorem discarded_changes_nothing_sample : ∃ r : PresenceRegistry, r.len = 1 ∧ r.forgotten = [] ∧
      (r.acceptJson (.object (sampleAnnouncement (sampleSession 4) 1)) 0 .sameImplementation 0).1 =
        .discarded .issuerQuota ∧
      (r.acceptJson (.object (sampleAnnouncement (sampleSession 4) 1)) 0 .sameImplementation 0).2 = r := by
  have performed : (performWithin step (fun call r => endsWithRoom call r ∧ sharesKept call r)
      [announced 3] (withLimits 1 1)).map (fun r => (r.len, r.forgotten,
        (r.acceptJson (.object (sampleAnnouncement (sampleSession 4) 1)) 0 .sameImplementation 0).1)) =
      some (1, [], .discarded .issuerQuota) := by decide +kernel
  obtain ⟨r, reached, found⟩ := reachedWithin_of_map _ performed
  simp only [Prod.mk.injEq] at found
  exact ⟨r, found.1, found.2.1, found.2.2,
    ((discarded_changes_nothing r).2 1 1 reached 0 .sameImplementation 0 _).2.2 _ found.2.2⟩

end Sample

end Oac.PresenceRegistry

namespace Oac.Consumer

section Sample

open AuthorizationEngine Transition

def strictRun : Run := ⟨⟨.new sampleOwn, .withLimits 3 1⟩, 0⟩

theorem strictRun_starts : @Starts trioLibraries strictRun :=
  ⟨⟨.new sampleOwn, ⟨sampleOwn, .inl rfl⟩, .inl rfl⟩, ⟨3, 1, rfl⟩, rfl⟩

def pairedCalls : List Call :=
  [.engine (.pair samplePeer (fun _ => .ok ()) .epoch), .engine (.pair sampleThird (fun _ => .ok ()) .epoch),
    .engine (.addGrant (.inbound ⟨samplePeerKey, none⟩ .device) fun _ => .ok ()),
    .engine (.addGrant (.inbound ⟨sampleThirdKey, none⟩ .device) fun _ => .ok ())]

def announcesPeer (n : BitVec 128) (seq : Nat) : Call :=
  .accept (sampleIssued "bob" samplePeerKey "AQEB" (sampleAnnouncement (sampleSession n) seq))
    0 .epoch .epoch 0

def announcesThird (n : BitVec 128) (seq : Nat) : Call :=
  .accept (sampleIssued "carol" sampleThirdKey "AgIC" (sampleAnnouncement (sampleSession n) seq))
    0 .epoch .epoch 0

/-- A device at its quota announces a session that the registry still holds from a device whose key
was removed, and holds one more. -/
theorem taken_over_session_exceeds_quota : ∃ last, @Starts trioLibraries strictRun ∧
      Reaches (@step trioLibraries) anyMove strictRun last ∧
      last.consumer.registry.perIssuerQuota < last.consumer.registry.heldBy (some sampleThirdKey) := by
  have performed : (perform (@step trioLibraries)
      (pairedCalls ++ [announcesPeer 3 1, announcesThird 4 1, .engine (.removeKey samplePeerKey fun _ => .ok ()),
        announcesThird 3 2]) strictRun).map (fun run =>
        (run.consumer.registry.perIssuerQuota, run.consumer.registry.heldBy (some sampleThirdKey))) =
      some (1, 2) := by decide +kernel
  obtain ⟨last, reached, found⟩ := reached_of_map _ performed
  simp only [Prod.mk.injEq] at found
  exact ⟨last, strictRun_starts, reached, by omega⟩

theorem issuer_quota_kept_sample :
    ∃ last, Reaches (@step trioLibraries) (@sharesKept trioLibraries · ·)
      strictRun last ∧ last.consumer.registry.len = 2 ∧
      last.consumer.registry.heldBy (some sampleThirdKey) ≤ last.consumer.registry.perIssuerQuota := by
  have performed : (performWithin (@step trioLibraries) (@sharesKept trioLibraries · ·)
      (pairedCalls ++ [announcesPeer 3 1, announcesThird 4 1, announcesThird 5 1]) strictRun).map
        (fun run => run.consumer.registry.len) = some 2 := by decide +kernel
  obtain ⟨last, reached, found⟩ := reachedWithin_of_map _ performed
  exact ⟨last, reached, found,
    (@issuer_quota_kept trioLibraries).2 strictRun last strictRun_starts reached sampleThirdKey⟩

end Sample

end Oac.Consumer
