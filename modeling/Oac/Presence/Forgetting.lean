import Oac.Authorization.Trust
import Oac.PresenceProofs

/-! How the registry makes room. Sessions it forgets go to a list of bounded length that the
consumer takes; the list keeps every one of them as long as the sessions known and the sessions
already listed fit in the capacity together. -/

namespace Oac.PresenceRegistry

open Table AList List Option

variable {r : PresenceRegistry} {s : SessionId}

/-- The registry holds a record of `s` or remembers it as an ended own session. -/
def Knows (r : PresenceRegistry) (s : SessionId) : Prop :=
  (r.held.lookup s).isSome ∨ (r.ended.lookup s).isSome

/-- The registry can forget every session it knows with nothing dropped from the list. -/
def ListsAll (r : PresenceRegistry) : Prop := r.forgotten.length + r.len ≤ r.capacity

instance (r : PresenceRegistry) : Decidable r.ListsAll :=
  inferInstanceAs (Decidable (r.forgotten.length + r.len ≤ r.capacity))

section Notes

theorem noteForgotten_length (r : PresenceRegistry) (s : SessionId) :
    (r.noteForgotten s).forgotten.length ≤ r.forgotten.length + 1 := by
  simp only [noteForgotten, length_append, length_singleton]
  split
  · rw [length_drop]
    omega
  · omega

theorem mem_noteForgotten (mem : x ∈ (r.noteForgotten s).forgotten) : x ∈ r.forgotten ∨ x = s := by
  simp only [noteForgotten, mem_append, mem_singleton] at mem
  refine mem.imp_left fun mem => ?_
  split at mem
  · exact mem_of_mem_drop mem
  · exact mem

theorem noteForgotten_room (room : r.forgotten.length < r.capacity) :
    (r.noteForgotten s).forgotten = r.forgotten ++ [s] := by
  simp only [noteForgotten]
  rw [if_neg (by omega)]

end Notes

/-- Whatever was held or listed in `r` is held or listed in `r'`. -/
structure Keeps (r r' : PresenceRegistry) : Prop where
  listed : ∀ s ∈ r.forgotten, s ∈ r'.forgotten
  held : ∀ s, (r.held.lookup s).isSome → (r'.held.lookup s).isSome ∨ s ∈ r'.forgotten

theorem Keeps.refl (r : PresenceRegistry) : Keeps r r :=
  ⟨fun _ mem => mem, fun _ known => .inl known⟩

theorem Keeps.trans (first : Keeps r r') (second : Keeps r' r'') : Keeps r r'' where
  listed s mem := second.listed s (first.listed s mem)
  held s known := by
    rcases first.held s known with known | mem
    · exact second.held s known
    · exact .inr (second.listed s mem)

/-- `r'` is `r` with sessions forgotten and listed. -/
structure Sheds (r r' : PresenceRegistry) : Prop where
  capacity : r'.capacity = r.capacity
  held : ∀ s h, r'.held.lookup s = some h → r.held.lookup s = some h
  ended : ∀ s, (r'.ended.lookup s).isSome → (r.ended.lookup s).isSome
  listed : ∀ s ∈ r'.forgotten, s ∈ r.forgotten ∨ r.Knows s ∧ r'.held.lookup s = none
  weight : r'.forgotten.length + r'.len ≤ r.forgotten.length + r.len
  keeps : r.ListsAll → Keeps r r'

namespace Sheds

variable {r' r'' : PresenceRegistry}

theorem refl (r : PresenceRegistry) : Sheds r r where
  capacity := rfl
  held _ _ found := found
  ended _ known := known
  listed _ mem := .inl mem
  weight := Nat.le_refl _
  keeps _ := .refl r

theorem knows (sheds : Sheds r r') (known : r'.Knows s) : r.Knows s := by
  rcases known with known | known
  · obtain ⟨h, found⟩ := isSome_iff_exists.mp known
    exact .inl (by rw [sheds.held s h found]; rfl)
  · exact .inr (sheds.ended s known)

theorem gone (sheds : Sheds r r') (gone : r.held.lookup s = none) : r'.held.lookup s = none := by
  cases found : r'.held.lookup s with
  | none => rfl
  | some h => rw [← sheds.held s h found, gone]

theorem listsAll (sheds : Sheds r r') (room : r.ListsAll) : r'.ListsAll := by
  have weight := sheds.weight
  unfold ListsAll at room ⊢
  rw [sheds.capacity]
  omega

theorem trans (first : Sheds r r') (second : Sheds r' r'') : Sheds r r'' where
  capacity := second.capacity.trans first.capacity
  held s h found := first.held s h (second.held s h found)
  ended s known := first.ended s (second.ended s known)
  listed s mem := by
    rcases second.listed s mem with mem | ⟨known, gone⟩
    · rcases first.listed s mem with mem | ⟨known, gone⟩
      · exact .inl mem
      · exact .inr ⟨known, second.gone gone⟩
    · exact .inr ⟨first.knows known, gone⟩
  weight := Nat.le_trans second.weight first.weight
  keeps room := (first.keeps room).trans (second.keeps (first.listsAll room))

theorem foldl {f : PresenceRegistry → α → PresenceRegistry} (each : ∀ r a, Sheds r (f r a))
    (items : List α) (r : PresenceRegistry) : Sheds r (items.foldl f r) := by
  induction items generalizing r with
  | nil => exact refl r
  | cons a rest ih => exact (each r a).trans (ih (f r a))

end Sheds

section Evicting

variable {r' : PresenceRegistry}

theorem Keeps.note (capacity : r'.capacity = r.capacity) (forgotten : r'.forgotten = r.forgotten)
    (held : ∀ x, r'.held.lookup x = if x = s then none else r.held.lookup x)
    (room : r.forgotten.length < r.capacity) : Keeps r (r'.noteForgotten s) := by
  have listed : (r'.noteForgotten s).forgotten = r.forgotten ++ [s] := by
    rw [noteForgotten_room (by rw [forgotten, capacity]; exact room), forgotten]
  refine ⟨fun x mem => ?_, fun x known => ?_⟩
  · rw [listed]
    exact mem_append_left _ mem
  · rw [listed]
    change (r'.held.lookup x).isSome ∨ _
    rw [held]
    by_cases same : x = s
    · exact .inr (by simp [same])
    · exact .inl (by simpa [same] using known)

theorem Sheds.note (capacity : r'.capacity = r.capacity) (forgotten : r'.forgotten = r.forgotten)
    (held : ∀ x, r'.held.lookup x = if x = s then none else r.held.lookup x)
    (ended : ∀ x, (r'.ended.lookup x).isSome → (r.ended.lookup x).isSome) (known : r.Knows s)
    (fewer : r'.len < r.len) : Sheds r (r'.noteForgotten s) := by
  have length := r'.noteForgotten_length s
  refine ⟨capacity, fun x h kept => ?_, ended, fun x mem => ?_, ?_,
    fun room => .note capacity forgotten held (by unfold ListsAll at room; omega)⟩
  · change r'.held.lookup x = some h at kept
    rw [held] at kept
    split at kept
    · cases kept
    · exact kept
  · rcases mem_noteForgotten mem with mem | same
    · exact .inl (forgotten ▸ mem)
    · refine .inr ⟨same ▸ known, ?_⟩
      change r'.held.lookup x = none
      rw [held, if_pos same]
  · change (r'.noteForgotten s).forgotten.length + r'.len ≤ _
    rw [forgotten] at length
    omega

theorem evict_sheds (r : PresenceRegistry) (s : SessionId) : Sheds r (r.evict s) := by
  unfold evict
  cases found : r.held.lookup s with
  | none => exact .refl r
  | some h =>
    have smaller := size_erase_of_lookup_some found
    refine .note rfl rfl (fun x => lookup_erase_if s x r.held) (fun _ known => known)
      (.inl (by rw [found]; rfl)) ?_
    unfold len
    dsimp only
    omega

theorem Sheds.held_le (sheds : Sheds r r') : r'.held.size ≤ r.held.size :=
  size_le_of_keys fun s present => by
    obtain ⟨h, there⟩ := isSome_iff_exists.mp present
    rw [sheds.held s h there]
    rfl

theorem evict_size (found : r.held.lookup s = some h) : (r.evict s).held.size + 1 = r.held.size := by
  unfold evict
  rw [found]
  exact size_erase_of_lookup_some found

/-- A session that ends may make the registry forget an ended one: with room on the list, or nothing
to forget, all that was held or listed is. -/
def EndsListed (r : PresenceRegistry) : Prop :=
  r.forgotten.length < r.capacity ∨ r.len < r.capacity ∨ r.ended.keys = []

instance (r : PresenceRegistry) : Decidable r.EndsListed := inferInstanceAs (Decidable (_ ∨ _ ∨ _))

theorem forgetEnded_keeps (listed : r.EndsListed) : Keeps r r.forgetEnded := by
  unfold forgetEnded
  split
  · next full =>
    cases first : (sortedKeys r.ended.keys).head? with
    | none => exact .refl r
    | some evicted =>
      have mem : evicted ∈ r.ended.keys := mem_sortedKeys.mp (mem_of_head? first)
      refine .note rfl rfl (fun x => lookup_erase_if evicted x r.held) ?_
      rcases listed with room | room | nothing
      · exact room
      · omega
      · simp [nothing] at mem
  · exact .refl r

theorem forgetEnded_size (r : PresenceRegistry) : r.forgetEnded.held.size ≤ r.held.size := by
  fun_cases forgetEnded
  · exact size_erase_le _ r.held
  · exact Nat.le_refl _
  · exact Nat.le_refl _

theorem makeIssuerRoom_sheds (r : PresenceRegistry) (issuer : Option KeyId) (now : Instant) :
    Sheds r (r.makeIssuerRoom issuer now) := by
  unfold makeIssuerRoom
  split
  · exact .foldl evict_sheds _ _
  · exact .refl r

end Evicting

section Sweeping

theorem foldl_sweepOne (sessions : List SessionId) (r : PresenceRegistry) :
    let r' := sessions.foldl sweepOne r
    r'.capacity = r.capacity ∧ (∀ s, r'.held.lookup s = if s ∈ sessions then none else r.held.lookup s) ∧
      (∀ s, r'.ended.lookup s = if s ∈ sessions then none else r.ended.lookup s) ∧
      r'.forgotten.length ≤ r.forgotten.length + sessions.length ∧
      (∀ s ∈ r'.forgotten, s ∈ r.forgotten ∨ s ∈ sessions) ∧
      (r.forgotten.length + sessions.length ≤ r.capacity → r'.forgotten = r.forgotten ++ sessions) := by
  induction sessions generalizing r with
  | nil => simp
  | cons first rest ih =>
    obtain ⟨capacity, held, ended, length, listed, roomy⟩ := ih (r.sweepOne first)
    have noted := ({ r with held := r.held.erase first, ended := r.ended.erase first } :
      PresenceRegistry).noteForgotten_length first
    refine ⟨capacity, fun s => ?_, fun s => ?_, ?_, fun s mem => ?_, fun room => ?_⟩
    · rw [foldl_cons, held]
      change (if s ∈ rest then none else lookup s (r.held.erase first)) = _
      rw [lookup_erase_if]
      by_cases same : s = first <;> simp [same]
    · rw [foldl_cons, ended]
      change (if s ∈ rest then none else lookup s (r.ended.erase first)) = _
      rw [lookup_erase_if]
      by_cases same : s = first <;> simp [same]
    · rw [length_cons]
      change (r.sweepOne first).forgotten.length ≤ _ at noted
      rw [foldl_cons]
      change _ ≤ r.forgotten.length + _ at noted
      omega
    · rcases listed s mem with mem | mem
      · rcases mem_noteForgotten mem with mem | same
        · exact .inl mem
        · exact .inr (same ▸ mem_cons_self)
      · exact .inr (mem_cons_of_mem _ mem)
    · rw [length_cons] at room
      have here : (r.sweepOne first).forgotten = r.forgotten ++ [first] :=
        noteForgotten_room (by change r.forgotten.length < r.capacity; omega)
      rw [foldl_cons, roomy, here]
      · simp
      · rw [here, length_append, length_singleton]
        change _ ≤ r.capacity
        omega

/-- The sessions a sweep forgets because they are stale. -/
def stale (r : PresenceRegistry) (now : Instant) : List SessionId :=
  (r.held.entries.filter fun e => (r.own.lookup e.1).isNone && e.2.state now ≠ .online).map (·.1)

variable (r : PresenceRegistry) (now : Instant)

theorem stale_subset : r.stale now ⊆ r.held.keys := by
  intro s mem
  obtain ⟨e, filtered, rfl⟩ := mem_map.mp mem
  exact mem_map.mpr ⟨e, (mem_filter.mp filtered).1, rfl⟩

theorem stale_nodup : (r.stale now).Nodup := r.held.keys_nodup.sublist (filter_sublist.map _)

theorem sweep_eq : r.sweep now = (r.stale now ++ sortedKeys r.ended.keys).foldl sweepOne r := rfl

theorem sweep_ended : (r.sweep now).ended.size = 0 := by
  obtain ⟨-, -, ended, -⟩ := foldl_sweepOne (r.stale now ++ sortedKeys r.ended.keys) r
  rw [sweep_eq]
  refine Nat.le_zero.mp (size_le_of_keys (u := (∅ : Table SessionId Unit)) fun s present => ?_)
  rw [ended] at present
  split at present
  · cases present
  · next absent => exact absurd (mem_append_right _ (mem_sortedKeys.mpr (lookup_isSome.mp present))) absent

theorem sweep_held : (r.sweep now).held.size + (r.stale now).length ≤ r.held.size := by
  obtain ⟨-, held, -⟩ := foldl_sweepOne (r.stale now ++ sortedKeys r.ended.keys) r
  have kept : ∀ s ∈ (r.sweep now).held.keys, s ∉ r.stale now ∧ s ∈ r.held.keys := by
    intro s mem
    have present := lookup_isSome.mpr mem
    rw [sweep_eq, held] at present
    split at present
    · cases present
    · next absent => exact ⟨fun mem => absent (mem_append_left _ mem), lookup_isSome.mp present⟩
  have nodup : ((r.sweep now).held.keys ++ r.stale now).Nodup :=
    nodup_append'.mpr ⟨(r.sweep now).held.keys_nodup, r.stale_nodup now,
      fun s mem listed => (kept s mem).1 listed⟩
  have within : (r.sweep now).held.keys ++ r.stale now ⊆ r.held.keys :=
    append_subset.mpr ⟨fun s mem => (kept s mem).2, r.stale_subset now⟩
  have bound := (subperm_of_subset nodup within).length_le
  rw [length_append] at bound
  rw [size_eq_keys_length, size_eq_keys_length]
  exact bound

theorem sweep_sheds : Sheds r (r.sweep now) := by
  obtain ⟨capacity, held, ended, length, listed, roomy⟩ :=
    foldl_sweepOne (r.stale now ++ sortedKeys r.ended.keys) r
  have heldSize := r.sweep_held now
  have endedSize := r.sweep_ended now
  have sorted : (sortedKeys r.ended.keys).length = r.ended.size := by
    rw [sortedKeys, length_insertionSort, size_eq_keys_length]
  rw [← sweep_eq] at capacity held ended length listed roomy
  rw [length_append] at length roomy
  have whole : r.ListsAll → (r.sweep now).forgotten = r.forgotten ++
      (r.stale now ++ sortedKeys r.ended.keys) := by
    intro room
    unfold ListsAll len at room
    exact roomy (by omega)
  refine ⟨capacity, fun s h found => ?_, fun s present => ?_, fun s mem => ?_, ?_,
    fun room => ⟨fun s mem => ?_, fun s known => ?_⟩⟩
  · rw [held] at found
    split at found
    · cases found
    · exact found
  · rw [ended] at present
    split at present
    · cases present
    · exact present
  · refine (listed s mem).imp_right fun mem => ⟨?_, by rw [held, if_pos mem]⟩
    rcases mem_append.mp mem with mem | mem
    · exact .inl (lookup_isSome.mpr (r.stale_subset now mem))
    · exact .inr (lookup_isSome.mpr (mem_sortedKeys.mp mem))
  · unfold len
    omega
  · rw [whole room]
    exact mem_append_left _ mem
  · rw [whole room, held]
    by_cases mem : s ∈ r.stale now ++ sortedKeys r.ended.keys
    · exact .inr (mem_append_right _ mem)
    · rw [if_neg mem]
      exact .inl known

end Sweeping

section Room

/-- The last element of greatest number, as the fold of `newestOf` finds it. -/
theorem foldl_newest {l : List (Sigma fun _ : SessionId => HeldPresence)}
    (found : l.foldl (fun best e => match best with
      | some (s, admitted) => if admitted ≤ e.2.admitted then some (e.1, e.2.admitted) else some (s, admitted)
      | none => some (e.1, e.2.admitted)) best = some b) :
    (best = some b ∨ ∃ e ∈ l, (e.1, e.2.admitted) = b) ∧ (∀ known ∈ best, known.2 ≤ b.2) ∧
      ∀ e ∈ l, e.2.admitted ≤ b.2 := by
  induction l generalizing best with
  | nil =>
    cases found
    exact ⟨.inl rfl, fun known same => (by cases same; exact Nat.le_refl _), fun e mem => by cases mem⟩
  | cons e rest ih =>
    obtain ⟨from_, most, within⟩ := ih found
    have later : (∃ x ∈ rest, (x.1, x.2.admitted) = b) → ∃ x ∈ e :: rest, (x.1, x.2.admitted) = b := by
      rintro ⟨x, mem, same⟩
      exact ⟨x, mem_cons_of_mem _ mem, same⟩
    have here : some (e.1, e.2.admitted) = some b → ∃ x ∈ e :: rest, (x.1, x.2.admitted) = b :=
      fun same => ⟨e, mem_cons_self, some.inj same⟩
    rw [forall_mem_cons]
    cases best with
    | none => exact ⟨.inr (from_.elim here later), fun known same => (by cases same), most _ rfl, within⟩
    | some known =>
      dsimp only at from_ most
      simp only [mem_def, some.injEq, forall_eq']
      split at from_
      · next newer =>
        rw [if_pos newer] at most
        have atLeast : e.2.admitted ≤ b.2 := most _ rfl
        exact ⟨.inr (from_.elim here later), newer.trans atLeast, atLeast, within⟩
      · next older =>
        rw [if_neg older] at most
        have atLeast : known.2 ≤ b.2 := most _ rfl
        exact ⟨from_.imp some.inj later, atLeast, by omega, within⟩

theorem newestOf_newest (found : r.newestOf most = some victim) :
    ∃ h, r.held.lookup victim = some h ∧ r.heldBy h.issuer = most ∧
      ∀ s h', r.held.lookup s = some h' → r.heldBy h'.issuer = most → h'.admitted ≤ h.admitted := by
  obtain ⟨⟨s, admitted⟩, folded, rfl⟩ := map_eq_some_iff.mp found
  obtain ⟨from_, -, within⟩ := foldl_newest folded
  obtain ⟨e, mem, same⟩ := from_.resolve_left (by rintro ⟨⟩)
  cases same
  obtain ⟨held, share⟩ := mem_filter.mp mem
  refine ⟨e.2, mem_lookup_iff.mpr held, eq_of_beq share, fun s h' other holds => ?_⟩
  exact within ⟨s, h'⟩ (mem_filter.mpr ⟨mem_lookup_iff.mp other, beq_iff_eq.mpr holds⟩)

theorem makeRoom_sheds (r : PresenceRegistry) (issuer : Option KeyId) (now : Instant) :
    Sheds r (r.makeRoom issuer now).2 := by
  have issuerRoom := r.makeIssuerRoom_sheds issuer now
  have swept := issuerRoom.trans ((r.makeIssuerRoom issuer now).sweep_sheds now)
  have made := r.makeRoom_made issuer now
  generalize r.makeRoom issuer now = result at made ⊢
  cases made with
  | overQuota | free => exact issuerRoom
  | swept | full => exact swept
  | evicted victim _ _ _ => exact swept.trans (evict_sheds _ _)

theorem makeRoom_free (measure : PresenceRegistry → Nat) (within : ∀ r, measure r ≤ r.len)
    (fewer : ∀ {r r'}, Sheds r r' → measure r' ≤ measure r)
    (evicts : ∀ {r : PresenceRegistry} {s h}, r.held.lookup s = some h → measure (r.evict s) < measure r)
    (bounded : measure r ≤ r.capacity) (found : (r.makeRoom issuer now).1 = .ok ()) :
    measure (r.makeRoom issuer now).2 < r.capacity := by
  have issuerRoom := r.makeIssuerRoom_sheds issuer now
  have swept := issuerRoom.trans ((r.makeIssuerRoom issuer now).sweep_sheds now)
  have made := r.makeRoom_made issuer now
  generalize r.makeRoom issuer now = result at made found ⊢
  cases made with
  | overQuota _ => cases found
  | free _ room =>
    rw [issuerRoom.capacity] at room
    exact Nat.lt_of_le_of_lt (within _) room
  | swept _ room =>
    rw [swept.capacity] at room
    exact Nat.lt_of_le_of_lt (within _) room
  | full _ _ => cases found
  | evicted victim most _ chosen =>
    obtain ⟨h, there, -⟩ := newestOf_newest chosen
    exact Nat.lt_of_lt_of_le (evicts there) (Nat.le_trans (fewer swept) bounded)

end Room

theorem carrierLoss_held (r : PresenceRegistry) (carrier : CarrierHandle) (s : SessionId) :
    ((r.carrierLoss carrier).held.lookup s).isSome = (r.held.lookup s).isSome := by
  have kept : ∀ (sessions : List SessionId) (held : Table SessionId HeldPresence),
      ((sessions.foldl (fun held s => modify s (HeldPresence.lose carrier) held)
        held).lookup s).isSome = (held.lookup s).isSome := by
    intro sessions
    induction sessions with
    | nil => exact fun _ => rfl
    | cons first rest ih =>
      intro held
      rw [foldl_cons, ih, lookup_modify_if]
      split
      · next same => rw [same, isSome_map]
      · rfl
  exact kept _ _

section Offers

variable (r : PresenceRegistry) (record : PresenceRecord) (carrier : CarrierHandle) (issuer : KeyId)

section

variable (lifetime : Option Nat) (issuer : Option KeyId) (now : Instant)

theorem place_held :
    ∃ h : HeldPresence, h.record = record ∧ ∀ s, (r.place record carrier lifetime issuer now).held.lookup s =
      if s = record.sessionId then some h else r.held.lookup s := by
  fun_cases place <;> exact ⟨_, rfl, fun s => lookup_insert_if _ _ _ _⟩

theorem place_size :
    (r.place record carrier lifetime issuer now).held.size ≤ r.held.size + 1 ∧
      ((r.held.lookup record.sessionId).isSome →
        (r.place record carrier lifetime issuer now).held.size ≤ r.held.size) := by
  obtain ⟨h, -, held⟩ := r.place_held record carrier lifetime issuer now
  have kept : ∀ s, ((r.place record carrier lifetime issuer now).held.lookup s).isSome →
      s = record.sessionId ∨ (r.held.lookup s).isSome := by
    intro s present
    rw [held] at present
    split at present
    · next same => exact .inl same
    · exact .inr present
  refine ⟨size_le_succ_of_keys kept, fun known => size_le_of_keys fun s present => ?_⟩
  rcases kept s present with same | present
  · rwa [same]
  · exact present

theorem place_forgotten : (r.place record carrier lifetime issuer now).forgotten = r.forgotten := by
  fun_cases place <;> rfl

theorem place_keeps : Keeps r (r.place record carrier lifetime issuer now) := by
  obtain ⟨h, -, held⟩ := r.place_held record carrier lifetime issuer now
  refine ⟨fun s mem => by rwa [place_forgotten], fun s known => .inl ?_⟩
  rw [held]
  split
  · rfl
  · exact known

end

/-- What offering a record does to the registry. -/
structure Offered (r r' : PresenceRegistry) (record : PresenceRecord)
    (acceptance : PresenceAcceptance) : Prop where
  capacity : r'.capacity = r.capacity
  bounded : r.held.size ≤ r.capacity → r'.held.size ≤ r.capacity
  keeps : (r.held.lookup record.sessionId).isSome ∨ r.ListsAll → Keeps r r'
  accepted : ∀ lifetime, acceptance = .accepted lifetime →
    ∃ h, r'.held.lookup record.sessionId = some h ∧ h.record = record
  discarded : ∀ why, acceptance = .discarded why → Sheds r r'

theorem acceptSigned_offered (now : Instant) : Offered r (r.acceptSigned record carrier issuer now).2 record
      (r.acceptSigned record carrier issuer now).1 := by
  have settings := insert_settings record carrier .otherImplementation (some issuer) now r
  have inserted := insert_inserted record carrier .otherImplementation (some issuer) now r
  have sheds := r.makeRoom_sheds (some issuer) now
  unfold acceptSigned
  generalize r.insert record carrier .otherImplementation (some issuer) now = result at settings inserted ⊢
  cases inserted with
  | late => exact ⟨rfl, id, fun _ => .refl r, nofun, fun _ _ => .refl r⟩
  | refused why fresh made =>
    exact ⟨sheds.capacity, Nat.le_trans sheds.held_le,
      fun listed => sheds.keeps (listed.resolve_left (by simp [fresh])), nofun, fun _ _ => sheds⟩
  | renewed h found seq =>
    obtain ⟨h', same, held⟩ := r.place_held record carrier
      (effectiveLifetime record.kind .otherImplementation) (some issuer) now
    have size := (r.place_size record carrier
      (effectiveLifetime record.kind .otherImplementation) (some issuer) now).2 (by rw [found]; rfl)
    exact ⟨settings.capacity, Nat.le_trans size, fun _ => r.place_keeps ..,
      fun _ _ => ⟨h', by simp [held], same⟩, nofun⟩
  | taken fresh made =>
    have room : r.held.size ≤ r.capacity →
      (r.makeRoom (some issuer) now).2.held.size < r.capacity := fun bounded =>
      makeRoom_free (fun r => r.held.size) (fun _ => Nat.le_add_right _ _) Sheds.held_le
        (fun found => Nat.lt_of_succ_le (evict_size found).le) bounded made
    obtain ⟨h', same, held⟩ := (r.makeRoom (some issuer) now).2.place_held record carrier
      (effectiveLifetime record.kind .otherImplementation) (some issuer) now
    have size := ((r.makeRoom (some issuer) now).2.place_size record carrier
      (effectiveLifetime record.kind .otherImplementation) (some issuer) now).1
    exact ⟨settings.capacity, fun bounded => Nat.le_trans size (room bounded),
      fun listed => (sheds.keeps (listed.resolve_left (by simp [fresh]))).trans (place_keeps ..),
      fun _ _ => ⟨h', by simp [held], same⟩, nofun⟩

end Offers

end Oac.PresenceRegistry
