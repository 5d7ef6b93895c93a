import Oac.Replay.Store

/-! The duplicate store as a partial function from keys to entries, and the invariant of its
deadline index. Each operation has one specification lemma over that function. -/

namespace Oac

/-- An entry the store forgets at `now`: settled, with its deadline reached. -/
def Entry.evictable (e : Entry) (now : Int) : Bool :=
  e.phase == .handedOff && decide (e.deadline ≤ now)

end Oac

namespace Oac.Inner

def entry (s : Inner) (key : DuplicateKey) : Option Entry := s.entries.lookup key

/-- The deadline index holds exactly one pair per entry, in order of deadline. -/
structure Indexed (s : Inner) : Prop where
  exact : ∀ d key, (d, key) ∈ s.byDeadline ↔ ∃ e, s.entry key = some e ∧ e.deadline = d
  nodup : s.byDeadline.Nodup
  sorted : s.byDeadline.Pairwise earlier

theorem empty_indexed : empty.Indexed where
  exact := by simp [empty, entry]
  nodup := List.nodup_nil
  sorted := List.Pairwise.nil

variable {s : Inner}

section Remove

theorem remove_entry (s : Inner) (key other : DuplicateKey) :
    (s.remove key).entry other = if other = key then none else s.entry other := by
  unfold remove entry
  cases held : s.entries.lookup key with
  | none =>
    by_cases same : other = key
    · subst same
      simp [held]
    · simp [same]
  | some e => exact Table.lookup_erase_if key other s.entries

theorem remove_byDeadline (held : s.entry key = some e) :
    (s.remove key).byDeadline = s.byDeadline.erase (e.deadline, key) := by
  unfold entry at held
  simp [remove, held]

theorem remove_absent (absent : s.entry key = none) : s.remove key = s := by
  unfold entry at absent
  simp [remove, absent]

theorem Indexed.remove (indexed : s.Indexed) (key : DuplicateKey) : (s.remove key).Indexed := by
  cases held : s.entry key with
  | none => simpa [remove_absent held] using indexed
  | some e =>
    refine ⟨?_, ?_, ?_⟩
    · intro d other
      rw [remove_byDeadline held, indexed.nodup.mem_erase_iff, indexed.exact, remove_entry]
      by_cases same : other = key
      · subst same
        simp [held, eq_comm]
      · simp [same]
    · rw [remove_byDeadline held]
      exact indexed.nodup.erase _
    · rw [remove_byDeadline held]
      exact indexed.sorted.sublist List.erase_sublist

theorem removeAll_entry (items : List (Int × DuplicateKey)) (s : Inner) (key : DuplicateKey) :
    (items.foldl (fun s item => s.remove item.2) s).entry key =
      if key ∈ items.map (·.2) then none else s.entry key := by
  induction items generalizing s with
  | nil => simp
  | cons item rest ih =>
    rw [List.foldl_cons, ih, remove_entry]
    by_cases later : key ∈ rest.map (·.2)
    · simp [later]
    · by_cases first : key = item.2 <;> simp [later, first]

theorem Indexed.removeAll (indexed : s.Indexed) (items : List (Int × DuplicateKey)) :
    (items.foldl (fun s item => s.remove item.2) s).Indexed := by
  induction items generalizing s with
  | nil => exact indexed
  | cons item rest ih => exact ih (indexed.remove item.2)

end Remove

section Evict

theorem takeWhile_due {index : List (Int × DuplicateKey)} (sorted : index.Pairwise earlier)
    (now : Int) : (index.takeWhile fun item => decide (item.1 ≤ now)) =
      index.filter fun item => decide (item.1 ≤ now) := by
  induction sorted with
  | nil => rfl
  | @cons item rest first _ ih =>
    by_cases isDue : item.1 ≤ now
    · simp [isDue, ih]
    · have later : ∀ other ∈ rest, ¬ other.1 ≤ now := fun other mem due =>
        isDue (le_trans (first other mem) due)
      simpa [isDue] using later

theorem mem_due (indexed : s.Indexed) (now : Int) (key : DuplicateKey) :
    key ∈ (s.due now).map (·.2) ↔ ∃ e, s.entry key = some e ∧ e.evictable now = true := by
  unfold due
  rw [takeWhile_due indexed.sorted]
  constructor
  · intro mem
    obtain ⟨⟨d, other⟩, isDue, rfl⟩ := List.mem_map.mp mem
    obtain ⟨inIndex, settled⟩ := List.mem_filter.mp isDue
    obtain ⟨inIndex, reached⟩ := List.mem_filter.mp inIndex
    obtain ⟨e, held, rfl⟩ := (indexed.exact d other).mp inIndex
    have looked : s.entries.lookup other = some e := held
    refine ⟨e, held, ?_⟩
    simp_all [Entry.evictable]
  · rintro ⟨e, held, evictable⟩
    have inIndex := (indexed.exact e.deadline key).mpr ⟨e, held, rfl⟩
    have looked : s.entries.lookup key = some e := held
    simp only [Entry.evictable, Bool.and_eq_true] at evictable
    refine List.mem_map.mpr ⟨(e.deadline, key), ?_, rfl⟩
    simp [inIndex, looked, evictable]

theorem evict_entry (indexed : s.Indexed) (now : Int) (key : DuplicateKey) :
    (s.evict now).entry key = (s.entry key).filter fun e => !e.evictable now := by
  unfold evict
  rw [removeAll_entry]
  cases held : s.entry key with
  | none => simp
  | some e =>
    have isDue := mem_due indexed now key
    rw [Option.filter_some]
    cases evictable : e.evictable now <;> simp_all

theorem Indexed.evict (indexed : s.Indexed) (now : Int) : (s.evict now).Indexed :=
  indexed.removeAll _

end Evict

section Operations

instance : IsTrans (Int × DuplicateKey) earlier := ⟨fun _ _ _ first second => le_trans first second⟩

instance : Std.Total earlier := ⟨fun a b => le_total a.1 b.1⟩

theorem insert_entry (s : Inner) (key other : DuplicateKey) (deadline : Int) (phase : Phase) :
    (s.insert key deadline phase).entry other =
      if other = key then some ⟨deadline, phase, false⟩ else s.entry other :=
  Table.lookup_insert_if key other _ s.entries

theorem Indexed.insert (indexed : s.Indexed)
    (absent : s.entry key = none) (deadline : Int) (phase : Phase) :
    (s.insert key deadline phase).Indexed := by
  have fresh : ∀ d, (d, key) ∉ s.byDeadline := by
    intro d mem
    obtain ⟨e, held, _⟩ := (indexed.exact d key).mp mem
    simp [absent] at held
  refine ⟨?_, ?_, ?_⟩
  · intro d other
    rw [insert_entry]
    simp only [Inner.insert, List.mem_orderedInsert]
    by_cases same : other = key
    · subst same
      simp [fresh d, eq_comm]
    · simp [same, indexed.exact]
  · exact (List.perm_orderedInsert earlier _ _).nodup_iff.mpr
      (List.nodup_cons.mpr ⟨fresh deadline, indexed.nodup⟩)
  · exact List.Pairwise.orderedInsert _ _ indexed.sorted

theorem Indexed.overwrite {s t : Inner} (indexed : s.Indexed)
    (held : s.entry key = some e) (same : e'.deadline = e.deadline)
    (entries : t.entries = s.entries.insert key e') (index : t.byDeadline = s.byDeadline) : t.Indexed := by
  refine ⟨?_, index ▸ indexed.nodup, index ▸ indexed.sorted⟩
  intro d other
  have looked : t.entry other = if other = key then some e' else s.entry other := by
    rw [entry, entries]
    exact Table.lookup_insert_if key other e' s.entries
  rw [index, indexed.exact, looked]
  by_cases equal : other = key
  · subst equal
    simp [held, same]
  · simp [equal]

variable (limits : StoreLimits) (s : Inner) (now deadline : Int) (key : DuplicateKey) in
/-- A decision, with the whole store after it and the room it found. -/
inductive Ruled : Inner × Option (Except SecurityRejection Admission) → Prop where
  | waiting (held : (s.evict now).entry key = some e) (running : e.phase = .inFlight) : Ruled (s.evict now, none)
  | duplicate (held : (s.evict now).entry key = some e) (settled : e.phase = .handedOff) :
      Ruled ({ s.evict now with
          entries := (s.evict now).entries.insert key { e with duplicateReceiptSent := true } },
        some (.ok (.duplicate !e.duplicateReceiptSent)))
  | full (absent : (s.evict now).entry key = none)
      (noRoom : (s.evict now).hasRoom key.keyId limits.capacity limits.perKeyShare = false) :
      Ruled (s.evict now, some (.error full))
  | admitted (absent : (s.evict now).entry key = none)
      (room : (s.evict now).hasRoom key.keyId limits.capacity limits.perKeyShare = true) :
      Ruled ((s.evict now).insert key deadline .inFlight, some (.ok .admitted))

theorem decideAdmission_ruled (limits : StoreLimits) (now deadline : Int) (s : Inner) (key : DuplicateKey) :
    Ruled limits s now deadline key (s.decideAdmission limits now key deadline) := by
  unfold decideAdmission
  simp only
  cases held : (s.evict now).entries.lookup key with
  | none =>
    cases room : (s.evict now).hasRoom key.keyId limits.capacity limits.perKeyShare with
    | true => exact .admitted held room
    | false => exact .full held room
  | some e =>
    obtain ⟨due, phase, sent⟩ := e
    cases phase with
    | inFlight => exact .waiting held rfl
    | handedOff => exact .duplicate held rfl

theorem settle_entry (s : Inner) (key other : DuplicateKey) (handedOff : Bool) :
    (s.settle key handedOff).1.entry other =
      if other = key then
        if handedOff then (s.entry key).map fun e => { e with phase := .handedOff } else none
      else s.entry other := by
  cases handedOff with
  | true => exact Table.lookup_modify_if key other _ s.entries
  | false =>
    have removed := remove_entry s key other
    simpa [settle, entry] using removed

theorem Indexed.settle (indexed : s.Indexed) (key : DuplicateKey) (handedOff : Bool) :
    (s.settle key handedOff).1.Indexed := by
  cases handedOff with
  | false => exact ⟨(indexed.remove key).exact, (indexed.remove key).nodup, (indexed.remove key).sorted⟩
  | true =>
    cases held : s.entry key with
    | none =>
      have looked : s.entries.lookup key = none := held
      refine ⟨?_, indexed.nodup, indexed.sorted⟩
      simpa [Inner.settle, Table.modify, looked, entry] using indexed.exact
    | some e =>
      have looked : s.entries.lookup key = some e := held
      have entries : (s.settle key true).1.entries =
          s.entries.insert key { e with phase := .handedOff } := by
        simp [Inner.settle, Table.modify, looked]
      exact indexed.overwrite held (by rfl) entries rfl

theorem whenSettled_entry (s : Inner) (key other : DuplicateKey) (notify : SettleCallback) :
    (s.whenSettled key notify).1.entry other = s.entry other := by
  unfold whenSettled
  split <;> rfl

theorem Indexed.whenSettled (indexed : s.Indexed) (key : DuplicateKey)
    (notify : SettleCallback) : (s.whenSettled key notify).1.Indexed := by
  unfold Inner.whenSettled
  split
  · exact ⟨indexed.exact, indexed.nodup, indexed.sorted⟩
  · exact indexed

end Operations

section Standing

/-- The deadline and phase of the entry held for a key: what decides whether a copy is admitted. -/
def standing (s : Inner) (key : DuplicateKey) : Option (Int × Phase) :=
  (s.entry key).map fun e => (e.deadline, e.phase)

theorem standing_eq_some :
    s.standing key = some (d, phase) ↔ ∃ e, s.entry key = some e ∧ e.deadline = d ∧ e.phase = phase := by
  simp [standing]

theorem evict_standing_inFlight (indexed : s.Indexed)
    (running : s.standing key = some (d, .inFlight)) (now : Int) :
    (s.evict now).standing key = some (d, .inFlight) := by
  obtain ⟨e, held, deadline, phase⟩ := standing_eq_some.mp running
  refine standing_eq_some.mpr ⟨e, ?_, deadline, phase⟩
  rw [evict_entry indexed, held]
  simp [Entry.evictable, phase]

theorem evict_standing_handedOff (indexed : s.Indexed)
    (settled : s.standing key = some (d, .handedOff)) (now : Int) :
    (s.evict now).standing key = some (d, .handedOff) ∨ d ≤ now := by
  obtain ⟨e, held, rfl, phase⟩ := standing_eq_some.mp settled
  by_cases reached : e.deadline ≤ now
  · exact .inr reached
  · refine .inl (standing_eq_some.mpr ⟨e, ?_, rfl, phase⟩)
    rw [evict_entry indexed, held]
    simp [Entry.evictable, reached]

theorem settle_standing_ne (s : Inner) (different : other ≠ key) (handedOff : Bool) :
    (s.settle key handedOff).1.standing other = s.standing other := by
  simp [standing, settle_entry, different]

theorem settle_standing_handedOff (standing : s.standing key = some (d, phase)) :
    (s.settle key true).1.standing key = some (d, .handedOff) := by
  obtain ⟨e, held, rfl, _⟩ := standing_eq_some.mp standing
  simp [Inner.standing, settle_entry, held]

theorem insert_standing (s : Inner) (key other : DuplicateKey) (deadline : Int) (phase : Phase) :
    (s.insert key deadline phase).standing other =
      if other = key then some (deadline, phase) else s.standing other := by
  rw [standing, insert_entry]
  split <;> rfl

theorem overwrite_standing {s t : Inner}
    (held : s.entry key = some e) (deadline : e'.deadline = e.deadline)
    (phase : e'.phase = e.phase) (entries : t.entries = s.entries.insert key e')
    (other : DuplicateKey) : t.standing other = s.standing other := by
  have looked : t.entry other = if other = key then some e' else s.entry other := by
    rw [entry, entries]
    exact Table.lookup_insert_if key other e' s.entries
  rw [standing, standing, looked]
  by_cases equal : other = key
  · subst equal
    simp [held, deadline, phase]
  · simp [equal]

end Standing

end Oac.Inner
