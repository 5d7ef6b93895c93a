import Oac.Authorization.Decisions
import Oac.Receiver.Interleaving
import Oac.Replay.StoreProofs

/-! At-most-once hand-off over every interleaving of receivers on one duplicate store. -/

namespace Oac

open Calls Transition Oac.Inner HandOffDeadline

/-- No further hand-off of `c` is possible: the store holds its settled entry, its successful call
is about to settle, or its deadline has passed. -/
def Spent (w : World) (c : SignedCopy) : Prop :=
  w.store.standing c.key = some (c.deadline, .handedOff) ∨
    (∃ i r ended, w.tasks i = .settling r true ended ∧ r.copy = c) ∨
    c.deadline ≤ w.clock.unixNanos

/-- What the log's status of a copy says about the tasks. -/
def Agrees (w : World) (c : SignedCopy) : Status Nat → Prop
  | .free => ∀ i r, w.tasks i = .handingOff r → r.copy ≠ c
  | .running i => ∃ r, w.tasks i = .handingOff r ∧ r.copy = c
  | .taken => Spent w c ∧ ∀ i r, w.tasks i = .calling r ∨ w.tasks i = .handingOff r → r.copy ≠ c

/-- The invariant of every run. -/
structure Safe (w : World) : Prop where
  indexed : w.store.Indexed
  /-- An unsettled reservation has its entry in flight, with the deadline of its message. -/
  held : ∀ i r, (w.tasks i).reservation = some r → w.store.standing r.key = some (r.copy.deadline, .inFlight)
  /-- A key has at most one unsettled reservation. -/
  unique : ∀ i j r r', (w.tasks i).reservation = some r → (w.tasks j).reservation = some r' →
    r.key = r'.key → i = j
  past : ∀ i reading, w.tasks i = .evicting reading → reading.unixNanos ≤ w.clock.unixNanos
  agrees : ∀ c, ∃ status, statusAfter c w.log = some status ∧ Agrees w c status

theorem initial_safe (clock : Timestamp) : Safe (.initial clock) where
  indexed := empty_indexed
  held := by simp [World.initial, Task.reservation]
  unique := by simp [World.initial, Task.reservation]
  past := by simp [World.initial]
  agrees := fun c => ⟨.free, rfl, by simp [World.initial, Agrees]⟩

theorem become_self (w : World) (i : Nat) (task : Task) : (w.become i task).tasks i = task :=
  Function.update_self ..

theorem become_other (w : World) (task : Task) (different : j ≠ i) : (w.become i task).tasks j = w.tasks j :=
  Function.update_of_ne different ..

variable {w : World}

theorem other_task (first : w.tasks i = a)
    (second : w.tasks j = b) (different : a ≠ b) : j ≠ i := by
  rintro rfl
  exact different (first.symm.trans second)

/-- A copy stays spent while a task that is not settling its successful call moves on. -/
theorem Spent.become (spent : Spent w c)
    (notSettling : ∀ r ended, w.tasks i ≠ .settling r true ended) (task : Task)
    (log : List CallEvent) : Spent { w.become i task with log := log } c := by
  rcases spent with settled | ⟨j, r, ended, settling, same⟩ | passed
  · exact .inl settled
  · have different : j ≠ i := by
      rintro rfl
      exact notSettling r ended settling
    exact .inr (.inl ⟨j, r, ended, (become_other w task different).trans settling, same⟩)
  · exact .inr (.inr passed)

section

variable (safe : Safe w)

include safe

/-- The clock and the store may change around the tasks: running reservations keep their entries,
and a settled entry goes only once its deadline has passed. -/
theorem Safe.around (later : w.clock.unixNanos ≤ now.unixNanos) (indexed : s.Indexed)
    (running : ∀ key d, w.store.standing key = some (d, .inFlight) → s.standing key = some (d, .inFlight))
    (settled : ∀ key d, w.store.standing key = some (d, .handedOff) →
      s.standing key = some (d, .handedOff) ∨ d ≤ now.unixNanos) : Safe { w with clock := now, store := s } where
  indexed := indexed
  held := fun i r reserved => running _ _ (safe.held i r reserved)
  unique := safe.unique
  past := fun i reading evicting => le_trans (safe.past i reading evicting) later
  agrees := by
    intro c
    obtain ⟨status, performed, agrees⟩ := safe.agrees c
    refine ⟨status, performed, ?_⟩
    cases status with
    | free | running => exact agrees
    | taken =>
      obtain ⟨spent, excluded⟩ := agrees
      refine ⟨?_, excluded⟩
      rcases spent with standing | settling | passed
      · rcases settled _ _ standing with kept | passed
        · exact .inl kept
        · exact .inr (.inr passed)
      · exact .inr (.inl settling)
      · exact .inr (.inr (le_trans passed later))

theorem Safe.evict (past : now ≤ w.clock.unixNanos) : Safe { w with store := w.store.evict now } := by
  refine safe.around (le_refl _) (safe.indexed.evict now) ?_ ?_
  · intro key d running
    exact evict_standing_inFlight safe.indexed running now
  · intro key d settled
    rcases evict_standing_handedOff safe.indexed settled now with kept | reached
    · exact .inl kept
    · exact .inr (le_trans reached past)

theorem Safe.sameStandings (indexed : s.Indexed)
    (same : ∀ key, s.standing key = w.store.standing key) : Safe { w with store := s } :=
  safe.around (le_refl _) indexed (fun key _ running => (same key).trans running)
    fun key _ settled => .inl ((same key).trans settled)

/-- A task and the store may move on together, outside the hand-off call: the other reservations
keep their entries, the task's own one has its entry in flight and no rival, a spent copy stays
spent, and the call is reached only for a copy no call has taken. -/
theorem Safe.move (indexed : s.Indexed) (notCalling : ∀ r, w.tasks i ≠ .handingOff r)
    (notCalled : ∀ r, task ≠ .handingOff r)
    (others : ∀ j r, j ≠ i → (w.tasks j).reservation = some r → s.standing r.key = w.store.standing r.key)
    (own : ∀ r, task.reservation = some r → s.standing r.key = some (r.copy.deadline, .inFlight))
    (alone : ∀ j r r', j ≠ i → task.reservation = some r → (w.tasks j).reservation = some r' → r.key ≠ r'.key)
    (spent : ∀ c, Spent w c → Spent { w.become i task with store := s } c)
    (rechecked : ∀ r, task = .calling r → statusAfter r.copy w.log ≠ some .taken)
    (past : ∀ reading, task = .evicting reading → reading.unixNanos ≤ w.clock.unixNanos) :
    Safe { w.become i task with store := s } := by
  have self : (w.become i task).tasks i = task := become_self w i task
  have other : ∀ {j}, j ≠ i → (w.become i task).tasks j = w.tasks j := become_other w task
  have running : ∀ j r, (w.become i task).tasks j = .handingOff r ↔ w.tasks j = .handingOff r := by
    intro j r
    by_cases same : j = i
    · subst same
      simp [self, notCalling r, notCalled r]
    · rw [other same]
  refine ⟨indexed, ?_, ?_, ?_, ?_⟩
  · intro j r holds
    by_cases same : j = i
    · subst same
      exact own r (self ▸ holds)
    · rw [other same] at holds
      exact (others j r same holds).trans (safe.held j r holds)
  · intro j k r r' first second sameKey
    by_cases sameJ : j = i
    · subst sameJ
      by_cases sameK : k = j
      · exact sameK.symm
      · exact absurd sameKey (alone k r r' sameK (self ▸ first) (other sameK ▸ second))
    · by_cases sameK : k = i
      · subst sameK
        exact absurd sameKey.symm (alone j r' r sameJ (self ▸ second) (other sameJ ▸ first))
      · exact safe.unique j k r r' (other sameJ ▸ first) (other sameK ▸ second) sameKey
  · intro j reading evicting
    by_cases same : j = i
    · subst same
      exact past reading (self ▸ evicting)
    · exact safe.past j reading (other same ▸ evicting)
  · intro c
    obtain ⟨status, performed, agrees⟩ := safe.agrees c
    refine ⟨status, performed, ?_⟩
    cases status with
    | free => exact fun j r calling => agrees j r ((running j r).mp calling)
    | running j =>
      obtain ⟨r, calling, same⟩ := agrees
      exact ⟨r, (running j r).mpr calling, same⟩
    | taken =>
      obtain ⟨isSpent, excluded⟩ := agrees
      refine ⟨spent c isSpent, ?_⟩
      intro j r calling same
      by_cases this : j = i
      · subst this
        rcases calling with calling | calling
        · exact rechecked r (self ▸ calling) (same ▸ performed)
        · exact notCalled r (self ▸ calling)
      · exact excluded j r (other this ▸ calling) same

theorem Safe.become (notCalling : ∀ r, w.tasks i ≠ .handingOff r)
    (notCalled : ∀ r, task ≠ .handingOff r) (notSettling : ∀ r ended, w.tasks i ≠ .settling r true ended)
    (keeps : ∀ r, task.reservation = some r → (w.tasks i).reservation = some r)
    (rechecked : ∀ r, task = .calling r → statusAfter r.copy w.log ≠ some .taken)
    (past : ∀ reading, task = .evicting reading → reading.unixNanos ≤ w.clock.unixNanos) :
    Safe (w.become i task) := by
  refine safe.move safe.indexed notCalling notCalled (fun _ _ _ _ => rfl) ?_ ?_ ?_ rechecked past
  · exact fun r holds => safe.held i r (keeps r holds)
  · intro j r r' different first second sameKey
    exact different (safe.unique i j r r' (keeps r first) second sameKey).symm
  · exact fun c spent => spent.become notSettling task w.log

/-- A task outside the hand-off call goes on to another one with what it reserved. -/
theorem Safe.goOn (here : w.tasks i = old)
    (outside : (∀ r, old ≠ .handingOff r) ∧ ∀ r ended, old ≠ .settling r true ended := by simp)
    (stays : (∀ r, task ≠ .handingOff r) ∧ (∀ r, task ≠ .calling r) ∧
      ∀ reading, task ≠ .evicting reading := by simp)
    (keeps : ∀ r, task.reservation = some r → old.reservation = some r := by simp [Task.reservation]) :
    Safe (w.become i task) := by
  subst here
  exact safe.become outside.1 stays.1 outside.2 keeps (fun r same => absurd same (stays.2.1 r))
    fun reading same => absurd same (stays.2.2 reading)

theorem Safe.admitted
    (unreserved : (w.tasks i).reservation = none) (absent : w.store.entry r.key = none) :
    Safe { w.become i (.lookingUp r) with store := w.store.insert r.key r.copy.deadline .inFlight } := by
  have free : w.store.standing r.key = none := by simp [standing, absent]
  have unheld : ∀ j r', (w.tasks j).reservation = some r' → r'.key ≠ r.key := by
    intro j r' holds same
    have standing := safe.held j r' holds
    rw [same, free] at standing
    cases standing
  refine safe.move (safe.indexed.insert absent _ _) ?_ (by simp) ?_ ?_ ?_ ?_ (by simp) (by simp)
  · intro r' calling
    simp [calling, Task.reservation] at unreserved
  · intro j r' _ holds
    simp [insert_standing, unheld j r' holds]
  · rintro r' ⟨⟩
    simp [insert_standing]
  · rintro j r₁ r' _ ⟨⟩ holds
    exact (unheld j r' holds).symm
  · intro c spent
    rcases spent with settled | ⟨j, r', ended, settling, same⟩ | passed
    · have different : c.key ≠ r.key := by
        intro same
        rw [same, free] at settled
        cases settled
      exact .inl (by simpa [insert_standing, different] using settled)
    · have different : j ≠ i := by
        rintro rfl
        simp [settling, Task.reservation] at unreserved
      exact .inr (.inl ⟨j, r', ended, (become_other w _ different).trans settling, same⟩)
    · exact .inr (.inr passed)

theorem Safe.settle (settling : w.tasks i = .settling r handedOff ended)
    (callbacks : List SettleCallback) : Safe { w.become i (.notifying callbacks ended) with
      store := (w.store.settle r.key handedOff).1 } := by
  have reserved : (w.tasks i).reservation = some r := by simp [settling, Task.reservation]
  have standing := safe.held i r reserved
  have unheld : ∀ j r', j ≠ i → (w.tasks j).reservation = some r' → r'.key ≠ r.key :=
    fun j r' different holds same => different (safe.unique j i r' r holds reserved same)
  refine safe.move (safe.indexed.settle _ _) (by simp [settling]) (by simp) ?_
    (by simp [Task.reservation]) (by simp [Task.reservation]) ?_ (by simp) (by simp)
  · intro j r' different holds
    exact settle_standing_ne _ (unheld j r' different holds) _
  · intro c spent
    rcases spent with settled | ⟨j, r', ended', settlingToo, same⟩ | passed
    · have different : c.key ≠ r.key := by
        intro same
        rw [same, standing] at settled
        simp at settled
      exact .inl ((settle_standing_ne _ different _).trans settled)
    · by_cases this : j = i
      · -- The successful call of `c` settles here: its entry is now a settled one.
        subst this
        rw [settling] at settlingToo
        cases settlingToo
        subst same
        exact .inl (settle_standing_handedOff standing)
      · exact .inr (.inl ⟨j, r', ended', (become_other w _ this).trans settlingToo, same⟩)
    · exact .inr (.inr passed)

/-- The deadline re-check admits only a copy that no call has taken: its own entry is in flight, so
a copy taken earlier can only be one whose deadline has passed. -/
theorem Safe.recheck_not_taken (rechecking : w.tasks i = .rechecking r)
    (before : w.clock.unixNanos < r.copy.deadline) : statusAfter r.copy w.log ≠ some .taken := by
  intro taken
  have reserved : (w.tasks i).reservation = some r := by simp [rechecking, Task.reservation]
  have standing := safe.held i r reserved
  obtain ⟨status, performed, agrees⟩ := safe.agrees r.copy
  rw [taken] at performed
  cases performed
  rcases agrees.1 with settled | ⟨j, r', ended, settling, same⟩ | passed
  · have inFlight : w.store.standing r.copy.key = some (r.copy.deadline, .inFlight) := standing
    rw [inFlight] at settled
    cases settled
  · have sameKey : r'.key = r.key := congrArg SignedCopy.key same
    have this := safe.unique j i r' r (by simp [settling, Task.reservation]) reserved sameKey
    subst this
    rw [rechecking] at settling
    cases settling
  · omega

theorem Safe.logged (keeps : task.reservation = (w.tasks i).reservation)
    (notEvicting : ∀ reading, task ≠ .evicting reading)
    (agrees : ∀ c, ∃ status, statusAfter c log = some status ∧
      Agrees { w.become i task with log := log } c status) :
    Safe { w.become i task with log := log } := by
  have reserved : ∀ j, ((w.become i task).tasks j).reservation = (w.tasks j).reservation := by
    intro j
    by_cases same : j = i
    · subst same
      rw [become_self, keeps]
    · rw [become_other w task same]
  refine ⟨safe.indexed, fun j r holds => safe.held j r (reserved j ▸ holds), ?_, ?_, agrees⟩
  · intro j k r r' first second
    exact safe.unique j k r r' (reserved j ▸ first) (reserved k ▸ second)
  · intro j reading evicting
    by_cases same : j = i
    · subst same
      exact absurd ((become_self w j task).symm.trans evicting) (notEvicting reading)
    · exact safe.past j reading ((become_other w task same).symm.trans evicting)

theorem Safe.same_copy
    (first : (w.tasks i).reservation = some r) (second : (w.tasks j).reservation = some r')
    (same : r.copy = r'.copy) : i = j :=
  safe.unique i j r r' first second (congrArg SignedCopy.key same)

theorem Safe.calling_free (calling : w.tasks i = .calling r) :
    statusAfter r.copy w.log = some .free := by
  obtain ⟨status, performed, agrees⟩ := safe.agrees r.copy
  cases status with
  | free => exact performed
  | taken => exact absurd rfl (agrees.2 i r (.inl calling))
  | running j =>
    obtain ⟨r', running, same⟩ := agrees
    have this := safe.same_copy (i := j) (j := i) (by simp [running, Task.reservation])
      (by simp [calling, Task.reservation]) same
    subst this
    rw [calling] at running
    cases running

end

theorem Safe.call (safe : Safe w) (calling : w.tasks i = .calling r) :
    Safe { w.become i (.handingOff r) with log := w.log ++ [.started i r.copy] } := by
  refine safe.logged (by simp [calling, Task.reservation]) (by simp) ?_
  intro c
  rw [statusAfter_snoc]
  by_cases about : r.copy = c
  · subst about
    rw [safe.calling_free calling]
    exact ⟨.running i, by simp [Event.apply], r, become_self .., rfl⟩
  · obtain ⟨status, performed, agrees⟩ := safe.agrees c
    refine ⟨status, by simp [performed, Event.apply, about], ?_⟩
    have ofOther : ∀ j r', (w.become i (.handingOff r)).tasks j = .handingOff r' → r'.copy = c →
        w.tasks j = .handingOff r' := by
      intro j r' running same
      by_cases this : j = i
      · subst this
        rw [become_self] at running
        cases running
        exact absurd same about
      · rwa [become_other w _ this] at running
    cases status with
    | free => exact fun j r' running same => agrees j r' (ofOther j r' running same) same
    | running j =>
      obtain ⟨r', running, same⟩ := agrees
      have different := other_task calling running (by simp)
      exact ⟨r', (become_other w _ different).trans running, same⟩
    | taken =>
      obtain ⟨spent, excluded⟩ := agrees
      refine ⟨spent.become (by simp [calling]) _ _, ?_⟩
      rintro j r' (callingToo | running) same
      · have different := other_task (become_self w i (.handingOff r)) callingToo (by simp)
        exact excluded j r' (.inl ((become_other w _ different).symm.trans callingToo)) same
      · exact excluded j r' (.inr (ofOther j r' running same)) same

theorem Safe.handingOff_running (safe : Safe w) (handingOff : w.tasks i = .handingOff r) :
    statusAfter r.copy w.log = some (.running i) := by
  obtain ⟨status, performed, agrees⟩ := safe.agrees r.copy
  cases status with
  | free => exact absurd rfl (agrees i r handingOff)
  | taken => exact absurd rfl (agrees.2 i r (.inr handingOff))
  | running j =>
    obtain ⟨r', running, same⟩ := agrees
    have this := safe.same_copy (i := j) (j := i) (by simp [running, Task.reservation])
      (by simp [handingOff, Task.reservation]) same
    subst this
    exact performed

theorem Safe.callReturns (safe : Safe w)
    (handingOff : w.tasks i = .handingOff r) (taken : Bool) (ended : Ended) :
    Safe { w.become i (.settling r taken ended) with log := w.log ++ [.ended i r.copy taken] } := by
  have reserved : (w.tasks i).reservation = some r := by simp [handingOff, Task.reservation]
  have moved : ∀ {j : Nat} {task : Task}, (w.become i (.settling r taken ended)).tasks j = task →
      task ≠ .settling r taken ended → j ≠ i ∧ w.tasks j = task := by
    intro j task holds different
    have other := other_task (become_self w i (.settling r taken ended)) holds different.symm
    exact ⟨other, (become_other w _ other).symm.trans holds⟩
  -- No other task is inside or before a call of this copy.
  have rival : ∀ j r', j ≠ i → w.tasks j = .calling r' ∨ w.tasks j = .handingOff r' →
      r'.copy ≠ r.copy := by
    intro j r' different active same
    refine different (safe.same_copy ?_ reserved same)
    rcases active with active | active <;> simp [active, Task.reservation]
  refine safe.logged (by simp [handingOff, Task.reservation]) (by simp) ?_
  intro c
  rw [statusAfter_snoc]
  by_cases about : r.copy = c
  · subst about
    rw [safe.handingOff_running handingOff]
    cases taken with
    | false =>
      refine ⟨.free, by simp [Event.apply], fun j r' running => ?_⟩
      obtain ⟨different, running⟩ := moved running (by simp)
      exact rival j r' different (.inr running)
    | true =>
      refine ⟨.taken, by simp [Event.apply], ?_, ?_⟩
      · exact .inr (.inl ⟨i, r, ended, become_self .., rfl⟩)
      · rintro j r' (calling | running)
        · obtain ⟨different, calling⟩ := moved calling (by simp)
          exact rival j r' different (.inl calling)
        · obtain ⟨different, running⟩ := moved running (by simp)
          exact rival j r' different (.inr running)
  · obtain ⟨status, performed, agrees⟩ := safe.agrees c
    refine ⟨status, by simp [performed, Event.apply, about], ?_⟩
    cases status with
    | free => exact fun j r' running => agrees j r' (moved running (by simp)).2
    | running j =>
      obtain ⟨r', running, same⟩ := agrees
      have different : j ≠ i := by
        rintro rfl
        rw [handingOff] at running
        cases running
        exact about same
      exact ⟨r', (become_other w _ different).trans running, same⟩
    | taken =>
      obtain ⟨spent, excluded⟩ := agrees
      refine ⟨spent.become (by simp [handingOff]) _ _, ?_⟩
      rintro j r' (calling | running)
      · exact excluded j r' (.inl (moved calling (by simp)).2)
      · exact excluded j r' (.inr (moved running (by simp)).2)

theorem keyAndDeadline_copy (keyed : keyAndDeadline msg = .ok (key, deadline)) :
    deadline = (Reservation.mk key msg.message).copy.deadline := by
  unfold keyAndDeadline at keyed
  split at keyed <;> cases keyed
  rfl

theorem Safe.admission (safe : Safe w) (offering : w.tasks i = .offering msg waits)
    (keyed : keyAndDeadline msg = .ok (key, deadline)) : Safe { w.become i (afterDecision msg waits key
        (w.store.decideAdmission limits w.clock.unixNanos key deadline).2) with
      store := (w.store.decideAdmission limits w.clock.unixNanos key deadline).1 } := by
  have evicted := safe.evict (le_refl w.clock.unixNanos)
  have quiet : ∀ task : Task, task.reservation = none → (∀ r, task ≠ .evicting r) →
      Safe { w.become i task with store := w.store.evict w.clock.unixNanos } := by
    intro task unreserved notEvicting
    refine evicted.become (by simp [offering]) ?_ (by simp [offering]) (by simp [unreserved]) ?_
      fun reading evicting => absurd evicting (notEvicting reading)
    · rintro r rfl
      cases unreserved
    · rintro r rfl
      cases unreserved
  have ruled := decideAdmission_ruled limits w.clock.unixNanos deadline w.store key
  generalize w.store.decideAdmission limits w.clock.unixNanos key deadline = answer at ruled ⊢
  cases ruled with
  | waiting held running =>
    cases waits with
    | true | false => exact quiet _ rfl (by simp [afterDecision])
  | full absent => exact quiet _ rfl (by simp [afterDecision])
  | duplicate held settled =>
    refine (quiet _ rfl (by simp [afterDecision])).sameStandings ?_ ?_
    · exact (safe.indexed.evict _).overwrite held (by rfl) rfl rfl
    · exact overwrite_standing held (by rfl) (by rfl) rfl
  | admitted absent =>
    rw [keyAndDeadline_copy keyed]
    exact evicted.admitted (r := ⟨key, msg.message⟩) (by simp [offering, Task.reservation]) absent

theorem afterLookup_cases (r : Reservation) (found : Option (Option DeliveryTarget)) :
    afterLookup r found = .rechecking r ∨ ∃ ended, afterLookup r found = .settling r false ended := by
  fun_cases afterLookup
  · exact .inr ⟨_, rfl⟩
  · exact .inr ⟨_, rfl⟩
  · exact .inl rfl

theorem afterRecheck_cases (r : Reservation) (now : Timestamp) (panics : Bool) :
    (afterRecheck r now panics = .calling r ∧ now.unixNanos < r.copy.deadline) ∨
      ∃ ended, afterRecheck r now panics = .settling r false ended := by
  fun_cases afterRecheck
  · exact .inr ⟨_, rfl⟩
  · exact .inr ⟨_, rfl⟩
  · rename_i allowed
    simp only [refusalAt, passedAt, decide_eq_true_eq] at allowed
    split at allowed
    · cases allowed
    · rename_i before
      exact .inl ⟨rfl, by simpa [Reservation.copy] using before⟩

/-- Every step keeps the invariant. -/
theorem step_safe (stepped : w.step limits action = some w') (safe : Safe w) : Safe w' := by
  revert stepped
  fun_cases World.step <;> rintro ⟨⟩
  · exact safe.around ‹_› safe.indexed (fun _ _ running => running) fun _ _ settled => .inl settled
  · exact safe.goOn ‹_›
  · next offering _ _ => exact safe.goOn offering
  · next offering _ _ keyed _ => exact safe.admission offering keyed
  · next found r looking =>
    rcases afterLookup_cases r found with next | ⟨ended, next⟩
    · rw [next]
      exact safe.goOn looking
    · rw [next]
      exact safe.goOn looking
  · next panics r rechecking =>
    rcases afterRecheck_cases r w.clock panics with ⟨next, before⟩ | ⟨ended, next⟩
    · rw [next]
      refine safe.become (by simp [rechecking]) (by simp) (by simp [rechecking])
        (by simp [rechecking, Task.reservation]) ?_ (by simp)
      rintro r' ⟨⟩
      exact safe.recheck_not_taken rechecking before
    · rw [next]
      exact safe.goOn rechecking
  · exact safe.call ‹_›
  · exact safe.callReturns ‹_› _ _
  · exact safe.goOn ‹_›
  · exact safe.settle ‹_› _
  · exact safe.goOn ‹_›
  · exact safe.goOn ‹_›
  · next idle =>
    refine safe.become (by simp [idle]) (by simp) (by simp [idle]) (by simp [Task.reservation]) (by simp) ?_
    rintro reading ⟨⟩
    exact le_refl _
  · next i reading evicting => exact (safe.evict (safe.past i reading evicting)).goOn evicting
  · next key notify idle _ =>
    have registered : Safe { w with store := (w.store.whenSettled key notify).1 } :=
      safe.sameStandings (safe.indexed.whenSettled key notify) fun other => by
        simp [standing, whenSettled_entry]
    exact registered.goOn idle

/-- At-most-once hand-off. In every run, the hand-off calls of one signed envelope never overlap,
at most one of them ends taken (completed, indeterminate or unwound by a panic), and after that one
no further call starts. -/
theorem handoff_at_most_once (limits : StoreLimits) (clock : Timestamp) (w : World)
    (run : Reaches (World.step limits) anyMove (.initial clock) w) (c : SignedCopy) :
    (∀ pre mid post i j, w.log = pre ++ .started i c :: (mid ++ .started j c :: post) →
      ∃ taken, .ended i c taken ∈ mid) ∧ w.log.countP (Event.takes c) ≤ 1 ∧
    ∀ pre post i, w.log = pre ++ .ended i c true :: post → ∀ j, .started j c ∉ post := by
  have safe : Safe w := Reaches.invariant (fun _ _ _ _ stepped safe => step_safe stepped safe) run
    (initial_safe clock)
  obtain ⟨status, performed, _⟩ := safe.agrees c
  have legal : (statusAfter c w.log).isSome := by simp [performed]
  refine ⟨?_, taken_once legal, ?_⟩
  · intro pre mid post i j split
    exact no_overlap (split ▸ legal)
  · intro pre post i split j
    exact (taken_is_last (split ▸ legal) j).1

section Alone

variable {limits : StoreLimits} {w : World} {i : Nat} {r : Reservation}

/-- Some steps take task `i` to its end with the given outcome, leaving the given store. -/
def EndsWith (limits : StoreLimits) (w : World) (i : Nat) (store : Inner) (ended : Ended) : Prop :=
  ∃ w', Reaches (World.step limits) anyMove w w' ∧ w'.store = store ∧ w'.tasks i = .finished ended

theorem EndsWith.of_step (stepped : w.step limits action = some next)
    (ends : EndsWith limits next i store ended) : EndsWith limits w i store ended := by
  obtain ⟨w', run, result⟩ := ends
  exact ⟨w', .head ⟨action, trivial, stepped⟩ run, result⟩

theorem ends_finished (finished : w.tasks i = .finished ended) : EndsWith limits w i w.store ended :=
  ⟨w, .refl, rfl, finished⟩

theorem ends_notifying (notifying : w.tasks i = .notifying callbacks ended) :
    EndsWith limits w i w.store ended := by
  induction callbacks generalizing w with
  | nil =>
    have stepped : w.step limits (.notify i) = some (w.become i (.finished ended)) := by
      simp [World.step, notifying]
    exact .of_step stepped (ends_finished (become_self ..))
  | cons first rest ih =>
    have stepped : w.step limits (.notify i) = some (w.become i (.notifying rest ended)) := by
      simp [World.step, notifying]
    exact .of_step stepped (ih (become_self ..))

theorem ends_settling (settling : w.tasks i = .settling r handedOff ended) :
    EndsWith limits w i (w.store.settle r.key handedOff).1 ended := by
  have stepped : w.step limits (.settle i) =
      some { w.become i (.notifying (w.store.settle r.key handedOff).2 ended) with
        store := (w.store.settle r.key handedOff).1 } := by
    simp [World.step, settling]
  exact .of_step stepped (ends_notifying (become_self ..))

theorem ends_handingOff (handingOff : w.tasks i = .handingOff r) (outcome : HandOffOutcome) :
    EndsWith limits w i (w.store.settle r.key outcome.mayBeHandedOff).1
      (reported outcome.recorded.1 outcome.recorded.2) := by
  have returned : w.step limits (.callReturns i (some outcome)) =
      some { w.become i (afterCall r (some outcome)) with
        log := w.log ++ [.ended i r.copy (endedTaken (some outcome))] } := by
    simp [World.step, handingOff]
  exact .of_step returned (ends_settling (become_self ..))

theorem ends_calling (calling : w.tasks i = .calling r) (outcome : HandOffOutcome) :
    EndsWith limits w i (w.store.settle r.key outcome.mayBeHandedOff).1
      (reported outcome.recorded.1 outcome.recorded.2) := by
  have started : w.step limits (.call i) =
      some { w.become i (.handingOff r) with log := w.log ++ [.started i r.copy] } := by
    simp [World.step, calling]
  refine .of_step started (ends_handingOff ?_ outcome)
  exact become_self ..

theorem ends_lookingUp (looking : w.tasks i = .lookingUp r)
    (target : SessionId → Option DeliveryTarget) (handOff : ChannelMessage → HandOffOutcome) :
    EndsWith limits w i (deliveryStage w.store r.key r.msg target w.clock handOff).store
      (.returned (.ok (.reported
        (deliveryStage w.store r.key r.msg target w.clock handOff).report))) := by
  have looked : w.step limits (.lookup i (some (target r.msg.envelope.toSession))) =
      some (w.become i (afterLookup r (some (target r.msg.envelope.toSession)))) := by
    simp [World.step, looking]
  refine .of_step looked ?_
  cases checked : deliveryChecks r.msg.envelope (target r.msg.envelope.toSession) with
  | error refusal =>
    rw [deliveryStage_checks checked]
    exact ends_settling (by simp only [become_self, afterLookup, checked, reported, refuse])
  | ok =>
    have next : afterLookup r (some (target r.msg.envelope.toSession)) = .rechecking r := by
      simp only [afterLookup, checked]
    have rechecked : (w.become i (.rechecking r)).step limits (.recheck i false) =
        some ((w.become i (.rechecking r)).become i (afterRecheck r w.clock false)) := by
      simp only [World.step, become_self]
      rfl
    rw [next]
    refine .of_step rechecked ?_
    cases late : (of r.msg.envelope).refusalAt w.clock with
    | some refusal =>
      rw [deliveryStage_late checked late]
      exact ends_settling (by simp [become_self, afterRecheck, late, reported, refuse])
    | none =>
      rw [deliveryStage_called checked late]
      exact ends_calling (by simp [become_self, afterRecheck, late]) (handOff r.msg)

/-- A receiver that runs alone does what `deliver` does, whatever time passes between the two
readings of the clock: some sequence of its steps leaves the same store and ends with the same
outcome. -/
theorem deliver_alone (idle : w.tasks i = .idle) (msg : AuthorizedMessage)
    (target : SessionId → Option DeliveryTarget) (handOff : ChannelMessage → HandOffOutcome)
    (passed : w.clock.unixNanos ≤ later.unixNanos) :
    EndsWith limits w i (deliver limits w.store msg target w.clock later handOff).store
      (.returned (deliver limits w.store msg target w.clock later handOff).received) := by
  have offered : w.step limits (.offer i msg false) =
      some (w.become i (.offering msg false)) := by
    simp [World.step, idle]
  refine .of_step offered ?_
  have offering := become_self w i (.offering msg false)
  unfold deliver
  cases keyed : keyAndDeadline msg with
  | error e =>
    have refused : (w.become i (.offering msg false)).step limits (.admission i) =
        some ((w.become i (.offering msg false)).become i (.finished (.returned (.error e)))) := by
      simp [World.step, offering, keyed]
    exact .of_step refused (ends_finished (become_self ..))
  | ok pair =>
    obtain ⟨key, deadline⟩ := pair
    have admitted : (w.become i (.offering msg false)).step limits (.admission i) =
        some { (w.become i (.offering msg false)).become i (afterDecision msg false key
            (w.store.decideAdmission limits w.clock.unixNanos key deadline).2) with
          store := (w.store.decideAdmission limits w.clock.unixNanos key deadline).1 } := by
      simp only [World.step, offering, keyed]
      rfl
    refine .of_step admitted ?_
    simp only
    generalize w.store.decideAdmission limits w.clock.unixNanos key deadline = decided
    obtain ⟨store, answer⟩ := decided
    rcases answer with _ | e | receiptAllowed | _
    · exact ends_finished (become_self ..)
    · exact ends_finished (become_self ..)
    · refine .of_step (show World.step limits (.tick later) _ = some _ from if_pos passed) ?_
      refine ends_lookingUp (r := ⟨key, msg.message⟩) ?_ target handOff
      exact become_self ..
    · exact ends_finished (become_self ..)

end Alone

def sampleMessage : AuthorizedMessage :=
  let key := AuthorizationEngine.sampleOwnKey
  let envelope : Envelope :=
    { octets := [], wire := [], version := implementedVersion, id := sampleMessageId
      fromSession := .fromRandomOctets 1, toSession := .fromRandomOctets 2
      conversationId := none, replyTo := none, correlationId := none
      createdAt := .epoch, ttlMs := none, content := [.text "hello" []]
      security := ⟨"alice", key.text, "n1", "s1"⟩ }
  { message := ⟨envelope, some ⟨sampleName, key⟩⟩
    decision := ⟨.deliver, .permit (.inboundGrant (.inbound ⟨key, none⟩ .device))⟩ }

def sampleTarget : DeliveryTarget := ⟨true, true, [], none⟩

def sampleRun : List Action :=
  [.offer 0 sampleMessage false, .offer 1 sampleMessage true, .admission 0, .admission 1,
    .lookup 0 (some (some sampleTarget)), .recheck 0 false, .call 0,
    .callReturns 0 (some .completed), .admission 1, .settle 0, .admission 1]

theorem handoff_at_most_once_sample :
    ∃ w c, Reaches (World.step (.withCapacity 4)) anyMove (.initial .epoch) w ∧
      w.log.countP (Event.takes c) = 1 ∧
      ∀ pre post i, w.log = pre ++ .ended i c true :: post → ∀ j, .started j c ∉ post := by
  have ran : (perform (World.step (.withCapacity 4)) sampleRun (.initial .epoch)).map
      (fun w => w.log.countP (Event.takes (Reservation.mk ⟨sampleMessage.message.envelope.security.keyId,
        "n1"⟩ sampleMessage.message).copy)) = some 1 := by decide +kernel
  obtain ⟨w, run, once⟩ := reached_of_map _ ran
  exact ⟨w, _, run, once, (handoff_at_most_once _ _ w run _).2.2⟩

def at301 : Timestamp := ⟨"1970-01-01T00:05:01Z", 301000000000, by decide +kernel⟩

/-- The copy is handed off at once, and refused when its deadline passes before the re-check. -/
theorem deliver_alone_sample :
    (∃ store, EndsWith (.withCapacity 4) (.initial .epoch) 0 store
      (.returned (.ok (.reported ⟨.handedToHarness, none, none⟩)))) ∧
    ∃ store, EndsWith (.withCapacity 4) (.initial .epoch) 0 store
      (.returned (.ok (.reported ⟨.expired, some .outsideReplayWindow, none⟩))) := by
  have alone (later : Timestamp) (passed : Timestamp.epoch.unixNanos ≤ later.unixNanos) :
      EndsWith (.withCapacity 4) (.initial .epoch) 0 _ _ :=
    deliver_alone rfl sampleMessage (fun _ => some sampleTarget) (fun _ => .completed) passed
  exact ⟨⟨_, alone .epoch (by decide)⟩, _, alone at301 (by decide)⟩

end Oac
