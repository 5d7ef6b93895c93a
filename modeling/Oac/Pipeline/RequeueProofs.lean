import Oac.Foundation.Threads
import Oac.Pipeline.Requeue
import Oac.Receiver.Gate

/-! No re-queued copy is lost. Every taking of a copy is in one place from the moment it is counted,
the counter counts the takings and the refusals under way, and a thread leaves with the re-queue
empty. -/

namespace Oac.Requeue

open Transition Oac.Inner Table Threads List Option

section Waiters

theorem remove_waiters (s : Inner) (key : DuplicateKey) : (s.remove key).waiters = s.waiters := by
  unfold remove
  split <;> rfl

theorem evict_waiters (s : Inner) (now : Int) : (s.evict now).waiters = s.waiters :=
  foldlRecOn (motive := fun t => t.waiters = s.waiters) _ _ rfl
    fun t same item _ => (remove_waiters t item.2).trans same

theorem evict_inFlight {s : Inner} (held : (s.evict now).entry key = some e) : s.entry key = some e := by
  unfold evict at held
  rw [removeAll_entry] at held
  split at held
  · cases held
  · exact held

variable (n : Nat) (s : Inner) (key : DuplicateKey) (handedOff : Bool)

theorem settle_waiters : (s.settle key handedOff).1.waiters = s.waiters.erase key := by
  cases handedOff with
  | true => rfl
  | false =>
    change AList.erase key (s.remove key).waiters = _
    rw [remove_waiters]

theorem settle_notified : (s.settle key handedOff).2 = (s.waiters.lookup key).getD [] := by
  cases handedOff with
  | true => rfl
  | false =>
    change (AList.lookup key (s.remove key).waiters).getD [] = _
    rw [remove_waiters]

def held (n : Nat) (s : Inner) : Nat := sum (fun _ callbacks => callbacks.count n) s.waiters

theorem held_settle : held n (s.settle key handedOff).1 + (s.settle key handedOff).2.count n = held n s := by
  unfold held
  rw [settle_waiters, settle_notified]
  cases found : s.waiters.lookup key with
  | none =>
    rw [erase_of_lookup_none found]
    rfl
  | some callbacks =>
    rw [sum_erase found]
    exact Nat.add_comm _ _

theorem held_whenSettled (ticket : SettleCallback) :
    held n (s.whenSettled key ticket).1 + (s.whenSettled key ticket).2.count n =
      held n s + [ticket].count n := by
  unfold whenSettled
  split
  · have changed : ∀ k, AList.lookup k
        (s.waiters.insert key ((s.waiters.lookup key).getD [] ++ [ticket])) =
          if k = key then some ((s.waiters.lookup key).getD [] ++ [ticket]) else s.waiters.lookup k :=
      fun k => lookup_insert_if key k _ s.waiters
    have total := sum_update (f := fun _ callbacks => callbacks.count n) changed
    unfold held
    cases found : s.waiters.lookup key with
    | none =>
      simp only [found, getD_none, elim_none, elim_some, nil_append] at total ⊢
      simp only [count_nil]
      omega
    | some callbacks =>
      simp only [found, getD_some, elim_some, count_append] at total ⊢
      simp only [count_nil]
      omega
  · rfl

end Waiters

section Inversion

variable {limits : StoreLimits} {maxRequeued : Nat} {s t : State}

variable (limits maxRequeued s) in
/-- What a step does. -/
inductive Moved : State → Prop where
  /-- A thread enters. -/
  | entered (empty : stage.tickets = []) (takes : stage.refuses = false) :
      Moved { s with threads := s.threads ++ [stage] }
  /-- A thread goes on with what it holds. -/
  | went {i : Nat} (here : s.threads[i]? = some old) (same : new.tickets = old.tickets)
      (takes : new.refuses = old.refuses) (holds : new.reservation = old.reservation)
      (stays : new ≠ .returned) : Moved (s.become i new)
  | answered {i : Nat} (here : s.threads[i]? = some (.offering msg)) :
      Moved { s.become i (afterAdmission msg key (s.store.decideAdmission limits now key deadline).2) with
        store := (s.store.decideAdmission limits now key deadline).1 }
  | settled {i : Nat} {next} (here : s.threads[i]? = some (.settling r handedOff next)) :
      Moved { s.become i (.notifying (s.store.settle r.key handedOff).2 next) with
        store := (s.store.settle r.key handedOff).1 }
  | pushed {i : Nat} {next} (here : s.threads[i]? = some (.notifying (ticket :: rest) next)) :
      Moved { s.become i (.notifying rest next) with queue := s.queue ++ [ticket] }
  | refused {i : Nat} (here : s.threads[i]? = some (.counting key msg)) :
      Moved { s.become i .takingBack with waiting := s.waiting + 1 }
  | took {i : Nat} (here : s.threads[i]? = some (.counting key msg)) (room : s.waiting < cap maxRequeued) :
      Moved { s.become i (.registering key s.taken.length) with
        waiting := s.waiting + 1, taken := s.taken ++ [msg] }
  | tookBack {i : Nat} (here : s.threads[i]? = some .takingBack) :
      Moved { s.become i .reporting with waiting := s.waiting - 1 }
  | registered {i : Nat} (here : s.threads[i]? = some (.registering key ticket)) :
      Moved { s.become i (.notifying (s.store.whenSettled key ticket).2 .drain) with
        store := (s.store.whenSettled key ticket).1 }
  | left {i : Nat} (here : s.threads[i]? = some .draining) (empty : s.queue = []) : Moved (s.become i .returned)
  | popped {i : Nat} (here : s.threads[i]? = some .draining) (first : s.queue = ticket :: rest) :
      Moved { s.become i (.takingOff ticket) with queue := rest }
  | reoffered {i : Nat} (here : s.threads[i]? = some (.takingOff ticket)) (copy : s.taken[ticket]? = some msg) :
      Moved { s.become i (.offering msg) with waiting := s.waiting - 1, offered := s.offered ++ [ticket] }
  | evicted (now : Int) : Moved { s with store := s.store.evict now }

theorem afterLookup_reservation (r : Reservation) (found : Option (Option DeliveryTarget)) :
    (afterLookup r found).tickets = [] ∧ (afterLookup r found).refuses = false ∧
      (afterLookup r found).reservation = some r ∧ afterLookup r found ≠ .returned := by
  fun_cases afterLookup <;> exact ⟨rfl, rfl, rfl, nofun⟩

theorem afterRecheck_reservation (r : Reservation) (now : Option Timestamp) :
    (afterRecheck r now).tickets = [] ∧ (afterRecheck r now).refuses = false ∧
      (afterRecheck r now).reservation = some r ∧ afterRecheck r now ≠ .returned := by
  fun_cases afterRecheck <;> exact ⟨rfl, rfl, rfl, nofun⟩

theorem front_stage (came : Front) : came.stage.tickets = [] ∧ came.stage.refuses = false := by
  cases came <;> exact ⟨rfl, rfl⟩

theorem step_moved [Libraries] (stepped : step limits maxRequeued action s = some t) :
    Moved limits maxRequeued s t := by
  revert stepped
  fun_cases step limits maxRequeued action s <;> rintro ⟨⟩
  · exact .entered (front_stage _).1 (front_stage _).2
  · next here _ _ => exact .went here rfl rfl rfl nofun
  · next here _ _ => exact .went here rfl rfl rfl nofun
  · next here _ _ _ _ _ => exact .answered here
  · next found r here =>
    obtain ⟨tickets, takes, holds, stays⟩ := afterLookup_reservation r found
    exact .went here tickets takes holds stays
  · next now r here =>
    obtain ⟨tickets, takes, holds, stays⟩ := afterRecheck_reservation r now
    exact .went here tickets takes holds stays
  · next here => exact .went here rfl rfl rfl nofun
  · next here _ => exact .settled here
  · next next here => cases next <;> exact .went here rfl rfl rfl nofun
  · next here => exact .pushed here
  · next here _ => exact .refused here
  · next here room => exact .took here (by omega)
  · next here => exact .tookBack here
  · next here _ => exact .registered here
  · next panics here => cases panics <;> exact .went here rfl rfl rfl nofun
  · next here empty => exact .left here empty
  · next here _ _ first => exact .popped here first
  · next here _ copy => exact .reoffered here copy
  · exact .evicted _

end Inversion

section Invariant

variable {limits : StoreLimits} {maxRequeued : Nat} {s t : State}

/-- A hand-off of the key is under way, or callbacks wait for its settlement. -/
def Busy (store : Inner) (key : DuplicateKey) : Prop :=
  (∃ e, store.entry key = some e ∧ e.phase = .inFlight) ∨ ∃ callbacks,
    store.waiters.lookup key = some callbacks

/-- A thread holds an unsettled reservation of the key. -/
def Stage.Reserves (key : DuplicateKey) (stage : Stage) : Prop :=
  ∃ r, stage.reservation = some r ∧ r.key = key

def inHand (n : Nat) (threads : List Stage) : Nat :=
  (threads.map fun stage => stage.tickets.count n).sum

def places (s : State) (n : Nat) : Nat :=
  held n s.store + inHand n s.threads + s.queue.count n + s.offered.count n

structure Kept (maxRequeued : Nat) (s : State) : Prop where
  placed : ∀ n, places s n = if n < s.taken.length then 1 else 0
  counted : s.waiting = s.taken.length - s.offered.length + s.refusing
  bounded : s.taken.length ≤ s.offered.length + cap maxRequeued
  reserved : ∀ key, Busy s.store key → ∃ stage ∈ s.threads, stage.Reserves key
  awake : s.queue ≠ [] → ∃ stage ∈ s.threads, stage ≠ .returned

theorem initial_kept : Kept maxRequeued .initial where
  placed n := rfl
  counted := rfl
  bounded := Nat.zero_le _
  reserved key busy := by
    obtain ⟨e, entered, -⟩ | ⟨callbacks, waits⟩ := busy
    · cases entered
    · cases waits
  awake some_ := absurd rfl some_

section Places

variable {i : Nat} {old new : Stage}

theorem inHand_set (n : Nat) (here : threads[i]? = some old) (new : Stage) :
    inHand n (threads.set i new) + old.tickets.count n = inHand n threads + new.tickets.count n :=
  sum_set (fun stage : Stage => stage.tickets.count n) here new

theorem decideAdmission_held (now deadline : Int) (store : Inner) (key : DuplicateKey) :
    (store.decideAdmission limits now key deadline).1.waiters = store.waiters := by
  have ruled := decideAdmission_ruled limits now deadline store key
  generalize store.decideAdmission limits now key deadline = answer at ruled
  cases ruled <;> exact evict_waiters store now

theorem afterAdmission_holds (msg : AuthorizedMessage) (key : DuplicateKey)
    (answer : Option (Except SecurityRejection Admission)) :
    (afterAdmission msg key answer).tickets = [] ∧ (afterAdmission msg key answer).refuses = false ∧
      afterAdmission msg key answer ≠ .returned := by
  unfold afterAdmission
  split <;> exact ⟨rfl, rfl, nofun⟩

theorem places_become (more : Nat) (here : s.threads[i]? = some old)
    (threads : t.threads = s.threads.set i new)
    (balance : held n t.store + new.tickets.count n + t.queue.count n + t.offered.count n =
      held n s.store + old.tickets.count n + s.queue.count n + s.offered.count n + more) :
    places t n = places s n + more := by
  have moves := inHand_set n here new
  unfold places
  rw [threads]
  omega

/-- A step moves a taking from one place to another, and only taking a copy adds one. -/
theorem Moved.places_eq (moved : Moved limits maxRequeued s t) (n : Nat) :
    t.taken = s.taken ∧ places t n = places s n ∨
      t.taken.length = s.taken.length + 1 ∧ places t n = places s n + if n = s.taken.length then 1 else 0 := by
  cases moved with
  | entered empty takes => exact .inl ⟨rfl, by simp [places, inHand, empty]⟩
  | went here same takes holds stays => exact .inl ⟨rfl, places_become 0 here rfl (by rw [same]; rfl)⟩
  | answered here =>
    refine .inl ⟨rfl, places_become 0 here rfl ?_⟩
    rw [(afterAdmission_holds ..).1]
    unfold held
    rw [decideAdmission_held]
    rfl
  | @settled r handedOff next i here =>
    have given := held_settle n s.store r.key handedOff
    refine .inl ⟨rfl, places_become 0 here rfl ?_⟩
    simp only [Stage.tickets, State.become, count_nil]
    omega
  | @registered key ticket i here =>
    have given := held_whenSettled n s.store key ticket
    refine .inl ⟨rfl, places_become 0 here rfl ?_⟩
    simp only [Stage.tickets, State.become]
    omega
  | pushed here | reoffered here =>
    refine .inl ⟨rfl, places_become 0 here rfl ?_⟩
    simp only [Stage.tickets, State.become, count_append, count_cons, count_nil]
    omega
  | took here room =>
    refine .inr ⟨by simp, places_become _ here rfl ?_⟩
    simp only [Stage.tickets, State.become, count_cons, count_nil, beq_iff_eq, eq_comm (b := n)]
    omega
  | popped here first =>
    refine .inl ⟨rfl, places_become 0 here rfl ?_⟩
    simp only [Stage.tickets, State.become, first, count_cons, count_nil]
    omega
  | refused here | tookBack here | left here => exact .inl ⟨rfl, places_become 0 here rfl rfl⟩
  | evicted now =>
    refine .inl ⟨rfl, ?_⟩
    unfold places held
    rw [evict_waiters]

theorem Moved.placed (moved : Moved limits maxRequeued s t)
    (placed : ∀ n, places s n = if n < s.taken.length then 1 else 0) (n : Nat) :
    places t n = if n < t.taken.length then 1 else 0 := by
  obtain ⟨taken, same⟩ | ⟨taken, more⟩ := moved.places_eq n
  · rw [same, taken]
    exact placed n
  · rw [more, placed n]
    split <;> split <;> split <;> omega

end Places

section Counter

theorem counted_become (here : s.threads[i]? = some old) (threads : t.threads = s.threads.set i new)
    (counted : s.waiting = s.taken.length - s.offered.length + s.refusing)
    (balance : t.waiting + s.taken.length + t.offered.length + old.refuses.toNat =
      s.waiting + t.taken.length + s.offered.length + new.refuses.toNat) :
    t.waiting = t.taken.length - t.offered.length + t.refusing := by
  have moves : t.refusing + old.refuses.toNat = s.refusing + new.refuses.toNat := by
    unfold State.refusing
    rw [threads]
    exact countP_set Stage.refuses here new
  omega

theorem Moved.counted (moved : Moved limits maxRequeued s t)
    (counted : s.waiting = s.taken.length - s.offered.length + s.refusing) :
    t.waiting = t.taken.length - t.offered.length + t.refusing := by
  cases moved with
  | @entered stage empty takes =>
    have same : (State.refusing { s with threads := s.threads ++ [stage] }) = s.refusing := by
      simp [State.refusing, takes]
    rw [same]
    exact counted
  | went here same takes holds stays => exact counted_become here rfl counted (by rw [takes]; rfl)
  | answered here => exact counted_become here rfl counted (by rw [(afterAdmission_holds ..).2.1]; rfl)
  | settled here | pushed here | refused here | took here room | tookBack here | registered here | left here
  | popped here | reoffered here =>
    refine counted_become here rfl counted ?_
    simp only [State.become, Stage.refuses, length_append, length_singleton, Bool.toNat_true,
      Bool.toNat_false] <;> omega
  | evicted now => exact counted

theorem Moved.bounded (moved : Moved limits maxRequeued s t)
    (counted : s.waiting = s.taken.length - s.offered.length + s.refusing)
    (bounded : s.taken.length ≤ s.offered.length + cap maxRequeued) :
    t.taken.length ≤ t.offered.length + cap maxRequeued := by
  cases moved with
  | @took key msg i here room =>
    change (s.taken ++ [msg]).length ≤ s.offered.length + cap maxRequeued
    rw [length_append, length_singleton]
    omega
  | @reoffered ticket msg i here copy =>
    change s.taken.length ≤ (s.offered ++ [ticket]).length + cap maxRequeued
    rw [length_append]
    omega
  | entered | went | answered | settled | pushed | refused | tookBack | registered | left | popped | evicted =>
    exact bounded

end Counter

section Progress

theorem busy_of_settle (busy : Busy (store.settle key handedOff).1 other) :
    other ≠ key ∧ Busy store other := by
  by_cases same : other = key
  · exfalso
    subst same
    obtain ⟨e, entered, running⟩ | ⟨callbacks, waits⟩ := busy
    · rw [settle_entry, if_pos rfl] at entered
      cases handedOff with
      | false => cases entered
      | true =>
        obtain ⟨_, -, rfl⟩ := map_eq_some_iff.mp entered
        cases running
    · rw [settle_waiters, lookup_erase_if, if_pos rfl] at waits
      cases waits
  · refine ⟨same, ?_⟩
    obtain ⟨e, entered, running⟩ | ⟨callbacks, waits⟩ := busy
    · rw [settle_entry, if_neg same] at entered
      exact .inl ⟨e, entered, running⟩
    · rw [settle_waiters, lookup_erase_if, if_neg same] at waits
      exact .inr ⟨callbacks, waits⟩

theorem busy_of_whenSettled (busy : Busy (store.whenSettled key ticket).1 other) : Busy store other := by
  unfold Busy at busy ⊢
  rw [whenSettled_entry] at busy
  obtain running | ⟨callbacks, waits⟩ := busy
  · exact .inl running
  · unfold whenSettled at waits
    split at waits
    · next inFlight =>
      rw [lookup_insert_if] at waits
      split at waits
      · next same =>
        subst same
        cases found : store.entries.lookup other with
        | none =>
          rw [found] at inFlight
          cases inFlight
        | some e =>
          rw [found] at inFlight
          exact .inl ⟨e, found, beq_iff_eq.mp inFlight⟩
      · exact .inr ⟨callbacks, waits⟩
    · exact .inr ⟨callbacks, waits⟩

theorem busy_of_evict (busy : Busy (store.evict now) key) :
    Busy store key := by
  obtain ⟨e, entered, running⟩ | ⟨callbacks, waits⟩ := busy
  · exact .inl ⟨e, evict_inFlight entered, running⟩
  · exact .inr ⟨callbacks, evict_waiters store now ▸ waits⟩

theorem busy_of_decideAdmission (busy : Busy (store.decideAdmission limits now key deadline).1 other) :
    Busy store other ∨ other = key ∧
      (store.decideAdmission limits now key deadline).2 = some (.ok .admitted) := by
  have ruled := decideAdmission_ruled limits now deadline store key
  generalize store.decideAdmission limits now key deadline = answer at ruled busy ⊢
  cases ruled with
  | waiting | full => exact .inl (busy_of_evict busy)
  | @duplicate e held settled =>
    suffices old : Busy (store.evict now) other from .inl (busy_of_evict old)
    obtain ⟨e', entered, running⟩ | waits := busy
    · refine .inl ⟨e', ?_, running⟩
      change AList.lookup other ((store.evict now).entries.insert key _) = some e' at entered
      rw [lookup_insert_if] at entered
      split at entered
      · cases entered
        rw [settled] at running
        cases running
      · exact entered
    · exact .inr waits
  | admitted absent room =>
    by_cases same : other = key
    · exact .inr ⟨same, rfl⟩
    · suffices old : Busy (store.evict now) other from .inl (busy_of_evict old)
      obtain ⟨e, entered, running⟩ | waits := busy
      · rw [insert_entry, if_neg same] at entered
        exact .inl ⟨e, entered, running⟩
      · exact .inr waits

theorem Moved.reserved (moved : Moved limits maxRequeued s t)
    (reserved : ∀ key, Busy s.store key → ∃ stage ∈ s.threads, stage.Reserves key) (key : DuplicateKey)
    (busy : Busy t.store key) : ∃ stage ∈ t.threads, stage.Reserves key := by
  cases moved with
  | entered empty takes =>
    obtain ⟨holder, member, holds⟩ := reserved key busy
    exact ⟨holder, mem_append_left _ member, holds⟩
  | went here same takes holds stays =>
    refine exists_set here (fun ⟨r, held, named⟩ => ⟨r, ?_, named⟩) (reserved key busy)
    rw [holds]
    exact held
  | answered here =>
    obtain old | ⟨same, admitted⟩ := busy_of_decideAdmission busy
    · exact exists_set here (fun ⟨_, held, _⟩ => nomatch held) (reserved key old)
    · refine ⟨_, mem_set_self here _, ?_⟩
      rw [admitted]
      exact ⟨_, rfl, same.symm⟩
  | settled here =>
    obtain ⟨different, old⟩ := busy_of_settle busy
    refine exists_set here (fun ⟨r', held, named⟩ => ?_) (reserved key old)
    cases held
    exact absurd named.symm different
  | registered here =>
    exact exists_set here (fun ⟨_, held, _⟩ => nomatch held) (reserved key (busy_of_whenSettled busy))
  | pushed here | refused here | took here | tookBack here | left here | popped here | reoffered here =>
    exact exists_set here (fun ⟨_, held, _⟩ => nomatch held) (reserved key busy)
  | evicted now => exact reserved key (busy_of_evict busy)

theorem Moved.awake (moved : Moved limits maxRequeued s t)
    (awake : s.queue ≠ [] → ∃ stage ∈ s.threads, stage ≠ .returned) (waits : t.queue ≠ []) :
    ∃ stage ∈ t.threads, stage ≠ .returned := by
  cases moved with
  | entered empty takes =>
    obtain ⟨other, member, works⟩ := awake waits
    exact ⟨other, mem_append_left _ member, works⟩
  | went here same takes holds stays => exact ⟨_, mem_set_self here _, stays⟩
  | answered here => exact ⟨_, mem_set_self here _, (afterAdmission_holds ..).2.2⟩
  | settled here | pushed here | refused here | took here | tookBack here | registered here | popped here
  | reoffered here => exact ⟨_, mem_set_self here _, nofun⟩
  | left here empty => exact absurd empty waits
  | evicted now => exact awake waits

end Progress

theorem step_kept [Libraries] (stepped : step limits maxRequeued action s = some t)
    (kept : Kept maxRequeued s) : Kept maxRequeued t := by
  have moved := step_moved stepped
  exact ⟨moved.placed kept.placed, moved.counted kept.counted,
    moved.bounded kept.counted kept.bounded, moved.reserved kept.reserved, moved.awake kept.awake⟩

/-- Every run of any number of threads keeps the account. -/
theorem run_kept [Libraries] (run : Reaches (step limits maxRequeued) anyMove .initial s) :
    Kept maxRequeued s :=
  run.invariant (fun _ _ _ _ stepped kept => step_kept stepped kept) initial_kept

end Invariant

section Account

variable {limits : StoreLimits} {maxRequeued : Nat} {s : State}

/-- The account of the copies that `requeue` took. -/
structure Account (maxRequeued : Nat) (s : State) : Prop where
  /-- Each taking is in one place: it is still pending, or its copy was offered again once. -/
  once : (s.pending ++ s.offered).Perm (range s.taken.length)
  counter : s.waiting = s.pending.length + s.refusing
  pending : s.pending.length ≤ cap maxRequeued
  limit : s.refusing = 0 → s.waiting ≤ cap maxRequeued
  noUnderflow : ∀ stage ∈ s.threads,
    (stage = .takingBack ∨ ∃ ticket, stage = .takingOff ticket) → 1 ≤ s.waiting
  /-- Callbacks are left behind by no thread, not even one that unwinds. -/
  callbacks : (∀ stage ∈ s.threads, stage = .returned ∨ stage = .unwound) → s.registered = []
  returned : s.allReturned → s.registered = [] ∧ s.queue = [] ∧ s.waiting = 0 ∧
    s.offered.Perm (range s.taken.length)

theorem Kept.once (kept : Kept maxRequeued s) : (s.pending ++ s.offered).Perm (range s.taken.length) := by
  rw [perm_iff_count]
  intro n
  have registered : s.registered.count n = held n s.store := by
    rw [State.registered, count_flatMap]
    rfl
  have hands : (s.threads.flatMap Stage.tickets).count n = inHand n s.threads := by
    rw [count_flatMap]
    rfl
  rw [State.pending, count_append, count_append, count_append, registered, hands]
  have placed := kept.placed n
  unfold places at placed
  rw [placed, nodup_range.count]
  simp only [mem_range]

theorem Kept.pending_length (kept : Kept maxRequeued s) :
    s.pending.length + s.offered.length = s.taken.length := by
  have length := kept.once.length_eq
  rw [length_append, length_range] at length
  exact length

theorem Kept.registered_nil (kept : Kept maxRequeued s)
    (out : ∀ stage ∈ s.threads, stage = .returned ∨ stage = .unwound) : s.registered = [] := by
  have none_ : ∀ key, s.store.waiters.lookup key = none := by
    intro key
    by_contra waits
    obtain ⟨callbacks, waits⟩ := ne_none_iff_exists'.mp waits
    obtain ⟨stage, member, r, holds, -⟩ := kept.reserved key (.inr ⟨callbacks, waits⟩)
    obtain rfl | rfl := out stage member <;> cases holds
  have empty : s.store.waiters.entries = [] := by
    refine eq_nil_iff_forall_not_mem.mpr fun item member => ?_
    have found := AList.mem_lookup_iff.mpr member
    rw [none_ item.1] at found
    cases found
  rw [State.registered, empty]
  rfl

theorem Kept.refusing_pos (member : stage ∈ s.threads) (refuses : stage.refuses = true) : 1 ≤ s.refusing :=
  countP_pos_iff.mpr ⟨stage, member, refuses⟩

theorem Kept.pending_pos (member : stage ∈ s.threads) (held : ticket ∈ stage.tickets) :
    1 ≤ s.pending.length := by
  refine length_pos_of_mem (a := ticket) ?_
  exact mem_append_left _ (mem_append_right _ (mem_flatMap.mpr ⟨stage, member, held⟩))

theorem Kept.account (kept : Kept maxRequeued s) : Account maxRequeued s := by
  have total := kept.pending_length
  have counted := kept.counted
  have bounded := kept.bounded
  have counter : s.waiting = s.pending.length + s.refusing := by omega
  refine ⟨kept.once, counter, by omega, fun none_ => by omega, ?_, kept.registered_nil, ?_⟩
  · rintro stage member (rfl | ⟨ticket, rfl⟩)
    · have positive := Kept.refusing_pos member rfl
      omega
    · have positive := Kept.pending_pos member (mem_singleton.mpr (rfl : ticket = ticket))
      omega
  · intro returned
    have registered := kept.registered_nil fun stage member => .inl (returned stage member)
    have queue : s.queue = [] := by
      by_contra waits
      obtain ⟨stage, member, works⟩ := kept.awake waits
      exact works (returned stage member)
    have hands : s.threads.flatMap Stage.tickets = [] := by
      refine flatMap_eq_nil_iff.mpr fun stage member => ?_
      rw [returned stage member]
      rfl
    have pending : s.pending = [] := by
      rw [State.pending, registered, hands, queue]
      rfl
    have refusing : s.refusing = 0 := by
      refine countP_eq_zero.mpr fun stage member => ?_
      rw [returned stage member]
      exact nofun
    have once := kept.once
    rw [pending] at once
    rw [pending, refusing] at counter
    exact ⟨registered, queue, counter, once⟩

/-- In every interleaving each copy that `requeue` took is pending in one place or was offered again
once for that taking, the counter is exact, and nothing is left when every thread has returned. -/
theorem requeued_copies_accounted [Libraries] (limits : StoreLimits) (maxRequeued : Nat) (s : State)
    (run : Reaches (step limits maxRequeued) anyMove .initial s) : Account maxRequeued s :=
  (run_kept run).account

end Account

section Sample

open AuthorizationEngine

attribute [local instance] sampleLibraries

def sampleArrival : Action :=
  .arrive ⟨[0], 65536, []⟩ sampleEnvelopeOctets false sampleGateEngine .epoch .epoch .epoch

def sampleCounted : List Action :=
  [sampleArrival, sampleArrival, .admission 0 (some .epoch), .admission 1 (some .epoch), .fetchAdd 1]

def sampleRegistered : List Action := sampleCounted ++ [.whenSettled 1, .notify 1, .pop 1]

def sampleDrained : List Action :=
  sampleRegistered ++ [.lookup 0 (some (some ⟨true, true, [], none⟩)), .recheck 0 (some .epoch),
    .handOff 0 .completed, .settle 0, .notify 0, .notify 0, .report 0 false, .pop 0, .fetchSub 0,
    .admission 0 (some .epoch), .report 0 false, .pop 0]

def Stage.isReturned : Stage → Bool
  | returned => true
  | _ => false

/-- The thread has a settle callback to run or a copy just off the re-queue. -/
def Stage.holdsCopy : Stage → Bool
  | notifying _ _ | takingOff _ => true
  | _ => false

theorem requeued_copies_accounted_drained :
    ∃ s, Reaches (step (.withCapacity 16) 1) anyMove .initial s ∧ s.allReturned ∧
      s.taken.length = 1 ∧ Account 1 s := by
  have ran : (perform (step (.withCapacity 16) 1) sampleDrained .initial).map
      (fun s => (s.threads.all Stage.isReturned, s.taken.length)) = some (true, 1) := by decide +kernel
  obtain ⟨s, performed, seen⟩ := map_eq_some_iff.mp ran
  obtain ⟨returned, taken⟩ := Prod.mk.inj seen
  have run := reaches_of_perform sampleDrained performed
  refine ⟨s, run, fun stage member => ?_, taken, @requeued_copies_accounted _ _ _ s run⟩
  have here := all_eq_true.mp returned stage member
  cases stage <;> first | rfl | cases here

/-- The counter is above a limit of zero with one copy waiting, and it counts a copy that no
callback and no re-queue holds yet. -/
theorem waiting_differs :
    (∃ s, Reaches (step (.withCapacity 16) 0) anyMove .initial s ∧ s.waiting = 1 ∧
      s.registered.length = 1) ∧
    ∃ s, Reaches (step (.withCapacity 16) 1) anyMove .initial s ∧ s.waiting = 1 ∧
      s.registered = [] ∧ s.queue = [] ∧ s.threads.any Stage.holdsCopy = false := by
  -- One evaluation for both runs: they begin with the same arrival.
  have ran : (perform (step (.withCapacity 16) 0) sampleRegistered .initial).map
        (fun s => (s.waiting, s.registered.length)) = some (1, 1) ∧
      (perform (step (.withCapacity 16) 1) sampleCounted .initial).map
        (fun s => (s.waiting, s.registered, s.queue, s.threads.any Stage.holdsCopy)) =
          some (1, [], [], false) := by decide +kernel
  obtain ⟨s, performed, seen⟩ := map_eq_some_iff.mp ran.1
  obtain ⟨t, performed', seen'⟩ := map_eq_some_iff.mp ran.2
  simp only [Prod.mk.injEq] at seen seen'
  exact ⟨⟨s, reaches_of_perform sampleRegistered performed, seen⟩,
    t, reaches_of_perform sampleCounted performed', seen'⟩

end Sample

end Oac.Requeue
