import Mathlib.Order.Bounds.Basic
import Oac.Pipeline.ArrivalOrder

/-! The bound on the pending native signals, and whose signal makes room for a new one. -/

namespace Oac

open List

section FairShare

variable {H : Type} [DecidableEq H]

def pendingOf (pending : List (H × Nat)) (h : H) : Nat := pending.countP (·.1 = h)

def seqsOf (pending : List (H × Nat)) (h : H) : Set Nat := {n | (h, n) ∈ pending}

variable (pending : List (H × Nat)) (holder : H) in
/-- What makes room for a new signal of `holder`: the oldest of the heaviest holder whose latest
signal is newest, if it has two more; otherwise the oldest of `holder` itself. -/
inductive Victim : Option Nat → Prop
  | heaviest (most : ∀ k, pendingOf pending k ≤ pendingOf pending h)
      (more : pendingOf pending holder + 2 ≤ pendingOf pending h) (latest : IsGreatest (seqsOf pending h) n)
      (newest : ∀ k m, pendingOf pending k = pendingOf pending h → IsGreatest (seqsOf pending k) m → m ≤ n)
      (oldest : IsLeast (seqsOf pending h) v) : Victim (some v)
  | own (even : ∀ k, pendingOf pending k < pendingOf pending holder + 2)
      (oldest : IsLeast (seqsOf pending holder) v) : Victim (some v)
  | refused (even : ∀ k, pendingOf pending k < 2) (absent : pendingOf pending holder = 0) :
      Victim none

/-- What the counted share of a holder says of its pending signals. -/
structure Share.Sums (s : Share) (pending : List (H × Nat)) (h : H) : Prop where
  count : s.count = pendingOf pending h
  latest : IsGreatest (seqsOf pending h) s.latest
  oldest : IsLeast (seqsOf pending h) s.oldest

variable {pending pending' : List (H × Nat)} {holder h : H}

theorem pendingOf_pos : 0 < pendingOf pending h ↔ ∃ n, (h, n) ∈ pending := by
  simp [pendingOf, countP_pos_iff]

theorem pendingOf_snoc (k : H) (n : Nat) :
    pendingOf (pending ++ [(k, n)]) h = pendingOf pending h + if k = h then 1 else 0 := by
  simp [pendingOf, countP_append, countP_singleton]

theorem seqsOf_snoc (k : H) (n : Nat) :
    seqsOf (pending ++ [(k, n)]) h = if k = h then insert n (seqsOf pending h) else seqsOf pending h := by
  ext m
  by_cases same : k = h
  · simp [seqsOf, same, or_comm]
  · simp [seqsOf, same, Ne.symm same]

theorem countShare_sums (pending : List (H × Nat)) (h : H) :
    (((pending.foldl countShare ∅).lookup h).elim (pendingOf pending h = 0) fun s => s.Sums pending h) := by
  induction pending using reverseRecOn with
  | nil => simp [pendingOf]
  | append_singleton rest last ih =>
    obtain ⟨k, n⟩ := last
    rw [foldl_append, foldl_cons, foldl_nil, countShare, Table.lookup_insert_if]
    by_cases same : k = h
    · subst same
      rw [if_pos rfl]
      cases found : (rest.foldl countShare ∅).lookup k with
      | none =>
        simp only [found, Option.elim_none] at ih
        have none_ : seqsOf rest k = ∅ := Set.eq_empty_iff_forall_notMem.mpr fun m held => by
          have := pendingOf_pos.mpr ⟨m, held⟩
          omega
        refine ⟨?_, ?_, ?_⟩ <;> simp [pendingOf_snoc, seqsOf_snoc, ih, none_]
      | some c =>
        simp only [found, Option.elim_some] at ih
        refine ⟨?_, ?_, ?_⟩
        · simp [pendingOf_snoc, ih.count]
        · simpa [seqsOf_snoc, max_comm] using ih.latest.insert n
        · simpa [seqsOf_snoc, min_comm] using ih.oldest.insert n
    · rw [if_neg (Ne.symm same)]
      cases found : (rest.foldl countShare ∅).lookup h with
      | none => simpa [found, pendingOf_snoc, same] using ih
      | some c =>
        simp only [found, Option.elim_some] at ih
        exact ⟨by simp [pendingOf_snoc, same, ih.count], by simpa [seqsOf_snoc, same] using ih.latest,
          by simpa [seqsOf_snoc, same] using ih.oldest⟩

theorem latestShare_spec (filled : shares ≠ []) :
    ∃ s ∈ shares, latestShare shares = some s ∧ ∀ t ∈ shares, t.latest ≤ s.latest := by
  induction shares with
  | nil => exact absurd rfl filled
  | cons s rest ih =>
    cases rest with
    | nil => exact ⟨s, by simp, rfl, by simp⟩
    | cons t rest =>
      obtain ⟨u, member, found, newest⟩ := ih (cons_ne_nil t rest)
      rw [latestShare, found]
      by_cases older : s.latest ≤ u.latest
      · exact ⟨u, mem_cons_of_mem s member, by simp [older], forall_mem_cons.mpr ⟨older, newest⟩⟩
      · refine ⟨s, mem_cons_self, by simp [older], forall_mem_cons.mpr ⟨le_refl _, fun w listed => ?_⟩⟩
        have := newest w listed
        omega

theorem fairShareVictim_spec (pending : List (H × Nat)) (holder : H) :
    Victim pending holder (fairShareVictim pending holder) := by
  have sums := countShare_sums pending
  unfold fairShareVictim
  generalize pending.foldl countShare ∅ = counts at sums ⊢
  have found {k : H} {s : Share} (here : counts.lookup k = some s) : s.Sums pending k := by
    simpa [here] using sums k
  have listed {s : Share} (member : s ∈ counts.entries.map fun e => e.2) : ∃ k, counts.lookup k = some s := by
    obtain ⟨⟨k, _⟩, mem, rfl⟩ := mem_map.mp member
    exact ⟨k, AList.mem_lookup_iff.mpr mem⟩
  have mine : (counts.lookup holder).elim 0 (·.count) = pendingOf pending holder := by
    cases here : counts.lookup holder with
    | none => simpa [here, eq_comm] using sums holder
    | some s => exact (found here).count
  simp only [mine]
  obtain ⟨-, each, reached⟩ := Table.foldl_max_spec ((counts.entries.map fun e => e.2).map (·.count)) 0
  generalize ((counts.entries.map fun e => e.2).map (·.count)).foldl max 0 = most at each reached ⊢
  have atMost : ∀ k, pendingOf pending k ≤ most := by
    intro k
    cases here : counts.lookup k with
    | none => simp [(by simpa [here] using sums k : pendingOf pending k = 0)]
    | some s =>
      rw [← (found here).count]
      exact each _ (mem_map.mpr ⟨s, mem_map.mpr ⟨⟨k, s⟩, AList.mem_lookup_iff.mp here, rfl⟩, rfl⟩)
  split
  · next more =>
    rcases reached with none_ | mem
    · omega
    obtain ⟨s, member, heavy⟩ := mem_map.mp mem
    have tops : s ∈ (counts.entries.map fun e => e.2).filter (·.count == most) :=
      mem_filter.mpr ⟨member, by simp [heavy]⟩
    obtain ⟨t, held, chosen, newest⟩ := latestShare_spec (ne_nil_of_mem tops)
    obtain ⟨mem, heaviest⟩ := mem_filter.mp held
    obtain ⟨k, here⟩ := listed mem
    have count : most = pendingOf pending k := by rw [← (found here).count]; exact (beq_iff_eq.mp heaviest).symm
    rw [chosen]
    refine .heaviest (count ▸ atMost) (count ▸ more) (found here).latest
      (fun j m tied greatest => ?_) (found here).oldest
    cases there : counts.lookup j with
    | none =>
      have := (by simpa [there] using sums j : pendingOf pending j = 0)
      omega
    | some u =>
      rw [greatest.unique (found there).latest]
      refine newest u (mem_filter.mpr ⟨mem_map.mpr ⟨⟨j, u⟩, AList.mem_lookup_iff.mp there, rfl⟩, ?_⟩)
      simp [(found there).count, tied, count]
  · next even =>
    cases here : counts.lookup holder with
    | none =>
      have absent : pendingOf pending holder = 0 := by simpa [here] using sums holder
      refine .refused (fun k => ?_) absent
      have := atMost k
      omega
    | some s =>
      refine .own (fun k => ?_) (found here).oldest
      have := atMost k
      omega

theorem Victim.unique (distinct : (pending.map Prod.snd).Nodup) (one : Victim pending holder first)
    (other : Victim pending holder second) : first = second := by
  cases one with
  | @heaviest h n v most more latest newest oldest =>
    cases other with
    | @heaviest k m w most' more' latest' newest' oldest' =>
      have tied : pendingOf pending k = pendingOf pending h := le_antisymm (most k) (most' h)
      have same : m = n := le_antisymm (newest k m tied latest') (newest' h n tied.symm latest)
      subst same
      cases inj_on_of_nodup_map distinct latest.1 latest'.1 rfl
      rw [oldest.unique oldest']
    | own even =>
      have := even h
      omega
    | refused even =>
      have := even h
      omega
  | own even oldest =>
    cases other with
    | @heaviest k m w most' more' =>
      have := even k
      omega
    | own _ oldest' => rw [oldest.unique oldest']
    | refused _ absent =>
      have := pendingOf_pos.mpr ⟨_, oldest.1⟩
      omega
  | refused even absent =>
    cases other with
    | @heaviest k m w most' more' =>
      have := even k
      omega
    | own _ oldest' =>
      have := pendingOf_pos.mpr ⟨_, oldest'.1⟩
      omega
    | refused => rfl

theorem Victim.rename [DecidableEq K] {f : H → K} (counts : ∀ k, pendingOf named (f k) = pendingOf pending k)
    (seqs : ∀ k, seqsOf named (f k) = seqsOf pending k) (only : ∀ j n, (j, n) ∈ named → ∃ k, f k = j)
    (victim : Victim pending holder o) : Victim named (f holder) o := by
  have bounded {b : Nat} (each : ∀ k, pendingOf pending k ≤ b) (j : K) : pendingOf named j ≤ b := by
    rcases Nat.eq_zero_or_pos (pendingOf named j) with none_ | some_
    · omega
    · obtain ⟨n, held⟩ := pendingOf_pos.mp some_
      obtain ⟨k, rfl⟩ := only j n held
      exact (counts k).trans_le (each k)
  cases victim with
  | @heaviest h n v most more latest newest oldest =>
    refine .heaviest ?_ ?_ ((seqs h).symm ▸ latest) (fun j m tied greatest => ?_) ((seqs h).symm ▸ oldest)
    · exact (counts h).symm ▸ bounded most
    · rwa [counts, counts]
    · obtain ⟨k, rfl⟩ := only j m greatest.1
      rw [counts, counts] at tied
      exact newest k m tied (seqs k ▸ greatest)
  | own even oldest =>
    refine .own (fun j => ?_) ((seqs holder).symm ▸ oldest)
    rw [counts]
    exact Nat.lt_succ_of_le (bounded (fun k => Nat.le_of_lt_succ (even k)) j)
  | refused even absent =>
    exact .refused (fun j => Nat.lt_succ_of_le (bounded (fun k => Nat.le_of_lt_succ (even k)) j))
      ((counts holder).trans absent)

/-- The pending signals once one of `holder` has arrived at the bound. -/
def admitted (pending : List (H × Nat)) (holder : H) (seq : Nat) : List (H × Nat) :=
  match fairShareVictim pending holder with
  | some v => pending.eraseP (·.2 == v) ++ [(holder, seq)]
  | none => pending

theorem Victim.held (victim : Victim pending holder (some v)) : ∃ h, (h, v) ∈ pending := by
  cases victim with
  | heaviest _ _ _ _ oldest => exact ⟨_, oldest.1⟩
  | own _ oldest => exact ⟨_, oldest.1⟩

omit [DecidableEq H] in
theorem eraseP_perm (distinct : (pending.map Prod.snd).Nodup) (held : (h, v) ∈ pending) :
    pending.Perm ((h, v) :: pending.eraseP (·.2 == v)) := by
  obtain ⟨⟨k, n⟩, before, after, -, same, split_, erased⟩ := exists_of_eraseP held (p := (·.2 == v)) (by simp)
  cases beq_iff_eq.mp same
  have listed : (k, n) ∈ pending := by simp [split_]
  cases inj_on_of_nodup_map distinct held listed rfl
  rw [erased]
  exact split_ ▸ perm_middle

theorem admitted_length (pending : List (H × Nat)) (holder : H) (seq : Nat) :
    (admitted pending holder seq).length = pending.length := by
  have victim := fairShareVictim_spec pending holder
  unfold admitted
  split
  · next v chosen =>
    obtain ⟨h, held⟩ := (chosen ▸ victim).held
    have := length_pos_of_mem held
    rw [length_append, length_eraseP_of_mem held (by simp), length_singleton]
    omega
  · rfl

theorem admitted_seqs (pending : List (H × Nat)) (holder : H) (seq : Nat) :
    ((admitted pending holder seq).map Prod.snd).Sublist (pending.map Prod.snd ++ [seq]) := by
  unfold admitted
  split
  · rw [map_append]
    exact (eraseP_sublist.map _).append_right _
  · exact sublist_append_left _ _

/-- A newcomer brings no other holder below its own number, and takes from no other once it has the
most. -/
theorem admitted_fair (distinct : (pending.map Prod.snd).Nodup) (holder : H)
    (seq : Nat) (k : H) (other : k ≠ holder) :
    (pendingOf (admitted pending holder seq) k = pendingOf pending k ∨
      pendingOf (admitted pending holder seq) holder ≤ pendingOf (admitted pending holder seq) k) ∧
    ((∀ j, pendingOf pending j ≤ pendingOf pending holder) →
      seqsOf (admitted pending holder seq) k = seqsOf pending k) := by
  have victim := fairShareVictim_spec pending holder
  unfold admitted
  generalize fairShareVictim pending holder = chosen at victim
  have erased {h : H} {v : Nat} (held : (h, v) ∈ pending) (j : H) :
      pendingOf pending j = pendingOf (pending.eraseP (·.2 == v)) j + if h = j then 1 else 0 := by
    rw [pendingOf, (eraseP_perm distinct held).countP_eq]
    simp [pendingOf, countP_cons]
  cases victim with
  | @heaviest h n v most more latest newest oldest =>
    have mine := erased oldest.1 holder
    have theirs := erased oldest.1 k
    refine ⟨?_, fun heavy => ?_⟩
    · simp only [pendingOf_snoc, if_neg (Ne.symm other), if_true]
      by_cases same : h = k
      · rw [if_pos same] at theirs
        subst same
        omega
      · rw [if_neg same] at theirs
        omega
    · have := heavy h
      omega
  | own even oldest =>
    have theirs := erased oldest.1 k
    refine ⟨.inl ?_, fun _ => ?_⟩
    · simp only [pendingOf_snoc, if_neg (Ne.symm other)] at theirs ⊢
      omega
    · ext m
      simp [seqsOf, (eraseP_perm distinct oldest.1).mem_iff, other]
  | refused => exact ⟨.inl rfl, fun _ => rfl⟩

end FairShare

namespace Core

variable {c : Core} {config : PipelineConfig} {q : QueuedSignal}

/-- The holder and the arrival number of each pending signal. -/
def shares (c : Core) : List (SignalHolder × Nat) :=
  c.held.map (fun h => (.key h.adapter h.key, h.seq)) ++ c.signals.map fun q => (q.holder, q.seq)

theorem shares_length (c : Core) : c.shares.length = c.signals.length + c.held.length := by
  simp [shares, Nat.add_comm]

theorem takePending_shares (c : Core) (v : Nat) : (c.takePending v).1.shares = c.shares.eraseP (·.2 == v) := by
  have kept : ∀ l : List HeldSignal, l.find? (·.seq == v) = none →
      ¬((l.map fun h => (SignalHolder.key h.adapter h.key, h.seq)).any (·.2 == v)) := by simp
  simp only [shares, eraseP_append, eraseP_map]
  fun_cases takePending
  · next h found =>
    rw [if_pos]
    · rfl
    · simpa using ⟨h, mem_of_find?_eq_some found, by simpa using find?_some found⟩
  · next absent _ _ =>
    rw [if_neg (kept _ absent)]
    rfl
  · next absent none_ =>
    rw [if_neg (kept _ absent), eraseP_of_forall_not]
    simpa using none_

theorem enqueue_shares (full : max config.maxPendingSignals 1 ≤ c.shares.length) :
    (c.enqueue config q).1.shares = admitted c.shares q.holder q.seq := by
  have pending : c.pendingVictim q.holder = fairShareVictim c.shares q.holder := rfl
  rw [shares_length] at full
  fun_cases enqueue
  · omega
  · next v chosen _ _ taken =>
    rw [pending] at chosen
    simp only [admitted, chosen, ← takePending_shares, taken]
    simp [shares, pushSignal]
  · next chosen =>
    rw [pending] at chosen
    rw [admitted, chosen]

/-- The core once each of `reports` has been queued. -/
def enqueueAll (config : PipelineConfig) (reports : List QueuedSignal) (c : Core) : Core :=
  reports.foldl (fun c q => (c.enqueue config q).1) c

theorem enqueueAll_full (distinct : (c.shares.map Prod.snd ++ (reports ++ later).map (·.seq)).Nodup)
    (full : max config.maxPendingSignals 1 ≤ c.shares.length) :
    ((c.enqueueAll config reports).shares.map Prod.snd ++ later.map (·.seq)).Nodup ∧
      max config.maxPendingSignals 1 ≤ (c.enqueueAll config reports).shares.length := by
  induction reports generalizing c with
  | nil => exact ⟨distinct, full⟩
  | cons q rest ih =>
    refine ih (distinct.sublist ?_) ?_
    · rw [enqueue_shares full, cons_append, map_cons, append_cons]
      exact (admitted_seqs c.shares q.holder q.seq).append_right _
    · rwa [enqueue_shares full, admitted_length]

end Core

theorem fair_share_of_pending_signals :
    (∀ (H : Type) [DecidableEq H] (pending : List (H × Nat)) (holder : H), (pending.map Prod.snd).Nodup →
      (∀ o, fairShareVictim pending holder = o ↔ Victim pending holder o) ∧
      (∀ listed, pending.Perm listed → fairShareVictim listed holder = fairShareVictim pending holder) ∧
      ∀ (K : Type) [DecidableEq K] (f : H → K), f.Injective →
        fairShareVictim (pending.map (Prod.map f id)) (f holder) = fairShareVictim pending holder) ∧
    ∀ (config : PipelineConfig) (c : Core) (reports : List QueuedSignal) (q : QueuedSignal),
      (c.shares.map Prod.snd ++ (reports ++ [q]).map (·.seq)).Nodup →
      max config.maxPendingSignals 1 ≤ c.signals.length + c.held.length →
      let before := c.enqueueAll config reports
      let after := (before.enqueue config q).1
      ∀ k ≠ q.holder, (pendingOf after.shares k = pendingOf before.shares k ∨
          pendingOf after.shares q.holder ≤ pendingOf after.shares k) ∧
        ((∀ j, pendingOf before.shares j ≤ pendingOf before.shares q.holder) →
          seqsOf after.shares k = seqsOf before.shares k) := by
  refine ⟨fun H _ pending holder distinct =>
    ⟨fun o => ⟨?_, ?_⟩, fun listed perm => ?_, fun K _ f injective => ?_⟩,
    fun config c reports q distinct full => ?_⟩
  · rintro rfl
    exact fairShareVictim_spec pending holder
  · exact (fairShareVictim_spec pending holder).unique distinct
  · have victim : Victim pending holder (fairShareVictim listed holder) := by
      refine (fairShareVictim_spec listed holder).rename (fun k => ?_) (fun k => ?_) fun j _ _ => ⟨j, rfl⟩
      · exact perm.countP_eq _
      · ext n
        exact perm.mem_iff
    exact victim.unique distinct (fairShareVictim_spec pending holder)
  · have victim : Victim (pending.map (Prod.map f id)) (f holder) (fairShareVictim pending holder) := by
      refine (fairShareVictim_spec pending holder).rename (fun k => ?_) (fun k => ?_) (fun j n listed => ?_)
      · simp [pendingOf, countP_map, Function.comp_def, injective.eq_iff]
      · ext n
        simp [seqsOf, injective.eq_iff]
      · obtain ⟨⟨k, m⟩, -, same⟩ := mem_map.mp listed
        exact ⟨k, congrArg Prod.fst same⟩
    refine Victim.unique ?_ (fairShareVictim_spec _ _) victim
    simpa [Function.comp_def] using distinct
  · obtain ⟨distinct, full⟩ := Core.enqueueAll_full distinct (c.shares_length.symm ▸ full)
    dsimp only
    rw [Core.enqueue_shares full]
    exact admitted_fair (nodup_append.mp distinct).1 q.holder q.seq

def sampleQueued (handle : Attachment) (seq : Nat) : QueuedSignal :=
  ⟨0, ⟨"x", none, none, some handle, none⟩, none, seq, .none⟩

def sampleFull : Core :=
  { samplePipelines.core with signals := [sampleQueued 5 0, sampleQueued 5 1] }

theorem fair_share_of_pending_signals_sample :
    Victim [('z', 0), ('a', 1), ('a', 2), ('z', 3)] 'n' (some 0) ∧
      let after :=
        (sampleFull.enqueue { PipelineConfig.default with maxPendingSignals := 2 } (sampleQueued 6 2)).1
      pendingOf after.shares (.connection 5) = pendingOf sampleFull.shares (.connection 5) ∨
        pendingOf after.shares (.connection 6) ≤ pendingOf after.shares (.connection 5) := by
  obtain ⟨rule, runs⟩ := fair_share_of_pending_signals
  refine ⟨((rule Char _ 'n' (by decide)).1 _).mp (by decide), ?_⟩
  exact (runs { PipelineConfig.default with maxPendingSignals := 2 } sampleFull
    [] (sampleQueued 6 2) (by decide) (by decide) (.connection 5) (by decide)).1

namespace Core

variable {c c' : Core} {config : PipelineConfig}

theorem Fewer.shares_length (fewer : c.Fewer c') : c'.shares.length ≤ c.shares.length := by
  rw [Core.shares_length, Core.shares_length]
  exact Nat.add_le_add fewer.signals.length_le fewer.held.length_le

theorem supersede_fewer (c : Core) (adapter : AdapterId) (a : Attachment) (seq : Nat) :
    c.Fewer (c.supersede adapter a seq) := by
  fun_cases supersede
  · exact ⟨.refl _, filter_sublist, le_rfl, fun _ _ => id⟩
  · exact .of_eq rfl rfl rfl rfl

theorem enqueue_bounded (q : QueuedSignal) (bounded : c.shares.length ≤ max config.maxPendingSignals 1) :
    (c.enqueue config q).1.shares.length ≤ max config.maxPendingSignals 1 := by
  by_cases full : max config.maxPendingSignals 1 ≤ c.shares.length
  · rwa [enqueue_shares full, admitted_length]
  · rw [Core.shares_length] at full
    rw [enqueue, if_pos (by omega), Core.shares_length]
    simp only [pushSignal, length_append, length_singleton]
    omega

theorem queueSignal_bounded (bounded : c.shares.length ≤ max config.maxPendingSignals 1)
    (adapter : AdapterId) (signal : NativeSignal) (now : Instant) :
    (c.queueSignal config adapter signal now).1.shares.length ≤ max config.maxPendingSignals 1 := by
  simp only [queueSignal]
  split
  · exact bounded
  · exact enqueue_bounded _ bounded

end Core

/-- A signal is put on the held list with room left under the bound. -/
def Label.holdsWithin (p : PipelineSetup) (label : Label) (w : Pipelines) : Bool :=
  match label.frame w with
  | some (.holdSignal _, x) => (w.locked x.now).core.shares.length < max p.config.maxPendingSignals 1
  | _ => true

namespace Pipelines

variable {p : PipelineSetup} {x : Ext} {w w' : Pipelines} {label : Label}

def Bounded (p : PipelineSetup) (w : Pipelines) : Prop :=
  w.core.shares.length ≤ max p.config.maxPendingSignals 1

theorem Bounded.fewer (bounded : w.Bounded p) (fewer : w.core.Fewer w'.core) : w'.Bounded p :=
  fewer.shares_length.trans bounded

theorem Bounded.queueSignal (bounded : w.Bounded p) (clock : Timestamp)
    (adapter : AdapterId) (signal : NativeSignal)
    (now : Instant) : (w.queueSignal p.config clock adapter signal now).1.Bounded p :=
  Core.queueSignal_bounded (bounded.fewer (w.locked_fewer clock)) adapter signal now

theorem Bounded.perform (bounded : w.Bounded p) (action : Frame) : (w.perform p x action).1.Bounded p := by
  by_cases report : ∃ adapter signal now, action = .queueSignal adapter signal now
  · obtain ⟨adapter, signal, now, rfl⟩ := report
    exact bounded.queueSignal x.now adapter signal now
  · exact bounded.fewer (perform_fewer p x w action fun adapter signal now same =>
      report ⟨adapter, signal, now, same⟩)

theorem Bounded.reportLocal (bounded : w.Bounded p) (adapter : AdapterId) (now : Instant) (clock : Timestamp)
    (event : AdapterEvent) : (w.reportLocal p adapter now clock event).Bounded p := by
  have locked := w.locked_fewer clock
  fun_cases Pipelines.reportLocal
  · exact bounded
  · exact bounded
  · exact bounded.fewer (update_fewer (Core.attachmentOpened_fewer _ _ _ _))
  · next stopped =>
    cases stopped
    exact bounded.fewer (locked.trans (Core.stopUnconfirmed_fewer _ _ _))
  · next signal _ _ queued =>
    have next := bounded.queueSignal clock adapter signal now
    rwa [queued] at next
  · exact bounded.fewer locked

section Runs

variable [Libraries]

theorem Bounded.performTurn (bounded : w.Bounded p)
    (holds : ∀ h, action = .holdSignal h →
      (w.locked x.now).core.shares.length < max p.config.maxPendingSignals 1)
    (performed : w.performTurn p x action = some left) : left.1.Bounded p := by
  have locked := w.locked_fewer x.now
  revert performed
  fun_cases Pipelines.performTurn <;> rintro ⟨⟩
  all_goals try exact bounded
  all_goals try exact bounded.fewer locked
  · next action _ _ made =>
    have next : (w.perform p x action).1.Bounded p := bounded.perform action
    rwa [made] at next
  · next expired =>
    cases expired
    exact bounded.fewer (locked.trans (Core.expireHeld_fewer _ _ _))
  · next attempt taken _ _ =>
    obtain ⟨_, _, _, rfl⟩ := Core.takeHeld_eq_some taken
    cases attempt <;> exact bounded.fewer (locked.trans ⟨.refl _, eraseP_sublist, le_rfl, fun _ _ => id⟩)
  · next popped =>
    refine bounded.fewer (locked.trans ?_)
    revert popped
    fun_cases Core.popSignal <;> rintro ⟨⟩
    next queue => exact ⟨queue ▸ sublist_cons_self _ _, .refl _, le_rfl, fun _ _ => id⟩
  · exact bounded.fewer (locked.trans (.of_eq rfl rfl rfl rfl))
  · next h =>
    have room := holds h rfl
    rw [Core.shares_length] at room
    simp only [Bounded, update, Core.holdSignal, Core.shares_length, length_append, length_singleton]
    omega
  · exact bounded.fewer (locked.trans (Core.supersede_fewer _ _ _ _))
  · next made =>
    obtain ⟨e, engine, _, _, _, _, _, rfl, rfl⟩ := Core.bindRecord_eq_ok made
    exact bounded.fewer (locked.trans (.of_eq rfl rfl rfl rfl))
  · next a seq _ _ _ taken =>
    have released := (w.locked x.now).core.releaseWithheld_fewer a seq
    rw [taken] at released
    exact bounded.fewer (locked.trans released)
  · next a seq _ _ taken =>
    have released := (w.locked x.now).core.releaseWithheld_fewer a seq
    rw [taken] at released
    exact bounded.fewer (locked.trans released)

theorem step_bounded (within : label.holdsWithin p w = true) (stepped : step p label w = some w')
    (bounded : w.Bounded p) : w'.Bounded p := by
  cases step_stepped stepped with
  | spawns | closed | binds | released => exact bounded
  | updates => exact bounded.fewer (update_fewer (.of_eq rfl rfl rfl rfl))
  | connected => exact (w.locked_fewer _).shares_length.trans bounded
  | @reported adapter event now clock => exact bounded.reportLocal adapter now clock event
  | @ran i action => exact bounded.perform action
  | @turned action rest after w₁ frames x holding performed =>
    have holds : ∀ h, action = .holdSignal h →
        (w.locked x.now).core.shares.length < max p.config.maxPendingSignals 1 := by
      rintro h rfl
      simpa [Label.holdsWithin, Label.frame, holding] using within
    exact bounded.performTurn holds performed

/-- While a pass holds a signal only with room left, the queued and the held signals stay within the
bound. -/
theorem pending_signals_bounded (reachable : Reachable p (fun label w => label.holdsWithin p w = true) w) :
    w.core.signals.length + w.core.held.length ≤ max p.config.maxPendingSignals 1 := by
  obtain ⟨engine, caps, -, run⟩ := reachable
  rw [← Core.shares_length]
  exact run.invariant (P := Bounded p) (fun _ _ _ => step_bounded) (Nat.zero_le _)

end Runs

open AuthorizationEngine

theorem pending_signals_bounded_sample : ∃ w : Pipelines, w.core.signals.length + w.core.held.length = 2 ∧
    w.core.signals.length + w.core.held.length ≤ max sampleSetup.config.maxPendingSignals 1 := by
  have performed : (Transition.performWithin sampleStep (fun label w => label.holdsWithin sampleSetup w = true)
      (sampleCarried [] ++ [sampleReport "x" none] ++ sampleFrames 0 1 ++ sampleDecide 3 "x" 6 ++
        [sampleReport "y" none]) samplePipelines).map
      (fun w => w.core.signals.length + w.core.held.length) = some 2 := by
    decide +kernel
  obtain ⟨w, run, count⟩ := Option.map_eq_some_iff.mp performed
  exact ⟨w, count, @pending_signals_bounded sampleSetup w sampleLibraries (reachable_of_labels _ run)⟩

/-- At a bound of one, a signal is queued after a pass took another off the queue and before it
holds it. -/
theorem pending_signals_exceed_bound : ∃ w : Pipelines,
    @Reachable sampleLibraries sampleBounded Transition.anyMove w ∧
      max sampleBounded.config.maxPendingSignals 1 < w.core.signals.length + w.core.held.length := by
  have performed : (Transition.perform (@step sampleLibraries sampleBounded)
      (sampleCarried [] ++ [sampleReport "x" none] ++ sampleFrames 0 1 ++ sampleDecide 3 "x" 4 ++
        [sampleReport "y" none] ++ sampleDecide 3 "x" 2) (.new (.new sampleOwn) sampleBounded none)).map
      (fun w => (w.core.signals.length, w.core.held.length)) = some (1, 1) := by
    decide +kernel
  obtain ⟨w, reached, counts⟩ := Transition.reached_of_map _ performed
  obtain ⟨queued, held⟩ := Prod.mk.inj counts
  exact ⟨w, ⟨.new sampleOwn, none, rfl, reached⟩, by rw [queued, held]; decide⟩

end Pipelines

end Oac
