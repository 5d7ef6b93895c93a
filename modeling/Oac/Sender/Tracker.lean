import Oac.Receipt
import Oac.Replay.Store

/-! The delivery-state machine that a sending implementation keeps for one envelope
(`EnvelopeTracker` in `core/src/sender.rs`): the states held, the combined state and what it
permits. -/

namespace Oac

open List

/-- One state held for an envelope, and who observed it. -/
structure HeldState where
  state : DeliveryState
  observer : Observer
  deriving DecidableEq

/-- The error states; `duplicate` carries a code but is not one. -/
def isErrorState (s : DeliveryState) : Bool := s ∈ [.rejected, .expired, .unreachable, .failed]

/-- The states held for one envelope, as the rules read them. -/
structure Held where
  handedToHarness : Bool
  duplicate : Bool
  receiverUnknown : Bool
  firstReceiverError : Option DeliveryState
  firstSenderError : Option DeliveryState
  deriving DecidableEq

namespace Held

def new : Held := ⟨false, false, false, none, none⟩

def add (held : Held) (h : HeldState) : Held :=
  match h.state, h.observer with
  | .handedToHarness, _ => { held with handedToHarness := true }
  | .duplicate, _ => { held with duplicate := true }
  | .unknown, .receiver => { held with receiverUnknown := true }
  | s, .receiver =>
    if isErrorState s then { held with firstReceiverError := held.firstReceiverError.or (some s) } else held
  | s, .sender =>
    if isErrorState s then { held with firstSenderError := held.firstSenderError.or (some s) } else held

def of (states : List HeldState) : Held := states.foldl add new

end Held

/-- The first rule that applies to the states held. -/
def combinedState (copiesPassed : Nat) (held : Held) (handoffDeadlinePassed : Bool) : DeliveryState :=
  if held.handedToHarness then .handedToHarness
  else if held.duplicate then .duplicate
  else if held.receiverUnknown then .unknown
  else match copiesPassed, held.firstReceiverError, held.firstSenderError with
    | 1, some s, _ => s
    | 0, _, some s => s
    | _, _, _ => if handoffDeadlinePassed then .unknown else .acceptedByAdapter

def retryAllowed (copiesPassed : Nat) (held : Held) (state : DeliveryState)
    (retryDeadlinePassed : Bool) : Bool :=
  if copiesPassed = 0 then isErrorState state
  else retryDeadlinePassed && state != .handedToHarness && state != .duplicate && !held.receiverUnknown

structure EnvelopeTracker where
  id : Token
  fromSession : SessionId
  deadline : HandOffDeadline
  copiesPassed : Nat
  held : Held
  deriving DecidableEq

namespace EnvelopeTracker

def new (env : Envelope) : EnvelopeTracker := ⟨env.id, env.fromSession, .of env, 0, .new⟩

variable (t : EnvelopeTracker) (now : Timestamp)

def passed : EnvelopeTracker := { t with copiesPassed := min (t.copiesPassed + 1) (2 ^ 64 - 1) }

/-- A copy could not be passed; only a code that fits a sender's `failed` is recorded. -/
def notPassed (code : ErrorCode) : Bool × EnvelopeTracker :=
  if !code.fitsReceipt .failed .sender then (false, t)
  else (true, { t with held := t.held.add ⟨.failed, .sender⟩ })

/-- A receipt for this envelope is recorded; one that names another envelope is not. -/
def receipt (r : DeliveryReceipt) : Bool × EnvelopeTracker :=
  if r.envelopeId ≠ t.id || r.envelopeFrom.text ≠ t.fromSession.text then (false, t)
  else (true, { t with held := t.held.add ⟨r.effectiveState, r.observer⟩ })

def handoffDeadlinePassed : Bool := t.deadline.passedAt now

/-- The retry deadline is the hand-off deadline plus the skew allowance of the replay window. -/
def retryDeadlinePassed : Bool :=
  decide (t.deadline.unixNanos + replayWindowMs * 1000000 ≤ now.unixNanos)

def state : DeliveryState :=
  combinedState t.copiesPassed t.held (t.handoffDeadlinePassed now)

def retryAllowed : Bool :=
  Oac.retryAllowed t.copiesPassed t.held (t.state now) (t.retryDeadlinePassed now)

def retransmitAllowed : Bool :=
  !t.handoffDeadlinePassed now &&
    decide (t.state now ∈ [DeliveryState.acceptedByAdapter, .unknown, .unreachable, .failed])

end EnvelopeTracker

/-- A state that says the harness has the content or may have it. -/
def HeldState.bars (h : HeldState) : Bool :=
  h.state == .handedToHarness || h.state == .duplicate || (h.state == .unknown && h.observer == .receiver)

def Held.bars (held : Held) : Bool := held.handedToHarness || held.duplicate || held.receiverUnknown

theorem Held.of_concat (states : List HeldState) (h : HeldState) :
    Held.of (states ++ [h]) = (Held.of states).add h := by
  simp [Held.of]

/-- An error state that this observer reported. -/
def HeldState.failure (observer : Observer) (h : HeldState) : Bool :=
  isErrorState h.state && h.observer == observer

/-- A summary, from the first state of the history that meets a condition. -/
def Held.seen (first : (HeldState → Bool) → Option HeldState) : Held where
  handedToHarness := (first (·.state == .handedToHarness)).isSome
  duplicate := (first (·.state == .duplicate)).isSome
  receiverUnknown := (first (· == ⟨.unknown, .receiver⟩)).isSome
  firstReceiverError := (first (·.failure .receiver)).map (·.state)
  firstSenderError := (first (·.failure .sender)).map (·.state)

theorem Held.of_eq (history : List HeldState) : Held.of history = .seen history.find? := by
  induction history using reverseRecOn with
  | nil => rfl
  | append_singleton history h ih =>
    obtain ⟨state, observer⟩ := h
    simp only [Held.of_concat, ih, Held.seen, find?_append, Option.isSome_or, Option.map_or]
    cases state <;> cases observer <;> simp [Held.add, HeldState.failure, isErrorState]

theorem Held.of_bars (states : List HeldState) : (Held.of states).bars = states.any HeldState.bars := by
  rw [Held.of_eq, Bool.eq_iff_iff]
  simp only [Held.seen, Held.bars, HeldState.bars, Bool.or_eq_true, find?_isSome, any_eq_true]
  grind [HeldState]

theorem EnvelopeTracker.retryAllowed_passed {t : EnvelopeTracker} (passed : 0 < t.copiesPassed)
    (allowed : t.retryAllowed now = true) :
    t.deadline.unixNanos + windowNanos ≤ now.unixNanos ∧ t.held.bars = false := by
  unfold EnvelopeTracker.retryAllowed Oac.retryAllowed at allowed
  rw [if_neg (Nat.pos_iff_ne_zero.mp passed)] at allowed
  simp only [Bool.and_eq_true, bne_iff_ne, ne_eq, Bool.not_eq_true'] at allowed
  obtain ⟨⟨⟨late, notHanded⟩, notDuplicate⟩, notUnknown⟩ := allowed
  refine ⟨of_decide_eq_true late, ?_⟩
  unfold EnvelopeTracker.state combinedState at notHanded notDuplicate
  have handed : t.held.handedToHarness = false := by
    cases flag : t.held.handedToHarness with
    | false => rfl
    | true => simp [flag] at notHanded
  have duplicate : t.held.duplicate = false := by
    cases flag : t.held.duplicate with
    | false => rfl
    | true => simp [flag, handed] at notDuplicate
  rw [Held.bars, handed, duplicate, notUnknown]
  rfl

/-- The rules that read the history, in their order. -/
def combinedRules (copies : Nat) : List (HeldState → Bool) :=
  [(·.state == .handedToHarness), (·.state == .duplicate), (· == ⟨.unknown, .receiver⟩),
    fun h => decide (copies = 1) && h.failure .receiver, fun h => decide (copies = 0) && h.failure .sender]

/-- The state that first met the first rule that applies, or what the deadline says when none
does. -/
def ruledState (copies : Nat) (history : List HeldState) (late : Bool) : DeliveryState :=
  match (combinedRules copies).findSome? history.find? with
  | some h => h.state
  | none => if late then .unknown else .acceptedByAdapter

section Rules

variable {copies : Nat} {history : List HeldState} {late : Bool} {h : HeldState}

theorem combinedState_ruled (copies : Nat) (history : List HeldState) (late : Bool) :
    combinedState copies (.of history) late = ruledState copies history late := by
  simp only [combinedState, ruledState, combinedRules, Held.of_eq, Held.seen, findSome?_cons, findSome?_nil]
  cases handed : history.find? (·.state == .handedToHarness) with
  | some h => simpa using (by simpa using find?_some handed : h.state = _).symm
  | none =>
  cases duplicate : history.find? (·.state == .duplicate) with
  | some h => simpa using (by simpa using find?_some duplicate : h.state = _).symm
  | none =>
  cases unknown : history.find? (· == ⟨.unknown, .receiver⟩) with
  | some h => simp [(by simpa using find?_some unknown : h = _)]
  | none =>
  -- The last two rules ask for one copy passed and for none.
  have never : history.find? (fun _ => false) = none := by simp
  rcases copies with _ | _ | copies
  · cases failed : history.find? (·.failure .sender) <;> simp [never, failed]
  · cases failed : history.find? (·.failure .receiver) <;> simp [never, failed]
  · simp [never]

theorem Held.of_again (member : h ∈ history) : Held.of (history ++ [h]) = Held.of history := by
  have again : (history ++ [h]).find? = history.find? := by
    funext rule
    cases found : history.find? rule with
    | some g => simp [found]
    | none => simpa [found] using find?_eq_none.mp found h member
  rw [Held.of_eq, Held.of_eq, again]

theorem combinedState_handed (member : h ∈ history) (handed : h.state = .handedToHarness) :
    combinedState copies (.of history) late = .handedToHarness := by
  have held : (Held.of history).handedToHarness = true := by
    rw [Held.of_eq]
    exact find?_isSome.mpr ⟨h, member, by simp [handed]⟩
  simp [combinedState, held]

theorem combinedState_duplicate (duplicate : combinedState copies (.of history) late = .duplicate)
    (copies' : Nat) (more : List HeldState) (late' : Bool) :
    combinedState copies' (.of (history ++ more)) late' ∈ [DeliveryState.duplicate, .handedToHarness] := by
  obtain ⟨h, member, same⟩ : ∃ h ∈ history, h.state = .duplicate := by
    rw [combinedState_ruled, ruledState] at duplicate
    split at duplicate
    · next h first =>
      obtain ⟨rule, -, found⟩ := exists_of_findSome?_eq_some first
      exact ⟨h, mem_of_find?_eq_some found, duplicate⟩
    · split at duplicate <;> cases duplicate
  have held : (Held.of (history ++ more)).duplicate = true := by
    rw [Held.of_eq]
    exact find?_isSome.mpr ⟨h, mem_append_left more member, by simp [same]⟩
  simp only [combinedState, held]
  split <;> simp

/-- Once a copy was passed, no rule reads a failure that the sender reported. -/
theorem combinedState_receiver (passed : 0 < copies) :
    combinedState copies (.of (history.filter (!·.failure .sender))) late =
      combinedState copies (.of history) late := by
  have kept : ∀ rule ∈ combinedRules copies,
      (history.filter (!·.failure .sender)).find? rule = history.find? rule := by
    intro rule listed
    rw [find?_filter]
    congr 1
    funext ⟨state, observer⟩
    simp only [combinedRules, mem_cons, not_mem_nil, or_false] at listed
    rcases listed with rfl | rfl | rfl | rfl | rfl <;> cases state <;> cases observer <;>
      simp [HeldState.failure, isErrorState, passed.ne']
  rw [combinedState_ruled, combinedState_ruled, ruledState, ruledState, ← head?_filterMap,
    filterMap_congr kept, head?_filterMap]

end Rules

/-- The fixed-size summary answers as the rules over the whole history. A state held already changes
nothing, `handedToHarness` is final, `duplicate` gives way to it only, a passed copy silences the
sender's own failures, and a retry never competes with a retransmission. -/
theorem combined_state_follows_rules :
    (∀ copies history late, combinedState copies (.of history) late = ruledState copies history late) ∧
    (∀ history, ∀ h ∈ history, Held.of (history ++ [h]) = .of history) ∧
    (∀ copies history late, ∀ h ∈ history, h.state = .handedToHarness →
      combinedState copies (.of history) late = .handedToHarness) ∧
    (∀ copies history late, combinedState copies (.of history) late = .duplicate → ∀ copies' more late',
      combinedState copies' (.of (history ++ more)) late' ∈ [DeliveryState.duplicate, .handedToHarness]) ∧
    (∀ copies history late, 0 < copies →
      combinedState copies (.of (history.filter (!·.failure .sender))) late =
        combinedState copies (.of history) late) ∧
    ∀ (t : EnvelopeTracker) now, 0 < t.copiesPassed →
      ¬(t.retryAllowed now = true ∧ t.retransmitAllowed now = true) := by
  refine ⟨combinedState_ruled, fun history h => Held.of_again,
    fun copies history late h => combinedState_handed,
    fun copies history late => combinedState_duplicate, fun copies history late => combinedState_receiver, ?_⟩
  rintro t now passed ⟨retry, retransmit⟩
  obtain ⟨past, -⟩ := t.retryAllowed_passed passed retry
  simp only [EnvelopeTracker.retransmitAllowed, EnvelopeTracker.handoffDeadlinePassed,
    HandOffDeadline.passedAt,
    Bool.and_eq_true, Bool.not_eq_true', decide_eq_false_iff_not] at retransmit
  simp only [windowNanos] at past
  omega

end Oac
