import Oac.Receipt
import Oac.Receiver.Gate

/-! What the receive pipeline reports. Every report is made of a pair that Table 8.3 allows for a
receiver, so it has a receipt, and the sender reads that receipt back with the same state. -/

namespace Oac

open HandOffDeadline

def ReceiverReport.receipt (report : ReceiverReport) (env : Envelope) (observedAt : Timestamp) :
    Except ReceiptViolation WireReceipt :=
  WireReceipt.new env.id env.fromSession.toToken report.state .receiver report.error observedAt

/-- What `requeue` reports for an in-flight copy that the full re-queue does not take. -/
def requeueRefused (msg : AuthorizedMessage) : ReceiveOutcome :=
  ⟨.reported (.of .failed (some .internalError)), none, msg.message.verifiedBy.map (·.keyId), false⟩

section Passed

variable (limits : StoreLimits) (store : Inner) (msg : AuthorizedMessage)
  (target : SessionId → Option DeliveryTarget) (admission recheck : Timestamp)
  (handOff : ChannelMessage → HandOffOutcome) in
/-- The pair that step 5 or the delivery stage passes to `ReceiverReport.of` for a copy, one case
for each call in the source. -/
inductive DeliveryPasses : DeliveryState → Option ErrorCode → Prop where
  | unverified (refused : keyAndDeadline msg = .error rejection) :
      DeliveryPasses rejection.state (some rejection.error)
  | full (keyed : keyAndDeadline msg = .ok (key, deadline))
      (refused : (store.decideAdmission limits admission.unixNanos key deadline).2 = some (.error rejection)) :
      DeliveryPasses rejection.state (some rejection.error)
  | duplicate (keyed : keyAndDeadline msg = .ok (key, deadline))
      (again : (store.decideAdmission limits admission.unixNanos key deadline).2 =
        some (.ok (.duplicate allowed))) :
      DeliveryPasses .duplicate (some .duplicate)
  | checks (keyed : keyAndDeadline msg = .ok (key, deadline))
      (admitted : (store.decideAdmission limits admission.unixNanos key deadline).2 = some (.ok .admitted))
      (refused : deliveryChecks msg.message.envelope (target msg.message.envelope.toSession) = .error refusal) :
      DeliveryPasses refusal.1 (some refusal.2)
  | deadline (keyed : keyAndDeadline msg = .ok (key, deadline))
      (admitted : (store.decideAdmission limits admission.unixNanos key deadline).2 = some (.ok .admitted))
      (checked : deliveryChecks msg.message.envelope (target msg.message.envelope.toSession) = .ok ())
      (late : (of msg.message.envelope).refusalAt recheck = some refusal) :
      DeliveryPasses refusal.1 (some refusal.2)
  | outcome (keyed : keyAndDeadline msg = .ok (key, deadline))
      (admitted : (store.decideAdmission limits admission.unixNanos key deadline).2 = some (.ok .admitted))
      (checked : deliveryChecks msg.message.envelope (target msg.message.envelope.toSession) = .ok ())
      (inTime : (of msg.message.envelope).refusalAt recheck = none) :
      DeliveryPasses (handOff msg.message).recorded.1 (handOff msg.message).recorded.2

variable [Libraries]

variable (envelopeLimits : EnvelopeLimits) (limits : StoreLimits) (octets : List UInt8)
  (engine : AuthorizationEngine) (store : Inner) (target : SessionId → Option DeliveryTarget)
  (readings : Readings) (handOff : ChannelMessage → HandOffOutcome) in
/-- The pair that the receive pipeline passes to `ReceiverReport.of` for a copy's octets. -/
inductive ReceivePasses : DeliveryState → Option ErrorCode → Prop where
  | envelope (refused : receiveEnvelope octets envelopeLimits readings.arrival = .error rejection) :
      ReceivePasses rejection.state (some rejection.error)
  | authentication (read : receiveEnvelope octets envelopeLimits readings.arrival = .ok msg)
      (refused : authenticate msg engine.trusted = .error rejection) :
      ReceivePasses rejection.state (some rejection.error)
  | replayWindow (read : receiveEnvelope octets envelopeLimits readings.arrival = .ok msg)
      (authentic : authenticate msg engine.trusted = .ok verified)
      (refused : checkReplayWindow verified readings.window = .error rejection) :
      ReceivePasses rejection.state (some rejection.error)
  | authorization (read : receiveEnvelope octets envelopeLimits readings.arrival = .ok msg)
      (authentic : authenticate msg engine.trusted = .ok verified)
      (inside : checkReplayWindow verified readings.window = .ok ())
      (refused : (engine.authorizeDelivery verified readings.authorization).1 = .error refusal) :
      ReceivePasses refusal.state (some refusal.error)
  | delivery (read : receiveEnvelope octets envelopeLimits readings.arrival = .ok msg)
      (authentic : authenticate msg engine.trusted = .ok verified)
      (inside : checkReplayWindow verified readings.window = .ok ())
      (permitted : (engine.authorizeDelivery verified readings.authorization).1 = .ok authorized)
      (passed : DeliveryPasses limits store authorized target readings.admission
        readings.recheck handOff state error) :
      ReceivePasses state error

end Passed

section Allowed

def Allowed (state : DeliveryState) (error : Option ErrorCode) : Prop :=
  ReceiverReport.valid state error = true

instance (state : DeliveryState) (error : Option ErrorCode) : Decidable (Allowed state error) :=
  inferInstanceAs (Decidable (_ = _))

open Results in
theorem receiveEnvelope_allowed (octets : List UInt8) (limits : EnvelopeLimits) (now : Timestamp) :
    FailsOnly (fun r => Allowed r.state (some r.error)) (receiveEnvelope octets limits now) := by
  have refused : ∀ requirement, Allowed (malformed requirement).state (some (malformed requirement).error) :=
    fun _ => rfl
  refine .ite (.error rfl) ?_
  have json : FailsOnly (fun r : EnvelopeRejection => Allowed r.state (some r.error))
      ((Json.parse octets).mapError fun _ => malformed "SC-ENV-002") := .mapError _ fun _ => refused _
  refine json.bind fun v => (required_fails refused _ _).bind fun o => ?_
  refine (required_fails refused _ _).bind fun version => .ite (.error rfl) ?_
  exact (envelopeStructure_fails refused octets o version).bind fun envelope =>
    .ite (.error rfl) (.ite (.error rfl) (.ok _))

theorem authorizeDelivery_allowed {engine : AuthorizationEngine}
    (refused : (engine.authorizeDelivery msg now).1 = .error refusal) :
    Allowed refusal.state (some refusal.error) := by
  have delivers := engine.authorizeDelivery_delivers msg now
  generalize engine.authorizeDelivery msg now = answer at delivers refused
  cases delivers with
  | permitted => cases refused
  | refused | full =>
    cases refused
    rfl

theorem deliveryChecks_allowed (refused : deliveryChecks env target = .error refusal) :
    Allowed refusal.1 (some refusal.2) := by
  revert refused
  fun_cases deliveryChecks <;> rintro ⟨⟩ <;> rfl

theorem refusalAt_allowed {d : HandOffDeadline}
    (late : d.refusalAt now = some refusal) : Allowed refusal.1 (some refusal.2) := by
  revert late
  fun_cases refusalAt <;> rintro ⟨⟩
  cases d.bound <;> rfl

theorem decideAdmission_error {store : Inner}
    (refused : (store.decideAdmission limits now key deadline).2 = some (.error rejection)) :
    rejection = full := by
  have ruled := Inner.decideAdmission_ruled limits now deadline store key
  generalize store.decideAdmission limits now key deadline = answer at ruled refused
  cases ruled with
  | waiting => cases refused
  | full =>
    cases refused
    rfl
  | duplicate | admitted => cases refused

variable {limits : StoreLimits} {store : Inner} {target : SessionId → Option DeliveryTarget}
  {handOff : ChannelMessage → HandOffOutcome} {state : DeliveryState} {error : Option ErrorCode}

theorem DeliveryPasses.allowed
    (passed : DeliveryPasses limits store msg target admission recheck handOff state error) :
    Allowed state error := by
  cases passed with
  | unverified refused =>
    revert refused
    fun_cases keyAndDeadline <;> rintro ⟨⟩
    rfl
  | full keyed refused =>
    rw [decideAdmission_error refused]
    rfl
  | duplicate => rfl
  | checks keyed admitted refused => exact deliveryChecks_allowed refused
  | deadline keyed admitted checked late => exact refusalAt_allowed late
  | outcome => cases handOff msg.message <;> rfl

variable [Libraries] {envelopeLimits : EnvelopeLimits} {octets : List UInt8}
  {engine : AuthorizationEngine} {readings : Readings}

theorem authenticate_allowed (refused : authenticate msg keys = .error rejection) :
    Allowed rejection.state (some rejection.error) := by
  unfold authenticate at refused
  split at refused <;> cases refused <;> rfl

theorem ReceivePasses.allowed
    (passed : ReceivePasses envelopeLimits limits octets engine store target readings handOff state error) :
    Allowed state error := by
  cases passed with
  | envelope refused => exact receiveEnvelope_allowed octets envelopeLimits readings.arrival _ refused
  | authentication read refused => exact authenticate_allowed refused
  | replayWindow read authentic refused =>
    revert refused
    fun_cases checkReplayWindow <;> rintro ⟨⟩ <;> rfl
  | authorization read authentic inside refused => exact authorizeDelivery_allowed refused
  | delivery read authentic inside permitted passed => exact passed.allowed

end Allowed

section Reported

/-- The report is `ReceiverReport.of` the pair; a duplicate also says whether it may draw a
receipt. -/
def ReceiverReport.Of (report : ReceiverReport) (state : DeliveryState) (error : Option ErrorCode) : Prop :=
  report = { ReceiverReport.of state error with duplicateReceiptAllowed := report.duplicateReceiptAllowed }

variable {limits : StoreLimits} {store : Inner} {target : SessionId → Option DeliveryTarget}
  {handOff : ChannelMessage → HandOffOutcome} {report : ReceiverReport}

theorem deliverUnrecorded_reported
    (reported : (deliverUnrecorded limits store msg target admission recheck handOff).1.received =
      .reported report) :
    ∃ state error, DeliveryPasses limits store msg target admission recheck handOff state error ∧
      report.Of state error := by
  unfold deliverUnrecorded deliver at reported
  cases keyed : keyAndDeadline msg with
  | error rejection =>
    simp only [keyed, Received.reported.injEq] at reported
    subst reported
    exact ⟨_, _, .unverified keyed, rfl⟩
  | ok pair =>
    obtain ⟨key, deadline⟩ := pair
    simp only [keyed] at reported
    rcases decided : store.decideAdmission limits admission.unixNanos key deadline with ⟨after, answer⟩
    have answered : (store.decideAdmission limits admission.unixNanos key deadline).2 = answer := by
      rw [decided]
    simp only [decided] at reported
    match answer, answered with
    | none, _ => cases reported
    | some (.error rejection), answered =>
      cases reported
      exact ⟨_, _, .full keyed answered, rfl⟩
    | some (.ok (.duplicate allowed)), answered =>
      cases reported
      exact ⟨_, _, .duplicate keyed answered, rfl⟩
    | some (.ok .admitted), answered =>
      simp only [Received.reported.injEq] at reported
      cases checked : deliveryChecks msg.message.envelope (target msg.message.envelope.toSession) with
      | error refusal =>
        rw [deliveryStage_checks checked] at reported
        cases reported
        exact ⟨_, _, .checks keyed answered checked, rfl⟩
      | ok done =>
        cases late : (of msg.message.envelope).refusalAt recheck with
        | some refusal =>
          rw [deliveryStage_late checked late] at reported
          cases reported
          exact ⟨_, _, .deadline keyed answered checked late, rfl⟩
        | none =>
          rw [deliveryStage_called checked late] at reported
          subst reported
          refine ⟨_, _, .outcome keyed answered checked late, ?_⟩
          cases handOff msg.message <;> rfl

variable [Libraries] {envelopeLimits : EnvelopeLimits} {octets : List UInt8}
  {engine : AuthorizationEngine} {readings : Readings}

theorem receiveOctets_reported
    (reported : (receiveOctets envelopeLimits limits octets engine store target readings
      handOff).outcome.received = .reported report) :
    ∃ state error, ReceivePasses envelopeLimits limits octets engine store target
      readings handOff state error ∧ report.Of state error := by
  unfold receiveOctets at reported
  cases read : receiveEnvelope octets envelopeLimits readings.arrival with
  | error rejection =>
    simp only [read, refusedOutcome, Received.reported.injEq] at reported
    subst reported
    exact ⟨_, _, .envelope read, rfl⟩
  | ok msg =>
    simp only [read, receive, securitySteps] at reported
    cases authentic : authenticate msg engine.trusted with
    | error rejection =>
      simp only [authentic, refusedOutcome, Received.reported.injEq] at reported
      subst reported
      exact ⟨_, _, .authentication read authentic, rfl⟩
    | ok verified =>
      simp only [authentic] at reported
      cases inside : checkReplayWindow verified readings.window with
      | error rejection =>
        simp only [inside, refusedOutcome, Received.reported.injEq] at reported
        subst reported
        exact ⟨_, _, .replayWindow read authentic inside, rfl⟩
      | ok done =>
        simp only [inside] at reported
        rcases asked : engine.authorizeDelivery verified readings.authorization with ⟨answer, after⟩
        have answered : (engine.authorizeDelivery verified readings.authorization).1 = answer := by
          rw [asked]
        cases answer with
        | error refusal =>
          simp only [asked, refusedOutcome, Received.reported.injEq] at reported
          subst reported
          exact ⟨_, _, .authorization read authentic inside answered, rfl⟩
        | ok authorized =>
          simp only [asked, redeliver] at reported
          obtain ⟨state, error, passed, same⟩ := deliverUnrecorded_reported reported
          exact ⟨state, error, .delivery read authentic inside answered passed, same⟩

end Reported

section Receipts

variable {state : DeliveryState} {error : Option ErrorCode} {report : ReceiverReport}

theorem Allowed.of_eq (allowed : Allowed state error) :
    ReceiverReport.of state error = ⟨state, error, none⟩ := by
  exact if_pos allowed

theorem Allowed.reportable (allowed : Allowed state error) : WireReceipt.Reportable state .receiver error := by
  cases error with
  | none => cases state <;> first | exact ⟨rfl, rfl⟩ | cases allowed
  | some code => cases state <;> cases code <;> first | exact ⟨rfl, rfl, rfl⟩ | cases allowed

/-- The report says the pair as it was passed, and it has a receipt, which is read back whole, with
the reported state as its effective state. -/
structure FitsReceipt (report : ReceiverReport) (state : DeliveryState) (error : Option ErrorCode) : Prop where
  allowed : ReceiverReport.valid state error = true
  state : report.state = state
  error : report.error = error
  receipt : ∀ env observedAt, ∃ receipt, report.receipt env observedAt = .ok receipt ∧
    receipt.effectiveState = report.state ∧ WireReceipt.fromJson (.object receipt.wire) = .ok receipt ∧
    WireReceipt.fromOctets receipt.toOctets = .ok receipt

theorem Allowed.fits (allowed : Allowed state error) (reported : report.Of state error) :
    FitsReceipt report state error := by
  have sameState : report.state = state := by
    rw [reported, allowed.of_eq]
  have sameError : report.error = error := by
    rw [reported, allowed.of_eq]
  refine ⟨allowed, sameState, sameError, fun env observedAt => ?_⟩
  unfold ReceiverReport.receipt
  rw [sameState, sameError]
  obtain ⟨receipt, built⟩ : ∃ receipt,
      WireReceipt.new env.id env.fromSession.toToken state .receiver error observedAt = .ok receipt :=
    ⟨_, WireReceipt.new_eq_ok.mpr ⟨allowed.reportable, rfl⟩⟩
  exact ⟨receipt, built, WireReceipt.new_effectiveState built, WireReceipt.new_read_back built⟩

/-- Every pair the pipeline passes to `ReceiverReport.of`, on every path, is one a receiver may
report, so every report fits a receipt that its sender reads back with the same effective state. -/
theorem every_report_fits_receipt [Libraries] :
    (∀ envelopeLimits limits octets engine store target readings handOff,
      (∀ state error, ReceivePasses envelopeLimits limits octets engine store
        target readings handOff state error → ReceiverReport.valid state error = true) ∧
      ∀ report, (receiveOctets envelopeLimits limits octets engine store target readings
          handOff).outcome.received = .reported report → ∃ state error,
          ReceivePasses envelopeLimits limits octets engine store target readings
            handOff state error ∧ FitsReceipt report state error) ∧
    (∀ limits store msg target admission recheck handOff,
      (∀ state error, DeliveryPasses limits store msg target admission recheck handOff state error →
        ReceiverReport.valid state error = true) ∧
      ∀ report, (deliverUnrecorded limits store msg target admission recheck handOff).1.received =
        .reported report →
        ∃ state error, DeliveryPasses limits store msg target admission recheck
          handOff state error ∧ FitsReceipt report state error) ∧
    ∀ msg, ∃ report, (requeueRefused msg).received = .reported report ∧
      FitsReceipt report .failed (some .internalError) := by
  refine ⟨fun _ _ _ _ _ _ _ _ => ⟨fun _ _ passed => passed.allowed, fun report reported => ?_⟩,
    fun _ _ _ _ _ _ _ => ⟨fun _ _ passed => passed.allowed, fun report reported => ?_⟩, fun msg => ?_⟩
  · obtain ⟨state, error, passed, same⟩ := receiveOctets_reported reported
    exact ⟨state, error, passed, passed.allowed.fits same⟩
  · obtain ⟨state, error, passed, same⟩ := deliverUnrecorded_reported reported
    exact ⟨state, error, passed, passed.allowed.fits same⟩
  · have allowed : Allowed .failed (some .internalError) := rfl
    exact ⟨_, rfl, allowed.fits rfl⟩

end Receipts

section Sample

open AuthorizationEngine

attribute [local instance] sampleLibraries

def sampleGateRun : ReceiveRun :=
  receiveOctets ⟨[0], 65536, []⟩ (.withCapacity 16)
    sampleEnvelopeOctets sampleGateEngine .empty (fun _ => some ⟨true, true, [], none⟩)
    ⟨.epoch, .epoch, .epoch, .epoch, .epoch, .epoch⟩ fun _ => .completed

theorem every_report_fits_receipt_completed :
    ∃ report, sampleGateRun.outcome.received = .reported report ∧ ∃ state error,
      FitsReceipt report state error ∧ state = .handedToHarness := by
  have reported : sampleGateRun.outcome.received =
    .reported ⟨.handedToHarness, none, none⟩ := by decide +kernel
  refine ⟨_, reported, ?_⟩
  unfold sampleGateRun at reported
  have fit := (every_report_fits_receipt.1 ⟨[0], 65536, []⟩ (.withCapacity 16)
    sampleEnvelopeOctets sampleGateEngine .empty (fun _ => some ⟨true, true, [], none⟩)
    ⟨.epoch, .epoch, .epoch, .epoch, .epoch, .epoch⟩ fun _ => .completed).2
  obtain ⟨state, error, -, fits⟩ := fit _ reported
  exact ⟨state, error, fits, fits.state.symm⟩

end Sample

end Oac
