import Oac.Authorization.EnvelopeBindings

/-! The binding decision of `core/src/session_binding.rs`: one native signal, paired as the core
paired it, over the attachments of the adapter that reported it. -/

namespace Oac

/-- The handle of a local connection, also the name of the attachment reported on it. No handle
is issued twice. -/
abbrev Attachment := Nat

/-- What the core process observed from the operating system about a connection's peer. -/
structure PairingKey where
  octets : List UInt8
  deriving DecidableEq

structure PeerObservation where
  pairingKey : Option PairingKey
  harnessLabel : Option Token
  workingDirectory : Option String
  deriving DecidableEq

def PeerObservation.none : PeerObservation := ⟨.none, .none, .none⟩

inductive StartKind where
  | fresh
  | transition
  | unmapped
  deriving DecidableEq

/-- What an adapter observed at one native signal. -/
structure NativeSignal where
  nativeId : String
  startKind : Option StartKind
  crossCheck : Option String
  connection : Option Attachment
  revealed : Option String
  deriving DecidableEq

inductive Pairing (A : Type) where
  | paired (attachment : A)
  | windowExpired
  | unpairable
  deriving DecidableEq

structure NativeBinding where
  nativeId : String
  sessionId : SessionId
  deriving DecidableEq

structure AttachmentState (A : Type) where
  attachment : A
  crossCheck : Option String
  binding : Option NativeBinding
  deriving DecidableEq

inductive BindingResult where
  | unchanged
  | refused
  | failedClosed
  | bound
  | dropped
  deriving DecidableEq

inductive RecordKind where
  | diagnostic
  | finding
  deriving DecidableEq

structure BindingRecord where
  kind : RecordKind
  requirement : String
  deriving DecidableEq

def finding (requirement : String) : BindingRecord := ⟨.finding, requirement⟩

def diagnostic (requirement : String) : BindingRecord := ⟨.diagnostic, requirement⟩

inductive BindingAction (A : Type) where
  | none
  | bind (attachment : A) (nativeId : String) (deregisterFirst : Bool)
  | deregister (attachment : A)
  deriving DecidableEq

structure BindingDecision (A : Type) where
  result : BindingResult
  action : BindingAction A
  records : List BindingRecord
  deriving DecidableEq

section Decision

variable {A : Type}

/-- A refusal or a fail-closed of an attachment bound to a different id ends its stale binding. -/
def BindingDecision.stale (att : AttachmentState A) (result : BindingResult)
    (requirement : String) : BindingDecision A :=
  if att.binding.isSome then
    ⟨result, .deregister att.attachment, [finding requirement, finding "SC-ID-153"]⟩
  else ⟨result, .none, [finding requirement]⟩

def BindingDecision.bind (att : AttachmentState A) (n : String) (records : List BindingRecord) :
    BindingDecision A :=
  ⟨.bound, .bind att.attachment n att.binding.isSome, records⟩

def differs (n : String) (crossCheck : Option String) : Bool := crossCheck.any (· != n)

def decideStart (att : AttachmentState A) (signal : NativeSignal) : BindingDecision A :=
  let n := signal.nativeId
  let anyDiffers := differs n att.crossCheck || differs n signal.crossCheck
  match signal.startKind with
  | some .transition => .bind att n (if anyDiffers then [diagnostic "SC-ID-142"] else [])
  | some .fresh | some .unmapped | none =>
    if anyDiffers then .stale att .failedClosed "SC-ID-138"
    else if att.crossCheck.isSome then .bind att n []
    else .bind att n [diagnostic "SC-ID-141"]

section Pairing

variable [DecidableEq A]

/-- The decision for a signal paired with the attachment whose state is `att`. -/
def decidePaired (attachments : List (AttachmentState A)) (att : AttachmentState A)
    (signal : NativeSignal) : BindingDecision A :=
  let n := signal.nativeId
  if att.binding.any (·.nativeId == n) then ⟨.unchanged, .none, []⟩
  else if attachments.any fun s => s.attachment != att.attachment && s.binding.any (·.nativeId == n) then
    .stale att .refused "SC-ID-132"
  else decideStart att signal

def decideBinding (attachments : List (AttachmentState A)) (signal : NativeSignal) :
    Pairing A → BindingDecision A
  | .windowExpired => ⟨.dropped, .none, [diagnostic "SC-ID-128"]⟩
  | .unpairable => ⟨.failedClosed, .none, [finding "SC-ID-129"]⟩
  | .paired a =>
    match attachments.find? (·.attachment == a) with
    | some att => decidePaired attachments att signal
    | none => ⟨.failedClosed, .none, [finding "SC-ID-129"]⟩

end Pairing

def BindingAction.target : BindingAction A → Option A
  | none => Option.none
  | bind a _ _ => some a
  | deregister a => some a

theorem BindingDecision.stale_target (att : AttachmentState A) (result : BindingResult) (requirement : String)
    (acts : (BindingDecision.stale att result requirement).action.target = some b) : b = att.attachment := by
  unfold stale at acts
  split at acts
  · exact (Option.some.inj acts).symm
  · cases acts

theorem decideStart_target (att : AttachmentState A) (signal : NativeSignal)
    (acts : (decideStart att signal).action.target = some b) : b = att.attachment := by
  have binds : ∀ records, (BindingDecision.bind att signal.nativeId records).action.target =
      some b → b = att.attachment := fun _ acts => (Option.some.inj acts).symm
  have starts : ∀ anyDiffers : Bool, (if anyDiffers then BindingDecision.stale att .failedClosed "SC-ID-138"
      else if att.crossCheck.isSome then .bind att signal.nativeId []
      else .bind att signal.nativeId [diagnostic "SC-ID-141"]).action.target = some b → b = att.attachment := by
    intro anyDiffers acts
    split at acts
    · exact BindingDecision.stale_target att _ _ acts
    · split at acts
      · exact binds _ acts
      · exact binds _ acts
  unfold decideStart at acts
  cases kind : signal.startKind with
  | none => exact starts _ (by simpa only [kind] using acts)
  | some start =>
    cases start with
    | transition => exact binds _ (by simpa only [kind] using acts)
    | fresh | unmapped => exact starts _ (by simpa only [kind] using acts)

/-- Only a signal paired with an attachment changes anything, and only that attachment. -/
theorem decideBinding_target [DecidableEq A] {attachments : List (AttachmentState A)}
    (acts : (decideBinding attachments signal pairing).action.target = some b) : pairing = .paired b := by
  cases pairing with
  | windowExpired | unpairable => cases acts
  | paired a =>
    simp only [decideBinding] at acts
    split at acts
    · next att found =>
      have named : att.attachment = a := by simpa using List.find?_some found
      have same : b = att.attachment := by
        simp only [decidePaired] at acts
        split at acts
        · cases acts
        · split at acts
          · exact BindingDecision.stale_target att _ _ acts
          · exact decideStart_target att signal acts
      rw [same, named]
    · cases acts

end Decision

end Oac
