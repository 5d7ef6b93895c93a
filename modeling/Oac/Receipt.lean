import Oac.EnvelopeProofs
import Oac.Json.RoundTrip

/-! Receipts of `core/src/receipt.rs`: how one is built, written and read. A receipt that could be
built is read back as it was. -/

namespace Oac

open Json

/-- The error of a receipt: a code of the closed taxonomy, or one this implementation does not
know. -/
inductive ReceiptError where
  | known (code : ErrorCode)
  | unrecognized (text : String)
  deriving DecidableEq

/-- A receipt, as far as a tracker reads it. -/
structure DeliveryReceipt where
  envelopeId : Token
  envelopeFrom : Token
  state : DeliveryState
  observer : Observer
  error : Option ReceiptError
  deriving DecidableEq

def DeliveryReceipt.effectiveState (r : DeliveryReceipt) : DeliveryState :=
  match r.error with
  | some (.unrecognized _) => if r.state ≠ .duplicate then .failed else r.state
  | _ => r.state

/-- The requirement a receipt fails. -/
inductive ReceiptViolation where
  | notIJsonObject
  | missingMember
  | notToken
  | unknownState
  | badObserver
  | stateNotForObserver
  | badTimestamp
  | missingError
  | unexpectedError
  | badErrorForm
  | errorNotForState
  deriving DecidableEq

/-- A receipt with the time of its observation and its whole object. -/
structure WireReceipt extends DeliveryReceipt where
  observedAt : Timestamp
  wire : JsonObject

/-- The form of an error code: `[a-z][a-z0-9-]{0,63}`. -/
def isErrorCodeForm (s : String) : Bool := isLowerName 64 s.toList

namespace WireReceipt

def strMember (o : JsonObject) (name : String) : Option String := (o.get name).bind asStr

def requiredMembers : List String :=
  ["envelope_id", "envelope_from", "state", "observer", "observed_at"]

def errorMember (o : JsonObject) (state : DeliveryState) (observer : Observer) :
    Except ReceiptViolation (Option ReceiptError) :=
  match state.carriesError, o.get "error" with
  | true, none => .error .missingError
  | false, some _ => .error .unexpectedError
  | false, none => .ok none
  | true, some e => do
      let e ← okOr (e.asStr.filter isErrorCodeForm) .badErrorForm
      match ErrorCode.parse e with
      | some code =>
        if !code.fitsReceipt state observer then .error .errorNotForState
        else return some (.known code)
      | none => return some (.unrecognized e)

/-- Read a receipt from a parsed value; the first requirement it fails otherwise. -/
def fromJson (v : Json) : Except ReceiptViolation WireReceipt := do
  let o ← okOr (v.asObject.filter fun _ => !v.containsNull) .notIJsonObject
  if requiredMembers.any fun m => !o.contains m then .error .missingMember
  else
    let token := fun m => okOr ((strMember o m).bind Token.parse) ReceiptViolation.notToken
    let envelopeId ← token "envelope_id"
    let envelopeFrom ← token "envelope_from"
    let state ← okOr ((strMember o "state").bind DeliveryState.parse) .unknownState
    let observer ← okOr ((strMember o "observer").bind Observer.parse) .badObserver
    if !state.allowedFor observer then .error .stateNotForObserver
    else
      let observedAt ← okOr ((strMember o "observed_at").bind Timestamp.parse) .badTimestamp
      let error ← errorMember o state observer
      return { envelopeId, envelopeFrom, state, observer, error, observedAt, wire := o }

def fromOctets (octets : List UInt8) : Except ReceiptViolation WireReceipt := do
  let v ← (parse octets).mapError fun _ => ReceiptViolation.notIJsonObject
  fromJson v

def wireOf (envelopeId envelopeFrom : Token) (state : DeliveryState) (observer : Observer)
    (error : Option ErrorCode) (observedAt : Timestamp) : JsonObject :=
  let wire : JsonObject := JsonObject.insert [] "envelope_id" (.string envelopeId.text)
  let wire := wire.insert "envelope_from" (.string envelopeFrom.text)
  let wire := wire.insert "state" (.string state.asStr)
  let wire := wire.insert "observer" (.string observer.asStr)
  let wire := match error with
    | some c => wire.insert "error" (.string c.asStr)
    | none => wire
  wire.insert "observed_at" (.string observedAt.text)

def new (envelopeId envelopeFrom : Token) (state : DeliveryState) (observer : Observer)
    (error : Option ErrorCode) (observedAt : Timestamp) : Except ReceiptViolation WireReceipt :=
  let built : WireReceipt :=
    { envelopeId, envelopeFrom, state, observer, error := error.map .known, observedAt,
      wire := wireOf envelopeId envelopeFrom state observer error observedAt }
  if !state.allowedFor observer then .error .stateNotForObserver
  else match state.carriesError, error with
    | true, none => .error .missingError
    | false, some _ => .error .unexpectedError
    | true, some c => if !c.fitsReceipt state observer then .error .errorNotForState else .ok built
    | false, none => .ok built

def toOctets (r : WireReceipt) : List UInt8 := Utf8.encode (object r.wire).toCompact

/-- What `new` asks of its arguments. -/
def Reportable (state : DeliveryState) (observer : Observer) (error : Option ErrorCode) : Prop :=
  state.allowedFor observer = true ∧ match error with
    | none => state.carriesError = false
    | some c => state.carriesError = true ∧ c.fitsReceipt state observer = true

section Building

variable {envelopeId envelopeFrom : Token} {state : DeliveryState} {observer : Observer}
  {error : Option ErrorCode} {observedAt : Timestamp} {r : WireReceipt}

theorem new_eq_ok : new envelopeId envelopeFrom state observer error observedAt = .ok r ↔
    Reportable state observer error ∧
      r = { envelopeId, envelopeFrom, state, observer, error := error.map .known, observedAt,
            wire := wireOf envelopeId envelopeFrom state observer error observedAt } := by
  unfold new Reportable
  cases allowed : state.allowedFor observer with
  | false => simp
  | true =>
    cases error with
    | none => cases carries : state.carriesError <;> simp [eq_comm]
    | some c =>
      cases carries : state.carriesError with
      | false => simp
      | true => cases fits : c.fitsReceipt state observer <;> simp [fits, eq_comm]

theorem new_effectiveState (built : new envelopeId envelopeFrom state observer error observedAt =
    .ok r) : r.effectiveState = state := by
  obtain ⟨-, rfl⟩ := new_eq_ok.mp built
  cases error <;> rfl

end Building

section Reading

variable (envelopeId envelopeFrom : Token) (state : DeliveryState) (observer : Observer)
  (error : Option ErrorCode) (observedAt : Timestamp)

theorem ErrorCode.asStr_form (code : ErrorCode) : isErrorCodeForm code.asStr = true := by
  cases code <;> decide

theorem wireOf_wellFormed :
    (object (wireOf envelopeId envelopeFrom state observer error observedAt)).WellFormed := by
  have stateText : isIjsonString state.asStr.toList = true := by cases state <;> decide
  have observerText : isIjsonString observer.asStr.toList = true := by cases observer <;> decide
  cases error with
  | none =>
    have distinct : ["envelope_id", "envelope_from", "state", "observer", "observed_at"].Nodup := by decide
    refine ⟨distinct, ?_⟩
    exact ⟨by decide, envelopeId.ijson, by decide, envelopeFrom.ijson, by decide, stateText, by decide,
      observerText, by decide, observedAt.ijson, trivial⟩
  | some code =>
    have distinct : ["envelope_id", "envelope_from", "state", "observer", "error", "observed_at"].Nodup := by
      decide
    have codeText : isIjsonString code.asStr.toList = true := by cases code <;> decide
    refine ⟨distinct, ?_⟩
    exact ⟨by decide, envelopeId.ijson, by decide, envelopeFrom.ijson, by decide, stateText, by decide,
      observerText, by decide, codeText, by decide, observedAt.ijson, trivial⟩

variable {state observer} in
theorem errorMember_known (held : o.get "error" = some (.string code.asStr))
    (carries : state.carriesError = true) (fits : code.fitsReceipt state observer = true) :
    errorMember o state observer = .ok (some (.known code)) := by
  simp only [errorMember, carries, held, asStr, Option.filter_some, ErrorCode.asStr_form, if_true, okOr, bind,
    Except.bind, code.parse_asStr, fits, Bool.not_true, Bool.false_eq_true, if_false, pure, Except.pure]

variable {state observer} in
theorem errorMember_none (missing : o.get "error" = none) (carries : state.carriesError = false) :
    errorMember o state observer = .ok none := by
  simp only [errorMember, carries, missing]

variable {envelopeId envelopeFrom state observer observedAt} in
theorem fromJson_of_members {o : JsonObject} {error : Option ReceiptError}
    (noNull : (object o).containsNull = false)
    (idHeld : o.get "envelope_id" = some (.string envelopeId.text))
    (fromHeld : o.get "envelope_from" = some (.string envelopeFrom.text))
    (stateHeld : o.get "state" = some (.string state.asStr))
    (observerHeld : o.get "observer" = some (.string observer.asStr))
    (atHeld : o.get "observed_at" = some (.string observedAt.text))
    (allowed : state.allowedFor observer = true) (errorRead : errorMember o state observer = .ok error) :
    fromJson (.object o) = .ok { envelopeId, envelopeFrom, state, observer, error, observedAt, wire := o } := by
  have present : (requiredMembers.any fun m => !o.contains m) = false := by
    simp [requiredMembers, JsonObject.contains, idHeld, fromHeld, stateHeld, observerHeld, atHeld]
  have tokenRead : ∀ {m : String} {token : Token}, o.get m = some (.string token.text) →
      (strMember o m).bind Token.parse = some token := by
    intro m token held
    rw [strMember, held]
    exact Token.parse_eq_some.mpr rfl
  have stateRead : (strMember o "state").bind DeliveryState.parse = some state := by
    rw [strMember, stateHeld]
    exact state.parse_asStr
  have observerRead : (strMember o "observer").bind Observer.parse = some observer := by
    rw [strMember, observerHeld]
    exact observer.parse_asStr
  have atRead : (strMember o "observed_at").bind Timestamp.parse = some observedAt := by
    rw [strMember, atHeld]
    exact Timestamp.parse_text_self observedAt
  unfold fromJson
  rw [Results.bind_eq_ok]
  refine ⟨o, by rw [noNull]; rfl, ?_⟩
  rw [if_neg (by simp [present])]
  simp only [tokenRead idHeld, tokenRead fromHeld, stateRead, observerRead, atRead, errorRead, okOr,
    allowed, bind, Except.bind, pure, Except.pure, Bool.not_true, Bool.false_eq_true, if_false]

variable {state observer error} in
theorem fromJson_wireOf (reportable : Reportable state observer error) :
    fromJson (.object (wireOf envelopeId envelopeFrom state observer error observedAt)) =
      .ok { envelopeId, envelopeFrom, state, observer, error := error.map .known, observedAt,
            wire := wireOf envelopeId envelopeFrom state observer error observedAt } := by
  obtain ⟨allowed, carries⟩ := reportable
  cases error with
  | none =>
    apply fromJson_of_members rfl rfl rfl rfl rfl rfl allowed
    exact errorMember_none rfl carries
  | some code =>
    apply fromJson_of_members rfl rfl rfl rfl rfl rfl allowed
    exact errorMember_known rfl carries.1 carries.2

end Reading

/-- A receipt that was built is read back whole, from its object and from its octets. -/
theorem new_read_back {observedAt : Timestamp} {r : WireReceipt}
    (built : new envelopeId envelopeFrom state observer error observedAt = .ok r) :
    fromJson (.object r.wire) = .ok r ∧ fromOctets r.toOctets = .ok r := by
  obtain ⟨reportable, rfl⟩ := new_eq_ok.mp built
  have read := fromJson_wireOf envelopeId envelopeFrom observedAt reportable
  refine ⟨read, ?_⟩
  unfold fromOctets toOctets
  rw [parse_toCompact (wireOf_wellFormed envelopeId envelopeFrom state observer error observedAt)]
  exact read

end WireReceipt

end Oac
