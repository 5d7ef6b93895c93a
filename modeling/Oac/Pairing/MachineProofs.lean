import Oac.Pairing.CallsProofs
import Oac.Pairing.Machine

/-! The machine of the daemon over every sequence of lines: it takes one response, answers one offer
and confirms one peer. -/

namespace Oac.DevicePairing

open Logs ResponderPairing

variable [Libraries] [PairingDigests]

namespace Machine

variable (readBlob : String → Option Blob) (own : DeviceIdentity)

variable (m : Machine) in
/-- What one call does to a machine. -/
inductive Effect : MachineCall → Machine × Step → Prop
  | kept {step : Step} (noResponse : step.isResponse = false) (noPeer : step.isConfirmed = false)
      (noNonce : step.reveals = none) : Effect call (m, step)
  | abandoned : Effect .abandon (m.abandon, .ended .abandoned)
  | ended {line responder} {after : ResponderPairing} (serving : m.responder = some responder)
      (spent : after.state ≠ .awaitingOffer) :
      Effect (.line line) ({ m with responder := some after }, .ended why)
  | answered {line responder} {after : ResponderPairing} (serving : m.responder = some responder)
      (first : responder.state = .awaitingOffer) (spent : after.state ≠ .awaitingOffer) :
      Effect (.line line) ({ m with responder := some after, answered := true }, .reply (.response response))
  | revealed {line responder session} {after : ResponderPairing} (serving : m.responder = some responder)
      (spent : after.state ≠ .awaitingOffer) (first : m.session = none) :
      Effect (.line line) ({ m with responder := some after, session := some session },
        .reply (codeReply session none trusted))
  | refused {line} (plays : m.role = .initiator) (first : m.responded = false) :
      Effect (.line line) ({ m with initiator := none, responded := true }, .ended why)
  | taken {line session reveal} (plays : m.role = .initiator) (first : m.responded = false) :
      Effect (.line line) ({ m with initiator := none, responded := true, session := some session },
        .reply (codeReply session (some reveal) trusted))
  | entered {line : FollowupLine} {session text} {step : Step} (shown : m.session = some session)
      (noResponse : step.isResponse = false) (noNonce : step.reveals = none)
      (peer : step.isConfirmed = (session.confirmEntered text line.now).2.isOk)
      (within : line.now.unixNanos < pairingDeadline m.started) :
      Effect (.line line) ({ m with session := some (session.confirmEntered text line.now).1 }, step)

variable {readBlob own}

omit [PairingDigests] in
theorem handleOffer_effect (m : Machine) (line : FollowupLine) (blob : String) :
    Effect m (.line line) (m.handleOffer readBlob own line blob) := by
  unfold handleOffer
  split
  · exact .kept rfl rfl rfl
  next responder serving =>
  split
  next offer read =>
    have spent := @answer_spent own responder offer line.nonce line.now
    split
    next after response answered =>
      rw [answered] at spent
      exact .answered serving (answer_first (congrArg Prod.snd answered)) spent
    next after e refused =>
      rw [refused] at spent
      exact .ended serving spent
  · exact .kept rfl rfl rfl

theorem handleReveal_effect (m : Machine) (line : FollowupLine) (blob : String) :
    Effect m (.line line) (m.handleReveal readBlob line blob) := by
  unfold handleReveal
  split
  · exact .kept rfl rfl rfl
  next responder serving =>
  split
  next reveal read =>
    split
    · exact .kept rfl rfl rfl
    next first =>
    split
    · exact .kept rfl rfl rfl
    have spent := responder.reveal_spent reveal line.now
    split
    next after session produced =>
      rw [produced] at spent
      exact .revealed serving spent (Option.not_isSome_iff_eq_none.mp first)
    next after e refused =>
      rw [refused] at spent
      exact .ended serving spent
  · exact .kept rfl rfl rfl

theorem handleResponse_effect (m : Machine) (line : FollowupLine) (blob : String) :
    Effect m (.line line) (m.handleResponse readBlob line blob) := by
  unfold handleResponse
  split
  · exact .kept rfl rfl rfl
  next plays =>
  split
  · exact .kept rfl rfl rfl
  next first =>
  split
  · split
    · exact .kept rfl rfl rfl
    · split
      · exact .taken (not_not.mp plays) (Bool.eq_false_iff.mpr first)
      · exact .refused (not_not.mp plays) (Bool.eq_false_iff.mpr first)
  · exact .kept rfl rfl rfl

omit [Libraries] [PairingDigests] in
theorem confirmStep_spec (result : Except ConfirmError PairedPeer) :
    (confirmStep result).isResponse = false ∧ (confirmStep result).reveals = none ∧
      (confirmStep result).isConfirmed = result.isOk := by
  match result with
  | .ok _ | .error (.mismatch 0) | .error (.mismatch (_ + 1)) | .error .aborted | .error .expired
  | .error .completed => exact ⟨rfl, rfl, rfl⟩

omit [PairingDigests] in
theorem handleConfirm_effect {line : FollowupLine} (text : String)
    (within : line.now.unixNanos < pairingDeadline m.started) :
    Effect m (.line line) (m.handleConfirm line text) := by
  unfold handleConfirm
  split
  · exact .kept rfl rfl rfl
  next session shown =>
  split
  · exact .kept rfl rfl rfl
  obtain ⟨noResponse, noNonce, peer⟩ := confirmStep_spec (session.confirmEntered text line.now).2
  exact .entered shown noResponse noNonce peer within

theorem take_effect (call : MachineCall) (m : Machine) : Effect m call (m.take readBlob own call) := by
  cases call with
  | abandon => exact .abandoned
  | line line =>
    simp only [take]
    split
    · exact .kept rfl rfl rfl
    next followup read =>
    unfold handle
    split
    · exact .kept rfl rfl rfl
    next notExpired =>
    cases followup with
    | offer blob => exact handleOffer_effect m line blob
    | reveal blob => exact handleReveal_effect m line blob
    | response blob => exact handleResponse_effect m line blob
    | confirm entered =>
      simp only [expired, decide_eq_true_eq, Int.not_le] at notExpired
      exact handleConfirm_effect entered notExpired

/-- A responder machine has no response to take, and an initiator machine shows a code once it took
one. -/
structure Sound (m : Machine) : Prop where
  serves : m.responder.isSome → m.role = .responder
  shows : m.role = .initiator → m.session.isSome → m.responded = true

theorem take_sound (call : MachineCall) (m : Machine) (sound : Sound m) :
    Sound (m.take readBlob own call).1 := by
  have effect := @take_effect _ _ readBlob own call m
  generalize m.take readBlob own call = out at effect ⊢
  cases effect with
  | kept => exact sound
  | abandoned => exact ⟨fun some_ => sound.serves (by simpa [abandon] using some_), sound.shows⟩
  | ended serving => exact ⟨fun _ => sound.serves (by rw [serving]; rfl), sound.shows⟩
  | answered serving => exact ⟨fun _ => sound.serves (by rw [serving]; rfl), sound.shows⟩
  | revealed serving =>
    have plays := sound.serves (by rw [serving]; rfl)
    exact ⟨fun _ => plays, fun other => nomatch plays.symm.trans other⟩
  | refused | taken => exact ⟨sound.serves, fun _ _ => rfl⟩
  | entered shown => exact ⟨sound.serves, fun plays _ => sound.shows plays (by rw [shown]; rfl)⟩

omit [Libraries] in
theorem opened_sound (role : Role) (statement : Option AgreementStatement)
    (nonce : PairingNonce) (now : Timestamp) : Sound (opened role own statement nonce now).1 := by
  cases role with
  | initiator => exact ⟨nofun, nofun⟩
  | responder => exact ⟨fun _ => rfl, nofun⟩

def took (l : Line Machine MachineCall Step) : Bool := !l.before.responded && l.after.responded

variable (calls : List MachineCall) {m : Machine}

theorem one_response_taken (m : Machine) : (log (take readBlob own) calls m).countP took ≤ 1 := by
  refine at_most_once (fun _ => True) (fun m => m.responded = true) trivial (fun _ _ _ => trivial) ?_ ?_ calls
  · intro call m _ done
    simpa [took, line] using done
  · intro call m _ responded
    have effect := @take_effect _ _ readBlob own call m
    generalize m.take readBlob own call = out at effect ⊢
    cases effect with
    | kept | abandoned | ended | answered | revealed | entered => exact responded
    | refused | taken => rfl

def Spent (m : Machine) : Prop := ∀ responder, m.responder = some responder → responder.state ≠ .awaitingOffer

theorem one_offer_answered (m : Machine) :
    (log (take readBlob own) calls m).countP (fun l => l.answer.isResponse) ≤ 1 := by
  refine at_most_once (fun _ => True) Spent trivial (fun _ _ _ => trivial) ?_ ?_ calls
  · intro call m _ done
    have effect := @take_effect _ _ readBlob own call m
    simp only [line] at done
    generalize m.take readBlob own call = out at effect done ⊢
    cases effect with
    | kept noResponse => cases done.symm.trans noResponse
    | entered _ noResponse => cases done.symm.trans noResponse
    | abandoned | ended | revealed | refused | taken => cases done
    | answered serving first spent =>
      refine ⟨fun spent => spent _ serving first, ?_⟩
      rintro _ ⟨⟩
      exact spent
  · intro call m _ spent
    have effect := @take_effect _ _ readBlob own call m
    generalize m.take readBlob own call = out at effect ⊢
    cases effect with
    | kept | refused | taken | entered => exact spent
    | abandoned =>
      intro responder serving
      obtain ⟨before, was, rfl⟩ := Option.map_eq_some_iff.mp serving
      exact abandon_spent (spent before was)
    | ended _ spent | answered _ _ spent | revealed _ spent =>
      rintro _ ⟨⟩
      exact spent

def Closed (m : Machine) : Prop := ∃ session, m.session = some session ∧ ∀ n, session.state ≠ .opened n

theorem one_peer_confirmed (sound : Sound m) :
    (log (take readBlob own) calls m).countP (fun l => l.answer.isConfirmed) ≤ 1 := by
  refine at_most_once Sound Closed sound (fun call m => take_sound call m) ?_ ?_ calls
  · intro call m _ done
    have effect := @take_effect _ _ readBlob own call m
    simp only [line] at done
    generalize m.take readBlob own call = out at effect done ⊢
    cases effect with
    | kept _ noPeer => cases done.symm.trans noPeer
    | abandoned | ended | answered | revealed | refused | taken => cases done
    | @entered line session text step shown _ _ peer _ =>
      have ok := peer.symm.trans done
      have effect := session.confirm_effect (.entered text line.now)
      simp only [PairingSession.confirm] at effect
      generalize session.confirmEntered text line.now = result at effect ok ⊢
      cases effect with
      | kept | wrong => cases ok
      | confirmed opened =>
        refine ⟨?_, _, rfl, by rintro _ ⟨⟩⟩
        rintro ⟨other, same, closed⟩
        cases shown.symm.trans same
        exact closed _ opened
  · rintro call m sound ⟨session, shown, closed⟩
    have effect := @take_effect _ _ readBlob own call m
    generalize m.take readBlob own call = out at effect ⊢
    cases effect with
    | kept | abandoned | ended | answered | refused => exact ⟨session, shown, closed⟩
    | revealed _ _ first => cases shown.symm.trans first
    | taken plays first => cases (sound.shows plays (by rw [shown]; rfl)).symm.trans first
    | @entered line other text step same _ _ _ _ =>
      cases shown.symm.trans same
      have effect := session.confirm_effect (.entered text line.now)
      simp only [PairingSession.confirm] at effect
      generalize session.confirmEntered text line.now = result at effect ⊢
      cases effect with
      | kept => exact ⟨_, rfl, closed⟩
      | wrong opened => exact absurd opened (closed _)
      | confirmed => exact ⟨_, rfl, by rintro _ ⟨⟩⟩

theorem reveals_when_taken (m : Machine) :
    ∀ l ∈ log (take readBlob own) calls m, l.answer.reveals.isSome → took l = true := by
  refine each_line (P := fun _ => True) trivial (fun _ _ _ => trivial) ?_ calls
  intro call m _ revealed
  have effect := @take_effect _ _ readBlob own call m
  simp only [line] at revealed ⊢
  generalize m.take readBlob own call = out at effect revealed ⊢
  cases effect with
  | kept _ _ noNonce => cases (noNonce ▸ revealed : (none : Option PairingReveal).isSome)
  | entered _ _ noNonce => cases (noNonce ▸ revealed : (none : Option PairingReveal).isSome)
  | abandoned | ended | answered | revealed | refused => cases revealed
  | taken _ first => simp only [took, first, Bool.not_false, Bool.and_self]

theorem confirmed_within (m : Machine) : ∀ l ∈ log (take readBlob own) calls m, l.answer.isConfirmed →
      ∃ line, l.call = .line line ∧ line.now.unixNanos < pairingDeadline m.started := by
  refine each_line (P := fun t => t.started = m.started) rfl ?_ ?_ calls
  · intro call t same
    have effect := @take_effect _ _ readBlob own call t
    generalize t.take readBlob own call = out at effect ⊢
    cases effect with
    | kept | abandoned | ended | answered | revealed | refused | taken | entered => exact same
  · intro call t same done
    have effect := @take_effect _ _ readBlob own call t
    simp only [line] at done ⊢
    generalize t.take readBlob own call = out at effect done ⊢
    cases effect with
    | kept _ noPeer => cases done.symm.trans noPeer
    | abandoned | ended | answered | revealed | refused | taken => cases done
    | entered _ _ _ _ within => exact ⟨_, rfl, same ▸ within⟩

end Machine

end Oac.DevicePairing
