import Oac.Presence

/-! The pairing windows of issued values (`core/src/issued_pairing.rs`), over any attachment key. A
fresh value comes from the operating system's random source, so the caller gives it. -/

namespace Oac

def maxWindow : Nat := fromMillis 60000

/-- The most windows opened on one attachment since the last reveal paired on it. -/
def maxWindows : Nat := 3

def maxRecords : Nat := 16

/-- What a reveal of a pairing value means. -/
inductive RevealOutcome (A : Type) where
  | unknown
  | ended (attachment : A)
  | replayed (attachment : A)
  | conflict (attachment : A)
  | refused (attachment : A)
  | fresh (attachment : A)
  deriving DecidableEq

inductive WindowState where
  | issued
  | paired (nativeId : String)
  deriving DecidableEq

structure WindowRecord where
  value : String
  opened : Instant
  state : WindowState
  deriving DecidableEq

structure Windows where
  sincePaired : Nat
  /-- Oldest first. -/
  records : List WindowRecord
  deriving DecidableEq

structure PairingWindows (A : Type) where
  window : Nat
  byAttachment : Table A Windows
  byValue : Table String A

namespace PairingWindows

variable {A : Type} [DecidableEq A]

def new (window : Nat) : PairingWindows A where
  window := min (max window (fromMillis 1)) maxWindow
  byAttachment := ∅
  byValue := ∅

variable (p : PairingWindows A)

def live (r : WindowRecord) (now : Instant) : Bool :=
  r.state == .issued && now < r.opened + p.window

/-- A new window with `value`; the oldest record goes past the bound. -/
def openWindow (attachment : A) (value : String) (now : Instant) : PairingWindows A :=
  let w := (p.byAttachment.lookup attachment).getD ⟨0, []⟩
  let records := w.records ++ [⟨value, now, .issued⟩]
  let gone := records.take (records.length - maxRecords)
  { p with
    byAttachment := p.byAttachment.insert attachment
      ⟨w.sincePaired + 1, records.drop (records.length - maxRecords)⟩
    byValue := (gone.foldl (fun t r => t.erase r.value) p.byValue).insert value attachment }

/-- The value of the attachment's window at `now`: the open window's, else that of a new window
under `fresh`, unless three windows have been opened since the last reveal paired. -/
def issue (attachment : A) (now : Instant) (fresh : Option String) :
    Option String × PairingWindows A :=
  let opened : Option String × PairingWindows A := match fresh with
    | none => (none, p)
    | some value =>
      if (p.byValue.lookup value).isSome then (none, p)
      else (some value, p.openWindow attachment value now)
  match p.byAttachment.lookup attachment with
  | none => opened
  | some w =>
    match w.records.getLast?.filter (p.live · now) with
    | some r => (some r.value, p)
    | none => if w.sincePaired ≥ maxWindows then (none, p) else opened

/-- The record of `value` used up by a reveal of `nativeId`. -/
def usedUp (value nativeId : String) (r : WindowRecord) : WindowRecord :=
  if r.value = value then { r with state := .paired nativeId } else r

def reveal (value nativeId : String) (now : Instant) (acceptable : A → Bool) :
    RevealOutcome A × PairingWindows A :=
  match p.byValue.lookup value with
  | none => (.unknown, p)
  | some attachment =>
    match p.byAttachment.lookup attachment with
    | none => (.unknown, p)
    | some w =>
      match w.records.find? (·.value == value) with
      | none => (.unknown, p)
      | some r =>
        match r.state with
        | .paired n => (if n == nativeId then .replayed attachment else .conflict attachment, p)
        | .issued =>
          if now ≥ r.opened + p.window then (.ended attachment, p)
          else if !acceptable attachment then (.refused attachment, p)
          else (.fresh attachment, { p with
            byAttachment := p.byAttachment.insert attachment
              { w with records := w.records.map (usedUp value nativeId) } })

def paired (attachment : A) : PairingWindows A :=
  { p with byAttachment := Table.modify attachment (fun w => { w with sincePaired := 0 }) p.byAttachment }

def forget (attachment : A) : PairingWindows A :=
  match p.byAttachment.lookup attachment with
  | none => p
  | some w => { p with
      byAttachment := p.byAttachment.erase attachment
      byValue := w.records.foldl (fun t r => t.erase r.value) p.byValue }

end PairingWindows

end Oac
