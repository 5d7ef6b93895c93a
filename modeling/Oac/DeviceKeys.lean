import Oac.Canonical
import Oac.Foundation.Transition

/-! The device key and the stores that keep it (`core/src/keys.rs`, `cli/src/keystore.rs`): the
operating system's credential store, and an encrypted file that is used while the credential store
reports itself unavailable. How the host answers each call is part of the call. -/

namespace Oac

open Transition

inductive KeyStoreError where
  | unavailable (text : String)
  | locked (text : String)
  | corrupt (text : String)
  | failed (text : String)
  deriving DecidableEq

structure KeyStore (A S : Type) where
  load : S → Except KeyStoreError (Option A)
  save : A → S → Except KeyStoreError Unit × S

/-- An error of the credential service, with its display text where that is passed on; that it holds
no entry is an answer, not an error. -/
inductive KeyringError where
  | noDefaultStore
  | invalid (attr text : String)
  | noStorageAccess (text : String)
  | badEncoding
  | badDataFormat
  | platformFailure (text : String)
  | other (text : String)

def mapError : KeyringError → KeyStoreError
  | .noDefaultStore => .unavailable "no credential store on this host"
  | .invalid attr text =>
    if attr = "platform" then .unavailable "no credential store for this platform"
    else .failed ("credential store: " ++ text)
  | .noStorageAccess text => .locked ("credential store not accessible: " ++ text)
  | .badEncoding | .badDataFormat => .corrupt "the credential entry is not a device key"
  | .platformFailure text | .other text => .failed ("credential store: " ++ text)

/-- A private seed; the device key is derived from it. -/
@[ext] structure SecretSeed where
  octets : List UInt8
  sized : octets.length = 32

instance : DecidableEq SecretSeed := fun _ _ => decidable_of_iff _ SecretSeed.ext_iff.symm

def readHeld (fault : Option KeyStoreError) (held : Option SecretSeed) :
    Except KeyStoreError (Option SecretSeed) :=
  match fault with
  | some e => .error e
  | none => .ok held

/-- A key is written once and never replaced. A write that failed may have been made. -/
def createOnce (fault : Option (KeyStoreError × Bool)) (seed : SecretSeed)
    (held : Option SecretSeed) : Except KeyStoreError Unit × Option SecretSeed :=
  if held.isSome then (.error (.failed "a device key is already stored"), held)
  else match fault with
    | some (e, made) => (.error e, if made then some seed else held)
    | none => (.ok (), some seed)

/-- The credential store, with how the service answers a read and a write. -/
def osKeyStore (get : Option KeyringError) (set : Option (KeyringError × Bool)) :
    KeyStore SecretSeed (Option SecretSeed) where
  load := readHeld (get.map mapError)
  save seed held := match readHeld (get.map mapError) held with
    | .error e => (.error e, held)
    | .ok _ => createOnce (set.map fun (e, made) => (mapError e, made)) seed held

/-- The key file, which is linked into place only where none is. -/
def fileKeyStore (read : Option KeyStoreError) (write : Option (KeyStoreError × Bool)) :
    KeyStore SecretSeed (Option SecretSeed) where
  load := readHeld read
  save := createOnce write

structure KeysHeld where
  os : Option SecretSeed
  file : Option SecretSeed

def fallbackKeyStore (primary : KeyStore SecretSeed (Option SecretSeed))
    (fallback : Option (KeyStore SecretSeed (Option SecretSeed))) : KeyStore SecretSeed KeysHeld where
  load held := match primary.load held.os, fallback with
    | .error (.unavailable _), some f => f.load held.file
    | answer, _ => answer
  save seed held := match primary.save seed held.os, fallback with
    | (.error (.unavailable _), os), some f =>
      let (answer, file) := f.save seed held.file
      (answer, ⟨os, file⟩)
    | (answer, os), _ => (answer, ⟨os, held.file⟩)

/-- The stored device key, or a new one that is saved and read back; the store may answer each call
differently. -/
def loadOrGenerateKey (first saving back : KeyStore SecretSeed S) (seed : SecretSeed) (held : S) :
    Except KeyStoreError SecretSeed × S :=
  match first.load held with
  | .error e => (.error e, held)
  | .ok (some stored) => (.ok stored, held)
  | .ok none => match saving.save seed held with
    | (.error e, held) => (.error e, held)
    | (.ok (), held) => match back.load held with
      | .error e => (.error e, held)
      | .ok found =>
        (if found = some seed then .ok seed else .error (.failed "the saved device key did not read back"), held)

namespace DeviceKeys

/-- How the host answers one call; the key file is `none` when it is not configured. -/
structure Host where
  get : Option KeyringError
  set : Option (KeyringError × Bool)
  file : Option (Option KeyStoreError × Option (KeyStoreError × Bool))

def Host.store (host : Host) : KeyStore SecretSeed KeysHeld :=
  fallbackKeyStore (osKeyStore host.get host.set) (host.file.map fun (read, write) => fileKeyStore read write)

/-- One start of the daemon, with the seed the random source would give. -/
structure Start where
  first : Host
  saving : Host
  back : Host
  seed : SecretSeed

structure State where
  held : KeysHeld
  /-- The keys that the starts so far returned. -/
  returned : List SecretSeed

def State.empty : State := ⟨⟨none, none⟩, []⟩

def step (start : Start) (s : State) : Option State :=
  let (answer, held) := loadOrGenerateKey start.first.store start.saving.store
    start.back.store start.seed s.held
  some ⟨held, answer.toOption.toList ++ s.returned⟩

/-- A start makes a new key only when neither store holds one. -/
def NoneHidden (start : Start) (s : State) : Prop :=
  start.first.store.load s.held = .ok none → s.held = ⟨none, none⟩

/-- A store gives back what it holds, and a save leaves that, or the seed in its place when it held
none. -/
structure Keeps (store : KeyStore SecretSeed (Option SecretSeed)) : Prop where
  reads : ∀ held found, store.load held = .ok found → found = held
  writes : ∀ seed held, (store.save seed held).2 = held ∨ (store.save seed held).2 = some seed

theorem readHeld_eq_ok (read : readHeld fault held = .ok found) : found = held := by
  cases fault with
  | some e => cases read
  | none =>
    cases read
    rfl

theorem createOnce_held (fault : Option (KeyStoreError × Bool)) (seed : SecretSeed)
    (held : Option SecretSeed) :
    (createOnce fault seed held).2 = held ∨ (createOnce fault seed held).2 = some seed := by
  unfold createOnce
  split
  · exact .inl rfl
  · split
    · split
      · exact .inr rfl
      · exact .inl rfl
    · exact .inr rfl

theorem osKeyStore_keeps (get : Option KeyringError) (set : Option (KeyringError × Bool)) :
    Keeps (osKeyStore get set) where
  reads _ _ read := readHeld_eq_ok read
  writes seed held := by
    simp only [osKeyStore]
    split
    · exact .inl rfl
    · exact createOnce_held _ seed held

theorem fileKeyStore_keeps (read : Option KeyStoreError) (write : Option (KeyStoreError × Bool)) :
    Keeps (fileKeyStore read write) :=
  ⟨fun _ _ given => readHeld_eq_ok given, createOnce_held write⟩

theorem Host.file_keeps {host : Host}
    (configured : host.file.map (fun (read, write) => fileKeyStore read write) = some f) : Keeps f := by
  obtain ⟨⟨read, write⟩, -, rfl⟩ := Option.map_eq_some_iff.mp configured
  exact fileKeyStore_keeps read write

theorem Host.load_held {host : Host}
    (found : host.store.load held = .ok (some seed)) : held.os = some seed ∨ held.file = some seed := by
  simp only [Host.store, fallbackKeyStore] at found
  split at found
  next f _ configured => exact .inr ((Host.file_keeps configured).reads _ _ found).symm
  next => exact .inl ((osKeyStore_keeps _ _).reads _ _ found).symm

theorem Host.save_held (host : Host) (seed : SecretSeed) :
    let held := (host.store.save seed ⟨none, none⟩).2
    (held.os = none ∨ held.os = some seed) ∧ (held.file = none ∨ held.file = some seed) := by
  have written := (osKeyStore_keeps host.get host.set).writes seed none
  simp only [Host.store, fallbackKeyStore]
  generalize (osKeyStore host.get host.set).save seed none = saved at written ⊢
  split
  next f configured => exact ⟨written, (Host.file_keeps configured).writes seed none⟩
  next => exact ⟨written, .inl rfl⟩

/-- The stores hold at most one key, and no other was returned. -/
structure OneKey (s : State) : Prop where
  single : ∀ a b, s.held.os = some a → s.held.file = some b → a = b
  held : ∀ seed ∈ s.returned, s.held.os = some seed ∨ s.held.file = some seed

theorem OneKey.same (one : OneKey s) (first : a ∈ s.returned) (second : b ∈ s.returned) :
    a = b := by
  rcases one.held a first with inOs | inFile
  all_goals rcases one.held b second with inOs' | inFile'
  · exact Option.some.inj (inOs.symm.trans inOs')
  · exact one.single a b inOs inFile'
  · exact (one.single b a inOs' inFile).symm
  · exact Option.some.inj (inFile.symm.trans inFile')

theorem OneKey.step {start : Start} (one : OneKey s) (allowed : NoneHidden start s)
    (stepped : DeviceKeys.step start s = some t) : OneKey t := by
  simp only [DeviceKeys.step, loadOrGenerateKey] at stepped
  cases loaded : start.first.store.load s.held with
  | error e =>
    rw [loaded] at stepped
    cases stepped
    exact one
  | ok found =>
    rw [loaded] at stepped
    cases found with
    | some stored =>
      cases stepped
      refine ⟨one.single, fun seed listed => ?_⟩
      rcases List.mem_cons.mp listed with rfl | earlier
      · exact start.first.load_held loaded
      · exact one.held seed earlier
    | none =>
      have empty := allowed loaded
      have unreturned : ∀ seed ∈ s.returned, False := by
        intro seed listed
        have held := one.held seed listed
        rw [empty] at held
        rcases held with held | held <;> cases held
      obtain ⟨os, file⟩ := start.saving.save_held start.seed
      rw [empty] at stepped
      generalize start.saving.store.save start.seed ⟨none, none⟩ = saved at os file stepped
      obtain ⟨answer, held⟩ := saved
      have single : ∀ a b, held.os = some a → held.file = some b → a = b := by
        intro a b inOs inFile
        rw [inOs] at os
        rw [inFile] at file
        simp only [reduceCtorEq, false_or, Option.some.injEq] at os file
        rw [os, file]
      cases answer with
      | error e =>
        cases stepped
        exact ⟨single, fun seed listed => (unreturned seed listed).elim⟩
      | ok _ =>
        dsimp only at stepped
        split at stepped
        · cases stepped
          exact ⟨single, fun seed listed => (unreturned seed listed).elim⟩
        · next found back =>
          cases stepped
          refine ⟨single, fun seed listed => ?_⟩
          rcases List.mem_append.mp listed with now | earlier
          · split at now
            · next same =>
              cases List.mem_singleton.mp now
              exact start.back.load_held (same ▸ back)
            · cases now
          · exact (unreturned seed earlier).elim

/-- In every run of starts each of which makes a key only when no store holds one, all starts that
succeed return the same key. -/
theorem one_device_key (s : State) (run : Reaches step NoneHidden .empty s) :
    ∀ a ∈ s.returned, ∀ b ∈ s.returned, a = b := by
  have one : OneKey s :=
    run.invariant (fun _ _ _ allowed stepped one => one.step allowed stepped) ⟨nofun, nofun⟩
  exact fun a first b second => one.same first second

section Sample

def sampleSeed (b : UInt8) : SecretSeed := ⟨List.replicate 32 b, sized_replicate b⟩

def Host.bare : Host := ⟨some .noDefaultStore, none, some (none, none)⟩
def Host.full : Host := ⟨none, none, some (none, none)⟩

def Start.on (host : Host) (b : UInt8) : Start := ⟨host, host, host, sampleSeed b⟩

theorem one_device_key_sample : ∃ s, perform step [.on .bare 1, .on .bare 2] .empty = some s ∧
    ∀ a ∈ s.returned, ∀ b ∈ s.returned, a = b := by
  refine ⟨⟨⟨none, some (sampleSeed 1)⟩, [sampleSeed 1, sampleSeed 1]⟩, rfl, one_device_key _ ?_⟩
  refine .tail (.single ⟨.on .bare 1, fun _ => rfl, rfl⟩) ⟨.on .bare 2, ?_, rfl⟩
  nofun

/-- Once the credential service is there, a start makes a second key beside the one in the file. -/
theorem second_device_key : ∃ s, perform step [.on .bare 1, .on .full 2] .empty = some s ∧
    ∃ a ∈ s.returned, ∃ b ∈ s.returned, a ≠ b :=
  ⟨⟨⟨some (sampleSeed 2), some (sampleSeed 1)⟩, [sampleSeed 2, sampleSeed 1]⟩,
    rfl, sampleSeed 2, by simp, sampleSeed 1, by simp, by decide⟩

end Sample

end DeviceKeys

end Oac
