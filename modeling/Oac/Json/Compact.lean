import Oac.Canonical
import Oac.Json.Parse

/-! The compact writer of `core/src/json.rs`. The source writes the events of a walk with a stack of
open containers; `toCompact_eq_text` shows that this is the recursive text of the value. -/

namespace Oac.Json

def lowerHex4 (n : Nat) : List Char :=
  [n / 4096 % 16, n / 256 % 16, n / 16 % 16, n % 16].map Nat.digitChar

def escapeChar (c : Char) : List Char :=
  if c == '"' then ['\\', '"']
  else if c == '\\' then ['\\', '\\']
  else if c == Char.ofNat 8 then ['\\', 'b']
  else if c == Char.ofNat 12 then ['\\', 'f']
  else if c == '\n' then ['\\', 'n']
  else if c == '\r' then ['\\', 'r']
  else if c == '\t' then ['\\', 't']
  else if c.toNat < 0x20 then '\\' :: 'u' :: lowerHex4 c.toNat
  else [c]

def writeString (s : String) : List Char := '"' :: (s.toList.flatMap escapeChar ++ ['"'])

def writeScalar : Json → List Char
  | null => "null".toList
  | bool true => "true".toList
  | bool false => "false".toList
  | number n => n.raw.toList
  | string s => writeString s
  -- the walk yields containers as events, never as scalars
  | array _ | object _ => []

def toCompact (v : Json) : List Char :=
  match @writeEvents Empty (fun v => .ok (String.ofList (writeScalar v)))
      (fun k => .ok (String.ofList (writeString k))) v.events with
  | .ok text => text
  | .error e => nomatch e

def comma (first : Bool) : List Char := if first then [] else [',']

mutual

def text : Json → List Char
  | array items => '[' :: (itemsText true items ++ [']'])
  | object members => '\x7b' :: (membersText true members ++ ['\x7d'])
  | v => writeScalar v

def itemsText (first : Bool) : List Json → List Char
  | [] => []
  | v :: rest => comma first ++ text v ++ itemsText false rest

def membersText (first : Bool) : List (String × Json) → List Char
  | [] => []
  | (k, v) :: rest => comma first ++ writeString k ++ ':' :: text v ++ membersText false rest

end

section Writing

def write (w : Writer) (events : List Event) : Except Empty Writer :=
  events.foldlM (Writer.writeEvent (fun v => .ok (String.ofList (writeScalar v)))
    (fun k => .ok (String.ofList (writeString k)))) w

theorem write_cons (w : Writer) (e : Event) (rest : List Event) :
    write w (e :: rest) = (write w [e]).bind fun w => write w rest := by
  simp only [write, List.foldlM_cons, List.foldlM_nil]
  cases Writer.writeEvent (fun v => Except.ok (String.ofList (writeScalar v)))
    (fun k => Except.ok (String.ofList (writeString k))) w e with
  | ok w => rfl
  | error e => nomatch e

theorem write_append (w : Writer) (first second : List Event) :
    write w (first ++ second) = (write w first).bind fun w => write w second := by
  simp only [write, List.foldlM_append]
  rfl

@[simp] theorem beforeValue_member (w : Writer) (outer : List (Bool × Bool)) (first : Bool)
    (inObject : w.levels = (false, first) :: outer) : w.beforeValue = w := by
  simp [Writer.beforeValue, inObject]

theorem beforeValue_item (out : List Char) (outer : List (Bool × Bool)) (first : Bool) :
    (Writer.mk ((true, first) :: outer) out).beforeValue = ⟨(true, false) :: outer, out ++ comma first⟩ := by
  cases first <;> simp [Writer.beforeValue, Writer.separate, comma]

theorem write_name (out : List Char) (outer : List (Bool × Bool)) (first : Bool) (k : String) :
    write ⟨(false, first) :: outer, out⟩ [.name k] =
      .ok ⟨(false, false) :: outer, out ++ comma first ++ writeString k ++ [':']⟩ := by
  cases first <;>
    simp [write, Writer.writeEvent, Writer.separate, Writer.push, comma, pure, Except.pure, bind, Except.bind]

mutual

theorem write_walk (v : Json) (w : Writer) : write w (walk false v) = .ok (w.beforeValue.push (text v)) := by
  cases v with
  | array items =>
    rw [text]
    change (write ⟨(true, true) :: w.beforeValue.levels, w.beforeValue.out ++ ['[']⟩
      (walkItems false items ++ [.arrayEnd])) = _
    rw [write_append, write_walkItems items]
    simp [write, Writer.writeEvent, Writer.push, Except.bind, pure, Except.pure, bind]
  | object members =>
    rw [text]
    change (write ⟨(false, true) :: w.beforeValue.levels, w.beforeValue.out ++ ['\x7b']⟩
      ((walkMembers false members).flatMap (fun m => .name m.1 :: m.2) ++ [.objectEnd])) = _
    rw [write_append, write_walkMembers members]
    simp [write, Writer.writeEvent, Writer.push, Except.bind, pure, Except.pure, bind]
  | null | bool _ | number _ | string _ =>
    simp [walk, text, write, Writer.writeEvent, bind, Except.bind, pure, Except.pure]

theorem write_walkItems (items : List Json) (first : Bool) (outer : List (Bool × Bool)) (out : List Char) :
    write ⟨(true, first) :: outer, out⟩ (walkItems false items) =
      .ok ⟨(true, first && items.isEmpty) :: outer, out ++ itemsText first items⟩ := by
  cases items with
  | nil => simp [walkItems, write, itemsText, pure, Except.pure]
  | cons v rest =>
    rw [walkItems, write_append, write_walk v, beforeValue_item]
    simp only [Except.bind, Writer.push]
    rw [write_walkItems rest, itemsText]
    simp [List.append_assoc]

theorem write_walkMembers (members : List (String × Json)) (first : Bool)
    (outer : List (Bool × Bool)) (out : List Char) :
    write ⟨(false, first) :: outer, out⟩ ((walkMembers false members).flatMap fun m => .name m.1 :: m.2) =
      .ok ⟨(false, first && members.isEmpty) :: outer, out ++ membersText first members⟩ := by
  cases members with
  | nil => simp [walkMembers, write, membersText, pure, Except.pure]
  | cons m rest =>
    obtain ⟨k, v⟩ := m
    rw [walkMembers, List.flatMap_cons, List.cons_append, write_cons, write_name]
    simp only [Except.bind]
    rw [write_append, write_walk v, beforeValue_member _ outer false rfl]
    simp only [Except.bind, Writer.push]
    rw [write_walkMembers rest, membersText]
    simp [List.append_assoc]

end

theorem toCompact_eq_text (v : Json) : toCompact v = text v := by
  have written := write_walk v ⟨[], []⟩
  unfold write at written
  unfold toCompact writeEvents events
  rw [written]
  rfl

end Writing

end Oac.Json
