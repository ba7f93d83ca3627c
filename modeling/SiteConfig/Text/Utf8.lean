/-!
# UTF-8

Decoding bytes as UTF-8. A faulty sequence is reported with its place and, unless the input ends in
it, with the number of bytes that could still start a character.
-/
namespace SiteConfig.Text

/-- A sequence that is no character: where it starts, and its length unless the input ends in it. -/
structure Utf8Fault where
  start : Nat
  length : Option Nat
  deriving DecidableEq

def Utf8Fault.message (fault : Utf8Fault) : String :=
  match fault.length with
  | some n => "invalid utf-8 sequence of " ++ toString n ++ " bytes from index " ++
      toString fault.start
  | none => "incomplete utf-8 byte sequence from index " ++ toString fault.start

/-- What follows the first byte of a character: the payload of that byte, the number of further
bytes, and the bounds of the next one. -/
structure Lead where
  payload : Nat
  more : Nat
  least : Nat
  greatest : Nat

/-- The meaning of a first byte. The bounds exclude long forms, surrogates and large numbers. -/
def lead? (byte : Nat) : Option Lead :=
  if byte < 0x80 then some ⟨byte, 0, 0x80, 0xBF⟩
  else if byte < 0xC2 then none
  else if byte < 0xE0 then some ⟨byte - 0xC0, 1, 0x80, 0xBF⟩
  else if byte = 0xE0 then some ⟨0, 2, 0xA0, 0xBF⟩
  else if byte = 0xED then some ⟨byte - 0xE0, 2, 0x80, 0x9F⟩
  else if byte < 0xF0 then some ⟨byte - 0xE0, 2, 0x80, 0xBF⟩
  else if byte = 0xF0 then some ⟨0, 3, 0x90, 0xBF⟩
  else if byte < 0xF4 then some ⟨byte - 0xF0, 3, 0x80, 0xBF⟩
  else if byte = 0xF4 then some ⟨byte - 0xF0, 3, 0x80, 0x8F⟩
  else none

/-- A decoder between two bytes: the code so far of the character that has started, and what has to
follow. -/
structure Utf8State where
  /-- The index of the first byte of the character that has started or comes next. -/
  start : Nat
  /-- The number of bytes of the character that were read. -/
  seen : Nat
  lead : Lead

def Utf8State.initial (start : Nat) : Utf8State := ⟨start, 0, ⟨0, 0, 0x80, 0xBF⟩⟩

def decodeUtf8From (state : Utf8State) : List UInt8 → Except Utf8Fault (List Char)
  | [] => if state.seen = 0 then .ok [] else .error ⟨state.start, none⟩
  | byte :: rest =>
    let next? : Option Lead :=
      if state.seen = 0 then lead? byte.toNat
      else if state.lead.least ≤ byte.toNat ∧ byte.toNat ≤ state.lead.greatest then
        some ⟨state.lead.payload * 0x40 + (byte.toNat - 0x80), state.lead.more - 1, 0x80, 0xBF⟩
      else none
    match next? with
    | none => .error ⟨state.start, some (max state.seen 1)⟩
    | some lead =>
      let seen := state.seen + 1
      if lead.more = 0 then
        (decodeUtf8From (.initial (state.start + seen)) rest).map (Char.ofNat lead.payload :: ·)
      else decodeUtf8From ⟨state.start, seen, lead⟩ rest

/-- The text of bytes in UTF-8. -/
def decodeUtf8 (bytes : List UInt8) : Except Utf8Fault String :=
  (decodeUtf8From (.initial 0) bytes).map String.ofList

end SiteConfig.Text
