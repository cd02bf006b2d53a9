import ShaderReflection.Text.Quoted

/-! Text as bytes in UTF-8, the first byte where bytes are no such text, and line breaks of every kind
read as line feeds. -/
namespace ShaderReflection.Text

def utf8 (s : String) : List UInt8 := s.toList.flatMap String.utf8EncodeChar

/-- What is wrong with a byte. -/
inductive Utf8Fault where
  | start
  | continuation
  | ending
  deriving DecidableEq, Repr

/-- Bytes that are no text: those from `first` to before `stop`, of which the first is `lead`. -/
structure Utf8Error where
  first : Nat
  stop : Nat
  lead : Nat
  fault : Utf8Fault
  deriving DecidableEq, Repr

def Utf8Fault.phrase : Utf8Fault → String
  | .start => "invalid start byte"
  | .continuation => "invalid continuation byte"
  | .ending => "unexpected end of data"

def Utf8Error.message (e : Utf8Error) : String :=
  "'utf-8' codec can't decode " ++ place ++ ": " ++ e.fault.phrase
where
  place : String :=
    if e.stop = e.first + 1 then
      "byte 0x" ++ String.ofList (hexDigits 2 e.lead) ++ " in position " ++ toString e.first
    else "bytes in position " ++ toString e.first ++ "-" ++ toString (e.stop - 1)

/-- A character of which `missing` bytes are still to come, the next of them from `low` to
`high`. -/
structure OpenCharacter where
  value : Nat
  missing : Nat
  low : Nat
  high : Nat
  first : Nat
  lead : Nat

/-- The character that a byte opens at a position. Overlong forms and surrogates are ruled out by
the range of the second byte. -/
def openAt? (position b : Nat) : Option OpenCharacter :=
  if 0xC2 ≤ b ∧ b ≤ 0xDF then some ⟨b - 0xC0, 1, 0x80, 0xBF, position, b⟩
  else if b = 0xE0 then some ⟨0, 2, 0xA0, 0xBF, position, b⟩
  else if b = 0xED then some ⟨0xD, 2, 0x80, 0x9F, position, b⟩
  else if 0xE1 ≤ b ∧ b ≤ 0xEF then some ⟨b - 0xE0, 2, 0x80, 0xBF, position, b⟩
  else if b = 0xF0 then some ⟨0, 3, 0x90, 0xBF, position, b⟩
  else if 0xF1 ≤ b ∧ b ≤ 0xF3 then some ⟨b - 0xF0, 3, 0x80, 0xBF, position, b⟩
  else if b = 0xF4 then some ⟨4, 3, 0x80, 0x8F, position, b⟩
  else none

/-- Decode the bytes from a position on, behind those of an open character. -/
def decodeFrom (position : Nat) : Option OpenCharacter → List UInt8 → Except Utf8Error (List Char)
  | none, [] => .ok []
  | some o, [] => .error ⟨o.first, position, o.lead, .ending⟩
  | none, b :: bs =>
    if b.toNat < 0x80 then (decodeFrom (position + 1) none bs).map (Char.ofNat b.toNat :: ·)
    else
      match openAt? position b.toNat with
      | some o => decodeFrom (position + 1) (some o) bs
      | none => .error ⟨position, position + 1, b.toNat, .start⟩
  | some o, b :: bs =>
    if o.low ≤ b.toNat ∧ b.toNat ≤ o.high then
      let value := o.value * 64 + (b.toNat - 0x80)
      if o.missing ≤ 1 then (decodeFrom (position + 1) none bs).map (Char.ofNat value :: ·)
      else
        decodeFrom (position + 1)
          (some ⟨value, o.missing - 1, 0x80, 0xBF, o.first, o.lead⟩) bs
    else .error ⟨o.first, position, o.lead, .continuation⟩

/-- The text that bytes encode. -/
def ofUtf8 (bytes : List UInt8) : Except Utf8Error (List Char) := decodeFrom 0 none bytes

/-- A text with each carriage return, and each pair of carriage return and line feed, turned into
one line feed. -/
def unifyBreaks : List Char → List Char
  | '\r' :: '\n' :: cs => '\n' :: unifyBreaks cs
  | '\r' :: cs => '\n' :: unifyBreaks cs
  | c :: cs => c :: unifyBreaks cs
  | [] => []

end ShaderReflection.Text
