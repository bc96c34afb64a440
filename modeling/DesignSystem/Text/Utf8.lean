import DesignSystem.Text.Basic

/-! # UTF-8

* `Utf8.encode`: the bytes of a Unicode text.
* `Utf8.unencodable?`: the place in a text that keeps it from having bytes.
* `Utf8.decode`: the text of bytes, or the first place where they are no UTF-8 and why.
-/

namespace DesignSystem
set_option autoImplicit false

/-- The bytes of a file. -/
abbrev Bytes := List UInt8

namespace Utf8

/-! ## Encoding -/

def encodeChar (c : Char) : Bytes :=
  let n := c.toNat
  if n < 0x80 then [.ofNat n]
  else if n < 0x800 then [.ofNat (0xC0 + n / 64), .ofNat (0x80 + n % 64)]
  else if n < 0x10000 then
    [.ofNat (0xE0 + n / 4096), .ofNat (0x80 + n / 64 % 64), .ofNat (0x80 + n % 64)]
  else
    [.ofNat (0xF0 + n / 262144), .ofNat (0x80 + n / 4096 % 64), .ofNat (0x80 + n / 64 % 64),
      .ofNat (0x80 + n % 64)]

def encode (text : List Char) : Bytes := text.flatMap encodeChar

/-- The first surrogates on their own in a text, as far as they follow each other. -/
structure Unencodable where
  position : Nat
  first : Surrogate
  count : Nat
  deriving DecidableEq

def unencodableFrom (position : Nat) : List CodePoint → Option Unencodable
  | [] => none
  | .char _ :: rest => unencodableFrom (position + 1) rest
  | .surrogate first :: rest => some ⟨position, first, (rest.takeWhile (!·.isChar)).length + 1⟩

/-- Why code points have no bytes: one of them is a surrogate. -/
def unencodable? (points : List CodePoint) : Option Unencodable := unencodableFrom 0 points

/-! ## Decoding -/

inductive Defect where
  /-- A byte that starts no character. -/
  | invalidStart
  /-- The given count of bytes starts a character that the next byte does not continue. -/
  | invalidContinuation (count : Nat)
  /-- The bytes end within a character. -/
  | unexpectedEnd
  deriving DecidableEq, Repr

/-- A defect, with its bytes from `position` on. -/
structure Fault where
  defect : Defect
  position : Nat
  rest : Bytes
  deriving DecidableEq, Repr

def isContinuation (b : UInt8) : Bool := 0x80 ≤ b && b < 0xC0

/-- Whether `b` may follow the first byte `a` of a character of three or four bytes: the shorter
forms, the surrogates and the numbers beyond the last character are left out. -/
def isSecond (a b : UInt8) : Bool :=
  isContinuation b &&
    (if a == 0xE0 then 0xA0 ≤ b
    else if a == 0xED then b < 0xA0
    else if a == 0xF0 then 0x90 ≤ b
    else if a == 0xF4 then b < 0x90
    else true)

/-- The character of the low bits of continuation bytes after leading bits. -/
def join (lead : Nat) (continuation : List UInt8) : Char :=
  .ofNat (continuation.foldl (fun n b => 64 * n + (b.toNat - 0x80)) lead)

/-- The text of the bytes, which stand at `position`. -/
def decodeFrom (position : Nat) : Bytes → Except Fault (List Char)
  | [] => .ok []
  | a :: rest =>
    let fail (defect : Defect) : Except Fault (List Char) := .error ⟨defect, position, a :: rest⟩
    if a < 0x80 then do
      let text ← decodeFrom (position + 1) rest
      return join a.toNat [] :: text
    else if a < 0xC2 then fail .invalidStart
    else if a < 0xE0 then
      match rest with
      | [] => fail .unexpectedEnd
      | b :: rest =>
        if isContinuation b then do
          let text ← decodeFrom (position + 2) rest
          return join (a.toNat - 0xC0) [b] :: text
        else fail (.invalidContinuation 1)
    else if a < 0xF0 then
      match rest with
      | [] => fail .unexpectedEnd
      | b :: rest =>
        if !isSecond a b then fail (.invalidContinuation 1)
        else match rest with
          | [] => fail .unexpectedEnd
          | c :: rest =>
            if isContinuation c then do
              let text ← decodeFrom (position + 3) rest
              return join (a.toNat - 0xE0) [b, c] :: text
            else fail (.invalidContinuation 2)
    else if a < 0xF5 then
      match rest with
      | [] => fail .unexpectedEnd
      | b :: rest =>
        if !isSecond a b then fail (.invalidContinuation 1)
        else match rest with
          | [] => fail .unexpectedEnd
          | c :: rest =>
            if !isContinuation c then fail (.invalidContinuation 2)
            else match rest with
              | [] => fail .unexpectedEnd
              | d :: rest =>
                if isContinuation d then do
                  let text ← decodeFrom (position + 4) rest
                  return join (a.toNat - 0xF0) [b, c, d] :: text
                else fail (.invalidContinuation 3)
    else fail .invalidStart

def decode (bytes : Bytes) : Except Fault (List Char) := decodeFrom 0 bytes

/-! ## Messages -/

def Fault.count (fault : Fault) : Nat :=
  match fault.defect with
  | .invalidStart => 1
  | .invalidContinuation count => count
  | .unexpectedEnd => fault.rest.length

def Defect.message : Defect → String
  | .invalidStart => "invalid start byte"
  | .invalidContinuation _ => "invalid continuation byte"
  | .unexpectedEnd => "unexpected end of data"

def Unencodable.message (fault : Unencodable) : String :=
  if fault.count = 1 then
    s!"'utf-8' codec can't encode character '{String.ofList fault.first.escape}' in position " ++
      s!"{fault.position}: surrogates not allowed"
  else
    s!"'utf-8' codec can't encode characters in position {fault.position}-" ++
      s!"{fault.position + fault.count - 1}: surrogates not allowed"

def hexByte (b : UInt8) : String :=
  String.ofList [Nat.digitChar (b.toNat / 16), Nat.digitChar (b.toNat % 16)]

def Fault.message (fault : Fault) : String :=
  let reason := fault.defect.message
  match fault.count, fault.rest with
  | 1, b :: _ =>
    s!"'utf-8' codec can't decode byte 0x{hexByte b} in position {fault.position}: {reason}"
  | count, _ =>
    s!"'utf-8' codec can't decode bytes in position {fault.position}-" ++
      s!"{fault.position + count - 1}: {reason}"

end Utf8
end DesignSystem
