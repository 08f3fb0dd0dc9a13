/-!
# Bytes as text

Guest strings are bytes; the host works with text. A byte string is read in one of two ways:

* `decode? b`: the text, or where and how the bytes stop being UTF-8;
* `decodeLossy b`: always a text, in which each maximal part of a sequence that is not UTF-8 is one
  replacement character.

Both cut the bytes into pieces with `firstPiece`.
-/

namespace ScriptHost.Text

/-- What the bytes start with: a character of a size in bytes, a sequence that no byte could
continue, or a sequence that the end of the bytes cuts short. -/
inductive Piece where
  | char (c : Char) (size : Nat)
  | broken (size : Nat)
  | cut (size : Nat)
deriving Repr, DecidableEq

/-- Number of bytes that a piece takes. -/
def Piece.size : Piece → Nat
  | .char _ n => n
  | .broken n => n
  | .cut n => n

/-- Bytes in the sequence that a lead byte opens, if it opens one of several bytes. -/
def sequenceSize (lead : UInt8) : Option Nat :=
  if 0xC2 ≤ lead && lead ≤ 0xDF then some 2
  else if 0xE0 ≤ lead && lead ≤ 0xEF then some 3
  else if 0xF0 ≤ lead && lead ≤ 0xF4 then some 4
  else none

/-- The bytes that may follow a lead byte. They exclude overlong forms, surrogates and code points
above the last one. -/
def mayFollow (lead next : UInt8) : Bool :=
  let low : UInt8 := if lead == 0xE0 then 0xA0 else if lead == 0xF0 then 0x90 else 0x80
  let high : UInt8 := if lead == 0xED then 0x9F else if lead == 0xF4 then 0x8F else 0xBF
  low ≤ next && next ≤ high

/-- The bytes that may stand third or fourth in a sequence. -/
def isContinuation (b : UInt8) : Bool := 0x80 ≤ b && b ≤ 0xBF

/-- The six low bits of a continuation byte. -/
def continuationBits (b : UInt8) : Nat := b.toNat % 64

/-- The piece that starts with the byte `lead`. -/
def firstPiece (lead : UInt8) (rest : List UInt8) : Piece :=
  if lead < 0x80 then .char (Char.ofNat lead.toNat) 1
  else
    match sequenceSize lead, rest with
    | none, _ => .broken 1
    | some _, [] => .cut 1
    | some size, b₁ :: rest₁ =>
      if !mayFollow lead b₁ then .broken 1
      else if size == 2 then
        .char (Char.ofNat (lead.toNat % 32 * 64 + continuationBits b₁)) 2
      else
        match rest₁ with
        | [] => .cut 2
        | b₂ :: rest₂ =>
          if !isContinuation b₂ then .broken 2
          else if size == 3 then
            .char (Char.ofNat
              ((lead.toNat % 16 * 64 + continuationBits b₁) * 64 + continuationBits b₂)) 3
          else
            match rest₂ with
            | [] => .cut 3
            | b₃ :: _ =>
              if !isContinuation b₃ then .broken 3
              else
                .char (Char.ofNat
                  (((lead.toNat % 8 * 64 + continuationBits b₁) * 64 + continuationBits b₂) * 64
                    + continuationBits b₃)) 4

/-! ## Lossy reading -/

/-- Characters of the bytes, a replacement character for each piece that is none; `fuel` bounds the
number of pieces. -/
def lossyChars : Nat → List UInt8 → List Char → List Char
  | _, [], done => done.reverse
  | 0, _ :: _, done => done.reverse
  | fuel + 1, lead :: rest, done =>
    match firstPiece lead rest with
    | .char c size => lossyChars fuel (rest.drop (size - 1)) (c :: done)
    | .broken size => lossyChars fuel (rest.drop (size - 1)) ('\ufffd' :: done)
    | .cut size => lossyChars fuel (rest.drop (size - 1)) ('\ufffd' :: done)

/-- The bytes as a text in which each maximal part that is not UTF-8 is a replacement character. -/
def decodeLossy (b : ByteArray) : String :=
  match String.fromUTF8? b with
  | some s => s
  | none => String.ofList (lossyChars b.size b.data.toList [])

/-! ## Strict reading -/

/-- Where bytes stop being UTF-8: at `index` stands a sequence of `size` bytes that nothing could
continue, or, without a size, one that the end cuts short. -/
structure Utf8Error where
  index : Nat
  size : Option Nat
deriving Repr, DecidableEq

/-- The wording of a decoding error. -/
def Utf8Error.message (e : Utf8Error) : String :=
  match e.size with
  | some n => s!"invalid utf-8 sequence of {n} bytes from index {e.index}"
  | none => s!"incomplete utf-8 byte sequence from index {e.index}"

/-- The first place at which the bytes from `index` on stop being UTF-8. -/
def firstError : Nat → Nat → List UInt8 → Utf8Error
  | _, index, [] => ⟨index, none⟩
  | 0, index, _ :: _ => ⟨index, none⟩
  | fuel + 1, index, lead :: rest =>
    match firstPiece lead rest with
    | .char _ size => firstError fuel (index + size) (rest.drop (size - 1))
    | .broken size => ⟨index, some size⟩
    | .cut _ => ⟨index, none⟩

/-- The text that the bytes encode, or the first place where they encode none. -/
def decode? (b : ByteArray) : Except Utf8Error String :=
  match String.fromUTF8? b with
  | some s => .ok s
  | none => .error (firstError b.size 0 b.data.toList)

end ScriptHost.Text
