import CircuitBench.Text.Quoted

/-!
# Reading bytes as text

UTF-8 with located faults.  A fault names the bytes that cannot be decoded: a byte that starts no
character, the well-formed beginning of a character before a byte that does not continue it, or
the beginning of a character at the end of the data.

`decodeBlocks` reads in blocks, as a reader of lines does: an unfinished character is carried over
into the next block, and the place of a fault is counted from the bytes carried over.
-/

namespace CircuitBench.Text

namespace Utf8

inductive Cause where
  | startByte
  | continuationByte
  | endOfData
  deriving DecidableEq, Repr

/-- bytes `start` to `start + length - 1` cannot be read; `first` is the first of them -/
structure Fault where
  cause : Cause
  first : UInt8
  start : Nat
  length : Nat
  deriving DecidableEq, Repr

def Cause.message : Cause → String
  | .startByte => "invalid start byte"
  | .continuationByte => "invalid continuation byte"
  | .endOfData => "unexpected end of data"

/-- the message names a single byte by its value, several bytes by their places only -/
def Fault.message (f : Fault) : String :=
  let bytes :=
    if f.length ≤ 1 then
      "byte 0x" ++ String.ofList (hexDigits 2 f.first.toNat) ++ " in position " ++ toString f.start
    else
      "bytes in position " ++ toString f.start ++ "-" ++ toString (f.start + f.length - 1)
  "'utf-8' codec can't decode " ++ bytes ++ ": " ++ f.cause.message

inductive Step where
  /-- a character, the number of its bytes, and the bytes after it -/
  | char (c : Char) (size : Nat) (rest : List UInt8)
  | bad (cause : Cause) (length : Nat)

def isContinuation (b : UInt8) : Bool := 0x80 ≤ b && b < 0xC0

/-- the second byte may follow the lead byte: no overlong form, no surrogate, nothing above the
last code point -/
def secondOk (lead second : UInt8) : Bool :=
  isContinuation second &&
    (lead != 0xE0 || 0xA0 ≤ second) && (lead != 0xED || second < 0xA0) &&
    (lead != 0xF0 || 0x90 ≤ second) && (lead != 0xF4 || second < 0x90)

def low (b : UInt8) : Nat := b.toNat % 64

/-- the first character of the bytes `lead :: rest` -/
def step (lead : UInt8) (rest : List UInt8) : Step :=
  if lead < 0x80 then .char (Char.ofNat lead.toNat) 1 rest
  else if lead < 0xC2 then .bad .startByte 1
  else if lead < 0xE0 then
    match rest with
    | [] => .bad .endOfData 1
    | b :: rest =>
      if isContinuation b then .char (Char.ofNat (lead.toNat % 32 * 64 + low b)) 2 rest
      else .bad .continuationByte 1
  else if lead < 0xF0 then
    match rest with
    | [] => .bad .endOfData 1
    | b :: rest =>
      if !secondOk lead b then .bad .continuationByte 1
      else match rest with
        | [] => .bad .endOfData 2
        | c :: rest =>
          if isContinuation c then
            .char (Char.ofNat (lead.toNat % 16 * 4096 + low b * 64 + low c)) 3 rest
          else .bad .continuationByte 2
  else if lead < 0xF5 then
    match rest with
    | [] => .bad .endOfData 1
    | b :: rest =>
      if !secondOk lead b then .bad .continuationByte 1
      else match rest with
        | [] => .bad .endOfData 2
        | c :: rest =>
          if !isContinuation c then .bad .continuationByte 2
          else match rest with
            | [] => .bad .endOfData 3
            | d :: rest =>
              if isContinuation d then
                .char (Char.ofNat
                  (lead.toNat % 8 * 262144 + low b * 4096 + low c * 64 + low d)) 4 rest
              else .bad .continuationByte 3
  else .bad .startByte 1

theorem step_length_le {lead : UInt8} {bytes rest : List UInt8} {c : Char} {size : Nat}
    (h : step lead bytes = .char c size rest) : rest.length ≤ bytes.length := by
  unfold step at h
  repeat' split at h
  all_goals first
    | (injection h with _ hs hr; subst hs hr; simp; try omega)
    | cases h

/-- the characters read, newest first, and the fault that stopped the reading; `place` is the
number of bytes already read -/
def decodeFrom (place : Nat) (read : List Char) (bytes : List UInt8) :
    List Char × Option (Fault × List UInt8) :=
  match bytes with
  | [] => (read, none)
  | lead :: rest =>
    match h : step lead rest with
    | .char c size rest' =>
      have := step_length_le h
      decodeFrom (place + size) (c :: read) rest'
    | .bad cause length => (read, some (⟨cause, lead, place, length⟩, lead :: rest))
termination_by bytes.length
decreasing_by simp; omega

def decode (bytes : List UInt8) : Except Fault (List Char) :=
  match decodeFrom 0 [] bytes with
  | (read, none) => .ok read.reverse
  | (_, some (fault, _)) => .error fault

/-- bytes at the end of a block that a next block may go on with: an unfinished character, or two
bytes of a surrogate -/
def isUnfinished (fault : Fault) : (left : List UInt8) → Bool
  | [a, b] => fault.cause == .endOfData || (a == 0xED && 0xA0 ≤ b && b < 0xC0)
  | _ => fault.cause == .endOfData

/-- the bytes in blocks of `size`, the unfinished character of a block carried into the next -/
def decodeBlocksFrom (size : Nat) : (fuel : Nat) → (carried bytes : List UInt8) →
    (read : List Char) → Except Fault (List Char)
  | 0, _, _, read => .ok read.reverse
  | fuel + 1, carried, bytes, read =>
    match decodeFrom 0 read (carried ++ bytes.take size) with
    | (read, none) =>
      if bytes.isEmpty then .ok read.reverse
      else decodeBlocksFrom size fuel [] (bytes.drop size) read
    | (read, some (fault, left)) =>
      if isUnfinished fault left ∧ ¬ bytes.isEmpty then
        decodeBlocksFrom size fuel left (bytes.drop size) read
      else .error fault

/-- all bytes as text, read in blocks of `size` bytes -/
def decodeBlocks (size : Nat) (bytes : List UInt8) : Except Fault (List Char) :=
  decodeBlocksFrom size (bytes.length + 2) [] bytes []

end Utf8

end CircuitBench.Text
