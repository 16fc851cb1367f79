namespace HandlerDocs.Text

/-- Where bytes stop being UTF-8: the number of good bytes before, and how many bytes are wrong;
none of these when the text ends inside a character. -/
structure Utf8Fault where
  start : Nat
  length : Option Nat
deriving DecidableEq

namespace Utf8Fault

def message (f : Utf8Fault) : String :=
  match f.length with
  | some n => "invalid utf-8 sequence of " ++ Nat.repr n ++ " bytes from index " ++ Nat.repr f.start
  | none => "incomplete utf-8 byte sequence from index " ++ Nat.repr f.start

def isTail (b : UInt8) : Bool :=
  0x80 ≤ b && b ≤ 0xBF

def isSecond (first b : UInt8) : Bool :=
  if first = 0xE0 then 0xA0 ≤ b && b ≤ 0xBF
  else if first = 0xED then 0x80 ≤ b && b ≤ 0x9F
  else if first = 0xF0 then 0x90 ≤ b && b ≤ 0xBF
  else if first = 0xF4 then 0x80 ≤ b && b ≤ 0x8F
  else isTail b

/-- What the bytes after the first byte of a character must satisfy; none when it is not the
first byte of a character. -/
def tailTests (first : UInt8) : Option (List (UInt8 → Bool)) :=
  if first < 0x80 then some []
  else if 0xC2 ≤ first && first ≤ 0xDF then some [isTail]
  else if 0xE0 ≤ first && first ≤ 0xEF then some [isSecond first, isTail]
  else if 0xF0 ≤ first && first ≤ 0xF4 then some [isSecond first, isTail, isTail]
  else none

/-- Whether bytes pass the tests of a character after `good` bytes of it, or how many bytes of it
are wrong. -/
def checkTail : List (UInt8 → Bool) → Nat → List UInt8 → Except (Option Nat) Unit
  | [], _, _ => .ok ()
  | _ :: _, _, [] => .error none
  | test :: tests, good, b :: bs => if test b then checkTail tests (good + 1) bs else .error good

/-- The first fault in bytes that begin at offset `n`; `skip` of them belong to a character that
was looked at. -/
def find? : Nat → Nat → List UInt8 → Option Utf8Fault
  | _, _, [] => none
  | n, skip + 1, _ :: rest => find? (n + 1) skip rest
  | n, 0, first :: rest =>
    match tailTests first with
    | none => some ⟨n, some 1⟩
    | some tests =>
      match checkTail tests 1 rest with
      | .ok () => find? (n + 1) tests.length rest
      | .error length => some ⟨n, length⟩

end Utf8Fault

def decodeUtf8 (bytes : ByteArray) : Except Utf8Fault String :=
  match String.fromUTF8? bytes with
  | some text => .ok text
  | none => .error ((Utf8Fault.find? 0 0 bytes.toList).getD ⟨0, none⟩)

/-- The characters that bytes are shown as, after `skip` of them: a replacement character stands
for every stretch that is not UTF-8. -/
def lossyFrom : Nat → List UInt8 → List Char
  | _, [] => []
  | skip + 1, _ :: rest => lossyFrom skip rest
  | 0, first :: rest =>
    match Utf8Fault.tailTests first with
    | none => '\uFFFD' :: lossyFrom 0 rest
    | some tests =>
      match Utf8Fault.checkTail tests 1 rest with
      | .ok () =>
        let char := String.fromUTF8? ⟨(first :: rest.take tests.length).toArray⟩
        (char.map String.toList).getD [] ++ lossyFrom tests.length rest
      | .error (some n) => '\uFFFD' :: lossyFrom (n - 1) rest
      | .error none => ['\uFFFD']

def lossy (bytes : List UInt8) : String :=
  String.ofList (lossyFrom 0 bytes)

end HandlerDocs.Text
