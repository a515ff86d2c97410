import SearchQuery.Decimal.Digits

/-!
# UTF-8

Files hold bytes and the program works on texts. `Utf8.decode` reads bytes strictly: the shortest
form of each character only, no halves, nothing above U+10FFFF.

**Faults.** A fault is found at the first byte that rules the character out. The bad piece is the
lead byte and the bytes after it that could still have belonged to the character.
-/

namespace SearchQuery

namespace Utf8

inductive Reason where
  | start
  | continuation
  | ended
deriving DecidableEq, Repr

def Reason.text : Reason → Text
  | .start => "invalid start byte".text
  | .continuation => "invalid continuation byte".text
  | .ended => "unexpected end of data".text

/-- A piece of the bytes that is no character. -/
structure Fault where
  position : Nat
  lead : UInt8
  /-- How many bytes the bad piece has. -/
  length : Nat
  reason : Reason
deriving DecidableEq, Repr

def Fault.message (f : Fault) : Text :=
  "'utf-8' codec can't decode ".text
    ++ (if f.length ≤ 1 then
          "byte 0x".text ++ fixedHex 2 f.lead.toNat ++ " in position ".text
            ++ natural f.position
        else
          "bytes in position ".text ++ natural f.position ++ .char '-'
            :: natural (f.position + f.length - 1))
    ++ ": ".text ++ f.reason.text

/-- How a character goes on behind its lead byte: the bits that the lead byte gives, the least and
the greatest second byte, and the number of bytes after the second. -/
structure Lead where
  bits : Nat
  least : Nat
  greatest : Nat
  more : Nat

def leadOf? (b : UInt8) : Option Lead :=
  let n := b.toNat
  if 0xC2 ≤ n ∧ n ≤ 0xDF then some ⟨n - 0xC0, 0x80, 0xBF, 0⟩
  else if n = 0xE0 then some ⟨0, 0xA0, 0xBF, 1⟩
  else if n = 0xED then some ⟨0xD, 0x80, 0x9F, 1⟩
  else if 0xE1 ≤ n ∧ n ≤ 0xEF then some ⟨n - 0xE0, 0x80, 0xBF, 1⟩
  else if n = 0xF0 then some ⟨0, 0x90, 0xBF, 2⟩
  else if 0xF1 ≤ n ∧ n ≤ 0xF3 then some ⟨n - 0xF0, 0x80, 0xBF, 2⟩
  else if n = 0xF4 then some ⟨4, 0x80, 0x8F, 2⟩
  else none

/-- Where decoding stands: between characters, or inside one with the bits read so far, the range
of the next byte, the number of bytes owed after it, and the lead byte and length so far. -/
inductive State where
  | between
  | inside (bits least greatest more : Nat) (lead : UInt8) (length : Nat)

/-- Decodes bytes from a position on. -/
def decodeFrom : State → Nat → List UInt8 → Except Fault Text
  | .between, _, [] => .ok []
  | .inside _ _ _ _ lead length, position, [] => .error ⟨position - length, lead, length, .ended⟩
  | .between, position, b :: rest =>
    if b.toNat < 0x80 then
      match decodeFrom .between (position + 1) rest with
      | .ok t => .ok (.char (Char.ofNat b.toNat) :: t)
      | .error e => .error e
    else
      match leadOf? b with
      | none => .error ⟨position, b, 1, .start⟩
      | some l => decodeFrom (.inside l.bits l.least l.greatest l.more b 1) (position + 1) rest
  | .inside bits least greatest more lead length, position, b :: rest =>
    if least ≤ b.toNat ∧ b.toNat ≤ greatest then
      let bits := bits * 64 + (b.toNat - 0x80)
      match more with
      | 0 =>
        match decodeFrom .between (position + 1) rest with
        | .ok t => .ok (.char (Char.ofNat bits) :: t)
        | .error e => .error e
      | more + 1 =>
        decodeFrom (.inside bits 0x80 0xBF more lead (length + 1)) (position + 1) rest
    else .error ⟨position - length, lead, length, .continuation⟩

def decode (bytes : List UInt8) : Except Fault Text := decodeFrom .between 0 bytes

/-- The bytes of a text. A half has none of its own and takes those of the character that is shown
for it. -/
def encode (t : Text) : List UInt8 := t.flatMap fun c => String.utf8EncodeChar c.shown

end Utf8

/-- A text with every carriage return, and every line feed behind one, made one line feed. -/
def unifyNewlines : Text → Text
  | .char '\r' :: .char '\n' :: rest => .char '\n' :: unifyNewlines rest
  | .char '\r' :: rest => .char '\n' :: unifyNewlines rest
  | c :: rest => c :: unifyNewlines rest
  | [] => []

theorem unifyNewlines_of_not_mem {t : Text} (h : .char '\r' ∉ t) : unifyNewlines t = t := by
  fun_induction unifyNewlines t with
  | case1 rest ih => simp at h
  | case2 rest _ ih => simp at h
  | case3 c rest _ _ ih => rw [ih fun hc => h (List.mem_cons_of_mem c hc)]
  | case4 => rfl

end SearchQuery
