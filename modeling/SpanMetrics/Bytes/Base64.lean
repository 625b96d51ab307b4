import SpanMetrics.Bytes.Words

/-!
# Base64

Three bytes are four characters of six bits each, and a last group of one or two bytes is filled up
with padding. Reading takes exactly what writing produces: whole groups, padding only at the end,
no bits left over in the character before the padding, no other characters.
-/
namespace SpanMetrics.Bytes.Base64

/-- The characters by value. -/
def alphabet : List Char :=
  "ABCDEFGHIJKLMNOPQRSTUVWXYZabcdefghijklmnopqrstuvwxyz0123456789+/".toList

def digit (value : Nat) : Char := alphabet.getD value '='

def value? (c : Char) : Option Nat := alphabet.idxOf? c

def encode : Bytes → List Char
  | [] => []
  | [a] => [digit (a.toNat / 4), digit (a.toNat % 4 * 16), '=', '=']
  | [a, b] =>
    [digit (a.toNat / 4), digit (a.toNat % 4 * 16 + b.toNat / 16), digit (b.toNat % 16 * 4), '=']
  | a :: b :: c :: rest =>
    digit (a.toNat / 4) :: digit (a.toNat % 4 * 16 + b.toNat / 16) ::
      digit (b.toNat % 16 * 4 + c.toNat / 64) :: digit (c.toNat % 64) :: encode rest

/-- The bytes of one group. Padding stands for zero bits, and the bytes that consist of padding
alone are not there. -/
def group? (a b c d : Char) : Option Bytes := do
  let a ← value? a
  let b ← value? b
  if c = '=' ∧ d = '=' then
    if b % 16 = 0 then return [.ofNat (a * 4 + b / 16)] else none
  else
    let c ← value? c
    if d = '=' then
      if c % 4 = 0 then return [.ofNat (a * 4 + b / 16), .ofNat (b % 16 * 16 + c / 4)] else none
    else
      let d ← value? d
      return [.ofNat (a * 4 + b / 16), .ofNat (b % 16 * 16 + c / 4), .ofNat (c % 4 * 64 + d)]

def decode? : List Char → Option Bytes
  | [] => some []
  | a :: b :: c :: d :: rest => do
    let bytes ← group? a b c d
    if bytes.length < 3 ∧ rest ≠ [] then none
    else return bytes ++ (← decode? rest)
  | _ => none

end SpanMetrics.Bytes.Base64
