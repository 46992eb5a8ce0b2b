/-
  Base64 with the standard alphabet. Reading skips characters outside the alphabet and stops at
  padding that completes a group; writing breaks lines after 76 characters.
-/

namespace Formwright.Text

def base64Alphabet : List Char :=
  "ABCDEFGHIJKLMNOPQRSTUVWXYZabcdefghijklmnopqrstuvwxyz0123456789+/".toList

/-- The value of a character of the alphabet. -/
def base64Value? (c : Char) : Option Nat := base64Alphabet.findIdx? (· == c)

/-- The character of a value below 64. -/
def base64Char (n : Nat) : Char := base64Alphabet.getD n '='

/-- Reads characters. `place` counts the characters of the current group, `left` holds the bits that
no byte has taken, `pads` counts padding since the last character of the alphabet. -/
def base64Bytes : List Char → Nat → Nat → Nat → Option (List UInt8)
  | [], place, _, _ => if place = 0 then some [] else none
  | c :: cs, place, left, pads =>
    if c = '=' then
      if 2 ≤ place ∧ 4 ≤ place + pads + 1 then some []
      else base64Bytes cs place left (if 2 ≤ place then pads + 1 else pads)
    else
      match base64Value? c with
      | none => base64Bytes cs place left pads
      | some v =>
        if place = 0 then base64Bytes cs 1 v 0
        else if place = 1 then (base64Bytes cs 2 (v % 16) 0).map (UInt8.ofNat (left * 4 + v / 16) :: ·)
        else if place = 2 then (base64Bytes cs 3 (v % 4) 0).map (UInt8.ofNat (left * 16 + v / 4) :: ·)
        else (base64Bytes cs 0 0 0).map (UInt8.ofNat (left * 64 + v) :: ·)

/-- The bytes that a Base64 text denotes; none when a group is incomplete. -/
def ofBase64? (s : String) : Option (List UInt8) := base64Bytes s.toList 0 0 0

/-- The characters of bytes, three bytes to a group. -/
def base64Chars : List UInt8 → List Char
  | a :: b :: c :: rest =>
    let n := a.toNat * 65536 + b.toNat * 256 + c.toNat
    base64Char (n / 262144) :: base64Char (n / 4096 % 64) :: base64Char (n / 64 % 64) ::
      base64Char (n % 64) :: base64Chars rest
  | [a, b] =>
    let n := a.toNat * 256 + b.toNat
    [base64Char (n / 1024), base64Char (n / 16 % 64), base64Char (n * 4 % 64), '=']
  | [a] => [base64Char (a.toNat / 4), base64Char (a.toNat * 16 % 64), '=', '=']
  | [] => []

/-- Lines of bytes, each with a line feed behind it. -/
def base64Lines : Nat → List UInt8 → String
  | 0, _ => ""
  | fuel + 1, bs =>
    if bs.isEmpty then ""
    else String.ofList (base64Chars (bs.take 57)) ++ "\n" ++ base64Lines fuel (bs.drop 57)

/-- The Base64 text of bytes. -/
def toBase64 (bs : List UInt8) : String := base64Lines (bs.length + 1) bs

example : toBase64 [104, 105] = "aGk=\n" ∧ ofBase64? "aG k=\n" = some [104, 105] := by decide +kernel

end Formwright.Text
