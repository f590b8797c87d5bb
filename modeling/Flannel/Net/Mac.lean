import Flannel.Text.Numeral
import Mathlib.Data.BitVec

/-!
# Hardware addresses

`net.HardwareAddr` with its text, and `net.ParseMAC`: six, eight or twenty bytes in
hexadecimal, one or two bytes to a group.
-/

namespace Flannel.Net

open Text

abbrev HardwareAddr := List (BitVec 8)

def HardwareAddr.string (hw : HardwareAddr) : List Char :=
  [':'].intercalate (hw.map fun byte =>
    [(byte.toNat / 16).digitChar, (byte.toNat % 16).digitChar])

def hexBytes : List Char → Option (List (BitVec 8))
  | [] => some []
  | [_] => none
  | high :: low :: rest =>
    if isHex high && isHex low then
      (hexBytes rest).map (BitVec.ofNat 8 (numeral 16 [high, low]) :: ·)
    else none

def hexGroups (separator : Char) (digits : Nat) (text : List Char) : Option (List (BitVec 8)) := do
  let groups ← (text.splitOn separator).mapM fun group =>
    if group.length = digits then hexBytes group else none
  some groups.flatten

def parseMAC (text : List Char) : Option HardwareAddr := do
  let hw ←
    match text[2]?, text[4]? with
    | some ':', _ => hexGroups ':' 2 text
    | some '-', _ => hexGroups '-' 2 text
    | _, some '.' => hexGroups '.' 4 text
    | _, _ => none
  if hw.length = 6 ∨ hw.length = 8 ∨ hw.length = 20 then some hw else none

example : parseMAC "c6:d2:32:6f:8f:44".toList =
    some [0xc6#8, 0xd2#8, 0x32#8, 0x6f#8, 0x8f#8, 0x44#8] := by
  decide

end Flannel.Net
