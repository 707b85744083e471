import Dialogue.Text.Hidden

/-! Strings as messages quote them: what is not shown as it is stands as an escape. -/

namespace Dialogue
namespace Text

/-- How a character stands between quotes. -/
def shown (c : Char) : List Char :=
  match c with
  | '"' => ['\\', '"']
  | '\\' => ['\\', '\\']
  | '\x00' => ['\\', '0']
  | '\x09' => ['\\', 't']
  | '\x0a' => ['\\', 'n']
  | '\x0d' => ['\\', 'r']
  | c =>
    if c.toNat < 0x20 ∨ c.toNat = 0x7F ∨ (0x7F < c.toNat ∧ isHidden c) then
      ['\\', 'u', '\x7b'] ++ Nat.toDigits 16 c.toNat ++ ['\x7d']
    else [c]

def quoted (s : String) : String := String.ofList ('"' :: s.toList.flatMap shown ++ ['"'])

end Text
end Dialogue
