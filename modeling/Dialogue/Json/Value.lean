import Dialogue.Decimal.Shortest

/-! JSON values and their text. A value is written on lines of their own for elements and members, two blanks a
    level; a number that is not finite has no JSON form and is written as `null`. -/

namespace Dialogue

inductive Json where
  | null
  | bool (value : Bool)
  | int (value : Int)
  | real (value : Float32)
  | string (value : String)
  | array (items : List Json)
  | object (members : List (String × Json))

namespace Json

/-- Reals are written positionally from a millionth up to a million millions, and whole ones keep their `.0`. -/
def singleLayout : Decimal.Layout where
  positional := some (-6, 12)
  pointZero := true
  tie := .toEven

def ofOption {α : Type} (f : α → Json) : Option α → Json
  | none => .null
  | some x => f x

/-! ### Text -/

def hexDigit (n : Nat) : Char := Char.ofNat (if n < 10 then 48 + n else 87 + n)

/-- How a character stands inside a string: quotes, backslashes and control characters are escaped. -/
def escape (c : Char) : List Char :=
  match c with
  | '"' => ['\\', '"']
  | '\\' => ['\\', '\\']
  | '\x08' => ['\\', 'b']
  | '\x09' => ['\\', 't']
  | '\x0a' => ['\\', 'n']
  | '\x0c' => ['\\', 'f']
  | '\x0d' => ['\\', 'r']
  | c =>
    if c.toNat < 32 then ['\\', 'u', '0', '0', hexDigit (c.toNat / 16), hexDigit (c.toNat % 16)] else [c]

def quoted (s : String) : List Char := '"' :: s.toList.flatMap escape ++ ['"']

def intChars (n : Int) : List Char :=
  if n < 0 then '-' :: Decimal.digitChars n.natAbs else Decimal.digitChars n.natAbs

def realChars (x : Float32) : List Char :=
  if x.isFinite then (singleLayout.single x).toList else ['n', 'u', 'l', 'l']

/-- A new line, indented. -/
def newline (level : Nat) : List Char := '\n' :: List.replicate (2 * level) ' '

mutual

/-- The text of a value whose first line is already indented to `level`. -/
def chars (level : Nat) : Json → List Char
  | .null => ['n', 'u', 'l', 'l']
  | .bool true => ['t', 'r', 'u', 'e']
  | .bool false => ['f', 'a', 'l', 's', 'e']
  | .int n => intChars n
  | .real x => realChars x
  | .string s => quoted s
  | .array [] => ['[', ']']
  | .array (item :: items) =>
    '[' :: newline (level + 1) ++ chars (level + 1) item ++ itemChars (level + 1) items ++ newline level ++ [']']
  | .object [] => ['{', '}']
  | .object (⟨name, value⟩ :: members) =>
    '{' :: newline (level + 1) ++ quoted name ++ [':', ' '] ++ chars (level + 1) value ++
      memberChars (level + 1) members ++ newline level ++ ['}']

def itemChars (level : Nat) : List Json → List Char
  | [] => []
  | item :: items => ',' :: newline level ++ chars level item ++ itemChars level items

def memberChars (level : Nat) : List (String × Json) → List Char
  | [] => []
  | ⟨name, value⟩ :: members =>
    ',' :: newline level ++ quoted name ++ [':', ' '] ++ chars level value ++ memberChars level members

end

/-- The text of a value. -/
def text (j : Json) : String := String.ofList (j.chars 0)

end Json
end Dialogue
