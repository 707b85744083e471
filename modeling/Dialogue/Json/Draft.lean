import Dialogue.Json.Numeral

/-! Texts as far as they can be read. The draft of a text is the value it writes, with its faults left standing
    where they are met, so that what is read before a fault can still be judged first. A fault may depend on the
    way a value is passed: a number out of range or half of a surrogate pair spoils a value that is read, while a
    value that is skipped only has to be well formed. -/

namespace Dialogue
namespace Json

/-- What can be wrong with a text. -/
inductive Fault where
  /-- It ends too early. -/
  | endOfText
  /-- It is no JSON. -/
  | malformed
  deriving Repr, DecidableEq

/-- A fault at one place of a text, to one who reads the value there and to one who skips it. -/
structure Flaw where
  read : Fault
  skip : Option Fault
  deriving Repr, DecidableEq

namespace Flaw

def endOfText : Flaw := ⟨.endOfText, some .endOfText⟩

def malformed : Flaw := ⟨.malformed, some .malformed⟩

/-- The text ends inside a number: one who skips it only sees a number that is not complete. -/
def cutNumber : Flaw := ⟨.endOfText, some .malformed⟩

end Flaw

/-- A value as far as it can be read. The rest of an array or object after its last element is faulty if it has a
    `tail`, and properly closed otherwise. -/
inductive Draft where
  | null
  | bool (value : Bool)
  | number (value : Number)
  | string (value : String)
  | array (items : List Draft) (tail : Option Flaw)
  | object (members : List (Except Fault String × Draft)) (tail : Option Flaw)
  | flawed (flaw : Flaw)

namespace Draft

/-! ### Parts of a text, each with the text after it -/

abbrev Rest := List Char

def dropBlanks (cs : List Char) : Rest :=
  cs.dropWhile fun c => c = ' ' || c = '\t' || c = '\n' || c = '\r'

/-- The text after the given letters. -/
def letters : List Char → List Char → Except Fault Rest
  | [], cs => .ok cs
  | _ :: _, [] => .error .endOfText
  | e :: es, c :: cs => if e = c then letters es cs else .error .malformed

def digit? (c : Char) : Option Nat := if c.isDigit then some (c.toNat - 48) else none

def digits : List Char → List Nat × Rest
  | [] => ([], [])
  | c :: cs =>
    match digit? c with
    | some d => let (ds, rest) := digits cs; (d :: ds, rest)
    | none => ([], c :: cs)

/-- Digits of which there is at least one. -/
def someDigits (cs : List Char) : Except Flaw (List Nat × Rest) :=
  match digits cs with
  | ([], []) => .error .cutNumber
  | ([], _ :: _) => .error .malformed
  | found => .ok found

/-- A whole number is zero or starts with another digit. -/
def wholePart (cs : List Char) : Except Flaw (List Nat × Rest) :=
  match cs with
  | '0' :: c :: rest => if c.isDigit then .error .malformed else .ok ([0], c :: rest)
  | cs => someDigits cs

def fractionPart (cs : List Char) : Except Flaw (Option (List Nat) × Rest) :=
  match cs with
  | '.' :: rest => (someDigits rest).map fun (ds, rest) => (some ds, rest)
  | cs => .ok (none, cs)

def exponentPart (cs : List Char) : Except Flaw (Option (Bool × List Nat) × Rest) :=
  let signed (cs : List Char) := match cs with
    | '-' :: rest => (someDigits rest).map fun (ds, rest) => (some (true, ds), rest)
    | '+' :: rest => (someDigits rest).map fun (ds, rest) => (some (false, ds), rest)
    | rest => (someDigits rest).map fun (ds, rest) => (some (false, ds), rest)
  match cs with
  | 'e' :: rest => signed rest
  | 'E' :: rest => signed rest
  | cs => .ok (none, cs)

/-- A number after its sign. -/
def numeral (negative : Bool) (cs : List Char) : Except Flaw (Numeral × Rest) := do
  let (whole, rest) ← wholePart cs
  let (fraction, rest) ← fractionPart rest
  let (exponent, rest) ← exponentPart rest
  return ({ negative, whole, fraction, exponent }, rest)

/-- What a string is written with: characters, and 16-bit units written in hexadecimal. -/
inductive Piece where
  | char (c : Char)
  | unit (n : Nat)
  deriving Repr, DecidableEq

def hexValue? (c : Char) : Option Nat :=
  if c.isDigit then some (c.toNat - 48)
  else if 'a' ≤ c ∧ c ≤ 'f' then some (c.toNat - 87)
  else if 'A' ≤ c ∧ c ≤ 'F' then some (c.toNat - 55)
  else none

def unit? (a b c d : Char) : Option Nat := do
  let a ← hexValue? a
  let b ← hexValue? b
  let c ← hexValue? c
  let d ← hexValue? d
  return ((a * 16 + b) * 16 + c) * 16 + d

def escaped? : Char → Option Char
  | '"' => some '"'
  | '\\' => some '\\'
  | '/' => some '/'
  | 'b' => some '\x08'
  | 'f' => some '\x0c'
  | 'n' => some '\n'
  | 'r' => some '\r'
  | 't' => some '\t'
  | _ => none

/-- A unit takes four bytes; a text with fewer bytes left has ended. -/
def cutUnit (cs : List Char) : Fault :=
  if cs.foldl (fun n c => n + c.utf8Size) 0 < 4 then .endOfText else .malformed

/-- The pieces of a string up to its closing quote, and the text after it. -/
def pieces : List Char → List Piece × Except Fault Rest
  | [] => ([], .error .endOfText)
  | '"' :: rest => ([], .ok rest)
  | ['\\'] => ([], .error .endOfText)
  | '\\' :: 'u' :: a :: b :: c :: d :: rest =>
    match unit? a b c d with
    | some n => let (ps, rest) := pieces rest; (.unit n :: ps, rest)
    | none => ([], .error .malformed)
  | '\\' :: 'u' :: rest => ([], .error (cutUnit rest))
  | '\\' :: e :: rest =>
    match escaped? e with
    | some c => let (ps, rest) := pieces rest; (.char c :: ps, rest)
    | none => ([], .error .malformed)
  | c :: rest =>
    if c.toNat < 32 then ([], .error .malformed)
    else let (ps, rest) := pieces rest; (.char c :: ps, rest)

def isHighSurrogate (n : Nat) : Bool := 0xD800 ≤ n && n < 0xDC00

def isLowSurrogate (n : Nat) : Bool := 0xDC00 ≤ n && n < 0xE000

/-- The character of a pair of surrogates. -/
def paired (high low : Nat) : Char := Char.ofNat (0x10000 + (high - 0xD800) * 0x400 + (low - 0xDC00))

/-- The characters that pieces stand for. Surrogates come in pairs; `ending` is the fault after the last piece. -/
def characters (ending : Option Fault) : List Piece → Except Fault (List Char)
  | [] =>
    match ending with
    | none => .ok []
    | some fault => .error fault
  | .char c :: ps => (characters ending ps).map (c :: ·)
  | .unit n :: ps =>
    if isLowSurrogate n then .error .malformed
    else if isHighSurrogate n then
      match ps with
      | [] => .error (ending.getD .malformed)
      | .char _ :: _ => .error .malformed
      | .unit m :: ps =>
        if isLowSurrogate m then (characters ending ps).map (paired n m :: ·) else .error .malformed
    else (characters ending ps).map (Char.ofNat n :: ·)

/-- A string after its opening quote: what it says, and the text after it or the fault that ends it. -/
def stringPart (cs : List Char) : Except Fault String × Except Fault Rest :=
  let (ps, rest) := pieces cs
  let ending := match rest with
    | .ok _ => none
    | .error fault => some fault
  ((characters ending ps).map String.ofList, rest)

/-! ### Values -/

def ofNumeral : Except Flaw (Numeral × Rest) → Draft × Option Rest
  | .error flaw => (.flawed flaw, none)
  | .ok (n, rest) =>
    match n.value? with
    | some value => (.number value, some rest)
    | none => (.flawed ⟨.malformed, none⟩, some rest)

def ofLetters (value : Draft) : Except Fault Rest → Draft × Option Rest
  | .error fault => (.flawed ⟨fault, some fault⟩, none)
  | .ok rest => (value, some rest)

def ofString : Except Fault String × Except Fault Rest → Draft × Option Rest
  | (.ok s, .ok rest) => (.string s, some rest)
  | (.error fault, .ok rest) => (.flawed ⟨fault, none⟩, some rest)
  | (.ok _, .error fault) => (.flawed ⟨fault, some fault⟩, none)
  | (.error read, .error skip) => (.flawed ⟨read, some skip⟩, none)

mutual

/-- The value at the head of a text, and the text after it where it can be read on. -/
def value : Nat → List Char → Draft × Option Rest
  | 0, _ => (.flawed .malformed, none)
  | fuel + 1, cs =>
    match dropBlanks cs with
    | [] => (.flawed .endOfText, none)
    | 'n' :: rest => ofLetters .null (letters ['u', 'l', 'l'] rest)
    | 't' :: rest => ofLetters (.bool true) (letters ['r', 'u', 'e'] rest)
    | 'f' :: rest => ofLetters (.bool false) (letters ['a', 'l', 's', 'e'] rest)
    | '"' :: rest => ofString (stringPart rest)
    | '-' :: rest => ofNumeral (numeral true rest)
    | '[' :: rest =>
      match dropBlanks rest with
      | [] => (.array [] (some .endOfText), none)
      | ']' :: rest => (.array [] none, some rest)
      | rest =>
        let (found, tail, rest) := items fuel rest
        (.array found tail, rest)
    | '{' :: rest =>
      match dropBlanks rest with
      | '}' :: rest => (.object [] none, some rest)
      | rest =>
        let (found, tail, rest) := members fuel rest
        (.object found tail, rest)
    | c :: rest => if c.isDigit then ofNumeral (numeral false (c :: rest)) else (.flawed .malformed, none)

/-- Elements from one that has to stand here to the closing bracket. -/
def items : Nat → List Char → List Draft × Option Flaw × Option Rest
  | 0, _ => ([], some .malformed, none)
  | fuel + 1, cs =>
    match value fuel cs with
    | (item, none) => ([item], none, none)
    | (item, some rest) =>
      match dropBlanks rest with
      | [] => ([item], some .endOfText, none)
      | ']' :: rest => ([item], none, some rest)
      | ',' :: rest =>
        let (found, tail, rest) := items fuel rest
        (item :: found, tail, rest)
      | _ => ([item], some .malformed, none)

/-- Members from one that has to stand here to the closing brace. -/
def members : Nat → List Char → List (Except Fault String × Draft) × Option Flaw × Option Rest
  | 0, _ => ([], some .malformed, none)
  | fuel + 1, cs =>
    match dropBlanks cs with
    | [] => ([], some .endOfText, none)
    | '"' :: rest =>
      match stringPart rest with
      | (.ok _, .error fault) => ([], some ⟨fault, some fault⟩, none)
      | (.error read, .error skip) => ([], some ⟨read, some skip⟩, none)
      | (name, .ok rest) =>
        match dropBlanks rest with
        | [] => ([(name, .flawed .endOfText)], none, none)
        | ':' :: rest =>
          match value fuel rest with
          | (item, none) => ([(name, item)], none, none)
          | (item, some rest) =>
            match dropBlanks rest with
            | [] => ([(name, item)], some .endOfText, none)
            | '}' :: rest => ([(name, item)], none, some rest)
            | ',' :: rest =>
              let (found, tail, rest) := members fuel rest
              ((name, item) :: found, tail, rest)
            | _ => ([(name, item)], some .malformed, none)
        | _ => ([(name, .flawed .malformed)], none, none)
    | _ => ([], some .malformed, none)

end

/-- The draft of a text, and whether only blanks come after it. Every second step takes at least one character. -/
def ofText (text : String) : Draft × Bool :=
  let cs := text.toList
  match value (2 * cs.length + 2) cs with
  | (draft, none) => (draft, true)
  | (draft, some rest) => (draft, (dropBlanks rest).isEmpty)

/-! ### Passing over a draft -/

mutual

/-- Passes over a value without reading it: only its form counts. -/
def skip : Draft → Except Fault Unit
  | .null | .bool _ | .number _ | .string _ => .ok ()
  | .array items tail => do skipItems items; skipTail tail
  | .object members tail => do skipMembers members; skipTail tail
  | .flawed flaw => skipTail (some flaw)

def skipItems : List Draft → Except Fault Unit
  | [] => .ok ()
  | item :: items => do skip item; skipItems items

def skipMembers : List (Except Fault String × Draft) → Except Fault Unit
  | [] => .ok ()
  | ⟨_, value⟩ :: members => do skip value; skipMembers members

def skipTail : Option Flaw → Except Fault Unit
  | some ⟨_, some fault⟩ => .error fault
  | _ => .ok ()

end

/-- The rest of an array or object, to one who reads it. -/
def close : Option Flaw → Except Fault Unit
  | none => .ok ()
  | some flaw => .error flaw.read

mutual

/-- Reads a value whole, nested at most `levels` deep. -/
def check : Nat → Draft → Except Fault Unit
  | _, .null | _, .bool _ | _, .number _ | _, .string _ => .ok ()
  | 0, .array _ _ => .error .malformed
  | levels + 1, .array items tail => do checkItems levels items; close tail
  | 0, .object _ _ => .error .malformed
  | levels + 1, .object members tail => do checkMembers levels members; close tail
  | _, .flawed flaw => .error flaw.read

def checkItems (levels : Nat) : List Draft → Except Fault Unit
  | [] => .ok ()
  | item :: items => do check levels item; checkItems levels items

def checkMembers (levels : Nat) : List (Except Fault String × Draft) → Except Fault Unit
  | [] => .ok ()
  | ⟨name, value⟩ :: members => do
    let _ ← name
    check levels value
    checkMembers levels members

end

end Draft
end Json
end Dialogue
