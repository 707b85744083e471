import Dialogue.Decimal.Reading
import Dialogue.Player.Run
import Dialogue.Text.Blank

/-! The command line of the player: what may be said on it, and what is asked for. -/

namespace Dialogue

/-- What the player is asked to do. -/
structure Request where
  /-- The path of the conversation. -/
  conversation : String
  /-- The file that holds the topic; any, if absent. -/
  file : Option String
  topic : String
  limits : Limits
  /-- Whether commands are held until they are acknowledged. -/
  holdCommands : Bool
  /-- The path of the options of playback. -/
  options : Option String
  /-- Where the log is written. -/
  log : Option String
  /-- Whether every event is printed. -/
  verbose : Bool

namespace CommandLine

/-- Options that take a value. -/
inductive Setting where
  | conversation
  | file
  | topic
  | frameRate
  | maxSeconds
  | choices
  | options
  | log
  deriving DecidableEq

/-- Options that stand alone. -/
inductive Flag where
  | fastForward
  | holdCommands
  | verbose
  deriving DecidableEq

inductive Word where
  | setting (setting : Setting)
  | flag (flag : Flag)
  | help
  | version

/-- The options by their names. -/
def words : List (String × Word) := [
  ("conversation", .setting .conversation), ("file", .setting .file), ("topic", .setting .topic),
  ("frame-rate", .setting .frameRate), ("max-seconds", .setting .maxSeconds), ("choices", .setting .choices),
  ("options", .setting .options), ("event-log-json", .setting .log), ("fast-forward", .flag .fastForward),
  ("no-auto-advance", .flag .holdCommands), ("verbose", .flag .verbose), ("help", .help), ("version", .version)]

/-- How arguments break the rules. -/
inductive Misuse where
  | unexpected (arg : String)
  | repeated (option : String)
  | withoutValue (option : String)
  | badValue (option value : String)
  | needed (option : String)
  deriving DecidableEq

/-- Why there is nothing to play. -/
inductive Refusal where
  | misuse (misuse : Misuse)
  /-- A value makes no sense. -/
  | invalid (reason : String)
  | help
  | version
  deriving DecidableEq

def Misuse.message : Misuse → String
  | .unexpected arg => "unexpected argument '" ++ arg ++ "'"
  | .repeated option => "the argument '--" ++ option ++ "' cannot be used multiple times"
  | .withoutValue option => "a value is required for '--" ++ option ++ "' but none was supplied"
  | .badValue option value => "invalid value '" ++ value ++ "' for '--" ++ option ++ "'"
  | .needed option => "the required argument '--" ++ option ++ "' was not provided"

/-- What has been said so far; nothing may be said twice but choices, which add up. -/
structure Said where
  conversation : Option String := none
  file : Option String := none
  topic : Option String := none
  frameRate : Option Nat := none
  maxSeconds : Option Seconds := none
  choices : List Nat := []
  options : Option String := none
  log : Option String := none
  flags : List Flag := []

/-! ### Values -/

def path? (value : String) : Option String := if value = "" then none else some value

def choices? (value : String) : Option (List Nat) :=
  (value.toList.splitOn ',').mapM (Decimal.natBelow? UInt64.size)

/-- A value of the right form. -/
def wellFormed {α : Type} (option text : String) : Option α → Except Misuse α
  | some x => .ok x
  | none => .error (.badValue option text)

/-- A value of the right form that has not been said before. -/
def once {α : Type} (option text : String) (before value : Option α) : Except Misuse (Option α) :=
  if before.isSome then .error (.repeated option) else some <$> wellFormed option text value

namespace Said

/-- Takes the value of an option, which is named for messages. -/
def set (s : Said) (option text : String) : Setting → Except Misuse Said
  | .conversation => return { s with conversation := ← once option text s.conversation (path? text) }
  | .file => return { s with file := ← once option text s.file (some text) }
  | .topic => return { s with topic := ← once option text s.topic (some text) }
  | .frameRate =>
    return { s with frameRate := ← once option text s.frameRate (Decimal.intBelow? UInt32.size text.toList) }
  | .maxSeconds => return { s with maxSeconds := ← once option text s.maxSeconds (Decimal.single? text) }
  | .choices => return { s with choices := s.choices ++ (← wellFormed option text (choices? text)) }
  | .options => return { s with options := ← once option text s.options (path? text) }
  | .log => return { s with log := ← once option text s.log (path? text) }

def raise (s : Said) (option : String) (flag : Flag) : Except Misuse Said :=
  if flag ∈ s.flags then .error (.repeated option) else .ok { s with flags := flag :: s.flags }

/-! ### Arguments -/

/-- What an argument may be, by its first characters. -/
inductive Form where
  /-- Two dashes alone: options come no more. -/
  | separator
  | long (name : String) (value : Option String)
  | short (first : Char)
  | plain

def Form.of (arg : String) : Form :=
  match arg.toList with
  | '-' :: '-' :: [] => .separator
  | '-' :: '-' :: rest =>
    match rest.span (· ≠ '=') with
    | (name, '=' :: value) => .long (String.ofList name) (some (String.ofList value))
    | (name, _) => .long (String.ofList name) none
  | '-' :: c :: _ => .short c
  | _ => .plain

def misused {α : Type} : Except Misuse α → Except Refusal α
  | .ok x => .ok x
  | .error m => .error (.misuse m)

/-- Takes the arguments in their order. The value of an option may follow it as the next argument, unless that looks
    like an option. -/
def read (s : Said) : List String → Except Refusal Said
  | [] => .ok s
  | arg :: rest =>
    match Form.of arg with
    | .separator =>
      match rest with
      | [] => .ok s
      | next :: _ => .error (.misuse (.unexpected next))
    | .short 'h' => .error .help
    | .short 'V' => .error .version
    | .plain | .short _ => .error (.misuse (.unexpected arg))
    | .long name value =>
      match words.lookup name, value with
      | some (.setting setting), some value => do read (← misused (s.set name value setting)) rest
      | some (.setting setting), none =>
        match rest with
        | [] => .error (.misuse (.withoutValue name))
        | value :: rest =>
          match Form.of value with
          | .plain => do read (← misused (s.set name value setting)) rest
          | _ => .error (.misuse (.withoutValue name))
      | some (.flag flag), none => do read (← misused (s.raise name flag)) rest
      | some .help, none => .error .help
      | some .version, none => .error .version
      | _, _ => .error (.misuse (.unexpected arg))

/-! ### Requests -/

/-- What is asked for, once everything has been said. -/
def request (s : Said) : Except Refusal Request := do
  let some conversation := s.conversation | throw (.misuse (.needed "conversation"))
  let some topic := s.topic | throw (.misuse (.needed "topic"))
  let frameRate := s.frameRate.getD 30
  let maxSeconds := s.maxSeconds.getD 120
  if frameRate = 0 then throw (.invalid "--frame-rate must be positive")
  if !(0 < maxSeconds) then throw (.invalid ("--max-seconds must be positive (got " ++ maxSeconds.text ++ ")"))
  if topic.toList.all Text.isBlank then throw (.invalid "--topic must not be empty")
  return {
    conversation
    file := s.file.filter (· ≠ "")
    topic
    limits := { frameRate, maxSeconds, fastForward := .fastForward ∈ s.flags, choices := s.choices }
    holdCommands := .holdCommands ∈ s.flags
    options := s.options
    log := s.log
    verbose := .verbose ∈ s.flags }

end Said

/-- What the arguments ask for. -/
def parse (args : List String) : Except Refusal Request := do (← Said.read {} args).request

end CommandLine
end Dialogue
