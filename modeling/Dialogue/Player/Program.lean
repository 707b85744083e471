import Dialogue.Player.CommandLine
import Dialogue.Player.Disk
import Dialogue.Player.Report
import Dialogue.Script.Decode

/-! The player as a program: it loads a conversation, plays a topic of it and reports. Where files come from is left
    open. -/

namespace Dialogue

/-! ### Failures -/

inductive FileError where
  | unusable (fault : DiskFault)
  | notText
  deriving DecidableEq

inductive ConversationError where
  | file (error : FileError)
  | text (error : Json.ReadError)
  | names (error : LoadError)

inductive OptionsFileError where
  | file (error : FileError)
  | options (error : OptionsError)

/-- Why the program has failed. -/
inductive Failure where
  | refused (reason : String)
  | conversation (path : String) (error : ConversationError)
  | options (path : String) (error : OptionsFileError)
  | unknownTopic (file : Option String) (topic : String)
  /-- Side lanes start each other without end. -/
  | endless
  | log (path : String) (error : FileError)

def FileError.message : FileError → String
  | .unusable fault => fault.message
  | .notText => "stream did not contain valid UTF-8"

namespace Failure

/-- What could not be done. -/
def message : Failure → String
  | .refused reason => reason
  | .conversation path _ => "loading conversation " ++ path
  | .options path _ => "loading playback options " ++ path
  | .unknownTopic (some file) topic => "topic " ++ file ++ "/" ++ topic ++ " not found"
  | .unknownTopic none topic => "topic " ++ topic ++ " not found"
  | .endless => "side lanes start each other without end"
  | .log path _ => "writing playback event log to " ++ path

/-- What has kept it from being done, the last cause at the end. -/
def causes : Failure → List String
  | .conversation path (.file e) => ["reading conversation " ++ path ++ ": " ++ e.message, e.message]
  | .conversation _ (.text e) => ["parsing conversation document: " ++ e.message, e.message]
  | .conversation _ (.names e) => [e.message]
  | .options path (.file e) => ["reading playback options " ++ path ++ ": " ++ e.message, e.message]
  | .options _ (.options (.unreadable e)) => [OptionsError.message (.unreadable e), e.message]
  | .options _ (.options e) => [e.message]
  | .log _ e => [e.message]
  | _ => []

/-- A text whose further lines are as far in as its first one. -/
def indented (first : String) (text : String) : String :=
  let margin := String.ofList (List.replicate first.length ' ')
  first ++ ("\n" ++ margin).intercalate (text.splitOn "\n")

/-- The failure and its causes, which are numbered if there are several. -/
def text (f : Failure) : String :=
  let causes := match f.causes with
    | [] => []
    | [cause] => ["", "Caused by:", indented "    " cause]
    | causes => ["", "Caused by:"] ++ causes.mapIdx fun i cause => indented ("    " ++ toString i ++ ": ") cause
  "Error: " ++ "\n".intercalate (f.message :: causes) ++ "\n"

end Failure

/-! ### Loading -/

/-- The text of a file that has been read. -/
def fileText : Except DiskFault ByteArray → Except FileError String
  | .error fault => .error (.unusable fault)
  | .ok bytes =>
    match String.fromUTF8? bytes with
    | some text => .ok text
    | none => .error .notText

/-- The conversation in a file that has been read. -/
def Conversation.ofFile (contents : Except DiskFault ByteArray) : Except ConversationError Conversation := do
  let text ← (fileText contents).mapError .file
  let document ← (Document.ofText text).mapError .text
  document.load.mapError .names

/-- The options in a file that has been read. -/
def Options.ofFile (contents : Except DiskFault ByteArray) : Except OptionsFileError Options := do
  let text ← (fileText contents).mapError .file
  (ofText text).mapError .options

namespace Request

/-- The session that is asked for, at its start, and the name of the topic. -/
def session (r : Request) (chance : Chance) (c : Conversation) (o : Options) : Except Failure (Session × String) :=
  match c.findTopic? r.file r.topic with
  | none => .error (.unknownTopic r.file r.topic)
  | some t =>
    let options := if r.holdCommands then { o with autoAdvance := false } else o
    let s := (Session.start c (.scripted chance) options).setTopic (some t)
    .ok ({ s with running := true }, ((c.topic? t).map Topic.displayName).getD r.topic)

variable {m : Type → Type} [Monad m]

/-- Loads what is asked for and plays it. Besides the report it is told whether the session is still running. -/
def play (r : Request) (disk : Disk m) (chance : Chance) : ExceptT Failure m (Report × Bool) := do
  let conversation ← disk.read r.conversation
  let c ← MonadExcept.ofExcept ((Conversation.ofFile conversation).mapError (.conversation r.conversation))
  let o ← match r.options with
    | none => pure {}
    | some path =>
      let options ← disk.read path
      MonadExcept.ofExcept ((Options.ofFile options).mapError (.options path))
  let (s, topic) ← MonadExcept.ofExcept (r.session chance c o)
  match s.run r.limits with
  | none => throw .endless
  | some run => return (run.report r.limits topic, run.session.running)

end Request

/-! ### The program -/

/-- What the program leaves behind, besides the files that it has written. -/
structure Outcome where
  code : Nat := 0
  output : String := ""
  errors : String := ""
  failure : Option Failure := none

def lines (texts : List String) : String := String.join (texts.map (· ++ "\n"))

namespace Outcome

/-- The outcome with a failure after what has been printed already. -/
def fail (o : Outcome) (f : Failure) : Outcome :=
  { o with code := 1, errors := o.errors ++ f.text, failure := some f }

end Outcome

namespace Report

/-- What is printed about a run. -/
def output (r : Report) (running verbose : Bool) : String :=
  lines ((if verbose then r.events.map eventLine else []) ++ r.info.map ("info: " ++ ·) ++ [r.summary running])

/-- What is printed as a warning, if the topic has not been played to its end. -/
def warnings (r : Report) (running : Bool) (maxSeconds : Seconds) : String :=
  let about := "[colloquy_player] warning: "
  if running then lines [about ++ "playback still running after " ++ maxSeconds.text ++ "s"]
  else if r.completed then ""
  else lines [about ++ "playback stopped before the end of the topic"]

end Report

namespace Program

def usage : String := lines [
  "Headless player that steps a conversation topic frame by frame", "",
  "Usage: colloquy_player [OPTIONS] --conversation <PATH> --topic <TOPIC>", "",
  "Options:",
  "  --conversation <PATH>    Conversation document (JSON)",
  "  --file <FILE>            File id holding the topic; any file when omitted",
  "  --topic <TOPIC>          Topic id to play",
  "  --frame-rate <N>         Simulated frames per second [default: 30]",
  "  --max-seconds <SECONDS>  Stop stepping after this many simulated seconds [default: 120]",
  "  --fast-forward           Skip through actor speech instead of waiting it out",
  "  --no-auto-advance        Hold command actions until the player acknowledges them",
  "  --choices <N,...>        Option indices picked at successive player choices",
  "  --options <PATH>         Playback options JSON",
  "  --event-log-json <PATH>  Path to write the playback event log as JSON",
  "  --verbose                Print every playback event",
  "  -h, --help               Print help",
  "  -V, --version            Print version"]

def refuse : CommandLine.Refusal → Outcome
  | .misuse m => { code := 2, errors := lines ["error: " ++ m.message] }
  | .invalid reason => Outcome.fail {} (.refused reason)
  | .help => { output := usage }
  | .version => { output := lines ["colloquy_player 0.1.0"] }

variable {m : Type → Type} [Monad m]

/-- Does what is asked for. -/
def execute (disk : Disk m) (chance : Chance) (r : Request) : m Outcome := do
  match ← (r.play disk chance).run with
  | .error f => return Outcome.fail {} f
  | .ok (report, running) =>
    let o : Outcome := {
      output := report.output running r.verbose
      errors := report.warnings running r.limits.maxSeconds }
    match r.log with
    | none => return o
    | some path =>
      match ← disk.write path report.json.text with
      | .error fault => return o.fail (.log path (.unusable fault))
      | .ok _ => return { o with output := o.output ++ lines ["Saved playback event log to " ++ path] }

/-- Runs the program with its arguments. -/
def run (disk : Disk m) (chance : Chance) (args : List String) : m Outcome :=
  match CommandLine.parse args with
  | .error refusal => return refuse refusal
  | .ok r => execute disk chance r

end Program
end Dialogue
