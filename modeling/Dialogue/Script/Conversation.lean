import Dialogue.Script.Encode

/-! Conversations: scripts that are ready to be played. Their lists of actions are numbered, and an action refers to
    the lists within it by their numbers. -/

namespace Dialogue

/-- The number of a list of actions. -/
structure ListId where
  index : Nat
  deriving DecidableEq

/-- The number of a topic. -/
structure TopicId where
  index : Nat
  deriving DecidableEq

structure Topic where
  file : String
  id : String
  root : ListId
  deriving DecidableEq

structure Conversation where
  topics : List Topic
  lists : Array (List (Action ListId))
  profiles : List Profile
  values : Table Int32
  gameCommands : Table Bool

/-! ### Names that a document gives -/

inductive Noun where
  | actor
  | file
  | topic
  deriving DecidableEq

/-- Something that is given a name. A topic is known by its name and that of its file. -/
inductive Entry where
  | actor (id : String)
  | file (id : String)
  | topic (file id : String)
  deriving DecidableEq

inductive LoadError where
  | emptyIdentifier (noun : Noun)
  | duplicateTopic (file topic : String)
  | duplicateActor (id : String)
  deriving DecidableEq

def Noun.text : Noun → String
  | .actor => "actor"
  | .file => "file"
  | .topic => "topic"

def LoadError.message : LoadError → String
  | .emptyIdentifier noun => "empty " ++ noun.text ++ " identifier"
  | .duplicateTopic file topic => "duplicate topic " ++ file ++ "/" ++ topic
  | .duplicateActor id => "duplicate actor id " ++ id

/-- What is wrong with an entry that comes after others. Files may share a name. -/
def Entry.fault? (earlier : List Entry) : Entry → Option LoadError
  | .actor id =>
    if id = "" then some (.emptyIdentifier .actor)
    else if .actor id ∈ earlier then some (.duplicateActor id)
    else none
  | .file id => if id = "" then some (.emptyIdentifier .file) else none
  | .topic home id =>
    if id = "" then some (.emptyIdentifier .topic)
    else if .topic home id ∈ earlier then some (.duplicateTopic home id)
    else none

/-- The fault of the first entry that has one. -/
def firstFault? (earlier : List Entry) : List Entry → Option LoadError
  | [] => none
  | e :: rest =>
    match e.fault? earlier with
    | some fault => some fault
    | none => firstFault? (e :: earlier) rest

/-! ### Loading -/

/-- Lists of actions by their numbers. -/
abbrev Arena := Array (List (Action ListId))

/-- Numbers the lists of a block, those within an action before the one that holds it. -/
def Block.intern (b : Block) : StateM Arena ListId :=
  b.fold fun actions => do
    let actions ← actions.mapM (Action.mapListsM id)
    modifyGet fun lists => (⟨lists.size⟩, lists.push actions)

namespace Document

/-- Everything that is given a name, in the order of the document. -/
def entries (d : Document) : List Entry :=
  d.profiles.map (fun p => .actor p.id) ++
    d.files.flatMap fun f => .file f.id :: f.topics.map fun t => .topic f.id t.id

/-- The topics of all files. -/
def topics (d : Document) : List (String × Topic) := d.files.flatMap fun f => f.topics.map fun t => (f.id, t)

def Topic.intern (file : String) (t : Topic) : StateM Arena Dialogue.Topic := do
  return { file, id := t.id, root := ← t.block.intern }

/-- Numbers the lists of all topics in their order. -/
def intern (d : Document) : StateM Arena (List Dialogue.Topic) := d.topics.mapM fun (file, t) => t.intern file

/-- Makes a document ready to be played, if its names are in order. -/
def load (d : Document) : Except LoadError Conversation :=
  match firstFault? [] d.entries with
  | some fault => .error fault
  | none =>
    let (topics, lists) := d.intern.run #[]
    .ok { topics, lists, profiles := d.profiles, values := d.values, gameCommands := d.gameCommands }

end Document

/-! ### Look-up -/

namespace Conversation

def topic? (c : Conversation) (t : TopicId) : Option Topic := c.topics[t.index]?

/-- The first topic of that name in the file, or in any file if none is named. -/
def findTopic? (c : Conversation) (file : Option String) (topic : String) : Option TopicId :=
  let inFile (t : Topic) : Bool := (file.filter (· ≠ "")).all (· == t.file)
  TopicId.mk <$> c.topics.findIdx? fun t => t.id == topic && inFile t

/-- A list by its number; an unknown one is empty. -/
def list (c : Conversation) (l : ListId) : List (Action ListId) := c.lists[l.index]?.getD []

def action? (c : Conversation) (l : ListId) (index : Nat) : Option (Action ListId) := (c.list l)[index]?

end Conversation

/-- A topic's name together with its file's. -/
def Topic.displayName (t : Topic) : String := t.file ++ "/" ++ t.id

/-! ### JSON -/

def ListId.json (l : ListId) : Json := .int l.index

/-- An action with the numbers of the lists within it. -/
def Action.numberedJson (a : Action ListId) : Json := (a.mapLists ListId.json).json

def Topic.json (t : Topic) : Json :=
  .object [("file", .string t.file), ("id", .string t.id), ("actions", t.root.json)]

def Conversation.json (c : Conversation) : Json :=
  .object [("topics", .array (c.topics.map Topic.json)),
    ("lists", .array (c.lists.toList.map fun actions => .array (actions.map Action.numberedJson))),
    ("actors", .array (c.profiles.map Profile.json)), ("variables", Json.ofTable Json.ofInt32 c.values),
    ("game_commands", Json.ofTable .bool c.gameCommands)]

end Dialogue
