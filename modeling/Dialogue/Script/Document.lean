import Dialogue.Table
import Dialogue.Script.Block

/-! Scripts as they are written: files of topics, with the lists of actions nested in each other. -/

namespace Dialogue

/-- An actor as it is written, with its first parameters and commands. -/
structure Profile where
  id : String
  alias? : Option String
  parameters : Table Int32
  commands : Table Bool
  deriving DecidableEq

namespace Document

structure Topic where
  id : String
  block : Block

structure File where
  id : String
  topics : List Topic

end Document

structure Document where
  profiles : List Profile
  values : Table Int32
  gameCommands : Table Bool
  files : List Document.File

end Dialogue
