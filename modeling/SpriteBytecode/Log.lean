/-!
Messages that the library has to say about its work. Operations do not write them anywhere: they
return what happened as data, and a function beside each operation words it as log entries.
-/

set_option autoImplicit false
set_option relaxedAutoImplicit false

namespace SpriteBytecode.Log

inductive Level where
  | warn
  | debug
  | trace
  deriving DecidableEq

/-- Position in the order from the most to the least severe level. -/
def Level.rank : Level → Nat
  | .warn => 0
  | .debug => 1
  | .trace => 2

def Level.name : Level → String
  | .warn => "WARN"
  | .debug => "DEBUG"
  | .trace => "TRACE"

structure Entry where
  level : Level
  text : String
  deriving DecidableEq

def Entry.render (entry : Entry) : String := entry.level.name ++ " " ++ entry.text

/-- Entries at the threshold or more severe than it. -/
def visible (threshold : Level) (entries : List Entry) : List Entry :=
  entries.filter (·.level.rank ≤ threshold.rank)

end SpriteBytecode.Log
