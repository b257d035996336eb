import Polyglot.Host.Tool.Condition
import Polyglot.Host.Tool.Editor
import Polyglot.Host.Tool.Expression
import Polyglot.Host.Tool.Files
import Polyglot.Host.Tool.Lines
import Polyglot.Host.Tool.Printer

/-!
# The installed programs

Every installed program is known by its name.
-/

set_option autoImplicit false

namespace Polyglot.Host.Tool

/-- The programs of a machine with their names, apart from those that start other programs. -/
def installed : List (String × (Invocation → Action Exit)) :=
  [("cat", cat), ("tac", tac), ("nl", nl), ("rev", rev), ("tee", tee), ("head", endOf true),
   ("tail", endOf false), ("cut", cut), ("paste", paste), ("fold", fold), ("tr", tr), ("wc", wc),
   ("sort", sort), ("uniq", uniq), ("grep", grep), ("od", od), ("base64", base64),
   ("echo", echo), ("printf", printf), ("seq", seq), ("expr", expr), ("sleep", sleep),
   ("whoami", tell "root"), ("id", identity), ("uname", tell "Linux"), ("printenv", printenv),
   ("true", fun _ => .done fine), ("false", fun _ => .done (.status 1)),
   ("ls", ls), ("find", find), ("stat", stat), ("mkdir", mkdir), ("touch", touch), ("rm", rm),
   ("rmdir", rmdir), ("ln", ln), ("cp", transfer false), ("mv", transfer true), ("chmod", chmod),
   ("truncate", truncate), ("dd", dd), ("cmp", cmp), ("basename", basename), ("dirname", dirname),
   ("pwd", pwd), ("realpath", realpath), ("readlink", readlink), ("sed", sed),
   ("test", fun call => test (fun text => Action.complain (call.name ++ ": " ++ text)) call),
   ("[", fun call => test (fun text => Action.complain (call.name ++ ": " ++ text)) call)]

/-- The program with a name. -/
def byName? (name : String) : Option (Invocation → Action Exit) :=
  installed.lookup name

/-- The names of the programs. -/
def names : List String :=
  installed.map (·.1)

end Polyglot.Host.Tool
