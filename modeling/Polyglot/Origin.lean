import Polyglot.Failure
import Polyglot.Text.Affix
import Polyglot.Text.Blank
import Polyglot.Text.Digit

/-!
# Origins of requests

A browser names the site that a request comes from. The service accepts the sites
that are configured and every site on the loopback interface, over either scheme and
with or without a port. Slashes at the end of an origin do not matter.

A loopback origin is a scheme, a loopback host and an optional port of one to five
decimal digits, with nothing before, between or behind them.
-/

set_option autoImplicit false

namespace Polyglot

/-- The sites that requests may come from. -/
structure OriginPolicy where
  /-- The configured origins, without slashes at the end. -/
  allowed : List String
  deriving DecidableEq, Repr

namespace OriginPolicy

/-- The policy that accepts the given origins and the loopback interface. -/
def ofList (origins : List String) : OriginPolicy :=
  ⟨origins.map Text.trimEndSlashes⟩

/-- The schemes of a loopback origin. -/
def schemes : List (List Char) :=
  ["http://".toList, "https://".toList]

/-- The hosts of a loopback origin. -/
def hosts : List (List Char) :=
  ["localhost".toList, "127.0.0.1".toList, "[::1]".toList]

/-- Whether some characters are nothing, or a colon and one to five decimal digits. -/
def isPort : List Char → Bool
  | [] => true
  | c :: digits =>
    c == ':' && 1 ≤ digits.length && digits.length ≤ 5 && digits.all Text.isDecimalDigit

/-- Whether some characters are one of the given beginnings and a rest that passes the test. -/
def follows (beginnings : List (List Char)) (test : List Char → Bool) (chars : List Char) : Bool :=
  beginnings.any fun beginning => match Text.behind? beginning chars with
    | some rest => test rest
    | none => false

/-- Whether an origin without slashes at the end lies on the loopback interface. -/
def isLoopback (origin : String) : Bool :=
  follows schemes (follows hosts isPort) origin.toList

/-- Whether an origin is accepted. -/
def accepts (policy : OriginPolicy) (origin : String) : Bool :=
  let bare := Text.trimEndSlashes origin
  isLoopback bare || policy.allowed.contains bare

/-- Accepts a declared origin or says why not; a missing origin is never accepted. -/
def check (policy : OriginPolicy) : Option String → Except Failure Unit
  | some origin =>
    if policy.accepts origin then .ok () else .error (.originNotAllowed origin)
  | none => .error (.originNotAllowed "<missing>")

end OriginPolicy

end Polyglot
