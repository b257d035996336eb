import Polyglot.Http.Status
import Polyglot.Text.Affix
import Polyglot.Text.Blank
import Polyglot.Text.Utf8

/-!
# HTTP requests and responses

A request names a target, which is a path, an address with a path, the host alone or a
star. Routes see the path exactly as it was sent, without what follows a question mark
or a number sign. The value of a header counts as text only if every byte of it is a
visible ASCII character, a space or a tab; of several headers with one name the first
one counts.
-/

set_option autoImplicit false

namespace Polyglot.Http

open Polyglot.Text (Bytes)

/-- A request. -/
structure Request where
  /-- The method, whose letters are told apart by case. -/
  method : String
  /-- The target as it was sent. -/
  target : String
  /-- The names and values of the headers, in order. -/
  headers : List (String × Bytes)
  /-- The body. -/
  body : Bytes
  deriving DecidableEq, Repr

/-- A response. -/
structure Response where
  /-- The status. -/
  status : Status
  /-- The names and values of the headers. -/
  headers : List (String × String)
  /-- The body. -/
  body : String
  deriving DecidableEq, Repr

/-! ## Targets -/

/-- Whether a character ends the path of a target. -/
def endsPath (c : Char) : Bool :=
  c == '?' || c == '#'

/-- Whether a character ends the host of a target. -/
def endsHost (c : Char) : Bool :=
  c == '/' || endsPath c

/-- What follows the scheme of a target, if it has one. -/
def afterScheme? (target : List Char) : Option (List Char) :=
  let scheme := target.takeWhile fun c => !endsHost c && c != ':'
  if scheme.isEmpty then none
  else Text.behind? [':', '/', '/'] (target.drop scheme.length)

/-- The path of a target. -/
def pathOf (target : String) : String :=
  let chars := target.toList
  let upToEnd (chars : List Char) : List Char := chars.takeWhile fun c => !endsPath c
  match chars with
  | '/' :: _ => String.ofList (upToEnd chars)
  | ['*'] => "*"
  | _ =>
    match afterScheme? chars with
    | none => ""
    | some rest =>
      match upToEnd (rest.dropWhile fun c => !endsHost c) with
      | [] => "/"
      | path => String.ofList path

/-! ## Headers -/

/-- Whether a byte of a header is a visible ASCII character, a space or a tab. -/
def isVisible (byte : UInt8) : Bool :=
  (32 ≤ byte && byte < 127) || byte == 9

/-- The text of the value of a header, if it is one. -/
def headerText? (value : Bytes) : Option String :=
  if value.all isVisible then some (String.ofList (value.map fun byte => Char.ofNat byte.toNat))
  else none

/-- The value of the first header with a name, which is given in lower case. -/
def Request.header? (request : Request) (name : String) : Option Bytes :=
  (request.headers.find? fun header => Text.lowerAscii header.1 == name).map (·.2)

/-- The number of bytes of a text, as it is written in a header. -/
def lengthText (body : String) : String :=
  toString (Text.utf8 body).length

end Polyglot.Http
