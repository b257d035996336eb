import Polyglot.Proofs.Trees

/-!
# Texts that are written

What is written for a text, a natural, an array or an object is a text of the value with the same
parts, without gaps and with the members in the order in which they are given
(`renders_array`, `renders_object`). Whatever reads every text of a value therefore reads what is
written for it.
-/

set_option autoImplicit false

namespace Polyglot.Json

open Polyglot.Text (Bytes)

/-- A text is written as a string. -/
theorem renders_string (value : String) :
    Renders (Text.utf8 (string value)) (.value (.text value)) := by
  obtain ⟨inside, shape, spelt⟩ := utf8_string value
  have renders := Renders.text spelt
  rwa [String.ofList_toList, ← shape] at renders

/-- A natural is written with its digits. -/
theorem renders_natural (n : Nat) :
    Renders (Text.utf8 (toString n)) (.value (.number (.ofNat n))) := by
  rw [← Numeral.spelling_ofNat]
  exact .number _

theorem renders_null : Renders (Text.utf8 "null") (.value .null) := by
  have letters : Text.utf8 "null" = 0x6E :: nullRest := by decide
  rw [letters]
  exact .null

/-- A member is written as its name, a colon and its value. -/
theorem renders_member (name : String) {value : String} {tree : Tree}
    (renders : Renders (Text.utf8 value) (.value tree)) :
    Renders (Text.utf8 (string name ++ ":" ++ value)) (.member name tree) := by
  obtain ⟨inside, shape, spelt⟩ := utf8_string name
  have member := Renders.member spelt isGap_nil isGap_nil renders
  have colon : Text.utf8 ":" = [0x3A] := by decide
  rw [String.ofList_toList] at member
  rw [Text.utf8_append, Text.utf8_append, shape, colon]
  simpa using member

/-- The values behind the first one are written behind commas. -/
theorem renders_items {items : List String} {trees : List Tree}
    (written : List.Forall₂ (fun item tree => Renders (Text.utf8 item) (.value tree)) items trees) :
    Renders (items.flatMap fun item => 0x2C :: Text.utf8 item) (.items trees) := by
  induction written with
  | nil => exact .lastItem isGap_nil
  | cons first _ ih =>
      have more := Renders.nextItem isGap_nil isGap_nil first ih
      rwa [List.nil_append, List.nil_append] at more

/-- **An array is written with its values in their order.** -/
theorem renders_array {items : List String} {trees : List Tree}
    (written : List.Forall₂ (fun item tree => Renders (Text.utf8 item) (.value tree)) items trees) :
    Renders (Text.utf8 (array items)) (.value (.list trees)) := by
  have opening : Text.utf8 "[" = [0x5B] := by decide
  have closing : Text.utf8 "]" = [0x5D] := by decide
  rw [array, Text.utf8_append, Text.utf8_append, opening, closing]
  cases written with
  | nil =>
      have none := Renders.emptyList isGap_nil
      rwa [List.nil_append] at none
  | cons first others =>
      have whole := Renders.list isGap_nil first (renders_items others)
      rw [List.nil_append, ← List.append_assoc] at whole
      rw [utf8_intercalate, List.singleton_append, List.cons_append]
      exact whole

/-- A member as it is written and as it is meant. -/
inductive Renders.Entry : String × String → String × Tree → Prop where
  | member (name : String) {value : String} {tree : Tree}
      (renders : Renders (Text.utf8 value) (.value tree)) : Entry (name, value) (name, tree)

theorem renders_members {members : List (String × String)} {entries : List (String × Tree)}
    (written : List.Forall₂ Renders.Entry members entries) :
    Renders ((members.map fun entry => string entry.1 ++ ":" ++ entry.2).flatMap
      fun text => 0x2C :: Text.utf8 text) (.members entries) := by
  induction written with
  | nil => exact .lastMember isGap_nil
  | cons first _ ih =>
      cases first with
      | member name value =>
          have more := Renders.nextMember isGap_nil isGap_nil (renders_member name value) ih
          rwa [List.nil_append, List.nil_append] at more

/-- **An object is written with its members in their order.** -/
theorem renders_object {members : List (String × String)} {entries : List (String × Tree)}
    (written : List.Forall₂ Renders.Entry members entries) :
    Renders (Text.utf8 (object members)) (.value (.object entries)) := by
  have opening : Text.utf8 "\x7b" = [0x7B] := by decide
  have closing : Text.utf8 "\x7d" = [0x7D] := by decide
  rw [object, Text.utf8_append, Text.utf8_append, opening, closing]
  cases written with
  | nil =>
      have none := Renders.emptyObject isGap_nil
      rwa [List.nil_append] at none
  | cons first others =>
      cases first with
      | member name value =>
          have whole :=
            Renders.object isGap_nil (renders_member name value) (renders_members others)
          rw [List.nil_append, ← List.append_assoc] at whole
          rw [List.map_cons, utf8_intercalate, List.singleton_append, List.cons_append]
          exact whole

end Polyglot.Json
