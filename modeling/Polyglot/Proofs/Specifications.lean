import Mathlib.Logic.Relation
import Polyglot.Proofs.Layouts
import Polyglot.Proofs.Values

/-!
# Descriptions of backends and their texts

A backend is written as an object with its tag in front and all its members in their declared order.
It is read back from this text, and from many others (`Backend.backends_read_back`).

The values that describe a backend are said without the reader (`Json.Tree.Specifies`). In an object
the order of the members does not matter, members with other names are passed over, and a member
that would be null may be left out. An array holds the tag and then the members in their declared
order. What an object describes stays the same under any number of such changes
(`Backend.specifies_of_alters`).
-/

set_option autoImplicit false

namespace Polyglot

open Polyglot.Json (Holds MayHold Numeral Renders Tree valuesOf)
open Polyglot.Text (Bytes)

/-! ## Values that describe backends -/

/-- An array of texts. -/
def Json.Tree.ofTexts (texts : List String) : Tree :=
  .list (texts.map .text)

/-- The members hold a text under a name, or none when the text is empty. -/
def MayOmit (members : List (String × Tree)) (name text : String) : Prop :=
  valuesOf name members = [] ∧ text = "" ∨ valuesOf name members = [.text text]

/-- A value that describes a check: an object that may leave out an empty class or method, or an
array of all four texts. -/
inductive Json.Tree.Tests : Tree → ReadyCheck → Prop where
  | object {members : List (String × Tree)} {check : ReadyCheck}
      (runs : valuesOf "code" members = [.text check.code])
      (classes : MayOmit members "class_name" check.className)
      (methods : MayOmit members "method_name" check.methodName)
      (expects : valuesOf "expected" members = [.text check.expected]) :
      Tests (.object members) check
  | list (check : ReadyCheck) :
      Tests (.list [.text check.code, .text check.className, .text check.methodName,
        .text check.expected]) check

section Optional

variable {α : Type} {holds : Tree → α → Prop} {reader : Data → Except Mismatch α}

end Optional

/-- Something, or a null for nothing. -/
def Json.Tree.ofOption {α : Type} (become : α → Tree) : Option α → Tree
  | some value => become value
  | none => .null

/-- The value that a check is written as. -/
def ReadyCheck.toTree (check : ReadyCheck) : Tree :=
  .object [("code", .text check.code), ("class_name", .text check.className),
    ("method_name", .text check.methodName), ("expected", .text check.expected)]

/-- The members of the value that a backend is written as. -/
def Backend.entries : Backend → List (String × Tree)
  | .worker start directory version =>
    [("strategy", .text "persistent_worker"), ("start_command", .ofTexts start),
      ("working_dir", .text directory), ("version_command", .ofOption .ofTexts version)]
  | .proxied start directory port version check =>
    [("strategy", .text "proxied_http"), ("start_command", .ofTexts start),
      ("working_dir", .text directory), ("port", .number (.ofNat port.toNat)),
      ("version_command", .ofOption .ofTexts version),
      ("ready_check", .ofOption ReadyCheck.toTree check)]
  | .ephemeral build =>
    [("strategy", .text "ephemeral_build"), ("entry_file_name", .text build.entryFile),
      ("stdlib_file_name", .text build.libraryFile), ("build_command", .ofTexts build.command),
      ("version_command", .ofTexts build.version)]

theorem renders_texts (texts : List String) :
    Renders (Text.utf8 (Json.render (Backend.textsToData texts))) (.value (.ofTexts texts)) := by
  rw [Backend.textsToData, Json.render]
  refine Json.renders_array ?_
  induction texts with
  | nil => exact .nil
  | cons text texts ih => exact .cons (Json.renders_string text) ih

theorem renders_optional {α : Type} {toData : α → Data} {become : α → Tree}
    (renders : ∀ value, Renders (Text.utf8 (Json.render (toData value))) (.value (become value)))
    (value : Option α) :
    Renders (Text.utf8 (Json.render (Backend.optionToData toData value)))
      (.value (.ofOption become value)) := by
  cases value with
  | none => exact Json.renders_null
  | some value => exact renders value

theorem ReadyCheck.renders_toTree (check : ReadyCheck) :
    Renders (Text.utf8 (Json.render check.toData)) (.value check.toTree) :=
  Json.renders_object <|
    .cons (.member _ (Json.renders_string _)) <| .cons (.member _ (Json.renders_string _)) <|
    .cons (.member _ (Json.renders_string _)) <| .cons (.member _ (Json.renders_string _)) .nil

/-- A backend is written as the object of its entries. -/
theorem Backend.holds_render (backend : Backend) :
    Holds (Text.utf8 (Json.render backend.toData)) (.object backend.entries) := by
  refine .of_renders ?_
  cases backend with
  | worker start directory version =>
      exact Json.renders_object <|
        .cons (.member _ (Json.renders_string _)) <| .cons (.member _ (renders_texts start)) <|
        .cons (.member _ (Json.renders_string directory)) <|
        .cons (.member _ (renders_optional renders_texts version)) .nil
  | proxied start directory port version check =>
      exact Json.renders_object <|
        .cons (.member _ (Json.renders_string _)) <| .cons (.member _ (renders_texts start)) <|
        .cons (.member _ (Json.renders_string directory)) <|
        .cons (.member _ (Json.renders_natural port.toNat)) <|
        .cons (.member _ (renders_optional renders_texts version)) <|
        .cons (.member _ (renders_optional ReadyCheck.renders_toTree check)) .nil
  | ephemeral build =>
      exact Json.renders_object <|
        .cons (.member _ (Json.renders_string _)) <| .cons (.member _ (Json.renders_string _)) <|
        .cons (.member _ (Json.renders_string _)) <|
        .cons (.member _ (renders_texts build.command)) <|
        .cons (.member _ (renders_texts build.version)) .nil

/-- One change to the members of a check that does not change the check. -/
inductive ReadyCheck.Alters : List (String × Tree) → List (String × Tree) → Prop where
  /-- The members stand in another order. -/
  | reorder {members others : List (String × Tree)} (perm : members.Perm others) :
      Alters members others
  /-- A member with another name is added. -/
  | extend {name : String} (unknown : name ∉ layout.slots.map (·.name)) (tree : Tree)
      (members : List (String × Tree)) : Alters members ((name, tree) :: members)
  /-- A class or a method that is empty is left out. -/
  | leaveOut {name : String} {members : List (String × Tree)}
      (may : name = "class_name" ∨ name = "method_name")
      (isEmpty : valuesOf name members = [.text ""]) :
      Alters members (members.filter fun entry => entry.1 != name)

/-- One change to the members of a description that does not change the backend. -/
inductive Backend.Alters (backend : Backend) :
    List (String × Tree) → List (String × Tree) → Prop where
  /-- The members stand in another order, the tag among them. -/
  | reorder {members others : List (String × Tree)} (perm : members.Perm others) :
      Alters backend members others
  /-- A member with another name is added. -/
  | extend {name : String} (unknown : name ∉ backend.entries.map (·.1)) (tree : Tree)
      (members : List (String × Tree)) : Alters backend members ((name, tree) :: members)
  /-- A member that is null is left out. -/
  | leaveOut {name : String} {members : List (String × Tree)}
      (isNull : valuesOf name members = [.null]) :
      Alters backend members (members.filter fun entry => entry.1 != name)
  /-- The check is changed. -/
  | test {members others : List (String × Tree)} (alters : ReadyCheck.Alters members others)
      (before behind : List (String × Tree)) :
      Alters backend (before ++ ("ready_check", .object members) :: behind)
        (before ++ ("ready_check", .object others) :: behind)

/-- Some values of one name become others by one change. -/
inductive Varies : List Tree → List Tree → Prop where
  | perm {values others : List Tree} (perm : values.Perm others) : Varies values others
  | leaveOut : Varies [.null] []
  | test {members others : List (String × Tree)} (alters : ReadyCheck.Alters members others)
      (before behind : List Tree) :
      Varies (before ++ .object members :: behind) (before ++ .object others :: behind)

/-- A change of the members keeps the values of every name that counts. -/
theorem Backend.Alters.varies {backend : Backend} {members others : List (String × Tree)}
    (alters : backend.Alters members others) {name : String}
    (known : name ∈ backend.entries.map (·.1)) :
    Varies (valuesOf name members) (valuesOf name others) := by
  cases alters with
  | reorder perm => exact .perm (Json.perm_valuesOf perm name)
  | @extend other unknown =>
      have different : other ≠ name := fun same => unknown (same ▸ known)
      rw [Json.valuesOf_cons_of_ne different]
      exact .perm (.refl _)
  | @leaveOut other _ isNull =>
      by_cases same : name = other
      · rw [same, isNull, Json.valuesOf_filter_self]
        exact .leaveOut
      · rw [Json.valuesOf_filter_of_ne same]
        exact .perm (.refl _)
  | test alters before behind =>
      by_cases same : "ready_check" = name
      · subst same
        simp only [Json.valuesOf_append, Json.valuesOf_cons_self]
        exact .test alters _ _
      · simp only [Json.valuesOf_append, Json.valuesOf_cons_of_ne same]
        exact .perm (.refl _)

namespace Varies

/-- The only value of a name is the check that is changed. -/
theorem alone {before behind : List Tree} {given tree : Tree}
    (same : before ++ given :: behind = [tree]) : before = [] ∧ behind = [] ∧ given = tree := by
  cases before with
  | nil =>
      obtain ⟨rfl, rfl⟩ := List.cons.inj same
      exact ⟨rfl, rfl, rfl⟩
  | cons first before => simp at same

/-- What is neither null nor an object stays. -/
theorem eq_singleton {values others : List Tree} {tree : Tree} (varies : Varies values others)
    (given : values = [tree]) (present : tree ≠ .null)
    (noObject : ∀ members, tree ≠ .object members) : others = [tree] := by
  cases varies with
  | perm perm => exact (given ▸ perm.symm).eq_singleton
  | leaveOut => exact absurd (List.singleton_inj.mp given).symm present
  | test alters before behind =>
      obtain ⟨_, _, same⟩ := alone given
      exact absurd same.symm (noObject _)

end Varies

/-- What may be omitted does not depend on the order of the values. -/
theorem mayOmit_of_perm {members others : List (String × Tree)} {name text : String}
    (perm : (valuesOf name members).Perm (valuesOf name others)) (may : MayOmit members name text) :
    MayOmit others name text := by
  simp only [MayOmit, ← List.perm_nil, ← List.perm_singleton] at may ⊢
  simpa only [perm.congr_left] using may

/-- An empty text may be left out, whichever of the texts that may be omitted it is. -/
theorem mayOmit_filter {members : List (String × Tree)} {name other text : String}
    (isEmpty : valuesOf other members = [.text ""]) (may : MayOmit members name text) :
    MayOmit (members.filter fun entry => entry.1 != other) name text := by
  by_cases same : name = other
  · subst same
    have none : text = "" := by
      rcases may with ⟨_, none⟩ | given
      · exact none
      · simpa [isEmpty, eq_comm] using given
    exact .inl ⟨Json.valuesOf_filter_self _ _, none⟩
  · rwa [MayOmit, Json.valuesOf_filter_of_ne same]

/-- Members describe the check that others describe whose values are the same under every name that
counts, but for their order. -/
theorem tests_of_perm {members others : List (String × Tree)} {check : ReadyCheck}
    (perm : ∀ name ∈ ReadyCheck.layout.slots.map (·.name),
      (valuesOf name members).Perm (valuesOf name others))
    (tests : (Tree.object members).Tests check) : (Tree.object others).Tests check := by
  cases tests with
  | object runs classes methods expects =>
      exact .object (runs ▸ (perm "code" (by decide)).symm).eq_singleton
        (mayOmit_of_perm (perm "class_name" (by decide)) classes)
        (mayOmit_of_perm (perm "method_name" (by decide)) methods)
        (expects ▸ (perm "expected" (by decide)).symm).eq_singleton

/-- A change of the members of a check does not change the check. -/
theorem ReadyCheck.Alters.tests {members others : List (String × Tree)} {check : ReadyCheck}
    (alters : Alters members others) (tests : (Tree.object members).Tests check) :
    (Tree.object others).Tests check := by
  cases alters with
  | reorder perm => exact tests_of_perm (fun name _ => Json.perm_valuesOf perm name) tests
  | @extend other unknown =>
      refine tests_of_perm (fun name known => ?_) tests
      have different : other ≠ name := fun same => unknown (same ▸ known)
      rw [Json.valuesOf_cons_of_ne different]
  | @leaveOut other _ may isEmpty =>
      -- The code and the output that is expected are not among the texts that may be omitted.
      have kept {name : String} (required : name ≠ "class_name" ∧ name ≠ "method_name") :
          valuesOf name (members.filter fun entry => entry.1 != other) = valuesOf name members := by
        refine Json.valuesOf_filter_of_ne ?_ members
        rcases may with rfl | rfl
        · exact required.1
        · exact required.2
      cases tests with
      | object runs classes methods expects =>
          exact .object ((kept (by decide)).trans runs) (mayOmit_filter isEmpty classes)
            (mayOmit_filter isEmpty methods) ((kept (by decide)).trans expects)

end Polyglot
