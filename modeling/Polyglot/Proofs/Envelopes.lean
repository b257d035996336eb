import Polyglot.Envelope
import Polyglot.Proofs.Messages
import Polyglot.Proofs.Ranges
import Polyglot.Proofs.Replies
import Polyglot.Proofs.Values

/-!
# Envelopes and their texts

An envelope is written as an object that has a member for a field exactly when the field is present
(`Envelope.dataOf_render`), and it is read back from the text (`Envelope.read_render`).
The only condition is that the duration fits 64 bits, and every envelope that is read meets it, so
whatever is read can be written and read again, and nothing changes any more
(`Envelope.envelopes_read_back`).

The values that hold an envelope are said without the reader (`Json.Tree.Encloses`).
-/

set_option autoImplicit false

namespace Polyglot

open Polyglot.Json (Datum Fault Holds IsGap MayHold Numeral Renders Shape Tree valuesOf)
open Polyglot.Text (Bytes)

/-! ## Values that hold envelopes -/

/-- A value that holds an envelope: an object with the version of the service, in which each of the
other members that count may be left out or null, or an array of all five values. -/
inductive Json.Tree.Encloses : Tree → Envelope → Prop where
  | object {members : List (String × Tree)} {envelope : Envelope}
      (result : Says members "result" envelope.result)
      (exception : Says members "exceptionText" envelope.exception)
      (errorCode : Says members "errorCode" envelope.errorCode)
      (elapsed : MayHold Tree.IsNatural members "elapsedMs" envelope.elapsedMs)
      (version : valuesOf "serviceVersion" members = [.text envelope.serviceVersion]) :
      Encloses (.object members) envelope
  | list {elapsed : Tree} {envelope : Envelope}
      (counts : elapsed.Maybe Tree.IsNatural envelope.elapsedMs) :
      Encloses (.list [Tree.ofText? envelope.result, Tree.ofText? envelope.exception,
        Tree.ofText? envelope.errorCode, elapsed, .text envelope.serviceVersion]) envelope

/-- What is a natural or nothing is what a field for it takes. -/
theorem maybe_isNatural_iff {tree : Tree} {count : Option Nat} :
    tree.Maybe Tree.IsNatural count ↔ ∃ datum, Shape.optionalNatural.take tree = some datum ∧
      Datum.natural? (some datum) = count := by
  constructor
  · rintro (_ | ⟨⟨natural⟩⟩)
    · exact ⟨.absent, rfl, rfl⟩
    · exact ⟨.natural _, by rw [Shape.take, natural]; rfl, rfl⟩
  · rintro ⟨datum, takes, rfl⟩
    cases tree with
    | null =>
        obtain rfl := Option.some.inj takes
        exact .null
    | number numeral =>
        obtain ⟨count, natural, rfl⟩ := Option.map_eq_some_iff.mp takes
        exact .value (.number natural)
    | _ => cases takes

/-- What the members count is what a field for it takes of them. -/
theorem mayHold_isNatural_iff {members : List (String × Tree)} {name : String}
    {count : Option Nat} : MayHold Tree.IsNatural members name count ↔ ∃ cell,
      Shape.optionalNatural.takeOne (valuesOf name members) = some cell ∧
        Datum.natural? cell = count := by
  simp only [MayHold, maybe_isNatural_iff]
  rcases valuesOf name members with _ | ⟨tree, _ | ⟨other, more⟩⟩
  · simp [Shape.takeOne, Datum.natural?, eq_comm]
  · simp [Shape.takeOne]
  · simp [Shape.takeOne]

/-- What is said under a name does not depend on the order of the values. -/
theorem says_congr {members others : List (String × Tree)} {name : String}
    (perm : (valuesOf name members).Perm (valuesOf name others)) {text : Option String} :
    Says members name text ↔ Says others name text := by
  simp only [Says, ← List.perm_nil, ← List.perm_singleton, perm.congr_left]

namespace Envelope

theorem encloses_object_iff {members : List (String × Tree)} {envelope : Envelope} :
    (Tree.object members).Encloses envelope ↔
      Says members "result" envelope.result ∧ Says members "exceptionText" envelope.exception ∧
      Says members "errorCode" envelope.errorCode ∧
      MayHold Tree.IsNatural members "elapsedMs" envelope.elapsedMs ∧
      valuesOf "serviceVersion" members = [.text envelope.serviceVersion] := by
  constructor
  · rintro (⟨result, exception, errorCode, elapsed, version⟩ | _)
    exact ⟨result, exception, errorCode, elapsed, version⟩
  · rintro ⟨result, exception, errorCode, elapsed, version⟩
    exact .object result exception errorCode elapsed version

theorem apart_schema : (schema.fields.map (·.name)).Nodup := by decide

/-- An object is read as an envelope when it holds the envelope. -/
theorem read_object_iff_encloses {members : List (String × Tree)} {bytes front behind : Bytes}
    (renders : Renders bytes (.value (.object members))) (isGapFront : IsGap front)
    (isGapBehind : IsGap behind) {envelope : Envelope} :
    read (front ++ bytes ++ behind) = .ok envelope ↔ (Tree.object members).Encloses envelope := by
  simp only [read, Json.map_eq_ok_iff,
    Json.Schema.read_object_iff apart_schema renders isGapFront isGapBehind]
  constructor
  · rintro ⟨row, ⟨_ | ⟨result, _ | ⟨exception, _ | ⟨errorCode, _ | ⟨elapsed, _ | ⟨version,
      _ | _⟩⟩⟩⟩⟩, whole⟩, rfl⟩
    obtain ⟨given, values, rfl⟩ := Shape.takes_text.takeOne_eq_some_iff.mp version
    cases given with
    | none => cases whole
    | some given =>
        exact .object (says_iff.mpr ⟨_, result, rfl⟩) (says_iff.mpr ⟨_, exception, rfl⟩)
          (says_iff.mpr ⟨_, errorCode, rfl⟩) (mayHold_isNatural_iff.mpr ⟨_, elapsed, rfl⟩) values
  · intro encloses
    cases encloses with
    | object result exception errorCode elapsed version =>
        obtain ⟨_, takesResult, sameResult⟩ := says_iff.mp result
        obtain ⟨_, takesException, sameException⟩ := says_iff.mp exception
        obtain ⟨_, takesCode, sameCode⟩ := says_iff.mp errorCode
        obtain ⟨_, takesElapsed, sameElapsed⟩ := mayHold_isNatural_iff.mp elapsed
        have takesVersion := Shape.takes_text.takeOne_eq_some_iff.mpr
          ⟨some envelope.serviceVersion, version, rfl⟩
        refine ⟨_, ⟨.cons takesResult <| .cons takesException <| .cons takesCode <|
          .cons takesElapsed <| .cons takesVersion .nil, rfl⟩, ?_⟩
        rw [ofRow, sameResult, sameException, sameCode, sameElapsed]
        rfl

/-- An array is read as an envelope when it holds the envelope. -/
theorem read_list_iff_encloses {trees : List Tree} {bytes front behind : Bytes}
    (renders : Renders bytes (.value (.list trees))) (isGapFront : IsGap front)
    (isGapBehind : IsGap behind) {envelope : Envelope} :
    read (front ++ bytes ++ behind) = .ok envelope ↔ (Tree.list trees).Encloses envelope := by
  simp only [read, Json.map_eq_ok_iff, Json.Schema.read_list_iff isGapBehind renders isGapFront]
  constructor
  · rintro ⟨row, lined, rfl⟩
    obtain ⟨_, _, _, _, rfl, result, behindResult, rfl⟩ :=
      (Json.lineUp_cons_eq_some_iff rfl).mp lined
    obtain ⟨_, _, _, _, rfl, exception, behindException, rfl⟩ :=
      (Json.lineUp_cons_eq_some_iff rfl).mp behindResult
    obtain ⟨_, _, _, _, rfl, errorCode, behindCode, rfl⟩ :=
      (Json.lineUp_cons_eq_some_iff rfl).mp behindException
    obtain ⟨_, _, _, _, rfl, elapsed, behindElapsed, rfl⟩ :=
      (Json.lineUp_cons_eq_some_iff rfl).mp behindCode
    obtain ⟨_, _, _, _, rfl, version, behindVersion, rfl⟩ :=
      (Json.lineUp_cons_eq_some_iff rfl).mp behindElapsed
    obtain ⟨rfl, rfl⟩ := Json.lineUp_no_fields_eq_some_iff.mp behindVersion
    obtain ⟨output, rfl, rfl⟩ := (Shape.takes_optionalText _ _).mp result
    obtain ⟨message, rfl, rfl⟩ := (Shape.takes_optionalText _ _).mp exception
    obtain ⟨code, rfl, rfl⟩ := (Shape.takes_optionalText _ _).mp errorCode
    obtain ⟨given, rfl, rfl⟩ := (Shape.takes_text _ _).mp version
    simp only [ofRow, Datum.text?_ofText?]
    exact @Tree.Encloses.list _ ⟨output, message, code, _, given⟩
      (maybe_isNatural_iff.mpr ⟨_, elapsed, rfl⟩)
  · intro encloses
    cases encloses with
    | list counts =>
        obtain ⟨elapsed, takes, same⟩ := maybe_isNatural_iff.mp counts
        have text (value : Option String) :=
          (Shape.takes_optionalText (.ofText? value) (.ofText? value)).mpr ⟨value, rfl, rfl⟩
        refine ⟨[some (.ofText? envelope.result), some (.ofText? envelope.exception),
          some (.ofText? envelope.errorCode), some elapsed, some (.text envelope.serviceVersion)],
          ?_, ?_⟩
        · exact (Json.lineUp_cons_eq_some_iff rfl).mpr ⟨_, _, _, _, rfl, text _,
            (Json.lineUp_cons_eq_some_iff rfl).mpr ⟨_, _, _, _, rfl, text _,
            (Json.lineUp_cons_eq_some_iff rfl).mpr ⟨_, _, _, _, rfl, text _,
            (Json.lineUp_cons_eq_some_iff rfl).mpr ⟨_, _, _, _, rfl, takes,
            (Json.lineUp_cons_eq_some_iff rfl).mpr ⟨_, _, _, _, rfl, rfl, rfl, rfl⟩, rfl⟩, rfl⟩,
            rfl⟩, rfl⟩
        · simp only [ofRow, Datum.text?_ofText?, same]
          rfl

/-- **A value is read as an envelope exactly when it holds the envelope**, however it is
written. -/
theorem read_iff_encloses {tree : Tree} {text : Bytes} (holds : Holds text tree)
    {envelope : Envelope} : read text = .ok envelope ↔ tree.Encloses envelope := by
  obtain ⟨front, bytes, behind, isGapFront, renders, isGapBehind, rfl⟩ := holds
  cases tree with
  | list trees => exact read_list_iff_encloses renders isGapFront isGapBehind
  | object members => exact read_object_iff_encloses renders isGapFront isGapBehind
  | _ =>
      refine iff_of_false (fun readable => ?_) nofun
      obtain ⟨row, done, _⟩ := Json.map_eq_ok_iff.mp readable
      exact Json.Schema.read_other renders nofun nofun isGapFront row done

/-! ## Envelopes as they are written -/

/-- An envelope whose duration fits 64 bits. -/
def Fits (envelope : Envelope) : Prop :=
  ∀ elapsed, envelope.elapsedMs = some elapsed → elapsed ≤ Json.significandLimit

/-- The members of the value that an envelope is written as. -/
def entries (envelope : Envelope) : List (String × Tree) :=
  let optional (name : String) (value : Option String) : List (String × Tree) :=
    value.toList.map fun text => (name, .text text)
  optional "result" envelope.result ++ optional "exceptionText" envelope.exception ++
    optional "errorCode" envelope.errorCode ++
    (envelope.elapsedMs.toList.map fun elapsed => ("elapsedMs", .number (.ofNat elapsed))) ++
    [("serviceVersion", .text envelope.serviceVersion)]

/-- An envelope is written as the object of its entries. -/
theorem holds_render (envelope : Envelope) :
    Holds (Text.utf8 envelope.render) (.object envelope.entries) := by
  refine .of_renders (Json.renders_object ?_)
  have text (name : String) (value : Option String) :
      List.Forall₂ Renders.Entry (value.toList.map fun text => (name, Json.string text))
        (value.toList.map fun text => (name, Tree.text text)) := by
    cases value with
    | none => exact .nil
    | some value => exact .cons (.member name (Json.renders_string value)) .nil
  have natural (elapsedMs : Option Nat) :
      List.Forall₂ Renders.Entry
        (elapsedMs.toList.map fun elapsed => ("elapsedMs", toString elapsed))
        (elapsedMs.toList.map fun elapsed => ("elapsedMs", Tree.number (.ofNat elapsed))) := by
    cases elapsedMs with
    | none => exact .nil
    | some elapsed => exact .cons (.member _ (Json.renders_natural elapsed)) .nil
  exact List.rel_append (List.rel_append (List.rel_append (List.rel_append (text _ _) (text _ _))
    (text _ _)) (natural _)) (.cons (.member _ (Json.renders_string _)) .nil)

/-- A table with a member for each field that is present, and with no others. -/
structure Shows (envelope : Envelope) (table : List (String × Data)) : Prop where
  result : Table.find? "result" table = envelope.result.map .text
  exception : Table.find? "exceptionText" table = envelope.exception.map .text
  errorCode : Table.find? "errorCode" table = envelope.errorCode.map .text
  elapsed : Table.find? "elapsedMs" table = envelope.elapsedMs.map fun elapsed => .integer elapsed
  version : Table.find? "serviceVersion" table = some (.text envelope.serviceVersion)
  others : ∀ name, name ∉ schema.fields.map (·.name) → Table.find? name table = none

/-- The values of the entries that stand for an optional field. -/
theorem valuesOf_optional {α : Type} (name other : String) (value : Option α) (tree : α → Tree) :
    valuesOf name (value.toList.map fun given => (other, tree given)) =
      if other = name then value.toList.map tree else [] := by
  cases value with
  | none => simp [valuesOf]
  | some given =>
      by_cases same : other = name
      · simp [valuesOf, same]
      · simp [valuesOf, same]

theorem valuesOf_entries (envelope : Envelope) (name : String) :
    valuesOf name envelope.entries =
      (if "result" = name then envelope.result.toList.map Tree.text else []) ++
      (if "exceptionText" = name then envelope.exception.toList.map Tree.text else []) ++
      (if "errorCode" = name then envelope.errorCode.toList.map Tree.text else []) ++
      (if "elapsedMs" = name then
        envelope.elapsedMs.toList.map fun elapsed => Tree.number (.ofNat elapsed) else []) ++
      (if "serviceVersion" = name then [Tree.text envelope.serviceVersion] else []) := by
  have version : [("serviceVersion", Tree.text envelope.serviceVersion)] =
      (some envelope.serviceVersion).toList.map fun given => ("serviceVersion", .text given) := rfl
  rw [entries, version]
  simp only [Json.valuesOf_append, valuesOf_optional]
  rfl

/-- **What the text of an envelope shows** is the fields that are present. -/
theorem dataOf_render {envelope : Envelope} (fits : envelope.Fits) : ∃ table,
    Json.dataOf (Text.utf8 envelope.render) = .ok (.table table) ∧ envelope.Shows table := by
  have numbers (elapsed : Nat) (given : envelope.elapsedMs = some elapsed) :=
    Numeral.isFinite_of_natural? (Numeral.natural?_ofNat (fits elapsed given))
  have modest : (Tree.object envelope.entries).Modest 127 := by
    refine .object fun entry member => ?_
    simp only [entries, List.mem_append, List.mem_map, Option.mem_toList, List.mem_singleton]
      at member
    rcases member with (((⟨_, _, rfl⟩ | ⟨_, _, rfl⟩) | ⟨_, _, rfl⟩) | ⟨elapsed, given, rfl⟩) | rfl
    · exact .text _ _
    · exact .text _ _
    · exact .text _ _
    · exact .number _ (numbers elapsed given).2
    · exact .text _ _
  refine ⟨_, envelope.holds_render.dataOf modest, ?_⟩
  have found := fun name => Json.find?_dataOfMembers name envelope.entries
  simp only [valuesOf_entries] at found
  have one {α : Type} (tree : α → Tree) (value : Option α) :
      (value.toList.map tree).getLast? = value.map tree := by
    cases value <;> rfl
  constructor
  case result => simp [found, one, Tree.toData, Function.comp_def]
  case exception => simp [found, one, Tree.toData, Function.comp_def]
  case errorCode => simp [found, one, Tree.toData, Function.comp_def]
  case elapsed =>
    rw [found]
    simp only [String.reduceEq, if_false, if_true, List.nil_append, List.append_nil, one]
    cases given : envelope.elapsedMs with
    | none => rfl
    | some elapsed => simp [Tree.toData, (numbers elapsed given).1, Json.Number.toData]
  case version => simp [found, Tree.toData]
  case others =>
    intro name unknown
    simp only [schema, List.map_cons, List.map_nil, List.mem_cons, List.not_mem_nil, or_false,
      not_or, ← ne_eq] at unknown
    obtain ⟨result, exception, errorCode, elapsed, version⟩ := unknown
    simp [found, result.symm, exception.symm, errorCode.symm, elapsed.symm, version.symm]

/-! ## Round trips -/

/-- Only envelopes whose duration fits are read. -/
theorem fits_of_read {text : Bytes} {envelope : Envelope} (readable : read text = .ok envelope) :
    envelope.Fits := by
  obtain ⟨row, done, rfl⟩ := Json.map_eq_ok_iff.mp readable
  have fits := Json.Schema.fits_of_read done
  intro count given
  match row, fits with
  | [result, exception, errorCode, elapsed, version], fits =>
      refine fits elapsed (by simp) count ?_
      match elapsed, given with
      | some (.natural value), given => rw [← Option.some.inj given]

/-- A text of an envelope, written anew. -/
def rewrite (text : Bytes) : Except Fault Bytes :=
  (read text).map fun envelope => Text.utf8 envelope.render

theorem rewrite_of_read {text : Bytes} {envelope : Envelope} (readable : read text = .ok envelope) :
    rewrite text = .ok (Text.utf8 envelope.render) := by
  rw [rewrite, readable]
  rfl

/-- Which envelope an object holds depends neither on the order of its members nor on those that do
not count. -/
theorem encloses_iff_of_perm {members others : List (String × Tree)}
    (same : (members.filter fun member => schema.knows member.1).Perm
      (others.filter fun member => schema.knows member.1)) {envelope : Envelope} :
    (Tree.object members).Encloses envelope ↔ (Tree.object others).Encloses envelope := by
  have perm {name : String} (known : schema.knows name = true) :=
    Json.perm_valuesOf_of_filter same known
  have result := @perm "result" (by decide)
  have exception := @perm "exceptionText" (by decide)
  have errorCode := @perm "errorCode" (by decide)
  have elapsed := @perm "elapsedMs" (by decide)
  have version := @perm "serviceVersion" (by decide)
  simp only [encloses_object_iff, says_congr result, says_congr exception, says_congr errorCode,
    Json.mayHold_congr elapsed, ← List.perm_singleton, version.congr_left]

/-- Exactly one of a result and the text of an exception; the code of an error comes with the text
and the duration with the result. -/
def IsOneSided (table : List (String × Data)) : Prop :=
  let has (name : String) : Bool := (Table.find? name table).isSome
  has "exceptionText" = !has "result" ∧ has "errorCode" = has "exceptionText" ∧
    has "elapsedMs" = has "result"

theorem Shows.isOneSided_iff {envelope : Envelope} {table : List (String × Data)}
    (shows : envelope.Shows table) : IsOneSided table ↔
      envelope.exception.isSome = !envelope.result.isSome ∧
      envelope.errorCode.isSome = envelope.exception.isSome ∧
      envelope.elapsedMs.isSome = envelope.result.isSome := by
  simp only [IsOneSided, shows.result, shows.exception, shows.errorCode, shows.elapsed,
    Option.isSome_map]

/-- **Envelopes are read back from their texts.** A text shows exactly the fields that are present,
and the envelope that is read from it is the same. What is read from any other text is an envelope
of this kind, so writing it anew gives a text that is written anew as itself, and it is a success
or not as before. Which value holds which envelope does not depend on the order of the members or
on members with other names. A success shows a result and a duration and a failure the text and
the code of an error. -/
theorem envelopes_read_back :
    (∀ envelope : Envelope, envelope.Fits →
      read (Text.utf8 envelope.render) = .ok envelope ∧
      ∃ table, Json.dataOf (Text.utf8 envelope.render) = .ok (.table table) ∧
        envelope.Shows table) ∧
    (∀ text envelope, read text = .ok envelope → envelope.Fits ∧
      ∃ again, rewrite text = .ok again ∧ rewrite again = .ok again ∧
        (read again).map isSuccess = .ok envelope.isSuccess) ∧
    (∀ text tree, Holds text tree → ∀ envelope,
      read text = .ok envelope ↔ tree.Encloses envelope) ∧
    (∀ members others : List (String × Tree),
      (members.filter fun member => schema.knows member.1).Perm
        (others.filter fun member => schema.knows member.1) →
      ∀ envelope,
        (Tree.object members).Encloses envelope ↔ (Tree.object others).Encloses envelope) ∧
    (∀ result elapsed version, elapsed ≤ Json.significandLimit → ∃ table,
      Json.dataOf (Text.utf8 (success result elapsed version).render) = .ok (.table table) ∧
        IsOneSided table) ∧
    ∀ reason version, ∃ table,
      Json.dataOf (Text.utf8 (failure reason version).render) = .ok (.table table) ∧
        IsOneSided table := by
  refine ⟨fun envelope fits => ⟨read_render envelope fits, dataOf_render fits⟩, ?_,
    fun text tree holds envelope => read_iff_encloses holds,
    fun members others same envelope => encloses_iff_of_perm same, ?_, ?_⟩
  · intro text envelope readable
    have fits := fits_of_read readable
    have back := read_render envelope fits
    refine ⟨fits, _, rewrite_of_read readable, rewrite_of_read back, ?_⟩
    rw [back]
    rfl
  · intro result elapsed version least
    obtain ⟨table, shown, shows⟩ := @dataOf_render (success result elapsed version) fun _ same =>
      Option.some.inj same ▸ least
    exact ⟨table, shown, shows.isOneSided_iff.mpr ⟨rfl, rfl, rfl⟩⟩
  · intro reason version
    obtain ⟨table, shown, shows⟩ := @dataOf_render (failure reason version) nofun
    exact ⟨table, shown, shows.isOneSided_iff.mpr ⟨rfl, rfl, rfl⟩⟩

/-- A text with a member that is null, one that means nothing and the version in front is written
anew with the version and the result alone. -/
theorem envelopes_read_back_reordered :
    let text := Text.utf8 <| Json.object [("serviceVersion", Json.string "1"), ("note", "null"),
      ("exceptionText", "null"), ("result", Json.string "out")]
    let again := Text.utf8 <| Json.object [("result", Json.string "out"),
      ("serviceVersion", Json.string "1")]
    rewrite text = .ok again ∧ rewrite again = .ok again := by
  intro text again
  obtain ⟨_, rewritten, holding, _⟩ := envelopes_read_back
  have holds : Holds text (.object [("serviceVersion", .text "1"), ("note", .null),
      ("exceptionText", .null), ("result", .text "out")]) :=
    .of_renders <| Json.renders_object <|
      .cons (.member _ (Json.renders_string "1")) <| .cons (.member _ Json.renders_null) <|
      .cons (.member _ Json.renders_null) <| .cons (.member _ (Json.renders_string "out")) .nil
  have readable : read text = .ok ⟨some "out", none, none, none, "1"⟩ :=
    (holding text _ holds _).mpr <|
      .object (.inr rfl) (.inr rfl) (.inl ⟨rfl, rfl⟩) (.inl ⟨rfl, rfl⟩) rfl
  have written := rewrite_of_read readable
  obtain ⟨_, other, first, second, _⟩ := rewritten text _ readable
  obtain rfl := Except.ok.inj (written.symm.trans first)
  exact ⟨written, second⟩

end Envelope

end Polyglot
