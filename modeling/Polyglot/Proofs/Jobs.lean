import Polyglot.Job
import Polyglot.Proofs.Forms

/-!
# What jobs are read from

A job is read from a value, and every text of the value is as good as any other
(`Job.read_iff_describes`). The values that describe jobs are said without the reader
(`Json.Tree.Describes`): an object describes a job when each of its members that count comes
once and is a text, and an array when it has the texts of the fields in their order. Null is not
the same as nothing: a member with a name that counts and with the value null describes no job.
-/

set_option autoImplicit false

namespace Polyglot

open Polyglot.Json (Datum Holds IsGap Renders Shape Spells SpellsUnit Tree isGap_nil valuesOf)
open Polyglot.Text (Bytes)

/-- A value that describes a job: an object whose members have the texts of the job, where the
last three may be left out, or an array of two to five texts in the order of the fields. What is
left out is empty. -/
inductive Json.Tree.Describes : Tree → Job → Prop where
  | object {members : List (String × Tree)} {language code : String}
      {library entryClass entryMethod : Option String}
      (languages : valuesOf "lang" members = [.text language])
      (codes : valuesOf "code" members = [.text code])
      (libraries : valuesOf "stdlibCode" members = library.toList.map .text)
      (entryClasses : valuesOf "className" members = entryClass.toList.map .text)
      (entryMethods : valuesOf "methodName" members = entryMethod.toList.map .text) :
      Describes (.object members)
        ⟨language, code, library.getD "", entryClass.getD "", entryMethod.getD ""⟩
  | list {language code : String} {others : List String} (short : others.length ≤ 3) :
      Describes (.list ((language :: code :: others).map .text))
        ⟨language, code, others[0]?.getD "", others[1]?.getD "", others[2]?.getD ""⟩

namespace Job

theorem texts_schema : ∀ field ∈ schema.fields, field.shape = .text := by decide

theorem apart_schema : (schema.fields.map (·.name)).Nodup := by decide

theorem read_eq_ok_iff {text : Bytes} {job : Job} :
    read text = .ok job ↔ ∃ row, schema.read text = .ok row ∧ ofRow row = job := Json.map_eq_ok_iff

/-- What is taken of members into the fields: at most one text for every field. -/
theorem forall₂_takeOne_iff {members : List (String × Tree)} {row : Json.Row} :
    List.Forall₂ (fun field cell => field.shape.takeOne (valuesOf field.name members) = some cell)
      schema.fields row ↔
    ∃ language code library entryClass entryMethod : Option String,
      valuesOf "lang" members = language.toList.map .text ∧
      valuesOf "code" members = code.toList.map .text ∧
      valuesOf "stdlibCode" members = library.toList.map .text ∧
      valuesOf "className" members = entryClass.toList.map .text ∧
      valuesOf "methodName" members = entryMethod.toList.map .text ∧
      row = [language.map .text, code.map .text, library.map .text, entryClass.map .text,
        entryMethod.map .text] := by
  simp only [schema, List.forall₂_cons_left_iff, List.forall₂_nil_left_iff,
    Shape.takes_text.takeOne_eq_some_iff]
  constructor
  · rintro ⟨_, _, ⟨language, languages, rfl⟩, ⟨_, _, ⟨code, codes, rfl⟩, ⟨_, _,
      ⟨library, libraries, rfl⟩, ⟨_, _, ⟨entryClass, entryClasses, rfl⟩, ⟨_, _,
      ⟨entryMethod, entryMethods, rfl⟩, rfl, rfl⟩, rfl⟩, rfl⟩, rfl⟩, rfl⟩
    exact ⟨language, code, library, entryClass, entryMethod, languages, codes, libraries,
      entryClasses, entryMethods, rfl⟩
  · rintro ⟨language, code, library, entryClass, entryMethod, languages, codes, libraries,
      entryClasses, entryMethods, rfl⟩
    exact ⟨_, _, ⟨language, languages, rfl⟩, ⟨_, _, ⟨code, codes, rfl⟩, ⟨_, _,
      ⟨library, libraries, rfl⟩, ⟨_, _, ⟨entryClass, entryClasses, rfl⟩, ⟨_, _,
      ⟨entryMethod, entryMethods, rfl⟩, rfl, rfl⟩, rfl⟩, rfl⟩, rfl⟩, rfl⟩

/-- An object is read as a job when its members describe the job. -/
theorem read_object_iff_describes {members : List (String × Tree)} {bytes front behind : Bytes}
    (renders : Renders bytes (.value (.object members))) (isGapFront : IsGap front)
    (isGapBehind : IsGap behind) {job : Job} :
    read (front ++ bytes ++ behind) = .ok job ↔ (Tree.object members).Describes job := by
  simp only [read_eq_ok_iff, forall₂_takeOne_iff,
    Json.Schema.read_object_iff apart_schema renders isGapFront isGapBehind]
  constructor
  · rintro ⟨_, ⟨⟨language, code, library, entryClass, entryMethod, languages, codes, libraries,
      entryClasses, entryMethods, rfl⟩, whole⟩, rfl⟩
    cases language with
    | none => cases whole
    | some language =>
        cases code with
        | none => cases whole
        | some code =>
            have described := Tree.Describes.object languages codes libraries entryClasses
              entryMethods
            cases library <;> cases entryClass <;> cases entryMethod <;> exact described
  · intro described
    cases described with
    | @object _ language code library entryClass entryMethod languages codes libraries entryClasses
        entryMethods =>
        refine ⟨_, ⟨⟨some language, some code, library, entryClass, entryMethod, languages, codes,
          libraries, entryClasses, entryMethods, rfl⟩, rfl⟩, ?_⟩
        cases library <;> cases entryClass <;> cases entryMethod <;> rfl

/-- The job of two texts and up to three others. -/
theorem ofRow_texts (language code : String) {others : List String} (short : others.length ≤ 3) :
    ofRow ((language :: code :: others).map (some ∘ .text) ++
        List.replicate (5 - (language :: code :: others).length) none) =
      ⟨language, code, others[0]?.getD "", others[1]?.getD "", others[2]?.getD ""⟩ := by
  match others, short with
  | [], _ => rfl
  | [_], _ => rfl
  | [_, _], _ => rfl
  | [_, _, _], _ => rfl

/-- An array is read as a job when its elements describe the job. -/
theorem read_list_iff_describes {trees : List Tree} {bytes front behind : Bytes}
    (renders : Renders bytes (.value (.list trees))) (isGapFront : IsGap front)
    (isGapBehind : IsGap behind) {job : Job} :
    read (front ++ bytes ++ behind) = .ok job ↔ (Tree.list trees).Describes job := by
  simp only [read_eq_ok_iff, Shape.takes_text.lineUp_eq_some_iff texts_schema,
    Json.Schema.read_list_iff isGapBehind renders isGapFront]
  constructor
  · rintro ⟨_, ⟨texts, rfl, most, given, rfl⟩, rfl⟩
    match texts, most, given with
    | [], _, given => exact absurd (given _ List.mem_cons_self) (by decide)
    | [_], _, given => exact absurd (given _ List.mem_cons_self) (by decide)
    | language :: code :: others, most, _ =>
        have short : others.length ≤ 3 := Nat.le_of_succ_le_succ (Nat.le_of_succ_le_succ most)
        have described := @Tree.Describes.list language code others short
        rw [← ofRow_texts language code short] at described
        exact described
  · intro described
    cases described with
    | @list language code others short =>
        refine ⟨_, ⟨language :: code :: others, rfl, Nat.succ_le_succ (Nat.succ_le_succ short), ?_,
          rfl⟩, ofRow_texts language code short⟩
        have optional : ∀ field ∈ schema.fields.drop 2, field.inArray = false := by decide
        intro field member
        have among : field ∈ (schema.fields.drop 2).drop others.length := by
          rwa [List.drop_drop, Nat.add_comm]
        exact optional field (List.mem_of_mem_drop among)

/-- **A value is read as a job exactly when it describes the job**, however it is written. -/
theorem read_iff_describes {tree : Tree} {text : Bytes} (holds : Holds text tree) {job : Job} :
    read text = .ok job ↔ tree.Describes job := by
  obtain ⟨front, bytes, behind, isGapFront, renders, isGapBehind, rfl⟩ := holds
  cases tree with
  | list trees => exact read_list_iff_describes renders isGapFront isGapBehind
  | object members => exact read_object_iff_describes renders isGapFront isGapBehind
  | _ =>
      refine iff_of_false (fun readable => ?_) nofun
      obtain ⟨row, done, _⟩ := read_eq_ok_iff.mp readable
      exact Json.Schema.read_other renders nofun nofun isGapFront row done

/-- Members that count keep their texts in another order, and among other members. -/
theorem valuesOf_of_perm {members others : List (String × Tree)}
    (same : (members.filter fun member => schema.knows member.1).Perm
      (others.filter fun member => schema.knows member.1))
    {name : String} (known : schema.knows name = true) {value : Option String}
    (values : valuesOf name members = value.toList.map .text) :
    valuesOf name others = value.toList.map .text := by
  have permuted := (Json.perm_valuesOf_of_filter same known).symm
  rw [values] at permuted
  cases value with
  | none => exact List.perm_nil.mp permuted
  | some value => exact List.perm_singleton.mp permuted

/-- What an object describes depends neither on the order of its members nor on those that do not
count. -/
theorem describes_of_perm {members others : List (String × Tree)}
    (same : (members.filter fun member => schema.knows member.1).Perm
      (others.filter fun member => schema.knows member.1)) {job : Job}
    (described : (Tree.object members).Describes job) : (Tree.object others).Describes job := by
  cases described with
  | @object _ language code _ _ _ languages codes libraries entryClasses entryMethods =>
      have first := @valuesOf_of_perm _ _ same _ (by decide) (some language) languages
      have second := @valuesOf_of_perm _ _ same _ (by decide) (some code) codes
      exact .object first second (valuesOf_of_perm same (by decide) libraries)
        (valuesOf_of_perm same (by decide) entryClasses)
        (valuesOf_of_perm same (by decide) entryMethods)

/-- A job is read back from its text. -/
theorem read_render (job : Job) : read (Text.utf8 job.render) = .ok job := by
  have whole : schema.read ([] ++ Text.utf8 job.render ++ []) = .ok
      [some (.text job.language), some (.text job.code), some (.text job.library),
        some (.text job.entryClass), some (.text job.entryMethod)] := by
    refine Json.Schema.read_object (by decide) ?_ rfl ?_ isGap_nil isGap_nil
    · simp [schema, Json.Shape.admits]
    · exact .cons (.text _ _) <| .cons (.text _ _) <| .cons (.text _ _) <| .cons (.text _ _) <|
        .cons (.text _ _) .nil
  rw [List.nil_append, List.append_nil] at whole
  exact read_eq_ok_iff.mpr ⟨_, whole, rfl⟩

/-- **What a job is read from.** Every value has texts, and every text of a value is read as a job
exactly when the value describes the job. What an object is read as depends neither on the order
of its members nor on those with other names. What is written for a job is read as the job. -/
theorem reads_what_describes :
    (∀ tree : Tree, ∃ text, Holds text tree) ∧
    (∀ tree text, Holds text tree → ∀ job, read text = .ok job ↔ tree.Describes job) ∧
    (∀ members others text other,
      (members.filter fun member => schema.knows member.1).Perm
        (others.filter fun member => schema.knows member.1) →
      Holds text (.object members) → Holds other (.object others) →
      ∀ job, read text = .ok job ↔ read other = .ok job) ∧
    ∀ job : Job, read (Text.utf8 job.render) = .ok job := by
  refine ⟨fun tree => ?_, fun tree text holds job => read_iff_describes holds, ?_, read_render⟩
  · obtain ⟨bytes, renders⟩ := tree.exists_renders
    exact ⟨bytes, .of_renders renders⟩
  · intro members others text other same holds holdsToo job
    rw [read_iff_describes holds, read_iff_describes holdsToo]
    exact ⟨describes_of_perm same, describes_of_perm same.symm⟩

/-- Members among which one does not count, and the code comes before the language. -/
def looseMembers : List (String × Tree) :=
  [("x", .list [.null, .object []]), ("code", .text "b"), ("lang", .text "C")]

/-- The members that count, in the other order. -/
def plainMembers : List (String × Tree) :=
  [("lang", .text "C"), ("code", .text "b")]

/-- A text of the object of the first ones, with gaps and an escape. -/
def looseText : Bytes :=
  Text.utf8 " \x7b\"x\":[null, \x7b\x7d],\"code\":\"b\",\"lang\" : \"\\u0043\"\x7d\n"

theorem holds_looseText : Holds looseText (.object looseMembers) := by
  have plain (c : Char) (isPlain : c ≠ '"' ∧ c ≠ '\\' ∧ 32 ≤ c.toNat) {bytes : Bytes}
      {chars : List Char} (more : Spells bytes chars) :
      Spells (String.utf8EncodeChar c ++ bytes) (c :: chars) :=
    .plain ⟨isPlain.1, isPlain.2.1, isPlain.2.2⟩ more
  have x : Spells _ ['x'] := plain 'x' (by decide) .done
  have code : Spells _ ['c', 'o', 'd', 'e'] := plain 'c' (by decide) <| plain 'o' (by decide) <|
    plain 'd' (by decide) <| plain 'e' (by decide) .done
  have lang : Spells _ ['l', 'a', 'n', 'g'] := plain 'l' (by decide) <| plain 'a' (by decide) <|
    plain 'n' (by decide) <| plain 'g' (by decide) .done
  have b : Spells _ ['b'] := plain 'b' (by decide) .done
  have zero : Json.hexValue? 0x30 = some 0 := by decide
  have four : Json.hexValue? 0x34 = some 4 := by decide
  have three : Json.hexValue? 0x33 = some 3 := by decide
  have unit : SpellsUnit [0x30, 0x30, 0x34, 0x33] 0x43 := .digits zero zero four three
  have c : Spells (0x5C :: 0x75 :: [0x30, 0x30, 0x34, 0x33] ++ []) ['C'] :=
    .escape (.unit unit (.inl (by decide))) .done
  have space : IsGap [0x20] := by simp [IsGap, Json.Cursor.isSpace]
  have line : IsGap [0x0A] := by simp [IsGap, Json.Cursor.isSpace]
  have inside : Renders _ (.value (.list [.null, .object []])) :=
    .list isGap_nil .null (.nextItem isGap_nil space (.emptyObject isGap_nil) (.lastItem isGap_nil))
  have first : Renders _ (.member "x" (.list [.null, .object []])) :=
    .member x isGap_nil isGap_nil inside
  have second : Renders _ (.member "code" (.text "b")) := .member code isGap_nil isGap_nil (.text b)
  have third : Renders _ (.member "lang" (.text "C")) := .member lang space space (.text c)
  refine ⟨[0x20], _, [0x0A], space, .object isGap_nil first (.nextMember isGap_nil isGap_nil second
    (.nextMember isGap_nil isGap_nil third (.lastMember isGap_nil))), line, ?_⟩
  decide

/-- This text is read as a job, and some text of the other object is read as the same job. -/
theorem reads_what_describes_loose :
    Holds looseText (.object looseMembers) ∧ read looseText = .ok ⟨"C", "b", "", "", ""⟩ ∧
    ∃ text, Holds text (.object plainMembers) ∧ read text = .ok ⟨"C", "b", "", "", ""⟩ := by
  obtain ⟨exist, reads, alike, _⟩ := reads_what_describes
  have described : (Tree.object looseMembers).Describes ⟨"C", "b", "", "", ""⟩ :=
    @Tree.Describes.object _ "C" "b" none none none rfl rfl rfl rfl rfl
  have loose := (reads _ looseText holds_looseText _).mpr described
  obtain ⟨text, holds⟩ := exist (.object plainMembers)
  have same : (looseMembers.filter fun member => schema.knows member.1).Perm
      (plainMembers.filter fun member => schema.knows member.1) := List.Perm.swap _ _ []
  exact ⟨holds_looseText, loose, text, holds,
    (alike _ _ looseText text same holds_looseText holds _).mp loose⟩

end Job

end Polyglot
