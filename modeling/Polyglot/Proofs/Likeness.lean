import Mathlib.Data.List.Forall2
import Polyglot.Envelope
import Polyglot.Host.Platform
import Polyglot.Proofs.Ancestors

/-!
# Texts that differ in a stamp

Two texts are alike up to two stamps when they are made of the same characters, and the one
text has the digits of its stamp where the other text has those of its own (`Alike`). Alike
texts are joined to alike texts, and their pieces and their ancestors are alike one by one
(`Alike.join`, `Alike.pieces`, `Alike.ancestor`). Whatever looks for characters that are no
digits finds them in both texts or in neither, and when the stamps are equally long, so are
the texts (`Alike.utf8ByteSize_eq`).

So two jobs that differ in their stamps only are told apart by nothing but the digits, and
their answers are alike (`AlikeAnswers`).
-/

set_option autoImplicit false

namespace Polyglot

open Polyglot.Path (isAbsolute endsInSlash splitSlashes)

/-! ## Digits of stamps -/

/-- The decimal digits of a stamp. -/
def Stamp.digits (stamp : Nat) : List Char :=
  (toString stamp).toList

theorem Stamp.isDigit_of_mem_digits {stamp : Nat} {c : Char} (member : c ∈ digits stamp) :
    c.isDigit = true := by
  rw [digits, Nat.toString_eq_ofList_toDigits, String.toList_ofList] at member
  exact Nat.isDigit_of_mem_toDigits (by decide) (by decide) member

theorem Stamp.digits_ne_nil (stamp : Nat) : digits stamp ≠ [] := by
  rw [digits, Nat.toString_eq_ofList_toDigits, String.toList_ofList]
  exact Nat.toDigits_ne_nil

theorem Stamp.not_mem_digits {stamp : Nat} {c : Char} (noDigit : c.isDigit = false) :
    c ∉ digits stamp := by
  intro member
  rw [isDigit_of_mem_digits member] at noDigit
  cases noDigit

/-- Two stamps have equally many digits. -/
def Stamp.EquallyLong (one other : Nat) : Prop :=
  (digits one).length = (digits other).length

instance (one other : Nat) : Decidable (Stamp.EquallyLong one other) :=
  inferInstanceAs (Decidable (_ = _))

/-- A digit takes one byte. -/
theorem Stamp.size_utf8Encode {digits : List Char} (isDigit : ∀ c ∈ digits, c.isDigit = true) :
    digits.utf8Encode.size = digits.length := by
  induction digits with
  | nil => rfl
  | cons c rest ih =>
      have digit := isDigit c List.mem_cons_self
      have small : c.utf8Size = 1 := by
        rw [Char.utf8Size_eq_one_iff]
        simp only [Char.isDigit, Bool.and_eq_true, decide_eq_true_eq] at digit
        exact UInt32.le_trans digit.2 (by decide)
      rw [List.utf8Encode_cons, ByteArray.size_append, List.utf8Encode_singleton,
        ih fun c member => isDigit c (List.mem_cons_of_mem _ member), List.length_cons,
        List.size_toByteArray, String.length_utf8EncodeChar, small, Nat.add_comm]

/-! ## Characters that match -/

/-- Two lists of characters are equal, but for a stamp in the place of another one. -/
inductive Matches (one other : Nat) : List Char → List Char → Prop where
  | nil : Matches one other [] []
  | char (c : Char) {first second : List Char} (rest : Matches one other first second) :
      Matches one other (c :: first) (c :: second)
  | stamp {first second : List Char} (rest : Matches one other first second) :
      Matches one other (Stamp.digits one ++ first) (Stamp.digits other ++ second)

namespace Matches

variable {one other : Nat} {first second : List Char} {c : Char}

theorem refl (one other : Nat) (chars : List Char) : Matches one other chars chars := by
  induction chars with
  | nil => exact .nil
  | cons c rest ih => exact .char c ih

theorem symm (alike : Matches one other first second) : Matches other one second first := by
  induction alike with
  | nil => exact .nil
  | char c rest ih => exact .char c ih
  | stamp rest ih => exact .stamp ih

theorem append {front back : List Char} (alike : Matches one other first second)
    (further : Matches one other front back) :
    Matches one other (first ++ front) (second ++ back) := by
  induction alike with
  | nil => exact further
  | char c rest ih => exact .char c ih
  | stamp rest ih =>
      rw [List.append_assoc, List.append_assoc]
      exact .stamp ih

/-- Characters without a digit match themselves only. -/
theorem eq_of_plain (alike : Matches one other first second)
    (plain : ∀ c ∈ first, c.isDigit = false) : second = first := by
  induction alike with
  | nil => rfl
  | char c rest ih => rw [ih fun d member => plain d (List.mem_cons_of_mem c member)]
  | stamp rest ih =>
      obtain ⟨d, member⟩ := List.exists_mem_of_ne_nil _ (Stamp.digits_ne_nil one)
      have digit := plain d (List.mem_append_left _ member)
      exact absurd member (Stamp.not_mem_digits digit)

theorem eq_iff (alike : Matches one other first second) {text : List Char}
    (plain : ∀ c ∈ text, c.isDigit = false) : first = text ↔ second = text := by
  constructor
  · rintro rfl
    exact alike.eq_of_plain plain
  · rintro rfl
    exact alike.symm.eq_of_plain plain

theorem mem_iff (alike : Matches one other first second) (noDigit : c.isDigit = false) :
    c ∈ first ↔ c ∈ second := by
  induction alike with
  | nil => exact Iff.rfl
  | char d rest ih => rw [List.mem_cons, List.mem_cons, ih]
  | stamp rest ih =>
      rw [List.mem_append, List.mem_append, ih]
      simp only [Stamp.not_mem_digits noDigit, false_or]

/-- Both begin with some characters that are no digits, or neither does. -/
theorem prefix_iff (alike : Matches one other first second) {text : List Char}
    (plain : ∀ c ∈ text, c.isDigit = false) : text <+: first ↔ text <+: second := by
  induction alike generalizing text with
  | nil => exact Iff.rfl
  | char d rest ih =>
      cases text with
      | nil => simp
      | cons c text =>
          rw [List.cons_prefix_cons, List.cons_prefix_cons,
            ih fun d member => plain d (List.mem_cons_of_mem c member)]
  | stamp rest ih =>
      cases text with
      | nil => simp
      | cons c text =>
          have apart : ∀ (stamp : Nat) (chars : List Char),
              ¬ c :: text <+: Stamp.digits stamp ++ chars := by
            intro stamp chars begins
            obtain ⟨d, digits, shape⟩ := List.exists_cons_of_ne_nil (Stamp.digits_ne_nil stamp)
            rw [shape, List.cons_append, List.cons_prefix_cons] at begins
            have member : c ∈ Stamp.digits stamp := by
              rw [shape, begins.1]
              exact List.mem_cons_self
            exact Stamp.not_mem_digits (plain c List.mem_cons_self) member
          simp only [apart]

theorem take_iff (alike : Matches one other first second) {text : List Char}
    (plain : ∀ c ∈ text, c.isDigit = false) :
    first.take text.length = text ↔ second.take text.length = text := by
  rw [eq_comm, ← List.prefix_iff_eq_take, alike.prefix_iff plain, List.prefix_iff_eq_take, eq_comm]

theorem head?_iff (alike : Matches one other first second) (noDigit : c.isDigit = false) :
    first.head? = some c ↔ second.head? = some c := by
  have begins : ∀ chars : List Char, chars.head? = some c ↔ [c] <+: chars := by
    intro chars
    cases chars with
    | nil => simp
    | cons d rest => simp [eq_comm]
  rw [begins, begins]
  exact alike.prefix_iff (by simpa using noDigit)

theorem getLast?_iff (alike : Matches one other first second) (noDigit : c.isDigit = false) :
    first.getLast? = some c ↔ second.getLast? = some c := by
  induction alike with
  | nil => exact Iff.rfl
  | @char d first second rest ih =>
      rw [List.getLast?_cons, List.getLast?_cons]
      rcases List.eq_nil_or_concat first with rfl | ⟨front, last, rfl⟩
      · rw [(rest.eq_iff (List.forall_mem_nil _)).mp rfl]
      · rcases List.eq_nil_or_concat second with rfl | ⟨front, other, rfl⟩
        · rw [(rest.eq_iff (List.forall_mem_nil _)).mpr rfl]
        · simpa using ih
  | @stamp first second rest ih =>
      have apart : ∀ stamp : Nat, (Stamp.digits stamp).getLast? ≠ some c := fun stamp last =>
        Stamp.not_mem_digits noDigit (List.mem_of_getLast? last)
      rw [List.getLast?_append, List.getLast?_append]
      rcases List.eq_nil_or_concat first with rfl | ⟨front, last, rfl⟩
      · rw [(rest.eq_iff (List.forall_mem_nil _)).mp rfl]
        simp [apart]
      · rcases List.eq_nil_or_concat second with rfl | ⟨front, other, rfl⟩
        · rw [(rest.eq_iff (List.forall_mem_nil _)).mpr rfl]
          simp [apart]
        · simpa using ih

/-- Stamps that are equally long do not make a difference in length. -/
theorem size_eq (alike : Matches one other first second) (equal : Stamp.EquallyLong one other) :
    first.utf8Encode.size = second.utf8Encode.size := by
  induction alike with
  | nil => rfl
  | char c rest ih =>
      rw [List.utf8Encode_cons, ByteArray.size_append, ih, ← ByteArray.size_append,
        ← List.utf8Encode_cons]
  | stamp rest ih =>
      rw [List.utf8Encode_append, List.utf8Encode_append, ByteArray.size_append,
        ByteArray.size_append, ih, Stamp.size_utf8Encode fun _ => Stamp.isDigit_of_mem_digits,
        Stamp.size_utf8Encode fun _ => Stamp.isDigit_of_mem_digits, equal]

/-- The first pieces match, and so do the others. -/
theorem exists_cons_of_splitSlashes
    (pieces : List.Forall₂ (Matches one other) (Path.splitSlashes first) (Path.splitSlashes second)) :
    ∃ piece rest twin others, Path.splitSlashes first = piece :: rest ∧
      Path.splitSlashes second = twin :: others ∧ Matches one other piece twin ∧
      List.Forall₂ (Matches one other) rest others := by
  obtain ⟨piece, rest, shape⟩ := List.exists_cons_of_ne_nil (Path.splitSlashes_ne_nil first)
  obtain ⟨twin, others, form⟩ := List.exists_cons_of_ne_nil (Path.splitSlashes_ne_nil second)
  rw [shape, form] at pieces
  cases pieces with
  | cons front behind => exact ⟨piece, rest, twin, others, shape, form, front, behind⟩

/-- The pieces between slashes match one by one. -/
theorem splitSlashes (alike : Matches one other first second) :
    List.Forall₂ (Matches one other) (splitSlashes first) (splitSlashes second) := by
  induction alike with
  | nil => exact .cons .nil .nil
  | @char c first second rest ih =>
      obtain ⟨_, _, _, _, shape, form, front, behind⟩ := exists_cons_of_splitSlashes ih
      by_cases slash : c = '/'
      · simpa [Path.splitSlashes, slash, shape, form] using ⟨.nil, front, behind⟩
      · simpa [Path.splitSlashes, slash, shape, form] using ⟨.char c front, behind⟩
  | @stamp first second rest ih =>
      obtain ⟨_, _, _, _, shape, form, front, behind⟩ := exists_cons_of_splitSlashes ih
      rw [Path.splitSlashes_plain_append (Stamp.not_mem_digits (by decide)) shape,
        Path.splitSlashes_plain_append (Stamp.not_mem_digits (by decide)) form]
      exact .cons (.stamp front) behind

end Matches

/-! ## Texts that are alike -/

/-- Two texts are equal, but for a stamp in the place of another one. -/
def Alike (one other : Nat) (first second : String) : Prop :=
  Matches one other first.toList second.toList

namespace Alike

variable {one other : Nat} {first second front back : String}

theorem refl (one other : Nat) (text : String) : Alike one other text text :=
  Matches.refl one other text.toList

theorem stamp (one other : Nat) : Alike one other (toString one) (toString other) := by
  have alone := @Matches.stamp one other [] [] .nil
  rwa [List.append_nil, List.append_nil] at alone

theorem append (alike : Alike one other first second) (further : Alike one other front back) :
    Alike one other (first ++ front) (second ++ back) := by
  unfold Alike
  rw [String.toList_append, String.toList_append]
  exact Matches.append alike further

theorem isEmpty_eq (alike : Alike one other first second) : first.isEmpty = second.isEmpty := by
  have none := Matches.eq_iff alike (List.forall_mem_nil _)
  rw [String.toList_eq_nil_iff, String.toList_eq_nil_iff] at none
  rw [Bool.eq_iff_iff, String.isEmpty_iff, String.isEmpty_iff, none]

theorem isAbsolute_eq (alike : Alike one other first second) :
    isAbsolute first = isAbsolute second := by
  have slash := Matches.head?_iff alike (c := '/') (by decide)
  rw [Bool.eq_iff_iff, isAbsolute, isAbsolute, beq_iff_eq, beq_iff_eq, slash]

theorem endsInSlash_eq (alike : Alike one other first second) :
    endsInSlash first = endsInSlash second := by
  have slash := Matches.getLast?_iff alike (c := '/') (by decide)
  rw [Bool.eq_iff_iff, endsInSlash, endsInSlash, beq_iff_eq, beq_iff_eq, slash]

theorem hasZero_eq (alike : Alike one other first second) :
    Host.Platform.hasZero first = Host.Platform.hasZero second := by
  have zero : ∀ text : String, Host.Platform.hasZero text = true ↔ '\x00' ∈ text.toList := by
    intro text
    simp only [Host.Platform.hasZero, List.any_eq_true, beq_iff_eq]
    constructor
    · rintro ⟨c, member, value⟩
      obtain rfl : c = '\x00' := Char.toNat_inj.mp value
      exact member
    · exact fun member => ⟨_, member, rfl⟩
  rw [Bool.eq_iff_iff, zero, zero]
  exact Matches.mem_iff alike (by decide)

theorem utf8ByteSize_eq (alike : Alike one other first second)
    (equal : Stamp.EquallyLong one other) : first.utf8ByteSize = second.utf8ByteSize := by
  have size : ∀ text : String, text.utf8ByteSize = text.toList.utf8Encode.size := by
    intro text
    rw [String.utf8ByteSize, ← String.toByteArray_ofList, String.ofList_toList]
  rw [size, size]
  exact Matches.size_eq alike equal

theorem eq_iff (alike : Alike one other first second) {text : String}
    (plain : ∀ c ∈ text.toList, c.isDigit = false) : first = text ↔ second = text := by
  rw [← String.toList_inj, ← String.toList_inj]
  exact Matches.eq_iff alike plain

/-! ## Paths -/

theorem join (alike : Alike one other first second) (further : Alike one other front back) :
    Alike one other (Path.join first front) (Path.join second back) := by
  have slash := Matches.getLast?_iff alike (c := '/') (by decide)
  rw [Path.join, Path.join, further.isAbsolute_eq, alike.isEmpty_eq]
  split
  · exact further
  · split
    · rename_i ends
      rw [if_pos (slash.mp ends)]
      exact alike.append further
    · rename_i ends
      rw [if_neg (mt slash.mpr ends)]
      exact (alike.append (.refl one other "/")).append further

/-- The pieces of alike paths are alike one by one. -/
theorem pieces (alike : Alike one other first second) :
    List.Forall₂ (Alike one other) (Path.pieces first) (Path.pieces second) := by
  unfold Path.pieces
  refine List.rel_map (R := Matches one other) ?_ (List.rel_filter ?_ (Matches.splitSlashes alike))
  · intro piece another same
    unfold Alike
    rwa [String.toList_ofList, String.toList_ofList]
  · intro piece another same
    simp only [Bool.not_eq_true', List.isEmpty_eq_false_iff, ne_eq,
      same.eq_iff (List.forall_mem_nil _)]

/-- Leaving out the single points leaves alike steps. -/
theorem steps {steps others : List String} (alike : List.Forall₂ (Alike one other) steps others) :
    List.Forall₂ (Alike one other) (steps.filter fun step => step != ".")
      (others.filter fun step => step != ".") := by
  refine List.rel_filter (fun step another same => ?_) alike
  have point : step = "." ↔ another = "." := same.eq_iff (by simp)
  simp only [bne_iff_ne, ne_eq, point]

/-- The components of alike paths are alike one by one. -/
theorem components (alike : Alike one other first second) :
    List.Forall₂ (Alike one other) ((Path.components first).map Path.Component.text)
      ((Path.components second).map Path.Component.text) := by
  have texts : ∀ steps : List String, (Path.inner steps).map Path.Component.text =
      steps.filter fun step => step != "." := by
    intro steps
    simp [Path.inner, Function.comp_def, Path.text_componentOf]
  have pieces := alike.pieces
  cases absolutePath : isAbsolute first with
  | true =>
      rw [Path.components_of_isAbsolute absolutePath,
        Path.components_of_isAbsolute (alike.isAbsolute_eq ▸ absolutePath), List.map_cons,
        List.map_cons, texts, texts]
      exact .cons (.refl one other _) (steps pieces)
  | false =>
      have relative := alike.isAbsolute_eq ▸ absolutePath
      have point : ∀ {piece twin : String}, Alike one other piece twin →
          (piece = "." ↔ twin = ".") := fun same => same.eq_iff (by simp)
      rcases shape : Path.pieces first with _ | ⟨piece, rest⟩
      · rw [shape] at pieces
        have none := List.forall₂_nil_left_iff.mp pieces
        rw [Path.components_of_relative absolutePath (by simp [shape]),
          Path.components_of_relative relative (by simp [none]), shape, none]
        exact .nil
      · rw [shape] at pieces
        obtain ⟨twin, others, same, further, form⟩ := List.forall₂_cons_left_iff.mp pieces
        by_cases current : piece = "."
        · rw [Path.components_of_point absolutePath (current ▸ shape),
            Path.components_of_point relative ((point same).mp current ▸ form), List.map_cons,
            List.map_cons, texts, texts]
          exact .cons (.refl one other _) (steps further)
        · rw [Path.components_of_relative absolutePath (by simp [shape, current]),
            Path.components_of_relative relative (by simp [form, mt (point same).mpr current]),
            texts, texts]
          exact steps (shape ▸ form ▸ .cons same further)

theorem joinAll {base twin : String} {steps others : List String} (alike : Alike one other base twin)
    (further : List.Forall₂ (Alike one other) steps others) :
    Alike one other (steps.foldl Path.join base) (others.foldl Path.join twin) := by
  induction further generalizing base twin with
  | nil => exact alike
  | cons same rest ih => exact ih (alike.join same)

/-- The ancestors of alike paths are alike one by one. -/
theorem ancestor (alike : Alike one other first second) (count : Nat) :
    Alike one other (Path.ofComponents ((Path.components first).take count))
      (Path.ofComponents ((Path.components second).take count)) := by
  have whole := joinAll (.refl one other "") (List.forall₂_take count alike.components)
  rwa [← List.map_take, ← List.map_take, List.foldl_map, List.foldl_map] at whole

theorem absoluteStart (directory : String) (alike : Alike one other first second) :
    Path.absoluteStart directory first = Path.absoluteStart directory second := by
  have two := @Matches.take_iff one other _ _ alike ['/', '/'] (by simp)
  have three := @Matches.take_iff one other _ _ alike ['/', '/', '/'] (by simp)
  simp only [List.length_cons, List.length_nil, Nat.zero_add, Nat.reduceAdd] at two three
  simp only [Path.absoluteStart, alike.isAbsolute_eq, two, three, ne_eq]

/-- Alike paths lead to alike absolute paths. -/
theorem absolute (directory : String) (alike : Alike one other first second) :
    Alike one other (Path.absolute directory first) (Path.absolute directory second) := by
  have whole := joinAll (.refl one other (Path.absoluteStart directory second))
    (steps alike.pieces)
  simp only [Path.absolute_eq, alike.absoluteStart, alike.endsInSlash_eq, whole.endsInSlash_eq]
  split
  · exact whole.append (.refl one other "/")
  · exact whole

end Alike

/-! ## Answers that are alike -/

/-- Two failures are of one kind and have alike messages. -/
structure Failure.Alike (one other : Nat) (first second : Failure) : Prop where
  code : first.code = second.code
  message : Polyglot.Alike one other first.message second.message

theorem Failure.Alike.refl (one other : Nat) (failure : Failure) : Alike one other failure failure :=
  ⟨rfl, .refl one other failure.message⟩

theorem Failure.Alike.workspace {one other : Nat} {first second : String}
    (alike : Polyglot.Alike one other first second) :
    Alike one other (.workspace first) (.workspace second) :=
  ⟨rfl, (Polyglot.Alike.refl one other "Workspace error: ").append alike⟩

/-- Two outcomes of a job are alike outputs or alike failures. -/
inductive AlikeOutcomes (one other : Nat) :
    Except Failure String → Except Failure String → Prop where
  | output {first second : String} (alike : Alike one other first second) :
      AlikeOutcomes one other (.ok first) (.ok second)
  | failure {first second : Failure} (alike : first.Alike one other second) :
      AlikeOutcomes one other (.error first) (.error second)

/-- Two envelopes are alike: equal but for the elapsed time, and for a stamp in the place of
another one. -/
structure Envelope.Alike (one other : Nat) (first second : Envelope) : Prop where
  result : Option.Rel (Polyglot.Alike one other) first.result second.result
  exception : Option.Rel (Polyglot.Alike one other) first.exception second.exception
  errorCode : first.errorCode = second.errorCode
  timed : first.elapsedMs.isSome = second.elapsedMs.isSome
  serviceVersion : first.serviceVersion = second.serviceVersion

theorem AlikeOutcomes.envelope {one other : Nat} {first second : Except Failure String}
    (alike : AlikeOutcomes one other first second) (elapsed later : Nat) (version : String) :
    (Envelope.ofOutcome elapsed version first).Alike one other
      (Envelope.ofOutcome later version second) := by
  cases alike with
  | output alike => exact ⟨.some alike, .none, rfl, rfl, rfl⟩
  | failure alike => exact ⟨.none, .some alike.message, congrArg some alike.code, rfl, rfl⟩

end Polyglot
