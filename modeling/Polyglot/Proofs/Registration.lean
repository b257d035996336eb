import Mathlib.Data.List.Nodup
import Polyglot.Proofs.Tables
import Polyglot.Registry

/-!
# What the registry takes and what it answers

Languages are registered one after the other, and the first one with an objection ends the
registration with the reason of the objection. A language is objected to when its backend
has a defect, and otherwise when its normal form is taken (`Registry.Objection`). What is
wrong with a backend is said without the order in which it is checked (`Backend.Suffers`).

A registry that was made of some languages holds exactly these, in the order of their normal
forms (`Registry.Enrols`). That determines the registry (`Registry.Enrols.unique`), so the
order in which languages are registered makes no difference to it.
-/

set_option autoImplicit false

namespace Polyglot

/-- Blanks at the ends of a name make no difference to its normal form. -/
theorem normalForm_trim (name : String) : normalForm (Text.trim name) = normalForm name := by
  rw [normalForm, Text.trim_trim, normalForm]

/-! ## Sound backends -/

/-- Both files of a build have names, and different ones. -/
def Build.NamesTwoFiles (build : Build) : Prop :=
  build.entryFile ≠ "" ∧ build.libraryFile ≠ "" ∧ build.entryFile ≠ build.libraryFile

namespace Backend

variable {backend : Backend} {defect : Defect}

/-- If the backend builds, it names two files. -/
def NamesFiles (backend : Backend) : Prop :=
  ∀ build, backend = .ephemeral build → build.NamesTwoFiles

/-- A backend has a program to run and, if it builds, two files. -/
structure Sound (backend : Backend) : Prop where
  command : backend.mainCommand ≠ []
  files : backend.NamesFiles

/-- What is wrong with a backend. That it has no command counts when its files are right. -/
def Suffers (backend : Backend) : Defect → Prop
  | .unnamedFile =>
    ∃ build, backend = .ephemeral build ∧ (build.entryFile = "" ∨ build.libraryFile = "")
  | .sameFile =>
    ∃ build, backend = .ephemeral build ∧ build.entryFile ≠ "" ∧
      build.entryFile = build.libraryFile
  | .emptyCommand => backend.NamesFiles ∧ backend.mainCommand = []

theorem fileDefect?_eq_none_iff : backend.fileDefect? = none ↔ backend.NamesFiles := by
  cases backend with
  | worker start directory version => simp [fileDefect?, NamesFiles]
  | proxied start directory port version check => simp [fileDefect?, NamesFiles]
  | ephemeral build =>
      simp only [fileDefect?, NamesFiles, Build.NamesTwoFiles, Bool.or_eq_true, String.isEmpty_iff]
      grind

theorem fileDefect?_eq_some_iff :
    backend.fileDefect? = some defect ↔ defect ≠ .emptyCommand ∧ backend.Suffers defect := by
  cases backend with
  | worker start directory version => cases defect <;> simp [fileDefect?, Suffers]
  | proxied start directory port version check => cases defect <;> simp [fileDefect?, Suffers]
  | ephemeral build =>
      simp only [fileDefect?, Bool.or_eq_true, String.isEmpty_iff]
      cases defect <;> simp only [Suffers] <;> grind

/-- The defect that is reported is what is wrong with the backend. -/
theorem defect?_eq_some_iff : backend.defect? = some defect ↔ backend.Suffers defect := by
  rw [defect?, Option.or_eq_some_iff, fileDefect?_eq_some_iff, fileDefect?_eq_none_iff]
  cases defect with
  | unnamedFile => simp
  | sameFile => simp
  | emptyCommand => simp [Suffers]

/-- No defect is reported exactly when the backend is sound. -/
theorem defect?_eq_none_iff : backend.defect? = none ↔ backend.Sound := by
  rw [defect?, Option.or_eq_none_iff, fileDefect?_eq_none_iff]
  constructor
  · rintro ⟨files, command⟩
    exact ⟨by simpa using command, files⟩
  · rintro ⟨command, files⟩
    exact ⟨files, by simpa using command⟩

end Backend

namespace Registry

variable {languages earlier later : List (String × Backend)} {registry : Registry}
variable {name : String} {backend : Backend} {reason : Failure}

/-! ## Languages that can be registered together -/

/-- Sound languages with different normal forms. -/
structure Agreeable (languages : List (String × Backend)) : Prop where
  sound : ∀ language ∈ languages, language.2.Sound
  apart : (languages.map fun language => normalForm language.1).Nodup

/-- What is said against a language that comes after some others. -/
inductive Objection (earlier : List (String × Backend)) (name : String) (backend : Backend) :
    Failure → Prop where
  | defective {defect : Backend.Defect} (suffers : backend.Suffers defect) :
      Objection earlier name backend
        (.configuration (normalForm name ++ ": " ++ defect.message))
  | repeated (sound : backend.Sound)
      (taken : ∃ language ∈ earlier, normalForm language.1 = normalForm name) :
      Objection earlier name backend
        (.configuration ("language registered twice: " ++ normalForm name))

/-- A language can be added exactly when it is sound and its normal form is not taken. -/
theorem agreeable_concat :
    Agreeable (earlier ++ [(name, backend)]) ↔ Agreeable earlier ∧ backend.Sound ∧
      ∀ language ∈ earlier, normalForm language.1 ≠ normalForm name := by
  constructor
  · rintro ⟨sound, apart⟩
    rw [List.map_append, List.nodup_append] at apart
    obtain ⟨former, _, differ⟩ := apart
    refine ⟨⟨fun language member => sound language (List.mem_append_left _ member), former⟩,
      sound _ List.mem_concat_self, fun language member => ?_⟩
    exact differ _ (List.mem_map_of_mem member) _ List.mem_cons_self
  · rintro ⟨⟨sound, apart⟩, last, differ⟩
    refine ⟨fun language member => ?_, ?_⟩
    · rcases List.mem_append.mp member with former | same
      · exact sound language former
      · exact List.mem_singleton.mp same ▸ last
    · rw [List.map_append, List.nodup_append]
      refine ⟨apart, List.pairwise_singleton _ _, fun form member other same => ?_⟩
      obtain ⟨language, among, rfl⟩ := List.mem_map.mp member
      rw [List.map_singleton, List.mem_singleton] at same
      exact same ▸ differ language among

theorem Agreeable.of_prefix (agreeable : Agreeable languages) (begins : earlier <+: languages) :
    Agreeable earlier :=
  ⟨fun language member => agreeable.sound language (begins.subset member),
    (begins.sublist.map _).nodup agreeable.apart⟩

theorem Agreeable.perm {others : List (String × Backend)} (agreeable : Agreeable languages)
    (same : others.Perm languages) : Agreeable others :=
  ⟨fun language member => agreeable.sound language (same.mem_iff.mp member),
    (same.map _).nodup_iff.mpr agreeable.apart⟩

namespace Objection

/-- A language that is objected to cannot be registered with those before it. -/
theorem not_agreeable (objection : Objection earlier name backend reason) :
    ¬ Agreeable (earlier ++ (name, backend) :: later) := by
  intro agreeable
  have begins : earlier ++ [(name, backend)] <+: earlier ++ (name, backend) :: later :=
    (List.prefix_append_right_inj earlier).mpr ⟨later, rfl⟩
  obtain ⟨_, sound, differ⟩ := agreeable_concat.mp (agreeable.of_prefix begins)
  cases objection with
  | defective suffers =>
      rw [← Backend.defect?_eq_some_iff, Backend.defect?_eq_none_iff.mpr sound] at suffers
      cases suffers
  | repeated _ taken =>
      obtain ⟨language, member, same⟩ := taken
      exact differ language member same

/-- There is at most one objection to a language. -/
theorem unique {other : Failure} (objection : Objection earlier name backend reason)
    (another : Objection earlier name backend other) : reason = other := by
  cases objection with
  | defective suffers =>
      rw [← Backend.defect?_eq_some_iff] at suffers
      cases another with
      | defective suffersToo =>
          rw [← Backend.defect?_eq_some_iff, suffers, Option.some.injEq] at suffersToo
          rw [suffersToo]
      | repeated sound _ =>
          rw [Backend.defect?_eq_none_iff.mpr sound] at suffers
          cases suffers
  | repeated sound _ =>
      cases another with
      | defective suffers =>
          rw [← Backend.defect?_eq_some_iff, Backend.defect?_eq_none_iff.mpr sound] at suffers
          cases suffers
      | repeated _ _ => rfl

end Objection

/-! ## What a registry holds -/

/-- The entry of a language that is registered. -/
def entryOf (language : String × Backend) : String × Language :=
  (normalForm language.1, ⟨Text.trim language.1, language.2⟩)

/-- A registry holds exactly some languages, in the order of their normal forms. -/
structure Enrols (languages : List (String × Backend)) (registry : Registry) : Prop where
  ordered : Table.Ordered registry.entries
  holds : registry.entries.Perm (languages.map entryOf)

namespace Enrols

theorem nothing : Enrols [] empty :=
  ⟨.nil, .refl _⟩

/-- What a registry holds determines it, in whatever order it is said. -/
theorem unique {others : List (String × Backend)} {other : Registry}
    (enrols : Enrols languages registry) (another : Enrols others other)
    (same : others.Perm languages) : other = registry := by
  have entries := another.holds.trans ((same.map _).trans enrols.holds.symm)
  exact congrArg Registry.mk (another.ordered.eq_of_perm enrols.ordered entries)

theorem mem_entries (enrols : Enrols languages registry) {language : String × Backend}
    (listed : language ∈ languages) : entryOf language ∈ registry.entries :=
  enrols.holds.mem_iff.mpr (List.mem_map_of_mem listed)

/-- What is found under a normal form is the language that has it. -/
theorem find?_eq_some_iff (enrols : Enrols languages registry) (form : String)
    (held : Language) :
    Table.find? form registry.entries = some held ↔
      ∃ language ∈ languages, entryOf language = (form, held) := by
  rw [Table.find?_eq_some_iff enrols.ordered, enrols.holds.mem_iff, List.mem_map]

/-- Nothing is found under a normal form that no language has. -/
theorem find?_eq_none_iff (enrols : Enrols languages registry) (form : String) :
    Table.find? form registry.entries = none ↔
      ∀ language ∈ languages, normalForm language.1 ≠ form := by
  rw [Table.find?_eq_none_iff]
  constructor
  · intro absent language member
    exact absent (entryOf language) (enrols.mem_entries member)
  · intro absent entry member
    obtain ⟨language, among, rfl⟩ := List.mem_map.mp (enrols.holds.mem_iff.mp member)
    exact absent language among

/-- The entries of a registry stand under the normal forms of their names. -/
theorem fst_eq (enrols : Enrols languages registry) {entry : String × Language}
    (member : entry ∈ registry.entries) : entry.1 = normalForm entry.2.name := by
  obtain ⟨language, _, rfl⟩ := List.mem_map.mp (enrols.holds.mem_iff.mp member)
  exact (normalForm_trim language.1).symm

/-- The normal forms of the registered names are the names of the entries, in their order. -/
theorem map_normalForm (enrols : Enrols languages registry) :
    (registry.toList.map fun language => normalForm language.name) =
      registry.entries.map (·.1) := by
  rw [toList, List.map_map]
  exact List.map_congr_left fun entry member => (enrols.fst_eq member).symm

/-- The names under which languages are listed are different. -/
theorem nodup_name (enrols : Enrols languages registry) :
    (registry.toList.map (·.name)).Nodup := by
  -- Names that are the same have the same normal form.
  refine List.Nodup.of_map normalForm ?_
  rw [List.map_map]
  exact enrols.map_normalForm ▸ enrols.ordered.nodup

/-- **One more language is refused for the objection to it, or else it is added.** -/
theorem register (enrols : Enrols earlier registry) (name : String) (backend : Backend) :
    (∃ reason, registry.register name backend = .error reason ∧
      Objection earlier name backend reason) ∨
    (∃ longer, registry.register name backend = .ok longer ∧ backend.Sound ∧
      (∀ language ∈ earlier, normalForm language.1 ≠ normalForm name) ∧
      Enrols (earlier ++ [(name, backend)]) longer) := by
  simp only [Registry.register]
  cases reported : backend.defect? with
  | some defect => exact .inl ⟨_, rfl, .defective (Backend.defect?_eq_some_iff.mp reported)⟩
  | none =>
      have sound := Backend.defect?_eq_none_iff.mp reported
      cases found : Table.find? (normalForm name) registry.entries with
      | some held =>
          obtain ⟨language, member, same⟩ := (enrols.find?_eq_some_iff _ _).mp found
          exact .inl ⟨_, rfl, .repeated sound ⟨language, member, congrArg Prod.fst same⟩⟩
      | none =>
          refine .inr ⟨_, rfl, sound, (enrols.find?_eq_none_iff _).mp found,
            enrols.ordered.insert _ _, ?_⟩
          have added := (Table.insert_perm found).trans
            (enrols.holds.cons (entryOf (name, backend)))
          rw [List.map_append]
          exact added.trans (List.perm_append_singleton _ _).symm

end Enrols

/-! ## All languages -/

/-- Registering some languages after others either adds all of them or stops at the first
one with an objection. -/
theorem foldlM_register (enrols : Enrols earlier registry) (agreeable : Agreeable earlier)
    (languages : List (String × Backend)) :
    (∃ longer,
      languages.foldlM (fun registry language => registry.register language.1 language.2)
        registry = .ok longer ∧
      Agreeable (earlier ++ languages) ∧ Enrols (earlier ++ languages) longer) ∨
    (∃ reason before name backend after,
      languages.foldlM (fun registry language => registry.register language.1 language.2)
        registry = .error reason ∧
      languages = before ++ (name, backend) :: after ∧ Agreeable (earlier ++ before) ∧
      Objection (earlier ++ before) name backend reason) := by
  induction languages generalizing earlier registry with
  | nil =>
      rw [List.append_nil]
      exact .inl ⟨registry, rfl, agreeable, enrols⟩
  | cons language languages ih =>
      obtain ⟨name, backend⟩ := language
      rw [List.foldlM_cons]
      rcases enrols.register name backend with
        ⟨reason, refused, objection⟩ | ⟨longer, added, sound, differ, more⟩
      · rw [refused]
        refine .inr ⟨reason, [], name, backend, languages, rfl, rfl, ?_, ?_⟩
        · rwa [List.append_nil]
        · rwa [List.append_nil]
      · rw [added]
        have grown := agreeable_concat.mpr ⟨agreeable, sound, differ⟩
        rcases ih more grown with ⟨last, all, whole, holds⟩ |
          ⟨reason, before, other, failing, after, stopped, rfl, agree, objection⟩
        · rw [List.append_assoc] at whole holds
          exact .inl ⟨last, all, whole, holds⟩
        · rw [List.append_assoc] at agree objection
          exact .inr ⟨reason, (name, backend) :: before, other, failing, after, stopped, rfl, agree,
            objection⟩

theorem ofList_cases (languages : List (String × Backend)) :
    (∃ registry, ofList languages = .ok registry ∧ Agreeable languages ∧
      Enrols languages registry) ∨
    (∃ reason earlier name backend later, ofList languages = .error reason ∧
      languages = earlier ++ (name, backend) :: later ∧ Agreeable earlier ∧
      Objection earlier name backend reason) := by
  exact foldlM_register .nothing ⟨List.forall_mem_nil _, .nil⟩ languages

/-- Languages are registered exactly when they agree. -/
theorem exists_ofList_iff : (∃ registry, ofList languages = .ok registry) ↔ Agreeable languages := by
  constructor
  · rintro ⟨registry, made⟩
    rcases ofList_cases languages with ⟨_, _, agreeable, _⟩ | ⟨_, _, _, _, _, refused, _⟩
    · exact agreeable
    · rw [refused] at made
      cases made
  · intro agreeable
    rcases ofList_cases languages with ⟨registry, made, _⟩ | ⟨_, _, _, _, _, _, rfl, _, objection⟩
    · exact ⟨registry, made⟩
    · exact absurd agreeable objection.not_agreeable

/-- A registry that was made holds the languages it was made of. -/
theorem enrols_of_ofList (made : ofList languages = .ok registry) : Enrols languages registry := by
  rcases ofList_cases languages with ⟨other, same, _, enrols⟩ | ⟨_, _, _, _, _, refused, _⟩
  · rw [made, Except.ok.injEq] at same
    exact same ▸ enrols
  · rw [refused] at made
    cases made

/-- The backend of a language that was registered is sound. -/
theorem sound_of_mem (made : ofList languages = .ok registry) {language : Language}
    (listed : language ∈ registry.toList) : language.backend.Sound := by
  obtain ⟨entry, registered, rfl⟩ := List.mem_map.mp listed
  obtain ⟨given, among, rfl⟩ :=
    List.mem_map.mp ((enrols_of_ofList made).holds.mem_iff.mp registered)
  exact (exists_ofList_iff.mp ⟨registry, made⟩).sound given among

/-- The reason for a refusal is the objection to the first language that has one. -/
theorem ofList_eq_error_iff :
    ofList languages = .error reason ↔
      ∃ earlier name backend later, languages = earlier ++ (name, backend) :: later ∧
        Agreeable earlier ∧ Objection earlier name backend reason := by
  constructor
  · intro failed
    rcases ofList_cases languages with ⟨_, made, _⟩ |
      ⟨_, earlier, name, backend, later, refused, shape, agreeable, objection⟩
    · rw [made] at failed
      cases failed
    · rw [failed, Except.error.injEq] at refused
      exact ⟨earlier, name, backend, later, shape, agreeable, refused ▸ objection⟩
  · rintro ⟨earlier, name, backend, later, rfl, agreeable, objection⟩
    obtain ⟨registry, made⟩ := exists_ofList_iff.mpr agreeable
    have enrols := enrols_of_ofList made
    -- There is only one objection to the language, so it is the one that is reported.
    rcases enrols.register name backend with
      ⟨other, refused, another⟩ | ⟨_, _, sound, differ, _⟩
    · rw [another.unique objection] at refused
      simp only [ofList] at made ⊢
      rw [List.foldlM_append, made]
      simp only [List.foldlM_cons, bind, Except.bind, refused]
    · have agreed := agreeable_concat.mpr ⟨agreeable, sound, differ⟩
      exact absurd agreed objection.not_agreeable

/-- What a name resolves to stands under its normal form. -/
theorem mem_of_resolve (resolved : registry.resolve name = .ok backend) :
    ∃ held, (normalForm name, ⟨held, backend⟩) ∈ registry.entries := by
  unfold resolve at resolved
  split at resolved
  · rename_i language found
    obtain rfl := Except.ok.inj resolved
    exact ⟨language.name, Table.mem_of_find? found⟩
  · cases resolved

/-- A name that does not resolve has no entry. -/
theorem find?_of_resolve (refused : registry.resolve name = .error reason) :
    Table.find? (normalForm name) registry.entries = none := by
  unfold resolve at refused
  split at refused
  · cases refused
  · rename_i absent
    exact absent

theorem resolve_eq_ok_iff (enrols : Enrols languages registry) :
    registry.resolve name = .ok backend ↔
      ∃ language ∈ languages, normalForm language.1 = normalForm name ∧ language.2 = backend := by
  unfold resolve
  cases found : Table.find? (normalForm name) registry.entries with
  | none =>
      have absent := (enrols.find?_eq_none_iff _).mp found
      constructor
      · rintro ⟨⟩
      · rintro ⟨language, member, same, _⟩
        exact absurd same (absent language member)
  | some held =>
      obtain ⟨language, member, entry⟩ := (enrols.find?_eq_some_iff _ _).mp found
      obtain ⟨form, rfl⟩ := Prod.mk.inj entry
      constructor
      · rintro ⟨⟩
        exact ⟨language, member, form, rfl⟩
      · rintro ⟨other, among, same, rfl⟩
        have again := (enrols.find?_eq_some_iff (normalForm name) ⟨Text.trim other.1, other.2⟩).mpr
          ⟨other, among, Prod.ext same rfl⟩
        rw [found, Option.some.injEq, Language.mk.injEq] at again
        exact congrArg Except.ok again.2

theorem resolve_eq_error_iff (enrols : Enrols languages registry) :
    registry.resolve name = .error reason ↔
      reason = .unknownLanguage name ∧
        ∀ language ∈ languages, normalForm language.1 ≠ normalForm name := by
  rw [← enrols.find?_eq_none_iff, resolve]
  cases Table.find? (normalForm name) registry.entries with
  | none => simp [eq_comm]
  | some held => simp

/-- **A registry is made of languages that agree, and then holds them in order.** Some
languages are registered exactly when all are sound and no two have the same normal form.
Otherwise the reason is the objection to the first language that has one. A registry that
was made answers for a name the backend of the language with the same normal form, and that
the language is unknown if there is none. It lists every language once, under its trimmed
name, in increasing order of the normal forms, and it is the same whatever the order in which
the languages were given. -/
theorem registration (languages : List (String × Backend)) :
    ((∃ registry, ofList languages = .ok registry) ↔
      (∀ language ∈ languages, language.2.Sound) ∧
        (languages.map fun language => normalForm language.1).Nodup) ∧
    (∀ reason, ofList languages = .error reason ↔
      ∃ earlier name backend later, languages = earlier ++ (name, backend) :: later ∧
        Agreeable earlier ∧ Objection earlier name backend reason) ∧
    ∀ registry, ofList languages = .ok registry →
      (∀ name backend, registry.resolve name = .ok backend ↔
        ∃ language ∈ languages, normalForm language.1 = normalForm name ∧
          language.2 = backend) ∧
      (∀ name reason, registry.resolve name = .error reason ↔
        reason = .unknownLanguage name ∧
          ∀ language ∈ languages, normalForm language.1 ≠ normalForm name) ∧
      registry.toList.Perm (languages.map fun language => ⟨Text.trim language.1, language.2⟩) ∧
      (registry.toList.Pairwise fun first second =>
        normalForm first.name < normalForm second.name) ∧
      ∀ others : List (String × Backend), others.Perm languages →
        ofList others = .ok registry := by
  refine ⟨?_, fun reason => ofList_eq_error_iff, fun registry made => ?_⟩
  · rw [exists_ofList_iff]
    exact ⟨fun ⟨sound, apart⟩ => ⟨sound, apart⟩, fun ⟨sound, apart⟩ => ⟨sound, apart⟩⟩
  · have enrols := enrols_of_ofList made
    refine ⟨fun _ _ => resolve_eq_ok_iff enrols, fun _ _ => resolve_eq_error_iff enrols, ?_, ?_,
      fun others same => ?_⟩
    · have listed := enrols.holds.map (·.2)
      rwa [List.map_map] at listed
    · rw [← List.pairwise_map, enrols.map_normalForm, List.pairwise_map]
      exact enrols.ordered
    · have agreeable := (exists_ofList_iff.mp ⟨registry, made⟩).perm same
      obtain ⟨other, madeToo⟩ := exists_ofList_iff.mpr agreeable
      rw [madeToo, enrols.unique (enrols_of_ofList madeToo) same]

/-- Two languages that agree. -/
def pair : List (String × Backend) :=
  [(" Rust ", .ephemeral ⟨"main.rs", "library.rs", ["cargo", "run"], ["cargo", "--version"]⟩),
    ("Ada", .worker ["ada-worker"] "ada" none)]

/-- Two languages are registered, in either order, and answered for under any spelling. -/
theorem registration_pair :
    ∃ registry, ofList pair = .ok registry ∧
      registry.resolve "ADA" = .ok (.worker ["ada-worker"] "ada" none) ∧
      registry.resolve " C " = .error (.unknownLanguage " C ") ∧
      registry.toList.Perm (pair.map fun language => ⟨Text.trim language.1, language.2⟩) ∧
      ofList pair.reverse = .ok registry := by
  obtain ⟨accepted, _, afterwards⟩ := registration pair
  have rust : normalForm " Rust " = "rust" := by decide +kernel
  have ada : normalForm "Ada" = "ada" := by decide +kernel
  have shouted : normalForm "ADA" = "ada" := by decide +kernel
  have c : normalForm " C " = "c" := by decide +kernel
  have sound : ∀ language ∈ pair, language.2.Sound := by
    intro language member
    have reported : ∀ language ∈ pair, language.2.defect? = none := by
      simp [pair, Backend.defect?, Backend.fileDefect?, Backend.mainCommand]
    exact Backend.defect?_eq_none_iff.mp (reported language member)
  have apart : (pair.map fun language => normalForm language.1).Nodup := by simp [pair, rust, ada]
  obtain ⟨registry, made⟩ := accepted.mpr ⟨sound, apart⟩
  obtain ⟨found, unknown, listed, _, reordered⟩ := afterwards registry made
  refine ⟨registry, made, (found _ _).mpr ?_, (unknown _ _).mpr ⟨rfl, ?_⟩, listed,
    reordered _ (List.reverse_perm pair)⟩
  · exact ⟨("Ada", .worker ["ada-worker"] "ada" none), by simp [pair], ada.trans shouted.symm, rfl⟩
  · simp [pair, rust, ada, c]

end Registry

end Polyglot
