import Polyglot.Proofs.Entries
import Polyglot.Proofs.Lifecycle

/-!
# What is made for a job

Before the command of a job is started, a run makes the missing directories on the way to
the root, then one directory below the root under a name of its own, and then the files of
the job. Everything that is made after the root is that one directory or strictly below it
(`Runner.exists_makes_prepare`), whatever the language and the file names are: the name of
the directory is plain, and a file name that leads elsewhere is refused before anything is
made for it (`Workspace.run_writeFile_of_escapes`).

Writing one file makes the missing directories above it, and then the file where its path
leads (`Created.exists_makes_writeFile`).
-/

set_option autoImplicit false

namespace Polyglot

open Polyglot.Host (Tree Node Location Ordinary Platform)
open Polyglot.Host.Tree

/-! ## Names -/

/-- The characters in the name of a language. -/
def IsPlainChar (c : Char) : Prop :=
  ('a' ≤ c ∧ c ≤ 'z') ∨ ('0' ≤ c ∧ c ≤ '9') ∨ c = '_'

theorem isPlainChar_plainChar (c : Char) : IsPlainChar (plainChar c) := by
  unfold plainChar
  split
  · rename_i letter
    unfold Char.toLower
    split
    · rename_i upper
      have bounds : 65 ≤ c.val.toNat ∧ c.val.toNat ≤ 90 := upper
      have shifted : (c.val + ('a'.val - 'A'.val)).toNat = c.val.toNat + 32 := by
        rw [UInt32.toNat_add, show ('a'.val - 'A'.val).toNat = 32 from rfl]
        omega
      refine .inl ⟨?_, ?_⟩
      · rw [Char.le_def, UInt32.le_iff_toNat_le, shifted]
        exact Nat.add_le_add_right bounds.1 32
      · rw [Char.le_def, UInt32.le_iff_toNat_le, shifted]
        exact Nat.add_le_add_right bounds.2 32
    · rename_i other
      rcases Bool.or_eq_true_iff.mp letter with alpha | digit
      · rcases Bool.or_eq_true_iff.mp alpha with upper | lower
        · exact absurd (of_decide_eq_true upper) other
        · obtain ⟨least, greatest⟩ := Bool.and_eq_true_iff.mp lower
          exact .inl ⟨of_decide_eq_true least, of_decide_eq_true greatest⟩
      · obtain ⟨least, greatest⟩ := Bool.and_eq_true_iff.mp digit
        exact .inr (.inl ⟨of_decide_eq_true least, of_decide_eq_true greatest⟩)
  · exact .inr (.inr rfl)

theorem plainName_spec (language : String) :
    (plainName language).length = language.length ∧
      ∀ c ∈ (plainName language).toList, IsPlainChar c := by
  refine ⟨?_, fun c member => ?_⟩
  · rw [plainName, ← String.length_toList, String.toList_map, List.length_map,
      String.length_toList]
  · rw [plainName, String.toList_map, List.mem_map] at member
    obtain ⟨old, _, rfl⟩ := member
    exact isPlainChar_plainChar old

/-- A file name that starts at the root or with a single point, or goes upwards somewhere. -/
def Path.Escapes (file : String) : Prop :=
  isAbsolute file = true ∨ (pieces file).head? = some "." ∨ ".." ∈ pieces file

theorem Path.escapes_iff {file : String} : Escapes file ↔ isInside file = false := by
  rw [← Bool.not_eq_true, isInside_iff, Escapes]
  simp only [not_and_or, Bool.not_eq_false, not_not]

theorem Workspace.run_writeFile_of_escapes {file : String} (escapes : Path.Escapes file)
    (directory path contents : String) (tree : Tree) :
    (writeFile directory path file contents).run.run tree =
      (.error (.workspace ("File name escapes the workspace: " ++ file)), tree) := by
  rw [run_writeFile, Path.escapes_iff.mp escapes, if_neg Bool.false_ne_true]

/-! ## One file of a job -/

/-- A place inside of a directory. -/
def Below (place there : Location) : Prop :=
  place <+: there ∧ there ≠ place

/-- A file is put below a place where its path leads, after missing directories were made
below that place. -/
structure Written (place : Location) (directory path file contents : String)
    (middle after : Tree) (there : Location) : Prop where
  inside : Path.isInside file = true
  admissible : Admissible (Path.join path file)
  plain : Path.endsInSlash (Path.join path file) = false
  arrives : ∃ node, middle.Arrives true (stepsOf directory (Path.join path file)) there node
  below : Below place there
  made : (Entry.file there (Text.utf8 contents)).Made middle after

namespace Created

variable {directory root name : String} {rooted made tree : Tree} {home : Location}

theorem made_directory (created : Created directory root name rooted made home)
    (outcome : rooted.makeDirectory directory (Path.join root name) = .ok made) :
    (Entry.directory (home ++ [name])).Made rooted made := by
  obtain ⟨place, one, stands⟩ := exists_makes_makeDirectory outcome
  obtain ⟨entries, _, _, leads⟩ := place?_eq_some_iff.mp stands
  obtain ⟨others, _, _, reaches⟩ := created.arrives_directory created.prepared.toWithin true
  rw [← (leads.unique reaches).1]
  exact one

/-- Making the directories above a file of the job makes directories below its directory. -/
theorem exists_makes_ensureParent (created : Created directory root name rooted made home)
    (prepared : Prepared (home ++ [name]) rooted tree) {file : String}
    (inside : Path.isInside file = true) {ensured : Tree}
    (done : (tree.ensureDirectory directory
      (Workspace.parentOf (Path.join (Path.join root name) file))).2 = ensured) :
    Prepared (home ++ [name]) rooted ensured ∧ ∃ parents : List Location,
      Makes tree (parents.map .directory) ensured ∧
      ∀ parent ∈ parents, Below (home ++ [name]) parent := by
  subst done
  have filled : Path.join root name ≠ "" := by
    simpa using created.admissible.filled
  have front : ∀ later, Prepared (home ++ [name]) rooted later → ∃ cost entries,
      Leads later true cost [] (stepsOf directory (Path.join root name)) (home ++ [name])
        (some (.directory entries)) := by
    intro later prepared
    obtain ⟨entries, cost, _, leads⟩ := created.arrives_directory prepared.toWithin true
    exact ⟨cost, entries, leads⟩
  have again : Prepared (home ++ [name]) tree (tree.ensureDirectory directory
      (Workspace.parentOf (Path.join (Path.join root name) file))).2 :=
    Prepared.ensureParent ⟨⟨.refl _ _, prepared.stands⟩, prepared.linkless⟩ filled inside
      fun later changed => front later ⟨⟨prepared.only.trans changed.only, changed.stands⟩,
        changed.linkless⟩
  obtain ⟨parents, makes, _⟩ := exists_makes_ensureDirectory tree directory
    (Workspace.parentOf (Path.join (Path.join root name) file))
  refine ⟨⟨⟨prepared.only.trans again.only, again.stands⟩, again.linkless⟩, parents, makes,
    fun parent member => ⟨makes.prefix_of_mem again.only member, ?_⟩⟩
  rintro rfl
  obtain ⟨entries, stands⟩ := prepared.stands
  rw [(makes.of_mem member).1] at stands
  cases stands

/-- **Writing a file for the job makes the missing directories above it and then the file**,
all below the directory of the job. When it fails, only such directories are made. -/
theorem exists_makes_writeFile (created : Created directory root name rooted made home)
    (prepared : Prepared (home ++ [name]) rooted tree) (ordinary : Ordinary (home ++ [name]) tree)
    (file contents : String) :
    ∃ (parents : List Location) (middle : Tree), Makes tree (parents.map .directory) middle ∧
      (∀ parent ∈ parents, Below (home ++ [name]) parent) ∧
      Prepared (home ++ [name]) rooted middle ∧
      ((∃ failure, (Workspace.writeFile directory (Path.join root name) file contents).run.run
          tree = (.error failure, middle)) ∨
        ∃ after there, (Workspace.writeFile directory (Path.join root name) file
            contents).run.run tree = (.ok (), after) ∧
          Written (home ++ [name]) directory (Path.join root name) file contents middle after
            there) := by
  simp only [Workspace.run_writeFile]
  cases inside : Path.isInside file with
  | false => exact ⟨[], tree, .nil tree, List.forall_mem_nil _, prepared, .inl ⟨_, rfl⟩⟩
  | true =>
      rw [if_pos rfl]
      rcases ensured : tree.ensureDirectory directory
        (Workspace.parentOf (Path.join (Path.join root name) file)) with ⟨answer, middle⟩
      obtain ⟨again, parents, makes, below⟩ :=
        created.exists_makes_ensureParent prepared inside (congrArg Prod.snd ensured)
      refine ⟨parents, middle, makes, below, again, ?_⟩
      cases answer with
      | error reason => exact .inl ⟨_, rfl⟩
      | ok done =>
          dsimp only
          cases outcome : middle.write directory (Path.join (Path.join root name) file)
            (Text.utf8 contents) false with
          | error reason => exact .inl ⟨_, rfl⟩
          | ok after =>
              obtain ⟨relative, down⟩ := relative_of_isInside inside
              obtain ⟨entries, _, _, front⟩ := created.arrives_directory again.toWithin true
              have within : ∀ there node, middle.Arrives true
                  (stepsOf directory (Path.join (Path.join root name) file)) there node →
                  home ++ [name] <+: there := by
                rintro there node ⟨_, _, leads⟩
                rw [stepsOf_join relative] at leads
                exact front.under again.linkless down leads
              obtain ⟨admissible, plain, there, node, arrives, leads, other, put⟩ :=
                again.made_write (makes.ordinary ordinary) within outcome
              exact .inr ⟨after, there, rfl, inside, admissible, plain, ⟨node, arrives⟩,
                ⟨leads, other⟩, put⟩

/-- Whatever is made when a file is written for the job is below its directory. -/
theorem exists_below_writeFile (created : Created directory root name rooted made home)
    (prepared : Prepared (home ++ [name]) rooted tree) (ordinary : Ordinary (home ++ [name]) tree)
    (file contents : String) :
    ∃ entries, Makes tree entries
        ((Workspace.writeFile directory (Path.join root name) file contents).run.run tree).2 ∧
      ∀ entry ∈ entries, Below (home ++ [name]) entry.place := by
  obtain ⟨parents, middle, makes, below, _, ⟨failure, ran⟩ | ⟨after, there, ran, written⟩⟩ :=
    created.exists_makes_writeFile prepared ordinary file contents
  · refine ⟨parents.map .directory, by rw [ran]; exact makes, ?_⟩
    intro entry member
    obtain ⟨parent, among, rfl⟩ := List.mem_map.mp member
    exact below parent among
  · refine ⟨parents.map .directory ++ [.file there (Text.utf8 contents)], ?_, ?_⟩
    · rw [ran]
      exact makes.append (.cons written.made (.nil after))
    · intro entry member
      rcases List.mem_append.mp member with earlier | last
      · obtain ⟨parent, among, rfl⟩ := List.mem_map.mp earlier
        exact below parent among
      · rw [List.mem_singleton.mp last]
        exact written.below

end Created

/-! ## The whole job -/

namespace Runner

variable {platform : Platform} {runner : Runner} {clock : Nat} {tree made : Tree} {job : Job}
variable {build : Build} {program : String} {arguments : List String} {home : Location}

/-- Runs the command of a job, and removes the directory on success. -/
def finish (platform : Platform) (runner : Runner) (path program : String)
    (arguments : List String) : Filing String := do
  let output ← execute platform runner.timeoutMs path program arguments
  Workspace.remove platform.directory path
  pure output

/-- A run prepares the directory, and goes on with the command when that succeeds. -/
theorem run_of_prepare (command : build.command = program :: arguments) :
    run platform runner clock tree job build =
      match (prepare platform runner (runner.pathFor clock job) job build).run.run tree with
      | (.error failure, filled) =>
        (.error failure, { runner with lastStamp := Stamp.next runner.lastStamp clock }, filled)
      | (.ok _, filled) =>
        let ran := (finish platform runner (runner.pathFor clock job) program arguments).run.run
          filled
        (ran.1, { runner with lastStamp := Stamp.next runner.lastStamp clock }, ran.2) := by
  have stages : runIn platform runner (runner.pathFor clock job) job build program arguments =
      prepare platform runner (runner.pathFor clock job) job build >>= fun _ =>
        finish platform runner (runner.pathFor clock job) program arguments := by
    rw [runIn_eq, attempt, bind_assoc]
    rfl
  rw [run_eq_runIn command, stages]
  rcases prepared : (prepare platform runner (runner.pathFor clock job) job build).run.run tree with
    ⟨failure | done, filled⟩
  · rw [Filing.run_bind_error prepared]
  · rw [Filing.run_bind_ok prepared]

theorem prepare_of_refused (job : Job) (build : Build) {path : String} {failure : Failure}
    (refused : (Workspace.create platform.directory runner.root path).run.run tree =
      (.error failure, made)) :
    (prepare platform runner path job build).run.run tree = (.error failure, made) ∧
      made = (tree.ensureDirectory platform.directory runner.root).2 := by
  rw [prepare, Filing.run_bind_error refused]
  rcases Workspace.create_cases refused with ⟨_, _, same⟩ | ⟨⟨⟩, _⟩
  exact ⟨rfl, same⟩

/-- After the directory is made, everything that is made is below it. -/
theorem exists_makes_prepare (build : Build)
    (ran : (Workspace.create platform.directory runner.root (runner.pathFor clock job)).run.run tree =
      (.ok (), made)) :
    let rooted := (tree.ensureDirectory platform.directory runner.root).2
    let place := home ++ [runner.nameFor clock job]
    Created platform.directory runner.root (runner.nameFor clock job) rooted made home →
    ∃ entries, Makes rooted (.directory place :: entries)
        ((prepare platform runner (runner.pathFor clock job) job build).run.run tree).2 ∧
      ∀ entry ∈ entries, Below place entry.place := by
  intro rooted place created
  rcases Workspace.create_cases ran with ⟨_, ⟨⟩, _⟩ | ⟨_, outcome⟩
  have first := created.made_directory outcome
  have ordinary := first.ordinary_of_directory
  have prepared := created.writeFile created.prepared build.entryFile job.code
  obtain ⟨entered, makes, below⟩ :=
    created.exists_below_writeFile created.prepared ordinary build.entryFile job.code
  rw [run_prepare ran, pathFor_eq]
  generalize (Workspace.writeFile platform.directory
    (Path.join runner.root (runner.nameFor clock job)) build.entryFile job.code).run.run made = entry
    at makes prepared ⊢
  obtain ⟨failure | done, middle⟩ := entry
  · exact ⟨entered, .cons first makes, below⟩
  · obtain ⟨others, further, lower⟩ := created.exists_below_writeFile prepared
      (makes.ordinary ordinary) build.libraryFile job.library
    refine ⟨entered ++ others, .cons first (makes.append further), fun entry member => ?_⟩
    exact (List.mem_append.mp member).elim (below entry) (lower entry)

/-- A name that leads elsewhere ends the run before anything is made for it: for the first
file when the directory was made, for the second one when the first file was written. -/
theorem prepare_of_escapes :
    (∀ made, (Workspace.create platform.directory runner.root (runner.pathFor clock job)).run.run
        tree = (.ok (), made) → Path.Escapes build.entryFile →
      (prepare platform runner (runner.pathFor clock job) job build).run.run tree =
        (.error (.workspace ("File name escapes the workspace: " ++ build.entryFile)), made)) ∧
    (∀ made entered, (Workspace.create platform.directory runner.root
        (runner.pathFor clock job)).run.run tree = (.ok (), made) →
      (Workspace.writeFile platform.directory (runner.pathFor clock job) build.entryFile
        job.code).run.run made = (.ok (), entered) → Path.Escapes build.libraryFile →
      (prepare platform runner (runner.pathFor clock job) job build).run.run tree =
        (.error (.workspace ("File name escapes the workspace: " ++ build.libraryFile)),
          entered)) := by
  refine ⟨fun made ran escapes => ?_, fun made entered ran entry escapes => ?_⟩
  · rw [run_prepare ran, Workspace.run_writeFile_of_escapes escapes]
  · rw [run_prepare ran, entry]
    exact Workspace.run_writeFile_of_escapes escapes _ _ _ _

/-- **Nothing is made outside of the directory of the job.** A run without a command makes
nothing; any other run prepares the directory and then goes on with its command. Making the
root makes directories only, where the root or one of its ancestors leads. After that, at
most one directory is made where the root leads, under the name of the stamp and the
language, and everything else that is made before the command is strictly below it. For every
character of the language there is one plain character in the name. A file name that leads
elsewhere is refused, and nothing is made for it. -/
theorem prepares_inside (platform : Platform) (runner : Runner) (clock : Nat) (tree : Tree)
    (job : Job) (build : Build) :
    let directory := platform.directory
    let stamp := Stamp.next runner.lastStamp clock
    let path := runner.pathFor clock job
    let name := runner.nameFor clock job
    let rooted := (tree.ensureDirectory directory runner.root).2
    let created := (Workspace.create directory runner.root path).run.run tree
    let prepared := (prepare platform runner path job build).run.run tree
    (build.command = [] → (run platform runner clock tree job build).2.2 = tree) ∧
    (∀ program arguments, build.command = program :: arguments →
      run platform runner clock tree job build =
        match prepared with
        | (.error failure, filled) => (.error failure, { runner with lastStamp := stamp }, filled)
        | (.ok _, filled) =>
          let ran := (finish platform runner path program arguments).run.run filled
          (ran.1, { runner with lastStamp := stamp }, ran.2)) ∧
    (∃ places : List Location, Makes tree (places.map .directory) rooted ∧
      ∀ place ∈ places, ∃ ancestor ∈ runner.root :: (ancestry runner.root).drop 1,
        rooted.place? directory ancestor = some place) ∧
    (prepared.2 = rooted ∨ ∃ home entries, rooted.place? directory runner.root = some home ∧
      Makes rooted (.directory (home ++ [name]) :: entries) prepared.2 ∧
      ∀ entry ∈ entries, Below (home ++ [name]) entry.place) ∧
    (name = toString stamp ++ "_" ++ plainName job.language ∧
      (plainName job.language).length = job.language.length ∧
      ∀ c ∈ (plainName job.language).toList, IsPlainChar c) ∧
    (∀ (path file contents : String) (filled : Tree), Path.Escapes file →
      (Workspace.writeFile directory path file contents).run.run filled =
        (.error (.workspace ("File name escapes the workspace: " ++ file)), filled)) ∧
    (∀ made, created = (.ok (), made) → Path.Escapes build.entryFile →
      prepared =
        (.error (.workspace ("File name escapes the workspace: " ++ build.entryFile)), made)) ∧
    (∀ made entered, created = (.ok (), made) →
      (Workspace.writeFile directory path build.entryFile job.code).run.run made =
        (.ok (), entered) → Path.Escapes build.libraryFile →
      prepared =
        (.error (.workspace ("File name escapes the workspace: " ++ build.libraryFile)),
          entered)) := by
  intro directory stamp path name rooted created prepared
  have inside : prepared.2 = rooted ∨ ∃ home entries,
      rooted.place? directory runner.root = some home ∧
      Makes rooted (.directory (home ++ [name]) :: entries) prepared.2 ∧
      ∀ entry ∈ entries, Below (home ++ [name]) entry.place := by
    rcases ran : (Workspace.create directory runner.root path).run.run tree with
      ⟨failure | done, made⟩
    · obtain ⟨ended, same⟩ := prepare_of_refused job build ran
      exact .inl ((congrArg Prod.snd ended).trans same)
    · obtain ⟨home, begun⟩ := exists_created_of_create ran
      obtain ⟨entries, makes, below⟩ := exists_makes_prepare build ran begun
      exact .inr ⟨home, entries, begun.place?_root (.refl _ _), makes, below⟩
  exact ⟨fun command => by rw [run_of_empty command], fun _ _ => run_of_prepare,
    exists_makes_ensureDirectory tree directory runner.root, inside,
    ⟨rfl, plainName_spec job.language⟩,
    fun path file contents filled escapes =>
      Workspace.run_writeFile_of_escapes escapes directory path contents filled,
    prepare_of_escapes.1, prepare_of_escapes.2⟩

/-- A runner that keeps its directories in the shared root. -/
def sharing : Runner :=
  ⟨"/work", some 1000, 0⟩

/-- A job in a language with blanks and signs in its name. -/
def signed : Job :=
  ⟨"C++ 17", "X", "Y", "", ""⟩

/-- A build whose library would go up and out of its directory. -/
def upwards : Build :=
  ⟨"src//main.txt", "lib/../../one.txt", ["./show"], ["./show"]⟩

/-- Such a job is refused when its code is written, in a directory below the root. -/
theorem prepares_inside_upwards :
    Path.Escapes upwards.libraryFile ∧
    (run showing sharing 7 sharedRoot signed upwards).1 =
      .error (.workspace "File name escapes the workspace: lib/../../one.txt") ∧
    ∃ home entries, sharedRoot.place? "/" "/work" = some home ∧
      Makes sharedRoot (.directory (home ++ ["7_c___17"]) :: entries)
        (run showing sharing 7 sharedRoot signed upwards).2.2 ∧
      ∀ entry ∈ entries, Below (home ++ ["7_c___17"]) entry.place := by
  obtain ⟨_, command, _, inside, _, _, _, second⟩ :=
    prepares_inside showing sharing 7 sharedRoot signed upwards
  have stands : sharedRoot.place? showing.directory sharing.root = some ["work"] := by
    decide +kernel
  have rooted : (sharedRoot.ensureDirectory showing.directory sharing.root).2 = sharedRoot :=
    makeChain_of_place stands (by decide) ((ancestry "/work").drop 1)
  have named : sharing.nameFor 7 signed = "7_c___17" := by
    decide +kernel
  have upward : Path.Escapes upwards.libraryFile := .inr (.inr (by decide +kernel))
  obtain ⟨made, entered, creates, enters, holds⟩ : ∃ made entered,
      (Workspace.create showing.directory sharing.root (sharing.pathFor 7 signed)).run.run
        sharedRoot = (.ok (), made) ∧
      (Workspace.writeFile showing.directory (sharing.pathFor 7 signed) upwards.entryFile
        signed.code).run.run made = (.ok (), entered) ∧
      (entered.held showing.directory sharing.root "7_c___17").isSome = true :=
    ⟨_, _, Prod.ext (by decide +kernel) rfl, Prod.ext (by decide +kernel) rfl, by decide +kernel⟩
  have ran := command "./show" [] rfl
  rw [second made entered creates enters upward] at inside ran
  rw [ran]
  rw [named, rooted] at inside
  have worded : "File name escapes the workspace: " ++ upwards.libraryFile =
      "File name escapes the workspace: lib/../../one.txt" := by
    decide +kernel
  refine ⟨upward, by rw [worded], inside.resolve_left ?_⟩
  rintro rfl
  exact absurd holds (by decide +kernel)

end Runner

end Polyglot
