import Polyglot.Proofs.Furnishing
import Polyglot.Registry

/-!
# The files of a job when its command starts

Below the directory of a job there are no links, so a file name leads to the directory with
the names of its components put behind (`Created.arrives_file`). It still leads there after
more was made, since directories stay directories.

The file with the library is written last and arrives as it is. The file with the code
arrives as it is too, unless both names have the same components: then there is one file,
and it holds the library (`Runner.read_sources`). The registry compares the names as texts,
so it takes such a build (`Runner.read_sources_twice_named`).
-/

set_option autoImplicit false

namespace Polyglot

open Polyglot.Host (Tree Node Location Linkless Ordinary Platform)
open Polyglot.Host.Tree

/-! ## Steps inside of a directory without links -/

/-- Below a place without links, steps that do not go upwards put their names behind, and
they do so as long as directories stay directories. -/
theorem Host.Tree.Leads.persists {tree after : Tree} {place here there : Location} {cost : Nat}
    {steps : List String} {node : Option Node} (leads : Leads tree true cost here steps there node)
    (linkless : Linkless place tree) (still : Linkless place after)
    (stays : ∀ location entries, tree.get? location = some (.directory entries) →
      ∃ others, after.get? location = some (.directory others))
    (within : place <+: here) (down : ".." ∉ steps) :
    there = here ++ steps.filter (fun step => step != ".") ∧
      Leads after true steps.length here steps there (after.get? there) := by
  induction leads with
  | here place => exact ⟨(List.append_nil place).symm, .here place⟩
  | current stands further ih =>
      obtain ⟨others, standing⟩ := stays _ _ stands
      obtain ⟨same, leads⟩ := ih within fun up => down (List.mem_cons_of_mem _ up)
      exact ⟨same, .current standing leads⟩
  | parent stands further ih => exact absurd List.mem_cons_self down
  | @missing here step entries stands name absent =>
      obtain ⟨others, standing⟩ := stays _ _ stands
      refine ⟨by simp [name.current], ?_⟩
      rw [Node.get?_concat standing]
      refine .of_name standing name (.inr fun target => ?_)
      rw [← Node.get?_concat standing]
      exact still _ target (within.trans (List.prefix_append _ _))
  | link stands name found last => cases last
  | through stands name found goes_on further ih =>
      rw [← Node.get?_concat stands] at found
      exact absurd found (linkless _ _ (within.trans (List.prefix_append _ _)))
  | @enter cost here there step rest node entries child stands name found plain further ih =>
      obtain ⟨others, standing⟩ := stays _ _ stands
      have inner := within.trans (List.prefix_append here [step])
      obtain ⟨same, leads⟩ := ih inner fun up => down (List.mem_cons_of_mem _ up)
      refine ⟨by simp [same, name.current], ?_⟩
      have linked : ∀ target, Table.find? step others ≠ some (.link target) := by
        intro target
        rw [← Node.get?_concat standing]
        exact still _ target inner
      -- A directory on the way still stands; at the end anything may stand by now, or nothing.
      cases rest with
      | nil =>
          cases leads
          rw [Node.get?_concat standing]
          exact .of_name standing name (.inr linked)
      | cons next rest =>
          obtain ⟨entered, deeper⟩ := leads.exists_entries
          rw [Node.get?_concat standing] at deeper
          exact .enter standing name deeper (by rintro target ⟨⟩) leads

theorem Host.Tree.read_of_arrives {tree : Tree} {directory path : String} {there : Location}
    {contents : Text.Bytes} {executable : Bool} (admissible : Admissible path)
    (plain : Path.endsInSlash path = false)
    (arrives : tree.Arrives true (stepsOf directory path) there
      (some (.file contents executable))) : tree.read directory path = .ok contents := by
  have found : tree.lookup directory path = .ok (there, .file contents executable) :=
    lookup_eq_ok_iff.mpr ⟨admissible, arrives, by simp [plain]⟩
  rw [Tree.read, found]
  rfl

/-! ## Where a file name leads -/

/-- The location of a file name below a place. -/
def placeOf (place : Location) (file : String) : Location :=
  place ++ Path.names (Path.components file)

/-- Names that stay inside have the same location only when they have the same components. -/
theorem placeOf_inj {place : Location} {file other : String} (inside : Path.isInside file = true)
    (further : Path.isInside other = true) :
    placeOf place file = placeOf place other ↔ Path.components file = Path.components other := by
  refine ⟨fun same => ?_, fun same => by rw [placeOf, placeOf, same]⟩
  have names := List.append_cancel_left same
  rw [Path.components_of_isInside inside, Path.components_of_isInside further, Path.names_inner,
    Path.names_inner] at names
  rw [Path.components_of_isInside inside, Path.components_of_isInside further, Path.inner, names,
    Path.inner]

namespace Created

variable {directory root name file contents : String} {rooted made tree middle after later : Tree}
variable {home there : Location}

/-- A file that is written is put where its name leads, after directories were made. -/
theorem exists_written (created : Created directory root name rooted made home)
    (prepared : Prepared (home ++ [name]) rooted tree) (ordinary : Ordinary (home ++ [name]) tree)
    (ran : (Workspace.writeFile directory (Path.join root name) file contents).run.run tree =
      (.ok (), after)) :
    ∃ (parents : List Location) (middle : Tree) (there : Location),
      Makes tree (parents.map .directory) middle ∧ Prepared (home ++ [name]) rooted middle ∧
      Written (home ++ [name]) directory (Path.join root name) file contents middle after there := by
  obtain ⟨parents, middle, makes, _, between, ⟨_, failed⟩ | ⟨_, there, wrote, written⟩⟩ :=
    created.exists_makes_writeFile prepared ordinary file contents
  · cases failed.symm.trans ran
  · obtain rfl : _ = after := congrArg Prod.snd (wrote.symm.trans ran)
    exact ⟨parents, middle, there, makes, between, written⟩

/-- A file name leads to its location below the directory, also when more was made since. -/
theorem arrives_file (created : Created directory root name rooted made home)
    (prepared : Prepared (home ++ [name]) rooted middle)
    (written : Written (home ++ [name]) directory (Path.join root name) file contents middle after
      there)
    (changed : Prepared (home ++ [name]) rooted later)
    (stays : ∀ location entries, middle.get? location = some (.directory entries) →
      ∃ others, later.get? location = some (.directory others)) :
    there = placeOf (home ++ [name]) file ∧
      later.Arrives true (stepsOf directory (Path.join (Path.join root name) file)) there
        (later.get? there) := by
  obtain ⟨relative, down⟩ := relative_of_isInside written.inside
  obtain ⟨node, _, _, leads⟩ := written.arrives
  obtain ⟨_, _, _, front⟩ := created.arrives_directory prepared.toWithin true
  obtain ⟨_, cost, within, again⟩ := created.arrives_directory changed.toWithin true
  rw [stepsOf_join relative] at leads ⊢
  have deeper : Path.pieces file ≠ [] := by
    intro none
    rw [none, List.append_nil] at leads
    exact written.below.2 (leads.unique front).1
  obtain ⟨_, _, between, _, _, reaches, goes_on⟩ := leads.split deeper
  obtain ⟨rfl, _⟩ := front.unique reaches
  obtain ⟨same, further⟩ :=
    goes_on.persists prepared.linkless changed.linkless stays List.prefix_rfl down
  refine ⟨?_, cost + (Path.pieces file).length, ?_, again.append further deeper⟩
  · rw [same, placeOf, Path.components_of_isInside written.inside, Path.names_inner]
  · rw [List.length_append]
    omega

theorem read_file (created : Created directory root name rooted made home)
    (prepared : Prepared (home ++ [name]) rooted middle)
    (written : Written (home ++ [name]) directory (Path.join root name) file contents middle after
      there)
    (changed : Prepared (home ++ [name]) rooted later)
    (stays : ∀ location entries, middle.get? location = some (.directory entries) →
      ∃ others, later.get? location = some (.directory others))
    {held : Text.Bytes} {executable : Bool}
    (stands : later.get? there = some (.file held executable)) :
    later.read directory (Path.join (Path.join root name) file) = .ok held := by
  obtain ⟨_, arrives⟩ := created.arrives_file prepared written changed stays
  rw [stands] at arrives
  exact read_of_arrives written.admissible written.plain arrives

end Created

/-! ## Both files of a job -/

namespace Runner

variable {platform : Platform} {runner : Runner} {clock : Nat} {tree filled : Tree} {job : Job}
variable {build : Build}

/-- The file with the code is written first, and then the file with the library, each after
the missing directories on its way. -/
theorem exists_sources
    (prepared : (prepare platform runner (runner.pathFor clock job) job build).run.run tree =
      (.ok (), filled)) :
    ∃ (rooted made before entered between : Tree) (home first second : Location)
      (parents : List Location),
      Created platform.directory runner.root (runner.nameFor clock job) rooted made home ∧
      Prepared (home ++ [runner.nameFor clock job]) rooted before ∧
      Written (home ++ [runner.nameFor clock job]) platform.directory (runner.pathFor clock job)
        build.entryFile job.code before entered first ∧
      Makes entered (parents.map .directory) between ∧
      Prepared (home ++ [runner.nameFor clock job]) rooted between ∧
      Written (home ++ [runner.nameFor clock job]) platform.directory (runner.pathFor clock job)
        build.libraryFile job.library between filled second ∧
      Prepared (home ++ [runner.nameFor clock job]) rooted filled := by
  obtain ⟨_, made, creation, filing⟩ := Filing.run_bind_eq_ok_iff.mp prepared
  obtain ⟨_, entered, entry, library⟩ := Filing.run_bind_eq_ok_iff.mp filing
  obtain ⟨home, created⟩ := exists_created_of_create creation
  rcases Workspace.create_cases creation with ⟨_, ⟨⟩, _⟩ | ⟨_, outcome⟩
  have ordinary := (created.made_directory outcome).ordinary_of_directory
  obtain ⟨_, before, first, makes, beforeEntry, code⟩ :=
    created.exists_written created.prepared ordinary entry
  have afterEntry := created.writeFile created.prepared build.entryFile job.code
  rw [← pathFor_eq, entry] at afterEntry
  obtain ⟨parents, between, second, others, beforeLibrary, lines⟩ :=
    created.exists_written afterEntry (code.made.ordinary (makes.ordinary ordinary)) library
  have afterLibrary := created.writeFile afterEntry build.libraryFile job.library
  rw [← pathFor_eq, library] at afterLibrary
  exact ⟨_, made, before, entered, between, home, first, second, parents, created, beforeEntry,
    code, others, beforeLibrary, lines, afterLibrary⟩

/-- The file with the library holds the library. -/
theorem read_library
    (prepared : (prepare platform runner (runner.pathFor clock job) job build).run.run tree =
      (.ok (), filled)) :
    filled.read platform.directory (Path.join (runner.pathFor clock job) build.libraryFile) =
      .ok (Text.utf8 job.library) := by
  obtain ⟨_, _, _, _, _, _, _, _, _, created, _, _, _, beforeLibrary, lines, afterLibrary⟩ :=
    exists_sources prepared
  obtain ⟨flag, holds⟩ := lines.made.of_file
  exact created.read_file beforeLibrary lines afterLibrary (fun _ _ => lines.made.exists_directory)
    holds

/-- The file with the code holds the code, or the library when both names lead to one file. -/
theorem read_entry
    (prepared : (prepare platform runner (runner.pathFor clock job) job build).run.run tree =
      (.ok (), filled)) :
    filled.read platform.directory (Path.join (runner.pathFor clock job) build.entryFile) =
      .ok (Text.utf8 (if Path.components build.entryFile = Path.components build.libraryFile
        then job.library else job.code)) := by
  obtain ⟨_, _, before, _, _, _, first, second, _, created, beforeEntry, code, others,
    beforeLibrary, lines, afterLibrary⟩ := exists_sources prepared
  -- What is made after the code: directories, and the file with the library.
  have last : Makes _ [.file second (Text.utf8 job.library)] filled :=
    .cons lines.made (.nil filled)
  have behind := others.append last
  obtain ⟨flag, holds⟩ := lines.made.of_file
  have stays : ∀ location entries, before.get? location = some (.directory entries) →
      ∃ others, filled.get? location = some (.directory others) := by
    intro location entries stands
    obtain ⟨_, still⟩ := code.made.exists_directory stands
    exact behind.exists_directory still
  have place := (created.arrives_file beforeEntry code afterLibrary stays).1
  have other := (created.arrives_file beforeLibrary lines afterLibrary
    (fun _ _ => last.exists_directory)).1
  by_cases same : Path.components build.entryFile = Path.components build.libraryFile
  · rw [if_pos same]
    have one : first = second := by rw [place, other, placeOf, placeOf, same]
    exact created.read_file beforeEntry code afterLibrary stays (one ▸ holds)
  · rw [if_neg same]
    have apart : second ≠ first := by
      rw [place, other]
      exact fun one => same ((placeOf_inj code.inside lines.inside).mp one.symm)
    obtain ⟨flag, stood⟩ := code.made.of_file
    refine created.read_file beforeEntry code afterLibrary stays (behind.get?_file stood ?_)
    intro entry member
    rcases List.mem_append.mp member with earlier | later
    · -- A directory is made where nothing stood, and the file with the code stands.
      obtain ⟨parent, among, rfl⟩ := List.mem_map.mp earlier
      rintro rfl
      obtain ⟨missing, _⟩ := others.of_mem among
      exact absurd (missing.symm.trans stood) nofun
    · rw [List.mem_singleton.mp later]
      exact apart

/-- **The library arrives as it is, and so does the code unless both names lead to one file.**
The command of a job is started in the tree in which both files were written. There the file
with the library holds the library. The file with the code holds the code, unless the names
of both files have the same components: then it holds the library as well. -/
theorem read_sources
    (prepared : (prepare platform runner (runner.pathFor clock job) job build).run.run tree =
      (.ok (), filled)) :
    let path := runner.pathFor clock job
    filled.read platform.directory (Path.join path build.libraryFile) =
      .ok (Text.utf8 job.library) ∧
    filled.read platform.directory (Path.join path build.entryFile) =
      .ok (Text.utf8 (if Path.components build.entryFile = Path.components build.libraryFile
        then job.library else job.code)) :=
  ⟨read_library prepared, read_entry prepared⟩

/-- A job with different texts in its two files. -/
def plainJob : Job :=
  ⟨"Shell", "X", "Y", "", ""⟩

/-- The files of such a job hold these texts. -/
theorem read_sources_two_files : ∃ filled,
    (prepare showing sharing (sharing.pathFor 7 plainJob) plainJob twoFiles).run.run sharedRoot =
      (.ok (), filled) ∧
    filled.read "/" (Path.join (sharing.pathFor 7 plainJob) "lib/one.txt") = .ok (Text.utf8 "Y") ∧
    filled.read "/" (Path.join (sharing.pathFor 7 plainJob) "main.txt") = .ok (Text.utf8 "X") := by
  obtain ⟨filled, prepared⟩ : ∃ filled, (prepare showing sharing (sharing.pathFor 7 plainJob)
      plainJob twoFiles).run.run sharedRoot = (.ok (), filled) :=
    ⟨_, Prod.ext (by decide +kernel) rfl⟩
  obtain ⟨library, code⟩ := read_sources prepared
  have differ : Path.components twoFiles.entryFile ≠ Path.components twoFiles.libraryFile := by
    decide +kernel
  rw [if_neg differ] at code
  exact ⟨filled, prepared, library, code⟩

/-- A build whose two names are different texts for one file. -/
def twiceNamed : Build :=
  ⟨"src/main.txt", "src//main.txt", ["./show"], ["./show"]⟩

/-- The registry takes such a build. When the command of a job is started, the file that is
named for the code holds the library. -/
theorem read_sources_twice_named :
    (∃ registry, Registry.ofList [("Shell", .ephemeral twiceNamed)] = .ok registry ∧
      registry.resolve "shell" = .ok (.ephemeral twiceNamed)) ∧
    ∃ filled resolved action,
      (prepare showing sharing (sharing.pathFor 7 plainJob) plainJob twiceNamed).run.run
        sharedRoot = (.ok (), filled) ∧
      showing.resolve filled "./show" (sharing.pathFor 7 plainJob) = some resolved ∧
      showing.launch filled resolved [] (sharing.pathFor 7 plainJob) = .ok action ∧
      filled.read "/" (Path.join (sharing.pathFor 7 plainJob) "src/main.txt") =
        .ok (Text.utf8 "Y") ∧
      Text.utf8 "Y" ≠ Text.utf8 "X" := by
  refine ⟨⟨⟨[("shell", ⟨"Shell", .ephemeral twiceNamed⟩)]⟩, by decide +kernel, by decide +kernel⟩, ?_⟩
  obtain ⟨filled, prepared, resolved, starts, code⟩ : ∃ filled,
      (prepare showing sharing (sharing.pathFor 7 plainJob) plainJob twiceNamed).run.run
        sharedRoot = (.ok (), filled) ∧
      showing.resolve filled "./show" (sharing.pathFor 7 plainJob) =
        some "/work/7_shell/show" ∧
      (showing.launch filled "/work/7_shell/show" []
        (sharing.pathFor 7 plainJob)).toOption.isSome = true ∧
      filled.read "/" (Path.join (sharing.pathFor 7 plainJob) "src/main.txt") =
        .ok (Text.utf8 "Y") :=
    ⟨_, Prod.ext (by decide +kernel) rfl, by decide +kernel, by decide +kernel,
      by decide +kernel⟩
  rcases launched : showing.launch filled "/work/7_shell/show" [] (sharing.pathFor 7 plainJob) with
    reason | action
  · rw [launched] at starts
    cases starts
  · exact ⟨filled, _, action, prepared, resolved, launched, code, by decide +kernel⟩

end Runner

end Polyglot
