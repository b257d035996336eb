import Polyglot.Proofs.Ancestors

/-!
# Preparing the directory of a job

The directory of a job is made under a new name in the directory to which the root leads
(`Created`, `exists_created`). A file that is written for the job stays inside of that
directory, whether or not the writing succeeds (`Created.writeFile`), and removing the
directory deletes it and nothing else (`Created.remove`).
-/

set_option autoImplicit false

namespace Polyglot

open Polyglot.Host (Tree Node OsError Location ChangesOnly Keeps linkless_emptyDirectory)
open Polyglot.Host.Tree

/-! ## Running operations one after the other -/

namespace Filing

variable {α β : Type} {first : Filing α} {next : α → Filing β} {tree middle : Tree}

theorem run_bind_ok {value : α} (done : first.run.run tree = (.ok value, middle)) :
    (first >>= next).run.run tree = (next value).run.run middle := by
  rw [ExceptT.run_bind, StateT.run_bind, done]
  rfl

theorem run_bind_error {failure : Failure} (failed : first.run.run tree = (.error failure, middle)) :
    (first >>= next).run.run tree = (.error failure, middle) := by
  rw [ExceptT.run_bind, StateT.run_bind, failed]
  rfl

theorem run_get_bind (next : Tree → Filing β) (tree : Tree) :
    ((get : Filing Tree) >>= next).run.run tree = (next tree).run.run tree := rfl

theorem run_set_bind (next : PUnit → Filing β) (tree changed : Tree) :
    ((set changed : Filing PUnit) >>= next).run.run tree = (next ⟨⟩).run.run changed := rfl


end Filing

namespace Workspace

theorem run_apply (failure : OsError → Failure) (operation : Tree → Except OsError Tree)
    (tree : Tree) :
    (apply failure operation).run.run tree =
      match operation tree with
      | .ok changed => (.ok (), changed)
      | .error reason => (.error (failure reason), tree) := by
  rw [apply, Filing.run_get_bind]
  cases operation tree with
  | ok changed => rfl
  | error reason => rfl

theorem run_ensure (failure : OsError → Failure) (directory path : String) (tree : Tree) :
    (ensure failure directory path).run.run tree =
      match tree.ensureDirectory directory path with
      | (.ok _, changed) => (.ok (), changed)
      | (.error reason, changed) => (.error (failure reason), changed) := by
  rw [ensure, Filing.run_get_bind]
  rcases tree.ensureDirectory directory path with ⟨_ | _, changed⟩
  · rfl
  · rfl

theorem run_remove (directory path : String) (tree : Tree) :
    (remove directory path).run.run tree =
      (.ok (), match tree.remove directory path with
        | .ok changed => changed
        | .error _ => tree) := by
  rw [remove, Filing.run_get_bind]
  cases tree.remove directory path with
  | ok changed => rfl
  | error reason => rfl

/-- Either a directory is made after the root, or nothing is made after the root. -/
theorem create_cases {directory root path : String} {tree made : Tree}
    {answer : Except Failure Unit}
    (ran : (create directory root path).run.run tree = (answer, made)) :
    (∃ failure, answer = .error failure ∧ made = (tree.ensureDirectory directory root).2) ∨
    (answer = .ok () ∧
      (tree.ensureDirectory directory root).2.makeDirectory directory path = .ok made) := by
  rw [create] at ran
  rcases ensured : tree.ensureDirectory directory root with ⟨reason | done, rooted⟩
  · rw [Filing.run_bind_error (by rw [run_ensure, ensured])] at ran
    cases ran
    exact .inl ⟨_, rfl, rfl⟩
  · rw [Filing.run_bind_ok (by rw [run_ensure, ensured]), run_apply] at ran
    cases outcome : rooted.makeDirectory directory path with
    | ok changed =>
        simp only [outcome] at ran
        cases ran
        exact .inr ⟨rfl, rfl⟩
    | error reason =>
        simp only [outcome] at ran
        cases ran
        exact .inl ⟨_, rfl, rfl⟩

/-- A directory is made after the root was made. -/
theorem ensured_of_create {directory root path : String} {tree made : Tree}
    (ran : (create directory root path).run.run tree = (.ok (), made)) :
    (tree.ensureDirectory directory root).1 = .ok () := by
  rw [create] at ran
  rcases ensured : tree.ensureDirectory directory root with ⟨reason | done, rooted⟩
  · rw [Filing.run_bind_error (by rw [run_ensure, ensured])] at ran
    cases ran
  · rfl

/-- A name that leads elsewhere is refused. Otherwise the missing directories are made and
the file is written. -/
theorem run_writeFile (directory path file contents : String) (tree : Tree) :
    (writeFile directory path file contents).run.run tree =
      if Path.isInside file then
        match tree.ensureDirectory directory (parentOf (Path.join path file)) with
        | (.error reason, ensured) => (.error (.io reason.message), ensured)
        | (.ok _, ensured) =>
          match ensured.write directory (Path.join path file) (Text.utf8 contents) false with
          | .ok written => (.ok (), written)
          | .error reason =>
            (.error (.workspace ("Failed to write " ++ Path.join path file ++ ": " ++
              reason.message)), ensured)
      else (.error (.workspace ("File name escapes the workspace: " ++ file)), tree) := by
  cases inside : Path.isInside file with
  | false =>
      simp only [writeFile, inside, Bool.not_false, if_true, Bool.false_eq_true, if_false]
      rfl
  | true =>
      simp only [writeFile, inside, Bool.not_true, Bool.false_eq_true, if_true, if_false]
      rcases made : tree.ensureDirectory directory (parentOf (Path.join path file)) with
        ⟨reason | done, ensured⟩
      · rw [Filing.run_bind_error (by rw [run_ensure, made])]
      · rw [Filing.run_bind_ok (by rw [run_ensure, made]), run_apply]
        rfl

/-- A name that leads elsewhere changes nothing; otherwise the file is written last. -/
theorem writeFile_cases (directory path file contents : String) (tree : Tree) :
    let changed := ((writeFile directory path file contents).run.run tree).2
    let ensured := (tree.ensureDirectory directory (parentOf (Path.join path file))).2
    changed = tree ∨ Path.isInside file = true ∧ (changed = ensured ∨
      ensured.write directory (Path.join path file) (Text.utf8 contents) false = .ok changed) := by
  intro changed ensured
  simp only [changed, ensured, run_writeFile]
  cases inside : Path.isInside file with
  | false => exact .inl rfl
  | true =>
      refine .inr ⟨rfl, ?_⟩
      rw [if_pos rfl]
      rcases tree.ensureDirectory directory (parentOf (Path.join path file)) with
        ⟨reason | done, filled⟩
      · exact .inl rfl
      · dsimp only
        cases filled.write directory (Path.join path file) (Text.utf8 contents) false with
        | ok last => exact .inr rfl
        | error reason => exact .inl rfl

end Workspace

/-! ## The directory of a job -/

/-- The name of the directory of a job. -/
def workspaceName (language : String) (stamp : Nat) : String :=
  toString stamp ++ "_" ++ plainName language

theorem plainChar_ne_slash (c : Char) : plainChar c ≠ '/' := by
  unfold plainChar
  split
  · rename_i letter
    intro slash
    unfold Char.toLower at slash
    split at slash
    · rename_i upper
      have bounds : 65 ≤ c.val.toNat ∧ c.val.toNat ≤ 90 := upper
      have code : (c.val.toNat + 32) % 2 ^ 32 = 47 := congrArg (fun c => c.val.toNat) slash
      omega
    · subst slash
      exact absurd letter (by decide)
  · decide

/-- A name that is one step of a path, and leads neither upwards nor nowhere. -/
structure IsPlain (name : String) : Prop where
  filled : name ≠ ""
  noSlash : '/' ∉ name.toList
  current : name ≠ "."
  parent : name ≠ ".."

/-- The name of the directory of a job is plain: it has an underscore, and no slash. -/
theorem isPlain_workspaceName (language : String) (stamp : Nat) :
    IsPlain (workspaceName language stamp) := by
  have line : '_' ∈ (workspaceName language stamp).toList := by
    simp [workspaceName, String.toList_append]
  have differs {other : String} (plain : '_' ∉ other.toList) :
      workspaceName language stamp ≠ other := by
    intro same
    exact plain (same ▸ line)
  refine ⟨differs (by decide), fun member => ?_, differs (by decide), differs (by decide)⟩
  simp only [workspaceName, plainName, String.toList_append, String.toList_map, List.mem_append,
    List.mem_map] at member
  rcases member with (digit | slash) | ⟨c, _, slash⟩
  · rw [Nat.toString_eq_ofList_toDigits, String.toList_ofList] at digit
    exact absurd (Nat.isDigit_of_mem_toDigits (by decide) (by decide) digit) (by decide)
  · exact absurd slash (by decide)
  · exact plainChar_ne_slash c slash

theorem stepsOf_join_plain {directory root name : String} (plain : IsPlain name) :
    stepsOf directory (Path.join root name) = stepsOf directory root ++ [name] := by
  rw [stepsOf_join (Path.isAbsolute_of_plain plain.noSlash),
    Path.pieces_of_plain plain.noSlash plain.filled]

theorem endsInSlash_join {root name : String} (plain : IsPlain name) :
    Path.endsInSlash (Path.join root name) = false := by
  rw [Path.endsInSlash_join plain.filled]
  refine Bool.eq_false_iff.mpr fun ends => plain.noSlash ?_
  exact List.mem_of_getLast? (beq_iff_eq.mp ends)

/-- A directory was made under a new name in the directory to which the root leads. -/
structure Created (directory root name : String) (rooted made : Tree) (home : Location) : Prop where
  arrives : ∃ entries,
    rooted.Arrives true (stepsOf directory root) home (some (.directory entries))
  plain : IsPlain name
  isName : IsName name
  admissible : Admissible (Path.join root name)
  absent : rooted.get? (home ++ [name]) = none
  prepared : Prepared (home ++ [name]) rooted made

/-- Steps to a new entry lead to a directory without that entry. -/
theorem exists_home {tree : Tree} {steps : List String} {name : String} {there : Location}
    (plain : IsPlain name) (arrives : tree.Arrives false (steps ++ [name]) there none) :
    ∃ home entries, there = home ++ [name] ∧ IsName name ∧
      tree.Arrives true steps home (some (.directory entries)) := by
  obtain ⟨cost, within, leads⟩ := arrives
  obtain ⟨first, second, home, entries, rfl, front, back⟩ := leads.split (List.cons_ne_nil _ _)
  rw [List.length_append, List.length_singleton] at within
  cases back with
  | current => exact absurd rfl plain.current
  | parent => exact absurd rfl plain.parent
  | missing stands isName absent =>
      exact ⟨home, entries, rfl, isName, first, by omega, front⟩
  | through stands isName found goes_on =>
      rcases goes_on with more | last
      · exact absurd rfl more
      · cases last
  | enter stands isName found _ further =>
      have missing := further.get?_eq
      obtain ⟨rfl, _⟩ := further.unique (.here _)
      rw [Node.get?_concat stands, found] at missing
      cases missing

/-- A directory that is made where nothing stood holds nothing yet. -/
theorem prepared_put_emptyDirectory {tree : Tree} {home : Location} {name : String}
    {entries : List (String × Node)} (stands : tree.get? home = some (.directory entries)) :
    Prepared (home ++ [name]) tree (tree.put (home ++ [name]) .emptyDirectory) := by
  obtain ⟨only, placed⟩ := Node.put_spec stands name .emptyDirectory
  refine ⟨⟨only, [], placed⟩, fun other target below found => ?_⟩
  obtain ⟨rest, rfl⟩ := below
  rw [Node.get?_append, placed, Option.bind_some] at found
  exact linkless_emptyDirectory rest target List.nil_prefix found

/-- **A directory that is made below the root is new there and empty.** -/
theorem exists_created {directory root name : String} {rooted made : Tree} (plain : IsPlain name)
    (outcome : rooted.makeDirectory directory (Path.join root name) = .ok made) :
    ∃ home, Created directory root name rooted made home := by
  obtain ⟨admissible, parent, last, entries, arrives, stands, rfl⟩ := makeDirectory_eq_ok outcome
  rw [endsInSlash_join plain, stepsOf_join_plain plain] at arrives
  obtain ⟨home, others, same, isName, reaches⟩ := exists_home plain arrives
  obtain ⟨_, _, leads⟩ := arrives
  have absent := leads.get?_eq
  have prepared := @prepared_put_emptyDirectory _ _ last _ stands
  rw [same] at absent prepared
  exact ⟨home, ⟨others, reaches⟩, plain, isName, admissible, absent, same ▸ prepared⟩

namespace Created

variable {directory root name : String} {rooted made after : Tree} {home : Location}

/-- The root still leads where it led. -/
theorem place?_root (created : Created directory root name rooted made home)
    (only : ChangesOnly (home ++ [name]) rooted after) :
    after.place? directory root = some home := by
  exact place?_of_keeps (only.keeps created.absent)
    (place?_eq_some_iff.mpr created.arrives)

/-- The path of the directory leads to it. -/
theorem arrives_directory (created : Created directory root name rooted made home)
    (changed : Within (home ++ [name]) rooted after) (throughLast : Bool) :
    ∃ entries, after.Arrives throughLast (stepsOf directory (Path.join root name))
      (home ++ [name]) (some (.directory entries)) := by
  obtain ⟨entries, cost, within, front⟩ := place?_eq_some_iff.mp (created.place?_root changed.only)
  obtain ⟨held, standing⟩ := changed.stands
  have found := Node.get?_concat front.get?_eq name
  rw [standing] at found
  have last : Leads after throughLast 1 home [name] (home ++ [name]) (some (.directory held)) := by
    rw [found]
    refine .of_name front.get?_eq created.isName (.inr fun target linked => ?_)
    rw [← found] at linked
    cases linked
  refine ⟨held, cost + 1, ?_, ?_⟩
  · rw [stepsOf_join_plain created.plain, List.length_append, List.length_singleton]
    omega
  · rw [stepsOf_join_plain created.plain]
    exact front.append last (List.cons_ne_nil _ _)

/-- Writing a file for the job stays inside of the directory, also when it fails. -/
theorem writeFile (created : Created directory root name rooted made home)
    (prepared : Prepared (home ++ [name]) rooted after) (file contents : String) :
    Prepared (home ++ [name]) rooted
      ((Workspace.writeFile directory (Path.join root name) file contents).run.run after).2 := by
  have filled : Path.join root name ≠ "" := by
    simpa using created.admissible.filled
  rcases Workspace.writeFile_cases directory (Path.join root name) file contents after with
    same | ⟨inside, written⟩
  · rw [same]
    exact prepared
  · obtain ⟨relative, down⟩ := relative_of_isInside inside
    have ensured := prepared.ensureParent filled inside fun tree prepared => by
      obtain ⟨entries, cost, _, leads⟩ := created.arrives_directory prepared.toWithin true
      exact ⟨cost, entries, leads⟩
    rcases written with same | written
    · rw [same]
      exact ensured
    · refine ensured.write (fun there node arrives => ?_) written
      obtain ⟨entries, _, _, front⟩ := created.arrives_directory ensured.toWithin true
      obtain ⟨_, _, leads⟩ := arrives
      rw [stepsOf_join relative] at leads
      exact front.under ensured.linkless down leads

/-- Removing the directory deletes it. -/
theorem remove (created : Created directory root name rooted made home)
    (changed : Within (home ++ [name]) rooted after) :
    (Workspace.remove directory (Path.join root name)).run.run after =
      (.ok (), after.delete (home ++ [name])) := by
  obtain ⟨entries, arrives⟩ :=
    created.arrives_directory changed (false || Path.endsInSlash (Path.join root name))
  have located := locate_eq_ok_iff.mpr ⟨created.admissible, arrives⟩
  rw [Workspace.run_remove, Tree.remove, located]
  rfl

end Created

end Polyglot
