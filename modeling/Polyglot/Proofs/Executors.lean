import Mathlib.Data.List.Forall2
import Polyglot.Proofs.Courses
import Polyglot.Proofs.Serving

/-!
# Executors that are given

A dispatcher can be made of any executors with names. It keeps one for every normal form, the last
one of the list, and keeps them by their normal forms. What it does is nevertheless what the list
says: a job goes to the last executor whose name has the normal form of its language
(`Dispatcher.Last`), that executor alone is given the job, once, and only its pair of the list changes
(`Dispatcher.Handled`). A run of jobs is such steps one after the other (`Dispatcher.HandledAll`).

An executor can answer, fail or crash. A crash changes neither the executor nor the runner
(`Executor.execute_of_crashed`), so it leaves the dispatcher as it was. What may change is the world,
and if no executor can tell the difference (`Dispatcher.Alike`), then all later jobs are answered as
if the job had not been there (`Dispatcher.handles_given`).
-/

set_option autoImplicit false

namespace Polyglot

variable {ω σ : Type} {environment : Environment ω σ}

/-! ## An executor at work -/

namespace Executor

variable {first executor : Executor ω σ}

/-- An executor is another one after it was given jobs any number of times. -/
inductive Worked (environment : Environment ω σ) (first : Executor ω σ) : Executor ω σ → Prop where
  | fresh : Worked environment first first
  | ran {executor : Executor ω σ} (runner : Runner) (world : ω) (job : Job)
      (worked : Worked environment first executor) :
      Worked environment first (executor.execute environment runner world job).2.1

theorem Worked.trans {last : Executor ω σ} (worked : Worked environment first executor)
    (further : Worked environment executor last) : Worked environment first last := by
  induction further with
  | fresh => exact worked
  | ran runner world job _ ih => exact .ran runner world job ih

variable {worked : Executor ω σ} {runner left : Runner} {world after : ω} {job : Job}

theorem Worked.of_execute {verdict : Verdict}
    (ran : executor.execute environment runner world job = (verdict, worked, left, after)) :
    executor.Worked environment worked := by
  have given : executor.Worked environment (executor.execute environment runner world job).2.1 :=
    .ran runner world job .fresh
  rwa [ran] at given

/-- A crash leaves the executor and the runner as they were. -/
theorem execute_of_crashed {task : Nat} {message : String}
    (ran : executor.execute environment runner world job =
      (.crashed task message, worked, left, after)) : worked = executor ∧ left = runner := by
  cases executor with
  | worker channel => cases ran
  | proxied proxy => cases ran
  | unavailable reason => cases ran
  | ephemeral build => cases ran
  | custom run =>
      obtain ⟨_, rest⟩ := Prod.mk.inj ran
      obtain ⟨same, rest⟩ := Prod.mk.inj rest
      exact ⟨same.symm, (Prod.mk.inj rest).1.symm⟩

end Executor

namespace Dispatcher

/-! ## Runs of jobs -/

section Runs

variable {dispatcher : Dispatcher ω σ} {world : ω}

/-- Answers jobs one after the other. -/
def handleAll (environment : Environment ω σ) :
    Dispatcher ω σ → ω → List Job → List Envelope × Dispatcher ω σ × ω
  | dispatcher, world, [] => ([], dispatcher, world)
  | dispatcher, world, job :: jobs =>
    let (envelope, dispatcher, world) := dispatcher.handle environment world job
    let (envelopes, dispatcher, world) := handleAll environment dispatcher world jobs
    (envelope :: envelopes, dispatcher, world)

theorem handleAll_cons (environment : Environment ω σ) (dispatcher : Dispatcher ω σ) (world : ω)
    (job : Job) (jobs : List Job) :
    dispatcher.handleAll environment world (job :: jobs) =
      let handled := dispatcher.handle environment world job
      let rest := handled.2.1.handleAll environment handled.2.2 jobs
      (handled.1 :: rest.1, rest.2) :=
  rfl

end Runs

/-! ## The last executor of a name -/

section Last

variable {pairs : List (String × Executor ω σ)}

/-- A pair of a list is the last one whose name has a normal form. -/
structure Last (key : String) (pairs front : List (String × Executor ω σ)) (name : String)
    (executor : Executor ω σ) (behind : List (String × Executor ω σ)) : Prop where
  split : pairs = front ++ (name, executor) :: behind
  named : normalForm name = key
  last : ∀ pair ∈ behind, normalForm pair.1 ≠ key

theorem exists_last_or_forall_ne (key : String) (pairs : List (String × Executor ω σ)) :
    (∃ front name executor behind, Last key pairs front name executor behind) ∨
      ∀ pair ∈ pairs, normalForm pair.1 ≠ key := by
  induction pairs with
  | nil => exact .inr nofun
  | cons pair pairs ih =>
      rcases ih with ⟨front, name, executor, behind, split, named, last⟩ | others
      · exact .inl ⟨pair :: front, name, executor, behind, by rw [split, List.cons_append], named, last⟩
      · by_cases named : normalForm pair.1 = key
        · exact .inl ⟨[], pair.1, pair.2, pairs, rfl, named, others⟩
        · exact .inr (List.forall_mem_cons.mpr ⟨named, others⟩)

/-- The place of the last name with the normal form of a language. -/
def placeFor? (language : String) : List String → Option Nat
  | [] => none
  | name :: names =>
    match placeFor? language names with
    | some place => some (place + 1)
    | none => if normalForm name = normalForm language then some 0 else none

theorem placeFor?_eq_none {language : String} {names : List String}
    (nobody : ∀ name ∈ names, normalForm name ≠ normalForm language) :
    placeFor? language names = none := by
  induction names with
  | nil => rfl
  | cons name names ih =>
      obtain ⟨differs, others⟩ := List.forall_mem_cons.mp nobody
      simp only [placeFor?, ih others, if_neg differs]

theorem placeFor?_append {language name : String} {front behind : List String}
    (named : normalForm name = normalForm language)
    (last : ∀ other ∈ behind, normalForm other ≠ normalForm language) :
    placeFor? language (front ++ name :: behind) = some front.length := by
  induction front with
  | nil => simp only [List.nil_append, placeFor?, placeFor?_eq_none last, if_pos named,
      List.length_nil]
  | cons other front ih => simp only [List.cons_append, placeFor?, ih, List.length_cons]

namespace Last

variable {key name sought : String} {front behind : List (String × Executor ω σ)}
variable {executor : Executor ω σ} {runner : Runner} {version : String}

/-- The dispatcher of some pairs holds the last executor of a name. -/
theorem find? (last : Last key pairs front name executor behind) :
    Table.find? key (ofList pairs runner version).executors = some executor := by
  obtain ⟨rfl, rfl, differ⟩ := last
  have gone : (behind.map fun pair => (normalForm pair.1, pair.2)).filter
      (fun entry => entry.1 == normalForm name) = [] := by
    refine List.filter_eq_nil_iff.mpr fun entry member => ?_
    obtain ⟨pair, among, rfl⟩ := List.mem_map.mp member
    simpa using differ pair among
  simp [ofList, Table.find?_ofList, gone]

/-- Replacing the last executor of a name in the pairs replaces it in the dispatcher. -/
theorem insert (last : Last key pairs front name executor behind) (other : Executor ω σ) :
    Table.insert key other (ofList pairs runner version).executors =
      (ofList (front ++ (name, other) :: behind) runner version).executors := by
  have replaced : Last key (front ++ (name, other) :: behind) front name other behind :=
    ⟨rfl, last.named, last.last⟩
  refine Table.Ordered.ext ((Table.ordered_ofList _).insert _ _) (Table.ordered_ofList _) ?_
  intro sought
  by_cases same : sought = key
  · subst same
    exact (Table.find?_insert_self _ _ _).trans (replaced.find?).symm
  · rw [Table.find?_insert_of_ne same, last.split, ofList, ofList, Table.find?_ofList,
      Table.find?_ofList]
    simp [last.named, Ne.symm same]

end Last

theorem find?_ofList_eq_none {key : String} {runner : Runner} {version : String}
    (nobody : ∀ pair ∈ pairs, normalForm pair.1 ≠ key) :
    Table.find? key (ofList pairs runner version).executors = none := by
  rw [ofList, Table.find?_ofList, List.filter_eq_nil_iff.mpr]
  · rfl
  · intro entry member
    obtain ⟨pair, among, rfl⟩ := List.mem_map.mp member
    simpa using nobody pair among

end Last

/-! ## Jobs in their turn -/

/-- What a dispatcher of given executors works with. -/
structure Given (ω σ : Type) where
  /-- The executors with their names, in the order in which they were given. -/
  pairs : List (String × Executor ω σ)
  /-- What builds the jobs of all languages that are built. -/
  runner : Runner
  /-- The world. -/
  world : ω

section Steps

variable {version : String} {given after : Given ω σ} {job : Job} {envelope : Envelope}

/-- The dispatcher of given executors. -/
def Given.dispatcher (version : String) (given : Given ω σ) : Dispatcher ω σ :=
  ofList given.pairs given.runner version

/-- A job is answered between two readings of the clock. If a name has the normal form of its
language, then the last executor with such a name is given the job, and no other one. -/
inductive Handled (environment : Environment ω σ) (version : String) (given : Given ω σ) (job : Job) :
    Envelope → Given ω σ → Prop where
  | unknown (nobody : ∀ pair ∈ given.pairs, normalForm pair.1 ≠ normalForm job.language) :
      Handled environment version given job (.failure (.unknownLanguage job.language) version)
        { given with world := (environment.clock (environment.clock given.world).2).2 }
  | output {front behind : List (String × Executor ω σ)} {name text : String}
      {executor worked : Executor ω σ} {runner : Runner} {world : ω}
      (last : Last (normalForm job.language) given.pairs front name executor behind)
      (ran : executor.execute environment given.runner (environment.clock given.world).2 job =
        (.answered (.ok text), worked, runner, world)) :
      Handled environment version given job
        (.success text
          (elapsedMs (environment.clock given.world).1 (environment.clock world).1) version)
        ⟨front ++ (name, worked) :: behind, runner, (environment.clock world).2⟩
  | failed {front behind : List (String × Executor ω σ)} {name : String} {reason : Failure}
      {executor worked : Executor ω σ} {runner : Runner} {world : ω}
      (last : Last (normalForm job.language) given.pairs front name executor behind)
      (ran : executor.execute environment given.runner (environment.clock given.world).2 job =
        (.answered (.error reason), worked, runner, world)) :
      Handled environment version given job (.failure reason version)
        ⟨front ++ (name, worked) :: behind, runner, (environment.clock world).2⟩
  | panicked {front behind : List (String × Executor ω σ)} {name message : String} {task : Nat}
      {executor : Executor ω σ} {world : ω}
      (last : Last (normalForm job.language) given.pairs front name executor behind)
      (ran : executor.execute environment given.runner (environment.clock given.world).2 job =
        (.crashed task message, executor, given.runner, world)) :
      Handled environment version given job
        (.failure (.backendUnavailable
          ("job task failed: task " ++ toString task ++ " panicked with message " ++
            Text.quoted message)) version)
        { given with world := (environment.clock world).2 }

/-- Jobs are answered one after the other, each by what the ones before it have left. -/
inductive HandledAll (environment : Environment ω σ) (version : String) :
    Given ω σ → List Job → List Envelope → Given ω σ → Prop where
  | nil (given : Given ω σ) : HandledAll environment version given [] [] given
  | cons {given between after : Given ω σ} {job : Job} {jobs : List Job} {envelope : Envelope}
      {envelopes : List Envelope} (first : Handled environment version given job envelope between)
      (rest : HandledAll environment version between jobs envelopes after) :
      HandledAll environment version given (job :: jobs) (envelope :: envelopes) after

/-- The executors of some pairs, after they were given jobs, stand under the same names. -/
def Stands (environment : Environment ω σ) (pairs standing : List (String × Executor ω σ)) : Prop :=
  List.Forall₂ (fun pair held => held.1 = pair.1 ∧ pair.2.Worked environment held.2) pairs standing

namespace Stands

variable {pairs standing later : List (String × Executor ω σ)}

theorem refl (environment : Environment ω σ) (pairs : List (String × Executor ω σ)) :
    Stands environment pairs pairs :=
  List.forall₂_same.mpr fun _ _ => ⟨rfl, .fresh⟩

theorem trans (stands : Stands environment pairs standing)
    (further : Stands environment standing later) : Stands environment pairs later := by
  induction stands generalizing later with
  | nil => exact further
  | cons worked _ ih =>
      obtain ⟨last, rest, moved, others, rfl⟩ := List.forall₂_cons_left_iff.mp further
      exact .cons ⟨moved.1.trans worked.1, worked.2.trans moved.2⟩ (ih others)

/-- Giving one of the executors a job. -/
theorem replace {front behind : List (String × Executor ω σ)} {name : String}
    {executor worked : Executor ω σ} (ran : executor.Worked environment worked) :
    Stands environment (front ++ (name, executor) :: behind) (front ++ (name, worked) :: behind) :=
  List.rel_append (refl environment front) (.cons ⟨rfl, ran⟩ (refl environment behind))

theorem map_fst (stands : Stands environment pairs standing) :
    standing.map (·.1) = pairs.map (·.1) := by
  induction stands with
  | nil => rfl
  | cons worked _ ih => rw [List.map_cons, List.map_cons, worked.1, ih]

end Stands

theorem Handled.stands (handled : Handled environment version given job envelope after) :
    Stands environment given.pairs after.pairs := by
  cases handled with
  | unknown nobody => exact .refl environment _
  | output last ran =>
      rw [last.split]
      exact .replace (.of_execute ran)
  | failed last ran =>
      rw [last.split]
      exact .replace (.of_execute ran)
  | panicked last ran => exact .refl environment _

/-- A job without an executor. -/
theorem handle_of_forall_ne {pairs : List (String × Executor ω σ)}
    (nobody : ∀ pair ∈ pairs, normalForm pair.1 ≠ normalForm job.language) (runner : Runner)
    (version : String) (world : ω) :
    (ofList pairs runner version).handle environment world job =
      (.failure (.unknownLanguage job.language) version, ofList pairs runner version,
        (environment.clock (environment.clock world).2).2) := by
  have absent : Table.find? (normalForm job.language) (ofList pairs runner version).executors =
      none := find?_ofList_eq_none nobody
  simp only [handle, run_of_find?_eq_none absent]
  rfl

/-- A job with an executor. -/
theorem Last.handle {pairs front behind : List (String × Executor ω σ)} {name : String}
    {executor worked : Executor ω σ} {verdict : Verdict} {runner left : Runner} {world after : ω}
    (last : Last (normalForm job.language) pairs front name executor behind)
    (ran : executor.execute environment runner (environment.clock world).2 job =
      (verdict, worked, left, after)) (version : String) :
    (ofList pairs runner version).handle environment world job =
      (.ofOutcome (elapsedMs (environment.clock world).1 (environment.clock after).1) version
          verdict.outcome,
        ofList (front ++ (name, worked) :: behind) left version, (environment.clock after).2) := by
  have found : Table.find? (normalForm job.language) (ofList pairs runner version).executors =
      some executor := last.find?
  have replaced : Table.insert (normalForm job.language) worked
        (ofList pairs runner version).executors =
      (ofList (front ++ (name, worked) :: behind) runner version).executors := last.insert worked
  have runs : (ofList pairs runner version).runner = runner := rfl
  simp only [Dispatcher.handle, run_of_find? found, runs, ran, replaced]
  rfl

/-- A dispatcher of given executors handles a job as the list of them says. -/
theorem exists_handled (environment : Environment ω σ) (version : String) (given : Given ω σ)
    (job : Job) :
    ∃ envelope after, Handled environment version given job envelope after ∧
      (given.dispatcher version).handle environment given.world job =
        (envelope, after.dispatcher version, after.world) := by
  rcases exists_last_or_forall_ne (normalForm job.language) given.pairs with
    ⟨front, name, executor, behind, last⟩ | nobody
  · cases ran : executor.execute environment given.runner (environment.clock given.world).2 job with
    | mk verdict rest =>
        obtain ⟨worked, runner, world⟩ := rest
        have handled := last.handle ran version
        cases verdict with
        | answered outcome =>
            cases outcome with
            | ok text => exact ⟨_, _, .output last ran, handled⟩
            | error reason => exact ⟨_, _, .failed last ran, handled⟩
        | crashed task message =>
            obtain ⟨rfl, rfl⟩ := Executor.execute_of_crashed ran
            refine ⟨_, _, .panicked last ran, handled.trans ?_⟩
            rw [← last.split]
            rfl
  · exact ⟨_, _, .unknown nobody, handle_of_forall_ne nobody _ _ _⟩

theorem HandledAll.stands {jobs : List Job} {envelopes : List Envelope}
    (handled : HandledAll environment version given jobs envelopes after) :
    Stands environment given.pairs after.pairs := by
  induction handled with
  | nil given => exact .refl environment _
  | cons first _ ih => exact first.stands.trans ih

end Steps

/-! ## One executor for every job -/

/-- The world notes each job with the place of the executor that is given it, and notes nothing
else. -/
structure Noting (environment : Environment ω σ) (pairs : List (String × Executor ω σ))
    (notes : ω → List (Nat × Job)) : Prop where
  clock : ∀ world, notes (environment.clock world).2 = notes world
  execute : ∀ front name executor behind,
    Stands environment pairs (front ++ (name, executor) :: behind) → ∀ runner world job,
      notes (executor.execute environment runner world job).2.2.2 =
        notes world ++ [(front.length, job)]

section Notes

variable {version : String} {given after : Given ω σ} {job : Job} {envelope : Envelope}
variable {notes : ω → List (Nat × Job)}

theorem Noting.of_stands {pairs standing : List (String × Executor ω σ)}
    (noting : Noting environment pairs notes) (stands : Stands environment pairs standing) :
    Noting environment standing notes :=
  ⟨noting.clock, fun front name executor behind further =>
    noting.execute front name executor behind (stands.trans further)⟩

/-- The note that a job makes. -/
def noteOf? (names : List String) (job : Job) : Option (Nat × Job) :=
  (placeFor? job.language names).map fun place => (place, job)

theorem Noting.last (noting : Noting environment given.pairs notes)
    {front behind : List (String × Executor ω σ)} {name : String} {executor worked : Executor ω σ}
    {verdict : Verdict} {runner : Runner} {world : ω}
    (last : Last (normalForm job.language) given.pairs front name executor behind)
    (ran : executor.execute environment given.runner (environment.clock given.world).2 job =
      (verdict, worked, runner, world)) :
    notes (environment.clock world).2 =
      notes given.world ++ (noteOf? (given.pairs.map (·.1)) job).toList := by
  have stands : Stands environment given.pairs (front ++ (name, executor) :: behind) := by
    rw [← last.split]
    exact .refl environment _
  have noted := noting.execute front name executor behind stands given.runner
    (environment.clock given.world).2 job
  rw [ran, noting.clock] at noted
  have others : ∀ other ∈ behind.map (·.1), normalForm other ≠ normalForm job.language := by
    intro other member
    obtain ⟨pair, among, rfl⟩ := List.mem_map.mp member
    exact last.last pair among
  have place : placeFor? job.language (given.pairs.map (·.1)) = some front.length := by
    rw [last.split, List.map_append, List.map_cons, placeFor?_append last.named others,
      List.length_map]
  rw [noting.clock, noted, noteOf?, place]
  rfl

theorem Handled.noted (handled : Handled environment version given job envelope after)
    (noting : Noting environment given.pairs notes) :
    notes after.world = notes given.world ++ (noteOf? (given.pairs.map (·.1)) job).toList := by
  cases handled with
  | unknown nobody =>
      have absent : ∀ name ∈ given.pairs.map (·.1), normalForm name ≠ normalForm job.language := by
        intro name member
        obtain ⟨pair, among, rfl⟩ := List.mem_map.mp member
        exact nobody pair among
      rw [noting.clock, noting.clock, noteOf?, placeFor?_eq_none absent]
      exact (List.append_nil _).symm
  | output last ran => exact noting.last last ran
  | failed last ran => exact noting.last last ran
  | panicked last ran => exact noting.last last ran

theorem HandledAll.noted {jobs : List Job} {envelopes : List Envelope}
    (handled : HandledAll environment version given jobs envelopes after)
    (noting : Noting environment given.pairs notes) :
    notes after.world =
      notes given.world ++ jobs.filterMap (noteOf? (given.pairs.map (·.1))) := by
  induction handled with
  | nil given => exact (List.append_nil _).symm
  | @cons given between after job jobs envelope envelopes first rest ih =>
      rw [ih (noting.of_stands first.stands), first.noted noting, first.stands.map_fst,
        List.append_assoc, List.filterMap_cons]
      cases noteOf? (given.pairs.map (·.1)) job with
      | none => rfl
      | some note => rfl

end Notes

/-! ## Crashes -/

/-- The executor of a job crashes. -/
def Panics (environment : Environment ω σ) (dispatcher : Dispatcher ω σ) (world : ω) (job : Job) :
    Prop :=
  ∃ executor task message,
    Table.find? (normalForm job.language) dispatcher.executors = some executor ∧
    (executor.execute environment dispatcher.runner (environment.clock world).2 job).1 =
      .crashed task message

/-- Worlds are related in a way that neither the clock nor any of some executors can tell. -/
structure Alike (environment : Environment ω σ) (pairs : List (String × Executor ω σ))
    (alike : ω → ω → Prop) : Prop where
  clock : ∀ one other, alike one other → alike (environment.clock one).2 (environment.clock other).2
  execute : ∀ standing, Stands environment pairs standing → ∀ pair ∈ standing,
    ∀ runner one other job, alike one other → ∃ verdict worked left after beyond,
      pair.2.execute environment runner one job = (verdict, worked, left, after) ∧
      pair.2.execute environment runner other job = (verdict, worked, left, beyond) ∧
      alike after beyond

section Crashes

variable {version : String} {given after : Given ω σ} {job : Job}
variable {alike : ω → ω → Prop} {one other : ω}

theorem Alike.of_stands {pairs standing : List (String × Executor ω σ)}
    (same : Alike environment pairs alike) (stands : Stands environment pairs standing) :
    Alike environment standing alike :=
  ⟨same.clock, fun later further => same.execute later (stands.trans further)⟩

/-- A job that crashes is reported, and leaves the dispatcher as it was. -/
theorem Panics.handle (panics : Panics environment (given.dispatcher version) given.world job) :
    let handled := (given.dispatcher version).handle environment given.world job
    handled.1.errorCode = some "backend_unavailable" ∧ handled.2.1 = given.dispatcher version := by
  obtain ⟨executor, task, message, found, crashed⟩ := panics
  rcases exists_last_or_forall_ne (normalForm job.language) given.pairs with
    ⟨front, name, held, behind, last⟩ | nobody
  · obtain rfl : held = executor := Option.some.inj (last.find?.symm.trans found)
    cases ran : held.execute environment given.runner (environment.clock given.world).2 job with
    | mk verdict rest =>
        obtain ⟨worked, runner, after⟩ := rest
        obtain rfl : verdict = .crashed task message :=
          (congrArg (·.1) ran).symm.trans crashed
        obtain ⟨rfl, rfl⟩ := Executor.execute_of_crashed ran
        rw [Given.dispatcher, last.handle ran, ← last.split]
        exact ⟨rfl, rfl⟩
  · have absent : Table.find? (normalForm job.language) (given.dispatcher version).executors =
        none := find?_ofList_eq_none nobody
    rw [absent] at found
    cases found

/-- A job is answered alike in worlds that are alike. -/
theorem Alike.handle (same : Alike environment given.pairs alike) (related : alike given.world other)
    (version : String) (job : Job) :
    let here := (given.dispatcher version).handle environment given.world job
    let there := (given.dispatcher version).handle environment other job
    here.1.timeless = there.1.timeless ∧ here.2.1 = there.2.1 ∧ alike here.2.2 there.2.2 := by
  have read := same.clock _ _ related
  rcases exists_last_or_forall_ne (normalForm job.language) given.pairs with
    ⟨front, name, executor, behind, last⟩ | nobody
  · have member : (name, executor) ∈ given.pairs := by
      rw [last.split]
      exact List.mem_append_right _ List.mem_cons_self
    obtain ⟨verdict, worked, left, after, beyond, ran, runs, still⟩ :=
      same.execute given.pairs (.refl environment _) _ member given.runner _ _ job read
    rw [Given.dispatcher, last.handle ran, last.handle runs]
    exact ⟨Envelope.timeless_ofOutcome _ _ _ _, rfl, same.clock _ _ still⟩
  · rw [Given.dispatcher, handle_of_forall_ne nobody, handle_of_forall_ne nobody]
    exact ⟨rfl, rfl, same.clock _ _ read⟩

/-- Jobs are answered alike in worlds that are alike. -/
theorem Alike.handleAll (same : Alike environment given.pairs alike)
    (related : alike given.world other) (version : String) (jobs : List Job) :
    ((given.dispatcher version).handleAll environment given.world jobs).1.map Envelope.timeless =
      ((given.dispatcher version).handleAll environment other jobs).1.map Envelope.timeless := by
  induction jobs generalizing given other with
  | nil => rfl
  | cons job jobs ih =>
      obtain ⟨envelope, between, first, handled⟩ := exists_handled environment version given job
      have alongside := same.handle related version job
      rw [handled] at alongside
      obtain ⟨answer, dispatcher, worlds⟩ := alongside
      have kept : between.dispatcher version = _ := dispatcher
      have rest := ih (same.of_stands first.stands) worlds
      simp only [handleAll_cons, handled, List.map_cons, answer, rest, ← kept]

/-- The jobs behind one that crashes are answered by the dispatcher that was there before it. -/
theorem Panics.handleAll (panics : Panics environment (given.dispatcher version) given.world job)
    (later : List Job) :
    let panicked := (given.dispatcher version).handle environment given.world job
    ((given.dispatcher version).handleAll environment given.world (job :: later)).1 =
      panicked.1 ::
        ((given.dispatcher version).handleAll environment panicked.2.2 later).1 := by
  simp only [handleAll_cons, panics.handle.2]

end Crashes

/-- An environment in which nothing happens and no time passes. -/
def still (ω : Type) : Environment ω Unit where
  processes :=
    { resolve := fun _ _ _ => none
      launch := fun _ _ _ _ => .error .notFound
      receive := fun world _ _ => (world, (), [])
      finish := fun world _ => (world, (), []) }
  network := .unreachable .notFound
  run world _ _ _ := (.error .notFound, world)
  build runner world _ _ := (.error (.commandNotFound ""), runner, world)
  clock world := (0, world)

/-- An executor that notes its jobs under a number. -/
def noted (place : Nat) (verdict : Job → Verdict) : Executor (List (Nat × Job)) Unit :=
  .custom fun notes job => (verdict job, notes ++ [(place, job)])

end Dispatcher

end Polyglot
