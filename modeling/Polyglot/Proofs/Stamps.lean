import Mathlib.Logic.Function.Basic
import Mathlib.Logic.Relation
import Polyglot.Proofs.Lifecycle

/-!
# Callers at one counter

Any number of callers draw stamps from one counter without a lock. A caller reads the
clock, looks at the counter, and tries to exchange the value that it has seen for its
stamp; when the counter holds another value by then, or for no reason at all, it has to
try again with a newer one. The steps of different callers interleave in any way, a clock
may show anything, and a look may show any value that the counter has had.

An exchange succeeds only on the value that the counter holds, so every stamp is the one
that follows the stamp before it (`Succession`, `Regular.step`). Stamps therefore
increase in the order in which they are granted (`Succession.lt_of_mem`), and since the
name of a directory can be read back (`workspaceName_injective`), two callers never use
the same directory, whatever their languages are.
-/

set_option autoImplicit false

namespace Polyglot

variable {ι : Type}

/-! ## Stamps in a machine word -/

/-- The stamp of a caller that has seen a value of the counter and the clock. -/
def Stamp.nextWord (seen clock : UInt64) : UInt64 :=
  max clock (seen + 1)

/-- In a word, stamps follow one another as they do without a bound, up to the greatest. -/
theorem Stamp.toNat_nextWord {seen : UInt64} (clock : UInt64)
    (room : seen.toNat + 1 < UInt64.size) :
    (nextWord seen clock).toNat = next seen.toNat clock.toNat := by
  have small : (seen + 1).toNat = seen.toNat + 1 := by
    rw [UInt64.toNat_add]
    exact Nat.mod_eq_of_lt room
  rw [nextWord, next, UInt64.toNat_max, small]

/-! ## States -/

/-- How far a caller that wants a stamp has come. -/
inductive Draw where
  /-- It has not called. -/
  | absent
  /-- It has read the clock. -/
  | clocked (clock : UInt64)
  /-- It tries to exchange a value that it has seen. -/
  | trying (clock seen : UInt64)
  /-- It has its stamp. -/
  | drawn (clock stamp : UInt64)

/-- That a caller got a stamp. -/
structure Grant (ι : Type) where
  /-- The caller. -/
  caller : ι
  /-- What the clock had shown to it. -/
  clock : UInt64
  /-- The stamp. -/
  stamp : UInt64

/-- The values that a counter has had, the present one first. -/
def valuesOf (first : UInt64) (granted : List (Grant ι)) : List UInt64 :=
  granted.map Grant.stamp ++ [first]

/-- The value of a counter after some grants, of which the last comes first. -/
def latest (first : UInt64) : List (Grant ι) → UInt64
  | [] => first
  | grant :: _ => grant.stamp

/-- A counter with its callers. -/
structure Counter (ι : Type) where
  /-- The value at the beginning. -/
  first : UInt64
  /-- Who got a stamp, the last one first. -/
  granted : List (Grant ι)
  /-- How far each caller has come. -/
  draw : ι → Draw

namespace Counter

/-- A counter at which nobody has called. -/
def initial (first : UInt64) : Counter ι :=
  ⟨first, [], fun _ => .absent⟩

/-- The values that the counter has had. -/
def values (counter : Counter ι) : List UInt64 :=
  valuesOf counter.first counter.granted

/-- The present value. -/
def value (counter : Counter ι) : UInt64 :=
  latest counter.first counter.granted

/-! ## Steps -/

variable [DecidableEq ι]

/-- A caller gets on. -/
def move (counter : Counter ι) (caller : ι) (draw : Draw) : Counter ι :=
  { counter with draw := Function.update counter.draw caller draw }

/-- A caller gets its stamp. -/
def grant (counter : Counter ι) (caller : ι) (clock stamp : UInt64) : Counter ι :=
  { counter.move caller (.drawn clock stamp) with
    granted := ⟨caller, clock, stamp⟩ :: counter.granted }

/-- One step of one caller. -/
inductive Step : Counter ι → Counter ι → Prop where
  /-- It reads the clock. -/
  | read {counter : Counter ι} {caller : ι} (clock : UInt64)
      (absent : counter.draw caller = .absent) :
      Step counter (counter.move caller (.clocked clock))
  /-- It looks at the counter. -/
  | look {counter : Counter ι} {caller : ι} {clock seen : UInt64}
      (clocked : counter.draw caller = .clocked clock) (shown : seen ∈ counter.values) :
      Step counter (counter.move caller (.trying clock seen))
  /-- It exchanges in vain, with or without a reason, and sees another or the same value. -/
  | miss {counter : Counter ι} {caller : ι} {clock seen other : UInt64}
      (trying : counter.draw caller = .trying clock seen) (shown : other ∈ counter.values) :
      Step counter (counter.move caller (.trying clock other))
  /-- It exchanges the value that the counter holds for its stamp. -/
  | exchange {counter : Counter ι} {caller : ι} {clock seen : UInt64}
      (trying : counter.draw caller = .trying clock seen) (held : seen = counter.value) :
      Step counter (counter.grant caller clock (Stamp.nextWord seen clock))

/-- Any run, in any order of the callers' steps. -/
abbrev Steps : Counter ι → Counter ι → Prop :=
  Relation.ReflTransGen Step

end Counter

/-! ## Stamps follow one another -/

/-- Every stamp follows the value that the counter had before it. -/
inductive Succession (first : UInt64) : List (Grant ι) → Prop where
  | nil : Succession first []
  | cons {grant : Grant ι} {before : List (Grant ι)}
      (follows : grant.stamp = Stamp.nextWord (latest first before) grant.clock)
      (others : Succession first before) : Succession first (grant :: before)

namespace Succession

variable {first : UInt64} {granted before after : List (Grant ι)} {grant : Grant ι}

theorem behind (succession : Succession first (grant :: before)) : Succession first before := by
  cases succession with
  | cons follows others => exact others

/-- What was granted up to some time follows one another too. -/
theorem of_append (succession : Succession first (after ++ granted)) :
    Succession first granted := by
  induction after with
  | nil => exact succession
  | cons grant after ih => exact ih succession.behind

theorem latest_mem_valuesOf (first : UInt64) (granted : List (Grant ι)) :
    latest first granted ∈ valuesOf first granted := by
  cases granted with
  | nil => exact List.mem_singleton_self first
  | cons grant before => exact List.mem_cons_self

theorem valuesOf_append_subset (first : UInt64) (after before : List (Grant ι)) :
    valuesOf first before ⊆ valuesOf first (after ++ before) := by
  intro value member
  rw [valuesOf, List.map_append, List.append_assoc]
  exact List.mem_append_right _ member

/-- Without a bound, a stamp is the one that follows the value before it. -/
theorem toNat_stamp (succession : Succession first (grant :: before))
    (room : ∀ value ∈ valuesOf first before, value.toNat + 1 < UInt64.size) :
    grant.stamp.toNat = Stamp.next (latest first before).toNat grant.clock.toNat := by
  cases succession with
  | cons follows others =>
      rw [follows]
      exact Stamp.toNat_nextWord grant.clock (room _ (latest_mem_valuesOf first before))

theorem latest_lt (succession : Succession first (grant :: before))
    (room : ∀ value ∈ valuesOf first before, value.toNat + 1 < UInt64.size) :
    latest first before < grant.stamp := by
  rw [UInt64.lt_iff_toNat_lt, succession.toNat_stamp room]
  exact Stamp.last_lt_next _ _

theorem le_latest (succession : Succession first granted)
    (room : ∀ value ∈ valuesOf first granted, value.toNat + 1 < UInt64.size) {value : UInt64}
    (member : value ∈ valuesOf first granted) : value ≤ latest first granted := by
  -- By induction on the grants: every value before a grant is at most the one it followed.
  induction granted with
  | nil =>
      rw [List.mem_singleton.mp member]
      exact UInt64.le_refl first
  | cons grant before ih =>
      have earlier : ∀ value ∈ valuesOf first before, value.toNat + 1 < UInt64.size :=
        fun value member => room value (List.mem_cons_of_mem _ member)
      rcases List.mem_cons.mp member with rfl | member
      · exact UInt64.le_refl _
      · have below := ih succession.behind earlier member
        exact UInt64.le_trans below (UInt64.le_of_lt (succession.latest_lt earlier))

theorem lt_of_mem (succession : Succession first (grant :: before))
    (room : ∀ value ∈ valuesOf first before, value.toNat + 1 < UInt64.size) {value : UInt64}
    (member : value ∈ valuesOf first before) : value < grant.stamp :=
  UInt64.lt_of_le_of_lt (le_latest succession.behind room member) (succession.latest_lt room)

theorem clock_le (succession : Succession first (grant :: before))
    (room : ∀ value ∈ valuesOf first before, value.toNat + 1 < UInt64.size) :
    grant.clock ≤ grant.stamp := by
  rw [UInt64.le_iff_toNat_le, succession.toNat_stamp room]
  exact Stamp.clock_le_next _ _

theorem stamp_injective (succession : Succession first granted)
    (room : ∀ value ∈ valuesOf first granted, value.toNat + 1 < UInt64.size)
    {one other : Grant ι} (here : one ∈ granted) (there : other ∈ granted)
    (same : one.stamp = other.stamp) : one = other := by
  induction granted with
  | nil => cases here
  | cons grant before ih =>
      have earlier : ∀ value ∈ valuesOf first before, value.toNat + 1 < UInt64.size :=
        fun value member => room value (List.mem_cons_of_mem _ member)
      have less : ∀ old ∈ before, old.stamp ≠ grant.stamp := by
        intro old member
        have older : old.stamp ∈ valuesOf first before :=
          List.mem_append_left _ (List.mem_map_of_mem member)
        exact UInt64.ne_of_lt (succession.lt_of_mem earlier older)
      rcases List.mem_cons.mp here with now | here
      · rcases List.mem_cons.mp there with too | there
        · rw [now, too]
        · exact absurd (now ▸ same.symm) (less other there)
      · rcases List.mem_cons.mp there with too | there
        · exact absurd (too ▸ same) (less one here)
        · exact ih succession.behind earlier here there

end Succession

namespace Counter

variable {first : UInt64} {counter next : Counter ι}

/-- What holds at a counter at any time. -/
structure Regular (first : UInt64) (counter : Counter ι) : Prop where
  began : counter.first = first
  succession : Succession first counter.granted
  drawn_iff : ∀ caller clock stamp, counter.draw caller = .drawn clock stamp ↔
    ⟨caller, clock, stamp⟩ ∈ counter.granted

namespace Regular

theorem initial (first : UInt64) : Regular first (initial first : Counter ι) where
  began := rfl
  succession := .nil
  drawn_iff _ _ _ := ⟨nofun, nofun⟩

variable [DecidableEq ι]

/-- A caller without a stamp that gets on without one changes no stamp. -/
theorem move (regular : Regular first counter) {caller : ι} {draw : Draw}
    (before : ∀ clock stamp, counter.draw caller ≠ .drawn clock stamp)
    (after : ∀ clock stamp, draw ≠ .drawn clock stamp) :
    Regular first (counter.move caller draw) where
  began := regular.began
  succession := regular.succession
  drawn_iff other clock stamp := by
    refine Iff.trans ?_ (regular.drawn_iff other clock stamp)
    by_cases same : other = caller
    · subst same
      simp [Counter.move, before, after]
    · simp [Counter.move, same]

theorem grant (regular : Regular first counter) {caller : ι} {clock : UInt64}
    (before : ∀ clock stamp, counter.draw caller ≠ .drawn clock stamp) :
    Regular first
      (counter.grant caller clock (Stamp.nextWord counter.value clock)) where
  began := regular.began
  succession := by
    refine .cons ?_ regular.succession
    rw [← regular.began]
    rfl
  drawn_iff other time stamp := by
    have old := regular.drawn_iff other time stamp
    by_cases same : other = caller
    · subst same
      have none : ⟨other, time, stamp⟩ ∉ counter.granted := fun member =>
        before time stamp (old.mpr member)
      simp [Counter.grant, Counter.move, none, eq_comm]
    · simp [Counter.grant, Counter.move, same, old]

theorem step (regular : Regular first counter) (step : Step counter next) :
    Regular first next := by
  cases step with
  | read clock absent => exact regular.move (by simp [absent]) nofun
  | look clocked shown => exact regular.move (by simp [clocked]) nofun
  | miss trying shown => exact regular.move (by simp [trying]) nofun
  | exchange trying held =>
      subst held
      exact regular.grant (by simp [trying])

theorem of_steps (steps : Steps (Counter.initial first) counter) : Regular first counter := by
  induction steps with
  | refl => exact .initial first
  | tail _ step ih => exact ih.step step

end Regular

end Counter

/-! ## Names that can be read back -/

/-- The stamp is what stands before the first underscore of the name of a directory. -/
theorem takeWhile_workspaceName (language : String) (stamp : Nat) :
    (workspaceName language stamp).toList.takeWhile (· != '_') = (toString stamp).toList := by
  have digits : ∀ c ∈ (toString stamp).toList, (c != '_') = true := by
    intro c member
    rw [Nat.toString_eq_ofList_toDigits, String.toList_ofList] at member
    have digit := Nat.isDigit_of_mem_toDigits (by decide) (by decide) member
    refine bne_iff_ne.mpr ?_
    rintro rfl
    exact absurd digit (by decide)
  have shape : (workspaceName language stamp).toList =
      (toString stamp).toList ++ '_' :: (plainName language).toList := by
    simp [workspaceName, String.toList_append]
  rw [shape, List.takeWhile_append_of_pos digits, List.takeWhile_cons_of_neg (by decide),
    List.append_nil]

/-- The stamp can be read back from the name of a directory, whatever the languages are. -/
theorem workspaceName_injective {language other : String} {stamp later : Nat}
    (same : workspaceName language stamp = workspaceName other later) : stamp = later := by
  have front := takeWhile_workspaceName language stamp
  rw [same, takeWhile_workspaceName, Nat.toString_eq_ofList_toDigits,
    Nat.toString_eq_ofList_toDigits, String.toList_ofList, String.toList_ofList] at front
  calc stamp = Nat.ofDigitChars 10 (Nat.toDigits 10 stamp) 0 := Nat.ofDigitChars_ten_toDigits.symm
    _ = Nat.ofDigitChars 10 (Nat.toDigits 10 later) 0 := by rw [front]
    _ = later := Nat.ofDigitChars_ten_toDigits

/-- The last component of a path that is joined to a plain name is that name. -/
theorem Path.getLast?_components_join {root name : String} (plain : IsPlain name) :
    (components (join root name)).getLast? = some (.normal name) := by
  have relative := isAbsolute_of_plain plain.noSlash
  have alone : inner (pieces name) = [.normal name] := by
    rw [pieces_of_plain plain.noSlash plain.filled]
    have isStep : Component.IsStep (.normal name) :=
      ⟨plain.filled, plain.noSlash, plain.current, plain.parent⟩
    exact isStep.inner_text
  by_cases filled : root = ""
  · subst filled
    have point : ∀ rest, pieces name ≠ "." :: rest := by
      rw [pieces_of_plain plain.noSlash plain.filled]
      rintro rest ⟨⟩
      exact plain.current rfl
    have joined : join "" name = name := by
      simp [join]
    rw [joined, components_of_relative relative point, alone]
    rfl
  · rw [components_join filled relative, alone, List.getLast?_concat]

/-- Directories with different stamps differ, however their paths are read. -/
theorem workspacePath_ne {stamp later : Nat} (differ : stamp ≠ later)
    (root language other : String) :
    Path.components (workspacePath root language stamp) ≠
      Path.components (workspacePath root other later) := by
  intro same
  have last := congrArg List.getLast? same
  have ends (language : String) (stamp : Nat) :
      (Path.components (workspacePath root language stamp)).getLast? =
        some (.normal (workspaceName language stamp)) :=
    Path.getLast?_components_join (isPlain_workspaceName language stamp)
  rw [ends, ends, Option.some.injEq, Path.Component.normal.injEq] at last
  exact differ (workspaceName_injective last)

/-! ## No two callers share a directory -/

namespace Counter

variable [DecidableEq ι] {first : UInt64} {counter : Counter ι}

/-- **No two callers share a directory.** Let any callers draw stamps in any order of
their steps, and let no stamp be the greatest of a word. Then a caller has a stamp exactly
when it was granted one. A stamp is greater than every value that the counter had before,
and not behind the clock of its caller; it is the stamp that a runner gives next after the
value before it. So the directories of two callers differ, below any root and for any two
languages. -/
theorem stamps_never_coincide (steps : Steps (initial first) counter)
    (room : ∀ value ∈ counter.values, value.toNat + 1 < UInt64.size) :
    (∀ caller clock stamp, counter.draw caller = .drawn clock stamp ↔
      ⟨caller, clock, stamp⟩ ∈ counter.granted) ∧
    (∀ after grant before, counter.granted = after ++ grant :: before →
      (∀ value ∈ valuesOf first before, value < grant.stamp) ∧ grant.clock ≤ grant.stamp ∧
      ∀ (runner : Runner) (job : Job), runner.lastStamp = (latest first before).toNat →
        runner.pathFor grant.clock.toNat job =
          workspacePath runner.root job.language grant.stamp.toNat) ∧
    (∀ one other clock stamp time later, one ≠ other →
      counter.draw one = .drawn clock stamp → counter.draw other = .drawn time later →
      ∀ root language another, Path.components (workspacePath root language stamp.toNat) ≠
        Path.components (workspacePath root another later.toNat)) := by
  have regular := Regular.of_steps steps
  rw [values, regular.began] at room
  refine ⟨regular.drawn_iff, fun after grant before shape => ?_,
    fun one other clock stamp time later differ here there root language another =>
      workspacePath_ne (fun same => differ ?_) root language another⟩
  · have succession := regular.succession
    rw [shape] at succession room
    have earlier : ∀ value ∈ valuesOf first before, value.toNat + 1 < UInt64.size := by
      intro value member
      have inGrants : value ∈ valuesOf first (grant :: before) := List.mem_cons_of_mem _ member
      exact room value (Succession.valuesOf_append_subset first after _ inGrants)
    have now := succession.of_append
    refine ⟨fun value => now.lt_of_mem earlier, now.clock_le earlier, fun runner job last => ?_⟩
    rw [Runner.pathFor, last, now.toNat_stamp earlier]
  · have grants := regular.succession.stamp_injective room
      ((regular.drawn_iff one clock stamp).mp here) ((regular.drawn_iff other time later).mp there)
      (UInt64.toNat_inj.mp same)
    exact congrArg Grant.caller grants

/-- Two callers at the same time, of which the second looks before the first exchanges. -/
def contended : Counter Bool :=
  ((((initial 0).move true (.clocked 5)).move false (.clocked 5)).move true (.trying 5 0)).move
    false (.trying 5 0)

theorem steps_contended : Steps (initial 0) contended :=
  .tail (.tail (.tail (.tail .refl (.read 5 rfl)) (.read 5 rfl))
    (.look rfl List.mem_cons_self)) (.look rfl List.mem_cons_self)

/-- The first of them gets its stamp, and the second the next one at its second try. -/
def settled : Counter Bool :=
  ((contended.grant true 5 (Stamp.nextWord 0 5)).move false (.trying 5 5)).grant false 5
    (Stamp.nextWord 5 5)

theorem steps_settled : Steps (initial 0) settled :=
  .tail (.tail (.tail steps_contended (.exchange rfl rfl)) (.miss rfl List.mem_cons_self))
    (.exchange rfl rfl)

/-- Two callers with the same reading of the clock get different directories, although
their languages look the same in a name. -/
theorem stamps_never_coincide_settled :
    (∀ value ∈ settled.values, value.toNat + 1 < UInt64.size) ∧
    settled.draw true = .drawn 5 5 ∧ settled.draw false = .drawn 5 6 ∧
    Path.components (workspacePath "/work" "c++" 5) ≠
      Path.components (workspacePath "/work" "c--" 6) := by
  have values : settled.values = [6, 5, 0] := rfl
  have room : ∀ value ∈ settled.values, value.toNat + 1 < UInt64.size := by
    rw [values, List.forall_mem_cons, List.forall_mem_cons, List.forall_mem_singleton]
    exact ⟨by decide, by decide, by decide⟩
  obtain ⟨_, _, apart⟩ := stamps_never_coincide steps_settled room
  exact ⟨room, rfl, rfl, apart true false 5 5 5 6 (by decide) rfl rfl "/work" "c++" "c--"⟩

end Counter

end Polyglot
