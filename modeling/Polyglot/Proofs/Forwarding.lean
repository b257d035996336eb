import Mathlib.Data.List.Forall2
import Polyglot.Proofs.Failures
import Polyglot.Proofs.Messages

/-!
# What becomes of forwarded jobs

A forwarded job is sent to the port of its backend as the body of one exchange, and what the exchange
brings decides alone what becomes of the job (`Proxy.Judged`). A complete answer in time counts when
it is a reply, whatever its status. Another complete answer breaks the protocol when its status
reports success, and makes the backend unavailable otherwise. An exchange that breaks in time makes
the backend unavailable as well, however much of the answer has come, and one that is late is a
timeout.

Jobs that are forwarded one after the other are sent whatever became of the ones before them
(`Proxy.forwardAll_eq`). So the same exchange has the same outcome at every place of every sequence,
be it the first one or behind any number of failures (`Proxy.forwards_judged_alone`).
-/

set_option autoImplicit false

namespace Polyglot

open Polyglot.Http (Break Exchange Network Status)
open Polyglot.Text (Bytes)

variable {ω σ : Type}

/-! ## Exchanges -/

namespace Http

/-- An exchange ends, and before the bound if there is one. -/
def Exchange.Ends (exchange : Exchange) (limit : Option Nat) : Prop :=
  ∃ duration, exchange.duration = some duration ∧ ∀ bound, limit = some bound → duration < bound

/-- An exchange brings a complete answer in time. -/
def Exchange.Brings (exchange : Exchange) (limit : Option Nat) (status : Status) (body : Bytes) :
    Prop :=
  exchange.Ends limit ∧ exchange.transfer = .complete status body

theorem Exchange.endsWithin_iff {exchange : Exchange} {limit : Option Nat} :
    exchange.endsWithin limit = true ↔ exchange.Ends limit := by
  unfold endsWithin Ends
  cases exchange.duration with
  | none => simp
  | some duration => cases limit <;> simp

theorem Status.isSuccess_iff {status : Status} :
    status.isSuccess = true ↔ 200 ≤ status ∧ status < 300 := by
  simp [Status.isSuccess]

/-- Sends bodies to a port one after the other. -/
def Network.postAll (network : Network ω) (port : UInt16) : List Bytes → ω → List Exchange × ω
  | [], world => ([], world)
  | body :: bodies, world =>
    let (exchange, world) := network.post world port body
    let (exchanges, world) := network.postAll port bodies world
    (exchange :: exchanges, world)

theorem Network.length_postAll (network : Network ω) (port : UInt16) (bodies : List Bytes)
    (world : ω) : (network.postAll port bodies world).1.length = bodies.length := by
  induction bodies generalizing world with
  | nil => rfl
  | cons body bodies ih => simp [postAll, ih]

end Http

namespace Proxy

/-- Forwards jobs one after the other. -/
def forwardAll (network : Network ω) (proxy : Proxy σ) :
    List Job → ω → List (Except Failure Reply) × ω
  | [], world => ([], world)
  | job :: jobs, world =>
    let (outcome, world) := proxy.forward network world job
    let (outcomes, world) := forwardAll network proxy jobs world
    (outcome :: outcomes, world)

/-- Jobs are sent whatever becomes of the ones before them, and each exchange is judged alone. -/
theorem forwardAll_eq (network : Network ω) (proxy : Proxy σ) (jobs : List Job) (world : ω) :
    proxy.forwardAll network jobs world =
      let met := network.postAll proxy.port (jobs.map proxy.bodyOf) world
      (met.1.map proxy.conclude, met.2) := by
  induction jobs generalizing world with
  | nil => rfl
  | cons job jobs ih => simp only [forwardAll, forward, List.map_cons, Network.postAll, ih]

/-! ## Outcomes -/

/-- The outcome is what an exchange means for a backend. A call that is not bounded does not return
from an exchange that never ends, so of this case only the bounded part is said. -/
structure Judged (proxy : Proxy σ) (exchange : Exchange) (outcome : Except Failure Reply) : Prop where
  answered : ∀ reply, outcome = .ok reply ↔
    ∃ status body, exchange.Brings proxy.timeoutMs status body ∧ Reply.read body = .ok reply
  malformed : ∀ text, outcome = .error (.protocolError text) ↔
    ∃ status body fault, exchange.Brings proxy.timeoutMs status body ∧
      Reply.read body = .error fault ∧ (200 ≤ status ∧ status < 300) ∧
      text = "Malformed reply from " ++ proxy.language ++ " backend: " ++ fault.message
  unavailable : ∀ text, outcome = .error (.backendUnavailable text) ↔
    (∃ status body fault, exchange.Brings proxy.timeoutMs status body ∧
      Reply.read body = .error fault ∧ ¬ (200 ≤ status ∧ status < 300) ∧
      text = proxy.language ++ " backend answered " ++ status.text ++ ": " ++ Text.lossy body) ∨
    ∃ what, exchange.Ends proxy.timeoutMs ∧ exchange.transfer = .broken what ∧
      text = proxy.language ++ ": " ++ what.message (address proxy.port)
  late : ∀ limit, proxy.timeoutMs = some limit → ∀ seconds,
    outcome = .error (.timeout seconds) ↔
      ¬ exchange.Ends (some limit) ∧ seconds = limit / 1000
  unbounded : proxy.timeoutMs = none → exchange.duration ≠ none → ∀ seconds,
    outcome ≠ .error (.timeout seconds)
  nothingElse : FailsWith ["backend_unavailable", "timeout", "protocol_error"] outcome

section Conclusions

variable {proxy : Proxy σ} {exchange : Exchange}

theorem conclude_of_late (late : ¬ exchange.Ends proxy.timeoutMs) :
    proxy.conclude exchange = .error (.timeout (proxy.timeoutMs.getD 0 / 1000)) := by
  rw [conclude, if_neg (mt Exchange.endsWithin_iff.mp late)]

theorem conclude_of_broken {what : Break} (ends : exchange.Ends proxy.timeoutMs)
    (broken : exchange.transfer = .broken what) :
    proxy.conclude exchange =
      .error (.backendUnavailable (proxy.language ++ ": " ++ what.message (address proxy.port))) := by
  rw [conclude, if_pos (Exchange.endsWithin_iff.mpr ends), broken]

theorem conclude_of_brings {status : Status} {body : Bytes}
    (brings : exchange.Brings proxy.timeoutMs status body) :
    proxy.conclude exchange = readAnswer proxy.language status body := by
  obtain ⟨ends, complete⟩ := brings
  rw [conclude, if_pos (Exchange.endsWithin_iff.mpr ends), complete]

/-- A late exchange is judged as a timeout. -/
theorem judged_of_late (late : ¬ exchange.Ends proxy.timeoutMs) :
    proxy.Judged exchange (proxy.conclude exchange) := by
  have nothing : ∀ status body, ¬ exchange.Brings proxy.timeoutMs status body :=
    fun status body brings => late brings.1
  rw [conclude_of_late late]
  constructor
  case answered => simp [nothing]
  case malformed => simp [nothing]
  case unavailable => simp [nothing, late]
  case late =>
    rintro limit bounded seconds
    rw [bounded] at late ⊢
    simp [late, eq_comm]
  case unbounded =>
    rintro unbounded ended
    obtain ⟨duration, ended⟩ := Option.ne_none_iff_exists'.mp ended
    exact absurd ⟨duration, ended, by simp [unbounded]⟩ late
  case nothingElse => exact .error (by simp [Failure.code])

/-- An exchange that breaks in time makes the backend unavailable. -/
theorem judged_of_broken {what : Break} (ends : exchange.Ends proxy.timeoutMs)
    (broken : exchange.transfer = .broken what) :
    proxy.Judged exchange (proxy.conclude exchange) := by
  have nothing : ∀ status body, ¬ exchange.Brings proxy.timeoutMs status body := by
    rintro status body ⟨_, complete⟩
    rw [broken] at complete
    cases complete
  rw [conclude_of_broken ends broken]
  constructor
  case answered => simp [nothing]
  case malformed => simp [nothing]
  case unavailable => simp [nothing, ends, broken, eq_comm]
  case late =>
    rintro limit bounded seconds
    rw [bounded] at ends
    simp [ends]
  case unbounded => simp
  case nothingElse => exact .error (by simp [Failure.code])

/-- A complete answer in time is judged by what is read from it, and by its status if nothing is. -/
theorem judged_of_brings {status : Status} {body : Bytes}
    (brings : exchange.Brings proxy.timeoutMs status body) :
    proxy.Judged exchange (proxy.conclude exchange) := by
  have only : ∀ other text, exchange.Brings proxy.timeoutMs other text ↔
      other = status ∧ text = body := by
    intro other text
    constructor
    · rintro ⟨_, complete⟩
      rw [brings.2] at complete
      cases complete
      exact ⟨rfl, rfl⟩
    · rintro ⟨rfl, rfl⟩
      exact brings
  have whole : ∀ what, exchange.transfer ≠ .broken what := by simp [brings.2]
  have inTime : ∀ limit, proxy.timeoutMs = some limit → exchange.Ends (some limit) :=
    fun limit bounded => bounded ▸ brings.1
  rw [conclude_of_brings brings, readAnswer]
  cases read : Reply.read body with
  | ok reply =>
      constructor
      case answered => simp [only, read]
      case malformed => simp [only, read]
      case unavailable => simp [only, read, whole]
      case late => simp +contextual [inTime]
      case unbounded => simp
      case nothingElse => exact .ok _ _
  | error fault =>
      simp only [Status.isSuccess_iff]
      by_cases success : 200 ≤ status ∧ status < 300
      · rw [if_pos success]
        constructor
        case answered => simp [only, read]
        case malformed => simp [only, read, success, eq_comm]
        case unavailable => simp [only, read, success, whole]
        case late => simp +contextual [inTime]
        case unbounded => simp
        case nothingElse => exact .error (by simp [Failure.code])
      · rw [if_neg success]
        constructor
        case answered => simp [only, read]
        case malformed => simp [only, read, success]
        case unavailable =>
          have beyond : 200 ≤ status → 300 ≤ status :=
            fun least => Nat.le_of_not_lt fun below => success ⟨least, below⟩
          simpa [only, read, whole, eq_comm] using beyond
        case late => simp +contextual [inTime]
        case unbounded => simp
        case nothingElse => exact .error (by simp [Failure.code])

/-- Every exchange is judged for what it is. -/
theorem judged_conclude (proxy : Proxy σ) (exchange : Exchange) :
    proxy.Judged exchange (proxy.conclude exchange) := by
  by_cases ends : exchange.Ends proxy.timeoutMs
  · cases transfer : exchange.transfer with
    | complete status body => exact judged_of_brings ⟨ends, transfer⟩
    | broken what => exact judged_of_broken ends transfer
  · exact judged_of_late ends

end Conclusions

/-- **Every forwarded job is judged by its own exchange.** Jobs that are forwarded one after the
other make one exchange each, with the body of the job, whatever became of the jobs before them. Each
of them has the outcome that its exchange has for the backend: the reply if a complete answer in time
is one, whatever its status, a breach of the protocol or an unavailable backend if the answer is
none, an unavailable backend if the exchange breaks, and a timeout with the seconds of the bound if
it is late. The same exchange has the same outcome wherever it comes in whatever sequence of jobs,
and an executor that runs a job over the backend keeps the backend as it is. -/
theorem forwards_judged_alone (network : Network ω) (proxy : Proxy σ) (jobs : List Job) (world : ω) :
    let met := network.postAll proxy.port (jobs.map proxy.bodyOf) world
    let forwarded := proxy.forwardAll network jobs world
    (met.1.length = jobs.length ∧ forwarded.2 = met.2) ∧
    List.Forall₂ proxy.Judged met.1 forwarded.1 ∧
    (∀ {υ : Type} (others : Network υ) (there : υ) (otherJobs : List Job) (place otherPlace : Nat)
      (exchange : Exchange), met.1[place]? = some exchange →
      (others.postAll proxy.port (otherJobs.map proxy.bodyOf) there).1[otherPlace]? =
        some exchange →
      ∃ outcome, forwarded.1[place]? = some outcome ∧
        (proxy.forwardAll others otherJobs there).1[otherPlace]? = some outcome ∧
        proxy.Judged exchange outcome) ∧
    ∀ (environment : Environment ω σ) (runner : Runner) (here : ω) (job : Job),
      Executor.execute environment runner (.proxied proxy) here job =
        let ran := proxy.forward environment.network here job
        (.answered (ran.1.bind Reply.output), .proxied proxy, runner, ran.2) := by
  intro met forwarded
  have counted : met.1.length = jobs.length := by
    rw [Network.length_postAll, List.length_map]
  refine ⟨⟨counted, ?_⟩, ?_, ?_, fun environment runner here job => rfl⟩
  · simp only [forwarded, forwardAll_eq, met]
  · simp only [forwarded, forwardAll_eq, met, List.forall₂_map_right_iff]
    exact List.forall₂_same.mpr fun exchange _ => judged_conclude proxy exchange
  · intro υ others there otherJobs place otherPlace exchange found foundToo
    refine ⟨proxy.conclude exchange, ?_, ?_, judged_conclude proxy exchange⟩
    · simp only [forwarded, forwardAll_eq, List.getElem?_map]
      rw [found, Option.map_some]
    · simp only [forwardAll_eq, List.getElem?_map]
      rw [foundToo, Option.map_some]

/-- A network that brings given exchanges one after the other, and then breaks every one. -/
def scripted : Network (List Exchange) where
  accepts exchanges _ _ := (true, exchanges)
  post exchanges _ _ :=
    match exchanges with
    | [] => (⟨.broken .unanswered, some 0⟩, [])
    | exchange :: exchanges => (exchange, exchanges)

/-- A timeout, a truncated answer and an error page later, a reply is answered as it is to the first
job. -/
theorem forwards_judged_alone_scripted :
    let proxy : Proxy Unit := ⟨"java", 8001, some 1500, some ()⟩
    let job : Job := ⟨"Java", "x", "", "", ""⟩
    let body := Text.utf8 (Json.object [("result", Json.string "1")])
    let answer : Exchange := ⟨.complete 500 body, some 3⟩
    let exchanges : List Exchange :=
      [⟨.complete 200 [], some 1500⟩, ⟨.broken .truncated, some 3⟩, ⟨.complete 502 [], some 3⟩, answer]
    let outcomes := (proxy.forwardAll scripted [job, job, job, job] exchanges).1
    outcomes[0]? = some (.error (.timeout 1)) ∧
    outcomes[3]? = some (.ok ⟨some "1", none, none, none⟩) ∧
    (proxy.forwardAll scripted [job] [answer]).1[0]? = outcomes[3]? := by
  intro proxy job body answer exchanges outcomes
  obtain ⟨_, _, alone, _⟩ := forwards_judged_alone scripted proxy [job, job, job, job] exchanges
  obtain ⟨first, foundFirst, _, judgedFirst⟩ :=
    alone scripted exchanges [job, job, job, job] 0 0 ⟨.complete 200 [], some 1500⟩ rfl rfl
  obtain ⟨last, foundLast, same, judgedLast⟩ := alone scripted [answer] [job] 3 0 answer rfl rfl
  have late : ¬ Exchange.Ends ⟨.complete 200 [], some 1500⟩ (some 1500) := by
    rintro ⟨duration, ⟨⟩, early⟩
    exact Nat.lt_irrefl _ (early 1500 rfl)
  have inTime : answer.Ends (some 1500) := ⟨3, rfl, by rintro _ ⟨⟩; decide⟩
  refine ⟨?_, ?_, same.trans foundLast.symm⟩
  · exact foundFirst.trans (congrArg some ((judgedFirst.late 1500 rfl 1).mpr ⟨late, rfl⟩))
  · exact foundLast.trans (congrArg some
      ((judgedLast.answered _).mpr ⟨500, body, ⟨inTime, rfl⟩, Reply.read_object "1"⟩))

end Proxy

end Polyglot
