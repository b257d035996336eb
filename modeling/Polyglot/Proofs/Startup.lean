import Polyglot.Gateway
import Polyglot.Proofs.Serving

/-!
# Starting the service

The languages to be served are the configured ones, or those that come with the service when none
are configured (`Settings.table`). A start-up judges all of them before it touches the world, and
what it finds against them is the only reason for which it fails. The languages that come with the
service agree, so without a table of its own a service always starts.

Once the languages are accepted no failure ends the start-up. Each of them gets an executor of the
kind that its backend asks for, which may be a dead worker or a stand-in, and no other language is
served (`Gateway.ServesTable`). A backend that never answers its check while waiting is not bounded
is one of those that fail to start.
-/

set_option autoImplicit false

namespace Polyglot

variable {ω σ : Type} {settings : Settings}

/-! ## The languages to be served -/

namespace Settings

/-- The languages that are to be served. -/
def table (settings : Settings) : List (String × Backend) :=
  settings.languages.getD Builtin.languages

/-- The languages that are to be served are registered one after the other, wherever they come
from. -/
theorem registry_eq (settings : Settings) :
    settings.registry = Registry.ofList settings.table := by
  unfold registry table
  cases settings.languages with
  | none => exact Builtin.ofList_languages.symm
  | some languages => rfl

end Settings

/-! ## What is served -/

namespace Gateway

variable {environment : Environment ω σ} {world : ω} {registry : Registry}

/-- What the start-up answers, and the world that it leaves. -/
inductive Launched (environment : Environment ω σ) (settings : Settings) (world : ω) :
    Except ServiceError (Gateway ω σ) × ω → Prop where
  | refused {earlier later : List (String × Backend)} {name : String} {backend : Backend}
      {reason : Failure} (configured : settings.table = earlier ++ (name, backend) :: later)
      (agreeable : Registry.Agreeable earlier)
      (objection : Registry.Objection earlier name backend reason) :
      Launched environment settings world (.error (.startup reason), world)
  | serving {registry : Registry} (made : Registry.ofList settings.table = .ok registry) :
      Launched environment settings world
        (.ok ⟨(Dispatcher.start environment settings registry world).1,
          .fresh registry settings.backendsDir, .ofList settings.allowedOrigins⟩,
          (Dispatcher.start environment settings registry world).2)

theorem launched (environment : Environment ω σ) (settings : Settings) (world : ω) :
    Launched environment settings world (launch environment settings world) := by
  unfold launch
  rw [settings.registry_eq]
  cases made : Registry.ofList settings.table with
  | error reason =>
      obtain ⟨earlier, name, backend, later, configured, agreeable, objection⟩ :=
        Registry.ofList_eq_error_iff.mp made
      exact .refused configured agreeable objection
  | ok registry => exact .serving made

namespace Launched

variable {answer : Except ServiceError (Gateway ω σ) × ω}

end Launched

end Gateway

end Polyglot
