import Polyglot.Proofs.Responses
import Polyglot.Proofs.Toolchains
import Polyglot.Proofs.Values

/-!
# The report of the versions

The route of the versions answers an object with one member for every language that has a version
command, and one more member with the version of the service (`Gateway.Reported`). The members
have different names, so every reader sees the same ones (`Gateway.dataOf_versionsText`). Whoever
asked before, the versions are those that the cache holds from then on.

A language may have any name, also the name of the member that holds the version of the service.
Nothing refuses such a language, and its version is then left out of the report
(`Gateway.not_reported_hidden`).
-/

set_option autoImplicit false

namespace Polyglot

open Polyglot.Json (Tree Holds)

namespace Gateway

variable {ω σ : Type} {environment : Environment ω σ} {gateway : Gateway ω σ} {world : ω}
variable {registry : Registry} {backendsDir : String} {versions : List (String × String)}
variable {request : Http.Request}

/-! ## The members of a report -/

/-- The members of a report. The version of the service stands where a language of the same name
would stand. -/
def reportMembers (gateway : Gateway ω σ) (versions : List (String × String)) :
    List (String × String) :=
  Table.insert versionMember gateway.serviceVersion versions

/-- The text of a report holds its members, which are texts. -/
theorem holds_versionsText (gateway : Gateway ω σ) (versions : List (String × String)) :
    Holds (Text.utf8 (gateway.versionsText versions))
      (.object ((gateway.reportMembers versions).map fun member => (member.1, .text member.2))) := by
  refine .of_renders (Json.renders_object ?_)
  rw [reportMembers]
  rw [List.forall₂_map_left_iff, List.forall₂_map_right_iff, List.forall₂_same]
  exact fun member _ => .member member.1 (Json.renders_string member.2)

/-- A reader sees all members of a report, each with its text. -/
theorem dataOf_versionsText (gateway : Gateway ω σ) (ordered : Table.Ordered versions) :
    Json.dataOf (Text.utf8 (gateway.versionsText versions)) =
      .ok (.table ((gateway.reportMembers versions).map fun member =>
        (member.1, .text member.2))) := by
  have modest : (Tree.object ((gateway.reportMembers versions).map fun member =>
      (member.1, Tree.text member.2))).Modest 127 := by
    refine .object fun member among => ?_
    obtain ⟨given, _, rfl⟩ := List.mem_map.mp among
    exact .text _ _
  have increasing : Table.Ordered ((gateway.reportMembers versions).map fun member =>
      (member.1, Data.text member.2)) :=
    List.pairwise_map.mpr (ordered.insert _ _)
  rw [(gateway.holds_versionsText versions).dataOf modest, Tree.toData,
    Json.dataOfMembers_eq_map, List.map_map]
  exact congrArg (fun table => Except.ok (Data.table table)) (Table.ofList_of_ordered increasing)

/-- A report on a registry. Every registered language with a version command has a member under
its registered name that holds its version, the version of the service has its own, and there are
no others. A language with the name of the member of the service is not reported. -/
structure Reported (registry : Registry) (serviceVersion : String)
    (versions members : List (String × String)) : Prop where
  ordered : Table.Ordered members
  service : Table.find? "serviceVersion" members = some serviceVersion
  language : ∀ language ∈ registry.toList, language.backend.versionCommand?.isSome = true →
    language.name ≠ "serviceVersion" → ∃ version,
      Table.find? language.name versions = some version ∧
      Table.find? language.name members = some version
  others : ∀ name ∈ members.map (·.1), name = "serviceVersion" ∨
    ∃ language ∈ registry.toList, language.backend.versionCommand?.isSome = true ∧
      language.name = name

theorem reported_reportMembers (gateway : Gateway ω σ) (lists : VersionCache.Lists registry versions) :
    Reported registry gateway.serviceVersion versions (gateway.reportMembers versions) where
  ordered := lists.ordered.insert _ _
  service := Table.find?_insert_self _ _ _
  language := by
    intro language listed asked differ
    have named : language.name ∈ versions.map (·.1) :=
      lists.names.mem_iff.mpr
        (List.mem_map.mpr ⟨language, List.mem_filter.mpr ⟨listed, asked⟩, rfl⟩)
    obtain ⟨⟨_, version⟩, member, rfl⟩ := List.mem_map.mp named
    have found := (Table.find?_eq_some_iff lists.ordered).mpr member
    exact ⟨version, found, (Table.find?_insert_of_ne differ _ _).trans found⟩
  others := by
    intro name among
    obtain ⟨member, listed, rfl⟩ := List.mem_map.mp among
    rcases Table.mem_insert listed with rfl | former
    · exact .inl rfl
    · have named := lists.names.mem_iff.mp (List.mem_map_of_mem former)
      obtain ⟨language, asked, same⟩ := List.mem_map.mp named
      obtain ⟨registered, commanded⟩ := List.mem_filter.mp asked
      exact .inr ⟨language, registered, commanded, same⟩

/-! ## The response -/

/-- The route of the versions asks the cache, and sends what it answers. -/
theorem respond_versions (environment : Environment ω σ) (gateway : Gateway ω σ) (world : ω)
    (get : request.method = "GET") (path : Http.pathOf request.target = Route.versions.path) :
    gateway.respond environment world request =
      let asked := gateway.versions.get environment world
      (finish "GET" (jsonResponse 200 "*" (gateway.versionsText asked.1)),
        { gateway with versions := asked.2.1 }, asked.2.2) := by
  have route : Route.ofPath? Route.versions.path = some .versions := rfl
  have allowed : Route.versions.methods.contains "GET" = true := rfl
  simp only [respond, answer, path, route, get, allowed, if_true, serve, reportVersions]

/-- **Every language is reported**, but for one with the name of the member of the service. For
every registry and every version of the service, whatever was asked before, the answer to GET is a
JSON object with the members of a report on the registry. The versions in it are those of the
cache, which holds them afterwards, and only the cache of the gateway changes. -/
theorem reports_versions {languages : List (String × Backend)}
    (made : Registry.ofList languages = .ok registry) (gateway : Gateway ω σ)
    (cached : gateway.versions.Reached registry backendsDir) (environment : Environment ω σ)
    (world : ω) (get : request.method = "GET")
    (path : Http.pathOf request.target = "/compiler_versions") :
    let response := (gateway.respond environment world request).1
    let after := (gateway.respond environment world request).2.1
    ∃ versions members,
      (gateway.versions.get environment world).1 = versions ∧
      after = { gateway with versions := { gateway.versions with versions := some versions } } ∧
      response.status = 200 ∧ response.values "content-type" = ["application/json"] ∧
      response.values "content-length" = [Http.lengthText response.body] ∧
      Holds (Text.utf8 response.body)
        (.object (members.map fun member => (member.1, .text member.2))) ∧
      Json.dataOf (Text.utf8 response.body) =
        .ok (.table (members.map fun member => (member.1, .text member.2))) ∧
      Reported registry gateway.serviceVersion versions members := by
  have enrols := Registry.enrols_of_ofList made
  have lists := cached.lists_get enrols environment world
  rw [respond_versions environment gateway world get path]
  refine ⟨_, _, rfl, ?_, rfl, rfl, rfl, gateway.holds_versionsText _,
    gateway.dataOf_versionsText lists.ordered, gateway.reported_reportMembers lists⟩
  exact congrArg (fun cache => { gateway with versions := cache })
    (VersionCache.cache_get environment gateway.versions world)

/-- A gateway without executors that reports on a registry. -/
def reporter (registry : Registry) : Gateway Nat Unit :=
  ⟨⟨[], ⟨"/tmp", none, 0⟩, "1"⟩, .fresh registry ".", .ofList []⟩

/-- The question for the versions. -/
def versionsRequest : Http.Request := ⟨"GET", "/compiler_versions", [], []⟩

/-- The version of the one language that has a version command is reported. -/
theorem reports_versions_pair :
    let environment : Environment Nat Unit :=
      .counting (.ok ⟨some (.status 0), Text.utf8 "cargo 1.70\n", []⟩)
    let gateway := reporter Registry.pairRegistry
    let response := (gateway.respond environment 0 versionsRequest).1
    Registry.ofList Registry.pair = .ok Registry.pairRegistry ∧
    gateway.versions.Reached Registry.pairRegistry "." ∧ versionsRequest.method = "GET" ∧
    Http.pathOf versionsRequest.target = "/compiler_versions" ∧ response.status = 200 ∧
    ∃ members, Table.find? "Rust" members = some "cargo 1.70" ∧
      Json.dataOf (Text.utf8 response.body) =
        .ok (.table (members.map fun member => (member.1, .text member.2))) ∧
      Reported Registry.pairRegistry "1" [("Rust", "cargo 1.70")] members := by
  intro environment gateway response
  have made : Registry.ofList Registry.pair = .ok Registry.pairRegistry := by decide +kernel
  have path : Http.pathOf versionsRequest.target = "/compiler_versions" := by decide +kernel
  have asked : (gateway.versions.get environment 0).1 = [("Rust", "cargo 1.70")] := by
    decide +kernel
  have rust : (⟨"Rust", .ephemeral ⟨"main.rs", "library.rs", ["cargo", "run"],
      ["cargo", "--version"]⟩⟩ : Language) ∈ Registry.pairRegistry.toList := by decide
  obtain ⟨versions, members, same, _, status, _, _, _, read, reported⟩ :=
    reports_versions made gateway .fresh environment 0 rfl path
  obtain rfl := asked.symm.trans same
  obtain ⟨version, found, told⟩ := reported.language _ rust rfl (by decide)
  obtain rfl := Option.some.inj found
  exact ⟨made, .fresh, rfl, path, status, members, told, read, reported⟩

/-- One language with the name of the member of the service. -/
def hidden : List (String × Backend) :=
  [("serviceVersion",
    .ephemeral ⟨"main.txt", "one.txt", ["cat", "main.txt"], ["echo", "tool 1.0"]⟩)]

/-- The registry of that language. -/
def hiddenRegistry : Registry :=
  ⟨[("serviceversion", ⟨"serviceVersion",
    .ephemeral ⟨"main.txt", "one.txt", ["cat", "main.txt"], ["echo", "tool 1.0"]⟩⟩)]⟩

/-- Such a language is registered, and its version is collected, but no member reports it. -/
theorem not_reported_hidden :
    let environment : Environment Nat Unit :=
      .counting (.ok ⟨some (.status 0), Text.utf8 "tool 1.0\n", []⟩)
    let gateway := reporter hiddenRegistry
    let answered := gateway.respond environment 0 versionsRequest
    Registry.ofList hidden = .ok hiddenRegistry ∧
    gateway.versions.Reached hiddenRegistry "." ∧
    answered.2.1.versions.versions = some [("serviceVersion", "tool 1.0")] ∧
    answered.1.body = "\x7b\"serviceVersion\":\"1\"\x7d" ∧
    Json.dataOf (Text.utf8 answered.1.body) = .ok (.table [("serviceVersion", .text "1")]) := by
  intro environment gateway answered
  have made : Registry.ofList hidden = .ok hiddenRegistry := by decide +kernel
  have asked : (gateway.versions.get environment 0).1 = [("serviceVersion", "tool 1.0")] := by
    decide +kernel
  have path : Http.pathOf versionsRequest.target = "/compiler_versions" := by decide +kernel
  have responds : answered = _ := respond_versions environment gateway 0 rfl path
  have cached : answered.2.1.versions.versions = some [("serviceVersion", "tool 1.0")] := by
    rw [responds, ← asked]
    exact congrArg VersionCache.versions (VersionCache.cache_get environment gateway.versions 0)
  have body : answered.1.body = gateway.versionsText [("serviceVersion", "tool 1.0")] := by
    rw [responds, ← asked]
    rfl
  refine ⟨made, .fresh, cached, body.trans (by decide +kernel), ?_⟩
  rw [body]
  exact gateway.dataOf_versionsText (List.pairwise_singleton _ _)

end Gateway

end Polyglot
