import Polyglot.Proofs.Responses

/-!
# Which requests reach a handler

A request reaches a handler by its method and its path, which are compared as they were sent. The
path is what stands between the host, if the target names one, and the query (`Http.Names`). Six
combinations reach a handler (`Gateway.routed`). Every other request is told that nothing was found
(`Gateway.Lost`): it meets no executor and no toolchain, so neither the gateway nor the world
changes. No response may be kept by a cache (`Gateway.routes_requests`).

A response to HEAD has no body. What a lost request is told is then only measured, not sent
(`Gateway.not_told_to_head`).
-/

set_option autoImplicit false

namespace Polyglot

open Polyglot.Http (Response)

/-! ## The path of a target -/

namespace Http

/-- A text is a path: it begins with a slash, and nothing in it ends a path. -/
structure IsPath (path : String) : Prop where
  rooted : path.toList.head? = some '/'
  plain : ∀ c ∈ path.toList, endsPath c = false

/-- A text is a scheme: it is not empty, and nothing in it ends a host or a scheme. -/
structure IsScheme (scheme : String) : Prop where
  filled : scheme ≠ ""
  plain : ∀ c ∈ scheme.toList, endsHost c = false ∧ c ≠ ':'

/-- Nothing in a text ends a host. -/
def IsHost (host : String) : Prop :=
  ∀ c ∈ host.toList, endsHost c = false
/-- A text may stand behind a path: it is empty, a query or a fragment. -/
def IsBehind (rest : String) : Prop :=
  ∀ c ∈ rest.toList.head?, endsPath c = true

/-- A target is a path or an address, with any query, and names a path. -/
inductive Names : String → String → Prop where
  | path {path rest : String} (rooted : IsPath path) (behind : IsBehind rest) :
      Names (path ++ rest) path
  | address {scheme host path rest : String} (schemed : IsScheme scheme) (hosted : IsHost host)
      (rooted : IsPath path) (behind : IsBehind rest) :
      Names (scheme ++ "://" ++ host ++ path ++ rest) path
  | host {scheme host rest : String} (schemed : IsScheme scheme) (hosted : IsHost host)
      (behind : IsBehind rest) : Names (scheme ++ "://" ++ host ++ rest) "/"
  | star : Names "*" "*"

section Targets

variable {keeps : Char → Bool} {front rest : List Char} {scheme host path : String}

theorem takeWhile_append_of_stop (kept : ∀ c ∈ front, keeps c = true)
    (stop : ∀ c ∈ rest.head?, keeps c = false) : (front ++ rest).takeWhile keeps = front := by
  have none : rest.takeWhile keeps = [] := by
    cases rest with
    | nil => rfl
    | cons c rest => exact List.takeWhile_cons_of_neg (by simp [stop c rfl])
  rw [List.takeWhile_append_of_pos kept, none, List.append_nil]

theorem dropWhile_append_of_stop (dropped : ∀ c ∈ front, keeps c = true)
    (stop : ∀ c ∈ rest.head?, keeps c = false) : (front ++ rest).dropWhile keeps = rest := by
  rw [List.dropWhile_append_of_pos dropped]
  cases rest with
  | nil => rfl
  | cons c rest => exact List.dropWhile_cons_of_neg (by simp [stop c rfl])

/-- What ends a path ends a host. -/
theorem endsHost_of_endsPath {c : Char} (ends : endsPath c = true) : endsHost c = true := by
  rw [endsHost, ends, Bool.or_true]

/-- What stands behind a path is cut off. -/
theorem takeWhile_path {path rest : String} (rooted : IsPath path) (behind : IsBehind rest) :
    (path.toList ++ rest.toList).takeWhile (fun c => !endsPath c) = path.toList :=
  takeWhile_append_of_stop (fun c among => by rw [rooted.plain c among, Bool.not_false])
    (fun c first => by rw [behind c first, Bool.not_true])

/-- What stands behind the scheme of an address. -/
theorem afterScheme?_address (schemed : IsScheme scheme) (rest : List Char) :
    afterScheme? (scheme.toList ++ ':' :: '/' :: '/' :: rest) = some rest := by
  have taken : (scheme.toList ++ ':' :: '/' :: '/' :: rest).takeWhile
      (fun c => !endsHost c && c != ':') = scheme.toList := by
    refine takeWhile_append_of_stop (fun c among => ?_) (fun c first => ?_)
    · obtain ⟨inside, differs⟩ := schemed.plain c among
      simp [inside, differs]
    · obtain rfl : ':' = c := Option.some.inj first
      rfl
  have filled : scheme.toList.isEmpty = false := by
    simpa using schemed.filled
  rw [afterScheme?, taken, filled, List.drop_left]
  exact Text.behind?_eq_some_iff.mpr rfl

/-- The path of an address is what stands behind its host. -/
theorem pathOf_address {target : String} {behindScheme : List Char} (schemed : IsScheme scheme)
    (split : target.toList = scheme.toList ++ ':' :: '/' :: '/' :: behindScheme) :
    pathOf target =
      match (behindScheme.dropWhile fun c => !endsHost c).takeWhile fun c => !endsPath c with
      | [] => "/"
      | path => String.ofList path := by
  obtain ⟨first, more, shape⟩ : ∃ first more, scheme.toList = first :: more :=
    List.exists_cons_of_ne_nil (by simpa using schemed.filled)
  have differs : first ≠ '/' := by
    rintro rfl
    have inside := (schemed.plain '/' (shape ▸ List.mem_cons_self)).1
    cases inside
  simp only [pathOf, split]
  split
  · rename_i slashed
    rw [shape] at slashed
    exact absurd (List.cons.inj slashed).1 differs
  · rename_i starred
    rw [shape] at starred
    have nothing := (List.cons.inj starred).2
    simp at nothing
  · generalize found : afterScheme? (scheme.toList ++ ':' :: '/' :: '/' :: behindScheme) = rest
    obtain rfl := (afterScheme?_address schemed behindScheme).symm.trans found
    rfl

/-- The path that a target names is the one that routes see. -/
theorem pathOf_of_names {target path : String} (names : Names target path) :
    pathOf target = path := by
  have passed {host : String} (hosted : IsHost host) :
      ∀ c ∈ host.toList, (!endsHost c) = true := fun c among => by rw [hosted c among, Bool.not_false]
  cases names with
  | @path path rest rooted behind =>
      obtain ⟨more, shape⟩ : ∃ more, path.toList = '/' :: more :=
        List.head?_eq_some_iff.mp rooted.rooted
      have split : (path ++ rest).toList = '/' :: (more ++ rest.toList) := by
        rw [String.toList_append, shape, List.cons_append]
      simp only [pathOf, split]
      rw [← List.cons_append, ← shape, takeWhile_path rooted behind, String.ofList_toList]
  | @address scheme host path rest schemed hosted rooted behind =>
      have split : (scheme ++ "://" ++ host ++ path ++ rest).toList =
          scheme.toList ++ ':' :: '/' :: '/' :: (host.toList ++ (path.toList ++ rest.toList)) := by
        simp
      obtain ⟨more, shape⟩ : ∃ more, path.toList = '/' :: more :=
        List.head?_eq_some_iff.mp rooted.rooted
      have stop : ∀ c ∈ (path.toList ++ rest.toList).head?, (!endsHost c) = false := by
        rw [shape]
        rintro c first
        obtain rfl : '/' = c := Option.some.inj first
        rfl
      rw [pathOf_address schemed split, dropWhile_append_of_stop (passed hosted) stop,
        takeWhile_path rooted behind, shape]
      exact (congrArg String.ofList shape.symm).trans String.ofList_toList
  | @host scheme host rest schemed hosted behind =>
      have split : (scheme ++ "://" ++ host ++ rest).toList =
          scheme.toList ++ ':' :: '/' :: '/' :: (host.toList ++ rest.toList) := by
        simp
      have stop : ∀ c ∈ rest.toList.head?, (!endsHost c) = false := fun c first => by
        rw [endsHost_of_endsPath (behind c first), Bool.not_true]
      have none : ([] ++ rest.toList).takeWhile (fun c => !endsPath c) = [] :=
        takeWhile_append_of_stop nofun fun c first => by rw [behind c first, Bool.not_true]
      rw [pathOf_address schemed split, dropWhile_append_of_stop (passed hosted) stop]
      rw [List.nil_append] at none
      rw [none]
  | star => decide

end Targets

end Http

/-! ## Requests that reach a handler -/

namespace Gateway

variable {ω σ : Type}

/-- The methods and paths that reach a handler. -/
def routed : List (String × String) :=
  [("GET", "/health"), ("HEAD", "/health"), ("POST", "/compile"), ("OPTIONS", "/compile"),
    ("GET", "/compiler_versions"), ("HEAD", "/compiler_versions")]

theorem ofPath?_path (route : Route) : Route.ofPath? route.path = some route := by
  cases route with
  | health => decide
  | compile => decide
  | versions => decide

/-- A method and a path reach a handler exactly when the route of the path has the method. -/
theorem mem_routed_iff {method path : String} :
    (method, path) ∈ routed ↔
      ∃ route, Route.ofPath? path = some route ∧ method ∈ route.methods := by
  constructor
  · intro member
    simp only [routed, List.mem_cons, Prod.mk.injEq, List.not_mem_nil, or_false] at member
    rcases member with ⟨rfl, rfl⟩ | ⟨rfl, rfl⟩ | ⟨rfl, rfl⟩ | ⟨rfl, rfl⟩ | ⟨rfl, rfl⟩ | ⟨rfl, rfl⟩
    · exact ⟨.health, ofPath?_path .health, by simp [Route.methods]⟩
    · exact ⟨.health, ofPath?_path .health, by simp [Route.methods]⟩
    · exact ⟨.compile, ofPath?_path .compile, by simp [Route.methods]⟩
    · exact ⟨.compile, ofPath?_path .compile, by simp [Route.methods]⟩
    · exact ⟨.versions, ofPath?_path .versions, by simp [Route.methods]⟩
    · exact ⟨.versions, ofPath?_path .versions, by simp [Route.methods]⟩
  · rintro ⟨route, found, listed⟩
    rw [path_of_ofPath? found]
    cases route with
    | health => simpa [Route.methods, Route.path, routed] using listed
    | compile => simpa [Route.methods, Route.path, routed] using listed
    | versions => simpa [Route.methods, Route.path, routed] using listed

/-- A response tells that nothing was found under a method and a path. The envelope that tells it is
measured, and is the body of the response except for HEAD. -/
structure Lost (version method path : String) (response : Response) : Prop where
  status : response.status = 404
  typed : response.values "content-type" = ["application/json"]
  unreadable : response.values "access-control-allow-origin" = ["null"]
  told : ∃ envelope : Envelope,
    envelope = ⟨none, some ("Not found: " ++ method ++ " " ++ path), some "not_found", none, version⟩ ∧
    response.values "content-length" = [Http.lengthText envelope.render] ∧
    response.body = (if method = "HEAD" then "" else envelope.render) ∧
    Envelope.read (Text.utf8 envelope.render) = .ok envelope

section Requests

variable {environment : Environment ω σ} {gateway : Gateway ω σ} {world : ω}
variable {request : Http.Request} {route : Route}

theorem message_notFound (method path : String) :
    (Failure.notFound (method ++ " " ++ path)).message = "Not found: " ++ method ++ " " ++ path := by
  show "Not found: " ++ (method ++ " " ++ path) = _
  rw [← String.append_assoc, ← String.append_assoc]

/-- A response that has the headers and the body of one for a request that is not found tells so. -/
theorem lost_finish {response : Response} {method path : String} (status : response.status = 404)
    (typed : response.values "content-type" = ["application/json"])
    (unreadable : response.values "access-control-allow-origin" = ["null"])
    (measured : response.values "content-length" =
      (gateway.notFound method path).values "content-length")
    (body : response.body = (gateway.notFound method path).body) :
    Lost gateway.serviceVersion method path (finish method response) where
  status := by rw [status_finish, status]
  typed := by simp [typed]
  unreadable := by simp [unreadable]
  told := by
    refine ⟨.failure (.notFound (method ++ " " ++ path)) gateway.serviceVersion, ?_, ?_, ?_, ?_⟩
    · rw [← message_notFound]
      rfl
    · rw [values_finish, measured]
      rfl
    · rw [body_finish, body]
      rfl
    · refine Envelope.read_render _ fun elapsed some => ?_
      cases some

theorem lost_notFound (gateway : Gateway ω σ) (method path : String) :
    Lost gateway.serviceVersion method path (finish method (gateway.notFound method path)) :=
  lost_finish rfl rfl rfl rfl rfl

theorem lost_withHeader_allow (gateway : Gateway ω σ) (method path methods : String) :
    Lost gateway.serviceVersion method path
      (finish method (withHeader (gateway.notFound method path) "allow" methods)) :=
  lost_finish rfl rfl rfl rfl rfl

/-- A request that reaches a handler is answered by it. -/
theorem respond_of_mem_methods (found : Route.ofPath? (Http.pathOf request.target) = some route)
    (listed : request.method ∈ route.methods) :
    gateway.respond environment world request =
      let served := serve environment gateway world route request
      (finish request.method served.1, served.2) := by
  have allowed : route.methods.contains request.method = true := List.contains_iff_mem.mpr listed
  simp only [respond, answer, found, allowed, if_true]

/-- A request that reaches no handler is told so and changes nothing. -/
theorem respond_of_not_mem_routed
    (unrouted : (request.method, Http.pathOf request.target) ∉ routed) :
    let sent := gateway.respond environment world request
    Lost gateway.serviceVersion request.method (Http.pathOf request.target) sent.1 ∧
      sent.2 = (gateway, world) := by
  rw [mem_routed_iff] at unrouted
  cases found : Route.ofPath? (Http.pathOf request.target) with
  | none =>
      simp only [respond, answer, found]
      exact ⟨lost_notFound gateway _ _, trivial⟩
  | some route =>
      have refused : route.methods.contains request.method = false :=
        Bool.eq_false_iff.mpr fun allowed =>
          unrouted ⟨route, found, List.contains_iff_mem.mp allowed⟩
      simp only [respond, answer, found, refused, Bool.false_eq_true, if_false]
      exact ⟨lost_withHeader_allow gateway _ _ _, trivial⟩

/-- No handler says by itself whether a cache may keep its response. -/
theorem values_serve (environment : Environment ω σ) (gateway : Gateway ω σ) (world : ω)
    (route : Route) (request : Http.Request) :
    (serve environment gateway world route request).1.values "cache-control" = [] := by
  cases route with
  | health => rfl
  | versions => rfl
  | compile =>
      simp only [serve]
      split
      · simp only [preflight]
        split
        · rfl
        · rfl
      · simp only [compile]
        split
        · rfl
        · split
          · rfl
          · simp only [compileFor]
            split
            · rfl
            · rfl

/-- No cache keeps a response. -/
theorem values_respond (environment : Environment ω σ) (gateway : Gateway ω σ) (world : ω)
    (request : Http.Request) :
    (gateway.respond environment world request).1.values "cache-control" =
      ["no-cache, no-store"] := by
  have none : (gateway.answer environment world request).1.values "cache-control" = [] := by
    simp only [answer]
    split
    · rfl
    · split
      · exact values_serve environment gateway world _ request
      · rfl
  have sent : (gateway.respond environment world request).1 =
      finish request.method (gateway.answer environment world request).1 := rfl
  rw [sent, values_finish, none]
  rfl

end Requests

/-- **Which requests reach a handler.** A request has a method and the path that its target names,
and both are compared as they are. In six combinations the request is answered by a handler, but for
the headers that every response gets and the body that HEAD does not get. In every other combination
it is told that nothing was found under the method and the path, which no site may read, and then the
gateway, with its executors and its versions, and the world are as they were. No cache keeps a
response. -/
theorem routes_requests (environment : Environment ω σ) (gateway : Gateway ω σ) (world : ω)
    (request : Http.Request) :
    let path := Http.pathOf request.target
    let sent := gateway.respond environment world request
    let finished (served : Response × Gateway ω σ × ω) := (finish request.method served.1, served.2)
    (∀ named, Http.Names request.target named → path = named) ∧
    ((request.method = "GET" ∨ request.method = "HEAD") → path = "/health" →
      sent = finished (textResponse 200 "OK", gateway, world)) ∧
    (request.method = "POST" → path = "/compile" →
      sent = finished (compile environment gateway world request)) ∧
    (request.method = "OPTIONS" → path = "/compile" →
      sent = finished (gateway.preflight request, gateway, world)) ∧
    ((request.method = "GET" ∨ request.method = "HEAD") → path = "/compiler_versions" →
      sent = finished (reportVersions environment gateway world)) ∧
    ((request.method, path) ∉ routed →
      Lost gateway.serviceVersion request.method path sent.1 ∧ sent.2 = (gateway, world)) ∧
    sent.1.values "cache-control" = ["no-cache, no-store"] := by
  intro path sent finished
  have served (route : Route) (here : path = route.path)
      (listed : request.method ∈ route.methods) :
      sent = finished (serve environment gateway world route request) :=
    respond_of_mem_methods ((congrArg Route.ofPath? here).trans (ofPath?_path route)) listed
  refine ⟨fun named names => Http.pathOf_of_names names, fun method here => ?_,
    fun method here => ?_, fun method here => ?_, fun method here => ?_,
    respond_of_not_mem_routed, values_respond environment gateway world request⟩
  · exact served .health here (by simpa [Route.methods] using method)
  · have other : request.method ≠ "OPTIONS" := by
      rw [method]
      decide
    rw [served .compile here (by simp [Route.methods, method])]
    simp only [serve, if_neg other]
  · rw [served .compile here (by simp [Route.methods, method])]
    simp only [serve, if_pos method]
  · exact served .versions here (by simpa [Route.methods] using method)

/-- A request for a path with a slash behind it. -/
def slashedRequest : Http.Request :=
  ⟨"GET", "http://localhost:8080/health/?x=1", [], []⟩

/-- A slash behind the path of a route, in an address with a query, is one too many. -/
theorem routes_requests_slashed :
    Lost "1" "GET" "/health/" (parrot.respond memory [] slashedRequest).1 ∧
    (parrot.respond memory [] slashedRequest).2 = (parrot, []) := by
  obtain ⟨named, _, _, _, _, lost, _⟩ := routes_requests memory parrot [] slashedRequest
  have path : Http.pathOf slashedRequest.target = "/health/" := by
    have schemed : Http.IsScheme "http" := ⟨by decide, by simp [Http.endsHost, Http.endsPath]⟩
    have hosted : Http.IsHost "localhost:8080" := by simp [Http.IsHost, Http.endsHost, Http.endsPath]
    have rooted : Http.IsPath "/health/" := ⟨rfl, by simp [Http.endsPath]⟩
    have behind : Http.IsBehind "?x=1" := by
      rintro c first
      obtain rfl : '?' = c := Option.some.inj first
      rfl
    exact named _ (.address schemed hosted rooted behind)
  rw [path] at lost
  exact lost (by decide)

/-- A request for the head of a page that does not exist. -/
def headRequest : Http.Request :=
  ⟨"HEAD", "/nope", [], []⟩

/-- The response to HEAD holds no envelope that would tell what was not found. -/
theorem not_told_to_head :
    (headRequest.method, Http.pathOf headRequest.target) ∉ routed ∧
    ¬ ∃ envelope,
      Envelope.read (Text.utf8 (parrot.respond memory [] headRequest).1.body) = .ok envelope ∧
      envelope.errorCode = some "not_found" := by
  have unrouted : (headRequest.method, Http.pathOf headRequest.target) ∉ routed := by decide
  refine ⟨unrouted, ?_⟩
  rintro ⟨envelope, readable, _⟩
  have lost : Lost _ _ _ (parrot.respond memory [] headRequest).1 :=
    (respond_of_not_mem_routed unrouted).1
  obtain ⟨_, _, _, body, _⟩ := lost.told
  have empty : (parrot.respond memory [] headRequest).1.body = "" := body
  rw [empty] at readable
  cases readable

end Gateway

end Polyglot
