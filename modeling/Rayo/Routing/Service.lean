import Mathlib.Logic.Function.Basic
import Rayo.Routing.Template
import Rayo.Routing.Registration
import Rayo.Routing.Binding

/-!
# Routing requests

One routing tree for each method is built when the server starts and then looked up for each
request. The trees are a parameter; what is relied on is that a match is a match of one of the
templates that were inserted.
-/

namespace Rayo

/-- The routing trees of `matchit`, with their captured parameters. -/
structure Matchit where
  Tree : Type
  new : Tree
  insert : Tree → List Char → ℕ → Except String Tree
  atPath : Tree → List Char → Option (ℕ × List (List Char × List Char))

/-- A tree that was built by inserting routes. -/
inductive Built (m : Matchit) : m.Tree → List (List Char × ℕ) → Prop
  | new : Built m m.new []
  | insert {tree tree' : m.Tree} {routes : List (List Char × ℕ)} {path : List Char} {value : ℕ} :
    Built m tree routes → m.insert tree path value = .ok tree' →
      Built m tree' ((path, value) :: routes)

/-- A match is one of a template that was inserted, and has its captures. -/
def Matchit.FollowsTemplates (m : Matchit) : Prop :=
  ∀ (tree : m.Tree) (routes : List (List Char × ℕ)), Built m tree routes →
    ∀ (path : List Char) (value : ℕ) (params : List (List Char × List Char)),
      m.atPath tree path = some (value, params) →
        ∃ template pieces, (template, value) ∈ routes ∧ Template.read template = some pieces ∧
          Template.Matches pieces path params

/-- `RouteRegistrationError`. -/
structure RouteRegistrationError where
  method : String
  path : List Char
  reason : String

/-- Its `Display`. -/
def RouteRegistrationError.toMessage (e : RouteRegistrationError) : String :=
  "cannot register route " ++ e.method ++ " " ++ String.ofList e.path ++ ": " ++ e.reason

variable {m : Matchit}

/-- `Router`: one tree for each method. -/
abbrev Router (m : Matchit) := String → Option m.Tree

/-- `Router::add_route`. -/
def Router.addRoute (router : Router m) (method : String) (path : List Char) (handlerId : ℕ) :
    Except RouteRegistrationError (Router m) :=
  match m.insert ((router method).getD m.new) path handlerId with
  | .ok tree => .ok (Function.update router method (some tree))
  | .error reason => .error { method, path, reason }

/-- `RouteMatch`. -/
structure RouteMatch where
  handlerId : ℕ
  pathParams : List (List Char × List Char)

/-- `Router::lookup`. -/
def Router.lookup (router : Router m) (method : String) (path : List Char) :
    Option RouteMatch := do
  let tree ← router method
  let (handlerId, pathParams) ← m.atPath tree path
  return { handlerId, pathParams }

/-- `RouteEntry`. -/
structure RouteEntry where
  method : String
  path : List Char
  handler : Handler
  isAsync : Bool
  params : List (List Char × ParamKind)

/-- The entry of a spec whose kind codes were converted. -/
def RouteEntry.ofSpec (spec : RouteSpec) (params : List (List Char × ParamKind)) : RouteEntry where
  method := spec.method
  path := spec.path
  handler := spec.handler
  isAsync := spec.isAsync
  params := params

/-- `AppService`, without its event loops. -/
structure AppService (m : Matchit) where
  router : Router m
  routes : List RouteEntry

/-- The conversion of the kind codes of a route in `start_server`. -/
def convertParams (method : String) (path : List Char) :
    List (List Char × ℕ) → Except PyErr (List (List Char × ParamKind))
  | [] => .ok []
  | (paramName, kindCode) :: rest =>
    match ParamKind.fromCode kindCode with
    | none => .error (.valueError ("route " ++ method ++ " " ++ String.ofList path ++
        ": unknown parameter kind code " ++ toString kindCode ++ " for '" ++
        String.ofList paramName ++
        "' — the Python and Rust layers disagree; reinstall rayo"))
    | some paramKind => (convertParams method path rest).map ((paramName, paramKind) :: ·)

/-- The loop of `start_server` over the routes. -/
def addRoutes (router : Router m) (routeIndex : ℕ) (routeEntries : List RouteEntry) :
    List RouteSpec → Except PyErr (AppService m)
  | [] => .ok { router, routes := routeEntries }
  | spec :: rest =>
    match router.addRoute spec.method spec.path routeIndex with
    | .error registrationError => .error (.valueError registrationError.toMessage)
    | .ok router =>
      match convertParams spec.method spec.path spec.parameterSpecs with
      | .error e => .error e
      | .ok params =>
        addRoutes router (routeIndex + 1) (routeEntries ++ [.ofSpec spec params]) rest

/-- The service that `start_server` builds from the registered routes. -/
def buildService (m : Matchit) (routes : List RouteSpec) : Except PyErr (AppService m) :=
  addRoutes (fun _ => none) 0 [] routes

/-- What `handle` does with a request before the handler runs. -/
inductive Dispatch (F : Type)
  | notFound
  | respond (response : HandlerResponse)
  | schedule (handler : Handler) (kwargs : Kwargs F)
  | executeSyncHandler (handler : Handler) (kwargs : Kwargs F)
  /-- The index of the route is out of bounds. -/
  | panicked

variable {F : Type} (parseF64 : List Char → Option F)

/-- `AppService::handle`, up to the handler. -/
def AppService.handle (service : AppService m) (method : String) (path : List Char) :
    Dispatch F :=
  match service.router.lookup method path with
  | none => .notFound
  | some routeMatch =>
    match service.routes[routeMatch.handlerId]? with
    | none => .panicked
    | some route =>
      if route.isAsync then
        match buildKwargs parseF64 route.params routeMatch.pathParams with
        | .ok kwargs => .schedule route.handler kwargs
        | .error errorResponse => .respond errorResponse
      else
        match syncKwargs parseF64 route.params routeMatch.pathParams with
        | .ok kwargs => .executeSyncHandler route.handler kwargs
        | .error errorResponse => .respond errorResponse

/-- A request that matches a route: both kinds of route collect their arguments alike. -/
theorem AppService.handle_eq {service : AppService m} {method : String} {path : List Char}
    {routeMatch : RouteMatch} {route : RouteEntry}
    (hlookup : service.router.lookup method path = some routeMatch)
    (hroute : service.routes[routeMatch.handlerId]? = some route) :
    service.handle parseF64 method path =
      match buildKwargs parseF64 route.params routeMatch.pathParams with
      | .ok kwargs =>
        if route.isAsync then .schedule route.handler kwargs
        else .executeSyncHandler route.handler kwargs
      | .error errorResponse => .respond errorResponse := by
  simp only [AppService.handle, hlookup, hroute, syncKwargs_eq]
  cases hasync : route.isAsync <;>
    cases buildKwargs parseF64 route.params routeMatch.pathParams <;> rfl

/-- The parameters of a route keep their names. -/
theorem convertParams_map_fst {method : String} {path : List Char}
    {specs : List (List Char × ℕ)} {params : List (List Char × ParamKind)}
    (h : convertParams method path specs = .ok params) :
    params.map Prod.fst = specs.map Prod.fst := by
  induction specs generalizing params with
  | nil =>
    obtain rfl := Except.ok.inj h
    rfl
  | cons spec specs ih =>
    obtain ⟨paramName, kindCode⟩ := spec
    simp only [convertParams] at h
    split at h
    · simp at h
    · cases hrest : convertParams method path specs with
      | error e => simp [hrest, Except.map] at h
      | ok rest =>
        simp only [hrest, Except.map, Except.ok.injEq] at h
        subst h
        simp [ih hrest]

/-- The codes that registration assigns are codes of kinds. -/
theorem fromCode_isSome {hint : Annotation} {code : ℕ}
    (h : paramKindByAnnotation hint = some code) : (ParamKind.fromCode code).isSome := by
  cases hint <;> simp [ paramKindByAnnotation] at h <;> subst h <;> rfl

/-- What registration has collected converts. -/
theorem exists_convertParams {method : String} {path : List Char} {handler : Handler}
    {parameters : List Parameter} {typeHints : List (List Char × Annotation)}
    {names : List (List Char)} {specs : List (List Char × ℕ)}
    (h : collectSpecs method path handler parameters typeHints names = .ok specs) :
    ∃ params, convertParams method path specs = .ok params := by
  induction names generalizing specs with
  | nil =>
    obtain rfl := Except.ok.inj h
    exact ⟨[], rfl⟩
  | cons name names ih =>
    simp only [collectSpecs] at h
    split at h
    · simp at h
    · split at h
      · simp at h
      · rename_i code hcode
        obtain ⟨kind, hkind⟩ := Option.isSome_iff_exists.mp (fromCode_isSome hcode)
        cases hrest : collectSpecs method path handler parameters typeHints names with
        | error e => simp [hrest, Except.map] at h
        | ok rest =>
          obtain ⟨params, hparams⟩ := ih hrest
          simp only [hrest, Except.map, Except.ok.injEq] at h
          subst h
          exact ⟨(name, kind) :: params, by simp [convertParams, hkind, hparams, Except.map]⟩

variable {isWord : Char → Bool}

/-- A spec that registration has returned. -/
def Registered (isWord : Char → Bool) (spec : RouteSpec) : Prop :=
  buildRouteSpec isWord spec.method spec.path spec.handler = .ok spec

/-- The layers agree on the codes: no registered route fails to convert. -/
theorem Registered.exists_convertParams {spec : RouteSpec} (hspec : Registered isWord spec) :
    ∃ params, convertParams spec.method spec.path spec.parameterSpecs = .ok params := by
  obtain ⟨parameters, typeHints, specs, -, -, -, hspecs, heq⟩ := buildRouteSpec_eq_ok hspec
  have hparameterSpecs : spec.parameterSpecs = specs := by rw [heq]
  exact hparameterSpecs ▸ Rayo.exists_convertParams hspecs

/-- What holds of the router and the entries while routes are added: the value of a template is
the index of its entry, and an entry has the parameters that registration found. -/
structure Routed (isWord : Char → Bool) (router : Router m) (entries : List RouteEntry) :
    Prop where
  built : ∀ method tree, router method = some tree → ∃ routes, Built m tree routes ∧
    ∀ path id, (path, id) ∈ routes →
      ∃ entry, entries[id]? = some entry ∧ entry.path = path
  params : ∀ entry ∈ entries, entry.params.map Prod.fst = findall isWord entry.path

/-- Adding a registered route. -/
theorem Routed.addRoute {router router' : Router m} {entries : List RouteEntry}
    {spec : RouteSpec} {params : List (List Char × ParamKind)}
    (hrouted : Routed isWord router entries) (hspec : Registered isWord spec)
    (hadd : router.addRoute spec.method spec.path entries.length = .ok router')
    (hparams : convertParams spec.method spec.path spec.parameterSpecs = .ok params) :
    Routed isWord router' (entries ++ [.ofSpec spec params]) := by
  unfold Router.addRoute at hadd
  split at hadd
  · rename_i tree' hinsert
    obtain rfl := Except.ok.inj hadd
    refine ⟨fun method tree htree => ?_, fun entry hentry => ?_⟩
    · obtain ⟨routes, hbuilt, hroutes⟩ : ∃ routes, Built m tree routes ∧
          ∀ path id, (path, id) ∈ routes →
            (∃ entry, entries[id]? = some entry ∧ entry.path = path) ∨
              path = spec.path ∧ id = entries.length := by
        by_cases hmethod : method = spec.method
        · subst hmethod
          obtain rfl : tree' = tree := by simpa using htree
          obtain ⟨routes, hbuilt, hroutes⟩ : ∃ routes,
              Built m ((router spec.method).getD m.new) routes ∧ ∀ path id, (path, id) ∈ routes →
                ∃ entry, entries[id]? = some entry ∧ entry.path = path := by
            cases hold : router spec.method with
            | none => exact ⟨[], .new, by simp⟩
            | some old => exact hrouted.built _ old hold
          refine ⟨_, .insert hbuilt hinsert, fun path id hmem => ?_⟩
          rcases List.mem_cons.mp hmem with heq | hmem
          · exact .inr (Prod.mk.inj heq)
          · exact .inl (hroutes path id hmem)
        · rw [Function.update_of_ne hmethod] at htree
          obtain ⟨routes, hbuilt, hroutes⟩ := hrouted.built method tree htree
          exact ⟨routes, hbuilt, fun path id hmem => .inl (hroutes path id hmem)⟩
      refine ⟨routes, hbuilt, fun path id hmem => ?_⟩
      rcases hroutes path id hmem with ⟨entry, hentry, hpath⟩ | ⟨rfl, rfl⟩
      · have hbound := (List.getElem?_eq_some_iff.mp hentry).1
        exact ⟨entry, by rwa [List.getElem?_append_left hbound], hpath⟩
      · exact ⟨_, List.getElem?_concat_length, rfl⟩
    · rcases List.mem_append.mp hentry with hentry | hentry
      · exact hrouted.params entry hentry
      · obtain rfl := List.mem_singleton.mp hentry
        exact (convertParams_map_fst hparams).trans (buildRouteSpec_map_fst hspec)
  · simp at hadd

/-- The loop of `start_server` keeps it. -/
theorem Routed.addRoutes {router : Router m} {entries : List RouteEntry} {specs : List RouteSpec}
    {service : AppService m} (hrouted : Routed isWord router entries)
    (hspecs : ∀ spec ∈ specs, Registered isWord spec)
    (hadd : addRoutes router entries.length entries specs = .ok service) :
    Routed isWord service.router service.routes := by
  induction specs generalizing router entries with
  | nil =>
    obtain rfl := Except.ok.inj hadd
    exact hrouted
  | cons spec specs ih =>
    simp only [Rayo.addRoutes] at hadd
    split at hadd
    · simp at hadd
    · rename_i router' hrouter'
      split at hadd
      · simp at hadd
      · rename_i params hparams
        have hstep := hrouted.addRoute (hspecs spec (.head _)) hrouter' hparams
        exact ih hstep (fun spec hspec => hspecs spec (.tail _ hspec)) (by simpa using hadd)

/-- Every match of a service is one of a route, by its own template. -/
theorem lookup_eq_some (hm : m.FollowsTemplates) {specs : List RouteSpec}
    (hspecs : ∀ spec ∈ specs, Registered isWord spec) {service : AppService m}
    (hservice : buildService m specs = .ok service) {method : String} {path : List Char}
    {routeMatch : RouteMatch} (hlookup : service.router.lookup method path = some routeMatch) :
    ∃ route pieces, service.routes[routeMatch.handlerId]? = some route ∧
      route.params.map Prod.fst = findall isWord route.path ∧
      Template.read route.path = some pieces ∧
      Template.Matches pieces path routeMatch.pathParams := by
  have hempty : Routed (m := m) isWord (fun _ => none) [] := ⟨by simp, by simp⟩
  have hrouted := hempty.addRoutes hspecs hservice
  simp only [Router.lookup, Option.bind_eq_bind, Option.bind_eq_some_iff] at hlookup
  obtain ⟨tree, htree, ⟨handlerId, pathParams⟩, hat, heq⟩ := hlookup
  obtain rfl := Option.some.inj heq
  obtain ⟨routes, hbuilt, hroutes⟩ := hrouted.built method tree htree
  obtain ⟨template, pieces, hmem, hread, hmatches⟩ :=
    hm tree routes hbuilt path handlerId pathParams hat
  obtain ⟨route, hroute, rfl⟩ := hroutes template handlerId hmem
  exact ⟨route, pieces, hroute, hrouted.params route (List.mem_of_getElem? hroute), hread,
    hmatches⟩

end Rayo
