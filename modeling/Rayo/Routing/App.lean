import Mathlib.Data.List.Forall2
import Rayo.Routing.ParserAgreement

/-!
# The application object

An application collects the routes of its decorators, and `start_server` turns them into the
routing trees of a service. Seen from the decorators, every method has a tree of its own: the one
that its routes are inserted in, in the order of their registration.
-/

namespace Rayo

/-- The decorators of an application. -/
inductive Decorator
  | get
  | post
  | put
  | patch
  | delete
  deriving DecidableEq

/-- The method that a decorator registers. -/
def Decorator.method : Decorator → String
  | .get => "GET"
  | .post => "POST"
  | .put => "PUT"
  | .patch => "PATCH"
  | .delete => "DELETE"

/-- `class Rayo`. -/
structure App where
  routes : List RouteSpec

/-- `Rayo()`. -/
def App.new : App := ⟨[]⟩

/-- A decorator with its path and the handler under it. -/
structure Decoration where
  decorator : Decorator
  path : List Char
  handler : Handler

variable (isWord : Char → Bool)

/-- `_build_route_spec` on a decoration. -/
def Decoration.spec (decoration : Decoration) : Except RegistrationError RouteSpec :=
  buildRouteSpec isWord decoration.decorator.method decoration.path decoration.handler

/-- `add_route` of `_register`: the error that it raises, if it does, and the application. -/
def App.addRoute (app : App) (method : String) (path : List Char) (handler : Handler) :
    Option RegistrationError × App :=
  match buildRouteSpec isWord method path handler with
  | .error e => (some e, app)
  | .ok spec => (none, { routes := app.routes ++ [spec] })

/-- A decoration is applied. -/
def App.decorate (app : App) (decoration : Decoration) : App :=
  (app.addRoute isWord decoration.decorator.method decoration.path decoration.handler).2

/-- The application of a program that applies its decorations in this order and goes on after
those that raise. -/
def App.ofDecorations (decorations : List Decoration) : App :=
  decorations.foldl (App.decorate isWord) .new

variable {isWord}

/-- A refused decoration leaves the application as it was. -/
theorem App.routes_decorate (app : App) (decoration : Decoration) :
    (app.decorate isWord decoration).routes =
      app.routes ++ (decoration.spec isWord).toOption.toList := by
  unfold App.decorate App.addRoute Decoration.spec
  cases buildRouteSpec isWord decoration.decorator.method decoration.path decoration.handler with
  | error e => exact (List.append_nil _).symm
  | ok spec => rfl

/-- The routes are the specs of the accepted decorations, in their order. -/
theorem App.routes_ofDecorations (decorations : List Decoration) :
    (App.ofDecorations isWord decorations).routes =
      decorations.filterMap fun decoration => (decoration.spec isWord).toOption := by
  have hfold : ∀ app : App, (decorations.foldl (App.decorate isWord) app).routes =
      app.routes ++ decorations.filterMap fun decoration => (decoration.spec isWord).toOption := by
    induction decorations with
    | nil => exact fun app => (List.append_nil _).symm
    | cons decoration rest ih =>
      intro app
      rw [List.foldl_cons, ih, App.routes_decorate, List.filterMap_cons, List.append_assoc]
      cases (decoration.spec isWord).toOption <;> rfl
  exact hfold .new

/-- Every route belongs to a decoration. -/
theorem App.exists_decoration {decorations : List Decoration} {spec : RouteSpec}
    (hspec : spec ∈ (App.ofDecorations isWord decorations).routes) :
    ∃ decoration ∈ decorations, decoration.spec isWord = .ok spec := by
  rw [App.routes_ofDecorations] at hspec
  obtain ⟨decoration, hmem, hoption⟩ := List.mem_filterMap.mp hspec
  refine ⟨decoration, hmem, ?_⟩
  cases hbuilt : decoration.spec isWord with
  | error e => simp [hbuilt, Except.toOption] at hoption
  | ok built => simpa [hbuilt, Except.toOption] using hoption

/-- A spec has the method, the path and the handler of its decoration. -/
theorem Decoration.eq_of_spec {decoration : Decoration} {spec : RouteSpec}
    (h : decoration.spec isWord = .ok spec) :
    spec.method = decoration.decorator.method ∧ spec.path = decoration.path ∧
      spec.handler = decoration.handler ∧
      spec.isAsync = decoration.handler.isCoroutineFunction := by
  obtain ⟨parameters, typeHints, specs, -, -, -, -, rfl⟩ := buildRouteSpec_eq_ok h
  exact ⟨rfl, rfl, rfl, rfl⟩

/-- A decoration that is accepted is registered. -/
theorem Decoration.registered {decoration : Decoration} {spec : RouteSpec}
    (h : decoration.spec isWord = .ok spec) : Registered isWord spec := by
  obtain ⟨hmethod, hpath, hhandler, -⟩ := Decoration.eq_of_spec h
  rw [Registered, hmethod, hpath, hhandler]
  exact h

variable {m : Matchit}

/-- Insert routes, each with its index, in a tree. -/
def insertAll (m : Matchit) (tree : m.Tree) (routes : List (RouteSpec × ℕ)) :
    Except String m.Tree :=
  routes.foldlM (fun tree route => m.insert tree route.1.path route.2) tree

/-- The routes of a method, from the index `first` on. -/
def routesOf (method : String) (first : ℕ) (routes : List RouteSpec) : List (RouteSpec × ℕ) :=
  (routes.zipIdx first).filter fun route => route.1.method = method

/-- The tree of a method: its own routes, inserted in their order. -/
def methodTree (m : Matchit) (method : String) (routes : List RouteSpec) : Except String m.Tree :=
  insertAll m m.new (routesOf method 0 routes)

/-- The first route stands in the tree of its method only. -/
theorem routesOf_cons {method : String} {first : ℕ} {spec : RouteSpec} {rest : List RouteSpec} :
    routesOf method first (spec :: rest) =
      if spec.method = method then (spec, first) :: routesOf method (first + 1) rest
      else routesOf method (first + 1) rest := by
  simp only [routesOf, List.zipIdx_cons, List.filter_cons, decide_eq_true_eq]

/-- What is inserted in a tree was built by inserting. -/
theorem built_insertAll {tree tree' : m.Tree} {routes : List (RouteSpec × ℕ)}
    {before : List (List Char × ℕ)} (hbuilt : Built m tree before)
    (h : insertAll m tree routes = .ok tree') :
    ∃ after, Built m tree' after ∧ ∀ template value, (template, value) ∈ after →
      (template, value) ∈ before ∨ ∃ spec, (spec, value) ∈ routes ∧ spec.path = template := by
  induction routes generalizing tree before with
  | nil =>
    obtain rfl := Except.ok.inj h
    exact ⟨before, hbuilt, fun _ _ hmem => .inl hmem⟩
  | cons route rest ih =>
    obtain ⟨spec, id⟩ := route
    cases hinsert : m.insert tree spec.path id with
    | error reason => simp [insertAll, hinsert, bind, Except.bind] at h
    | ok next =>
      have hrest : insertAll m next rest = .ok tree' := by
        simpa [insertAll, hinsert, bind, Except.bind] using h
      obtain ⟨after, hafter, hfrom⟩ := ih (.insert hbuilt hinsert) hrest
      refine ⟨after, hafter, fun template value hmem => ?_⟩
      rcases hfrom template value hmem with hmem | ⟨spec', hmem, hpath⟩
      · rcases List.mem_cons.mp hmem with heq | hmem
        · obtain ⟨rfl, rfl⟩ := Prod.mk.inj heq
          exact .inr ⟨spec, .head _, rfl⟩
        · exact .inl hmem
      · exact .inr ⟨spec', .tail _ hmem, hpath⟩

/-- The entry of a route. -/
def IsEntry (spec : RouteSpec) (entry : RouteEntry) : Prop :=
  ∃ params, convertParams spec.method spec.path spec.parameterSpecs = .ok params ∧
    entry = .ofSpec spec params

/-- What the loop of `start_server` comes to when it succeeds: each method has the tree of its own
routes, and each route has its entry. -/
theorem addRoutes_eq_ok {router : Router m} {entries : List RouteEntry} {specs : List RouteSpec}
    {first : ℕ} {service : AppService m}
    (h : addRoutes router first entries specs = .ok service) :
    (∀ method, insertAll m ((router method).getD m.new) (routesOf method first specs) =
        .ok ((service.router method).getD m.new)) ∧
      ∃ added, service.routes = entries ++ added ∧ List.Forall₂ IsEntry specs added := by
  induction specs generalizing router entries first with
  | nil =>
    obtain rfl := Except.ok.inj h
    exact ⟨fun method => rfl, [], (List.append_nil _).symm, .nil⟩
  | cons spec rest ih =>
    simp only [addRoutes, Router.addRoute] at h
    cases hinsert : m.insert ((router spec.method).getD m.new) spec.path first with
    | error reason => simp [hinsert] at h
    | ok tree =>
      cases hparams : convertParams spec.method spec.path spec.parameterSpecs with
      | error e => simp [hinsert, hparams] at h
      | ok params =>
        simp only [hinsert, hparams] at h
        obtain ⟨htrees, added, hroutes, hadded⟩ := ih h
        refine ⟨fun method => ?_, _ :: added, ?_, .cons ⟨params, hparams, rfl⟩ hadded⟩
        · have htree := htrees method
          rw [routesOf_cons]
          by_cases hmethod : spec.method = method
          · subst hmethod
            rw [Function.update_self, Option.getD_some] at htree
            simpa [insertAll, hinsert, bind, Except.bind] using htree
          · rw [Function.update_of_ne (Ne.symm hmethod)] at htree
            rwa [if_neg hmethod]
        · rw [hroutes, List.append_assoc]
          rfl

/-- What it comes to when it fails on routes that convert: the first route that the tree of its
method refuses ends it, and is named. -/
theorem addRoutes_eq_error {router : Router m} {entries : List RouteEntry}
    {specs : List RouteSpec} {first : ℕ} {e : PyErr}
    (hconvert : ∀ spec ∈ specs, ∃ params,
      convertParams spec.method spec.path spec.parameterSpecs = .ok params)
    (h : addRoutes router first entries specs = .error e) :
    ∃ spec ∈ specs, ∃ reason,
      e = .valueError (RouteRegistrationError.toMessage ⟨spec.method, spec.path, reason⟩) ∧
      insertAll m ((router spec.method).getD m.new) (routesOf spec.method first specs) =
        .error reason := by
  induction specs generalizing router entries first with
  | nil => simp [addRoutes] at h
  | cons spec rest ih =>
    obtain ⟨params, hparams⟩ := hconvert spec (.head _)
    simp only [addRoutes, Router.addRoute] at h
    cases hinsert : m.insert ((router spec.method).getD m.new) spec.path first with
    | error reason =>
      refine ⟨spec, .head _, reason, ?_, ?_⟩
      · simpa [hinsert] using h.symm
      · simp [routesOf_cons, insertAll, hinsert, bind, Except.bind]
    | ok tree =>
      simp only [hinsert, hparams] at h
      obtain ⟨refused, hmem, reason, he, hrefused⟩ :=
        ih (fun spec hspec => hconvert spec (.tail _ hspec)) h
      refine ⟨refused, .tail _ hmem, reason, he, ?_⟩
      rw [routesOf_cons]
      by_cases hmethod : spec.method = refused.method
      · rw [← hmethod, Function.update_self, Option.getD_some] at hrefused
        rw [← hmethod, if_pos rfl]
        simpa [insertAll, hinsert, bind, Except.bind] using hrefused
      · rw [Function.update_of_ne (Ne.symm hmethod)] at hrefused
        rwa [if_neg hmethod]

variable {F : Type} (parseF64 : List Char → Option F)

/-- What a route does with a request whose segments it has captured. -/
def RouteSpec.dispatch (spec : RouteSpec) (pathParams : List (List Char × List Char)) :
    Dispatch F :=
  match convertParams spec.method spec.path spec.parameterSpecs with
  | .error _ => .panicked
  | .ok params =>
    match buildKwargs parseF64 params pathParams with
    | .error errorResponse => .respond errorResponse
    | .ok kwargs =>
      if spec.isAsync then .schedule spec.handler kwargs
      else .executeSyncHandler spec.handler kwargs

/-- The entry of a route answers as the route. -/
theorem handle_eq_dispatch {service : AppService m} {method : String} {path : List Char}
    {routeMatch : RouteMatch} {spec : RouteSpec} {entry : RouteEntry}
    (hlookup : service.router.lookup method path = some routeMatch)
    (hentry : service.routes[routeMatch.handlerId]? = some entry) (his : IsEntry spec entry) :
    service.handle parseF64 method path = spec.dispatch parseF64 routeMatch.pathParams := by
  obtain ⟨params, hparams, rfl⟩ := his
  rw [AppService.handle_eq parseF64 hlookup hentry, RouteSpec.dispatch, hparams]
  cases hkwargs : buildKwargs parseF64 params routeMatch.pathParams with
  | error errorResponse => simp [RouteEntry.ofSpec, hkwargs]
  | ok kwargs => cases hcase : spec.isAsync <;> simp [RouteEntry.ofSpec, hkwargs, hcase]

/-- A route of the tree of a method, by its index. -/
theorem mem_routesOf {method : String} {routes : List RouteSpec} {spec : RouteSpec} {id : ℕ} :
    (spec, id) ∈ routesOf method 0 routes ↔ routes[id]? = some spec ∧ spec.method = method := by
  simp [routesOf, List.mem_filter, List.mem_zipIdx_iff_getElem?]

/-- A match of the tree of a method is one of a route of this method, by its own template. -/
theorem match_of_methodTree (hm : m.FollowsTemplates) {method : String}
    {routes : List RouteSpec} {tree : m.Tree} (htree : methodTree m method routes = .ok tree)
    {path : List Char} {id : ℕ} {pathParams : List (List Char × List Char)}
    (hat : m.atPath tree path = some (id, pathParams)) :
    ∃ spec pieces, routes[id]? = some spec ∧ spec.method = method ∧
      Template.read spec.path = some pieces ∧ Template.Matches pieces path pathParams := by
  obtain ⟨after, hafter, hfrom⟩ := built_insertAll .new htree
  obtain ⟨template, pieces, hmem, hread, hmatches⟩ := hm tree after hafter path id pathParams hat
  rcases hfrom template id hmem with hnone | ⟨spec, hspec, rfl⟩
  · exact absurd hnone List.not_mem_nil
  · obtain ⟨hroute, hmethod⟩ := mem_routesOf.mp hspec
    exact ⟨spec, pieces, hroute, hmethod, hread, hmatches⟩

/-- The registered routes convert. -/
theorem App.exists_convertParams {decorations : List Decoration} :
    ∀ spec ∈ (App.ofDecorations isWord decorations).routes, ∃ params,
      convertParams spec.method spec.path spec.parameterSpecs = .ok params := by
  intro spec hspec
  obtain ⟨decoration, -, hbuilt⟩ := App.exists_decoration hspec
  exact (Decoration.registered hbuilt).exists_convertParams

/-- A route whose parameters convert does not panic. -/
theorem RouteSpec.dispatch_ne_panicked {spec : RouteSpec} {params : List (List Char × ParamKind)}
    (hparams : convertParams spec.method spec.path spec.parameterSpecs = .ok params)
    (pathParams : List (List Char × List Char)) :
    spec.dispatch parseF64 pathParams ≠ .panicked := by
  unfold RouteSpec.dispatch
  rw [hparams]
  dsimp only
  split
  · nofun
  · split <;> nofun

/-- **A started application serves its decorations.** The tree of the requested method, made of
the routes of this method alone, decides: a path that it does not match is not found, and any
other is dispatched as by the accepted decoration whose template it matches, and never panics. -/
theorem App.requests_served (hm : m.FollowsTemplates) {decorations : List Decoration}
    {service : AppService m}
    (hservice : buildService m (App.ofDecorations isWord decorations).routes = .ok service)
    (method : String) (path : List Char) :
    ∃ tree, methodTree m method (App.ofDecorations isWord decorations).routes = .ok tree ∧
      (m.atPath tree path = none → service.handle parseF64 method path = .notFound) ∧
      ∀ id pathParams, m.atPath tree path = some (id, pathParams) →
        ∃ decoration ∈ decorations, ∃ spec pieces, decoration.spec isWord = .ok spec ∧
          (App.ofDecorations isWord decorations).routes[id]? = some spec ∧
          decoration.decorator.method = method ∧
          Template.read decoration.path = some pieces ∧
          Template.Matches pieces path pathParams ∧
          service.handle parseF64 method path = spec.dispatch parseF64 pathParams ∧
          spec.dispatch parseF64 pathParams ≠ .panicked := by
  obtain ⟨htrees, added, hroutes, hadded⟩ := addRoutes_eq_ok hservice
  have htree := htrees method
  refine ⟨_, htree, fun hnone => ?_, fun id pathParams hat => ?_⟩
  · have hlookup : service.router.lookup method path = none := by
      unfold Router.lookup
      cases hrouter : service.router method with
      | none => rfl
      | some tree =>
        rw [hrouter, Option.getD_some] at hnone
        simp [hnone]
    simp [AppService.handle, hlookup]
  · obtain ⟨spec, pieces, hspec, hmethod, hread, hmatches⟩ := match_of_methodTree hm htree hat
    obtain ⟨decoration, hmem, hbuilt⟩ := App.exists_decoration (List.mem_of_getElem? hspec)
    obtain ⟨hdecorator, hpath, -, -⟩ := Decoration.eq_of_spec hbuilt
    have hlookup : service.router.lookup method path = some ⟨id, pathParams⟩ := by
      unfold Router.lookup
      cases hrouter : service.router method with
      | none =>
        -- the tree of a method without routes matches nothing
        rw [hrouter, Option.getD_none] at hat
        obtain ⟨template, -, hnone, -⟩ := hm m.new [] .new path id pathParams hat
        exact absurd hnone List.not_mem_nil
      | some tree =>
        rw [hrouter, Option.getD_some] at hat
        simp [hat]
    obtain ⟨entry, hentry, his⟩ : ∃ entry, service.routes[id]? = some entry ∧
        IsEntry spec entry := by
      rw [hroutes, List.nil_append]
      obtain ⟨hbound, rfl⟩ := List.getElem?_eq_some_iff.mp hspec
      have hlength := hadded.length_eq
      refine ⟨added[id], List.getElem?_eq_getElem (hlength ▸ hbound), ?_⟩
      exact hadded.get hbound (hlength ▸ hbound)
    obtain ⟨params, hparams⟩ := App.exists_convertParams spec (List.mem_of_getElem? hspec)
    exact ⟨decoration, hmem, spec, pieces, hbuilt, hspec, hdecorator ▸ hmethod, hpath ▸ hread,
      hmatches, handle_eq_dispatch parseF64 hlookup hentry his,
      spec.dispatch_ne_panicked parseF64 hparams pathParams⟩

/-- `@app.get("/{id}")` on `showItem`. -/
def getItem : Decoration := ⟨.get, ['/', '{', 'i', 'd', '}'], showItem⟩

/-- The item is served at its path or not found there. -/
theorem App.requests_served_getItem :
    ∃ tree, methodTree templateList "GET" (App.ofDecorations asciiWord [getItem]).routes =
        .ok tree ∧
      (templateList.atPath tree ['/', '4', '2'] = none →
        (itemService getItem.path).handle (fun _ => (none : Option ℚ)) "GET" ['/', '4', '2'] =
          .notFound) ∧
      ∀ id pathParams, templateList.atPath tree ['/', '4', '2'] = some (id, pathParams) →
        ∃ decoration ∈ [getItem], ∃ spec pieces, decoration.spec asciiWord = .ok spec ∧
          (App.ofDecorations asciiWord [getItem]).routes[id]? = some spec ∧
          decoration.decorator.method = "GET" ∧
          Template.read decoration.path = some pieces ∧
          Template.Matches pieces ['/', '4', '2'] pathParams ∧
          (itemService getItem.path).handle (fun _ => (none : Option ℚ)) "GET" ['/', '4', '2'] =
            spec.dispatch (fun _ => none) pathParams ∧
          spec.dispatch (fun _ => (none : Option ℚ)) pathParams ≠ .panicked := by
  have hservice : buildService templateList (App.ofDecorations asciiWord [getItem]).routes =
      .ok (itemService getItem.path) := rfl
  exact App.requests_served (fun _ => none) templateList_followsTemplates hservice "GET"
    ['/', '4', '2']

/-- **An application starts exactly if the tree of each method takes its own routes**, however
the decorations of the methods are interleaved. What else its start can come to is a
`ValueError` that names the method and the path of a decoration whose own tree refuses a route,
with the reason that the tree gives. -/
theorem App.starts_iff (m : Matchit) (isWord : Char → Bool) (decorations : List Decoration) :
    let routes := (App.ofDecorations isWord decorations).routes
    ((buildService m routes).isOk = true ↔
        ∀ decorator : Decorator, (methodTree m decorator.method routes).isOk = true) ∧
      ∀ e, buildService m routes = .error e → ∃ decoration ∈ decorations, ∃ reason,
        e = .valueError (RouteRegistrationError.toMessage
          ⟨decoration.decorator.method, decoration.path, reason⟩) ∧
        methodTree m decoration.decorator.method routes = .error reason := by
  intro routes
  have hrefused : ∀ e, buildService m routes = .error e → ∃ decoration ∈ decorations, ∃ reason,
      e = .valueError (RouteRegistrationError.toMessage
        ⟨decoration.decorator.method, decoration.path, reason⟩) ∧
      methodTree m decoration.decorator.method routes = .error reason := by
    intro e he
    obtain ⟨spec, hspec, reason, hmessage, htree⟩ :=
      addRoutes_eq_error App.exists_convertParams he
    obtain ⟨decoration, hmem, hbuilt⟩ := App.exists_decoration hspec
    obtain ⟨hmethod, hpath, -, -⟩ := Decoration.eq_of_spec hbuilt
    rw [hmethod, hpath] at hmessage
    rw [hmethod] at htree
    exact ⟨decoration, hmem, reason, hmessage, htree⟩
  refine ⟨⟨fun hok decorator => ?_, fun htrees => ?_⟩, hrefused⟩
  · cases hservice : buildService m routes with
    | error e => simp [hservice, Except.isOk, Except.toBool] at hok
    | ok service =>
      have htree : methodTree m decorator.method routes = _ :=
        (addRoutes_eq_ok hservice).1 decorator.method
      rw [htree]
      rfl
  · cases hservice : buildService m routes with
    | ok service => rfl
    | error e =>
      obtain ⟨decoration, -, reason, -, htree⟩ := hrefused e hservice
      have hok := htrees decoration.decorator
      rw [htree] at hok
      exact absurd hok Bool.false_ne_true

end Rayo
