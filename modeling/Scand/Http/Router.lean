/- path: Scand/Http/Router
   layer: code model and its results
   digest: Router: which handler a request is dispatched to, with which parameters, and when the router
   answers itself. -/

import Scand.Foundation.JsonValue
import Mathlib.Data.List.Forall2
import Mathlib.Logic.Relation

set_option autoImplicit false
set_option relaxedAutoImplicit false

namespace Scand.Http.Router

open Scand.Foundation.JsonValue

abbrev Text := List Char

abbrev Params := Text → Option Text

def Params.empty : Params := fun _ => none

def Params.assign (m : Params) (name value : Text) : Params :=
  fun other => if other = name then some value else m other

def stripQuery (target : Text) : Text := target.takeWhile (· ≠ '?')

/-- One pair of a query; without an equals sign it is a name with an empty value. -/
def parsePair (out : Params) (pair : Text) : Params :=
  if pair = [] then out
  else out.assign (pair.takeWhile (· ≠ '=')) ((pair.dropWhile (· ≠ '=')).drop 1)

def parseQuery (target : Text) : Params :=
  (((target.dropWhile (· ≠ '?')).drop 1).splitOn '&').foldl parsePair .empty

/-- `split_path`: the nonempty pieces between slashes. -/
def splitPath (path : Text) : List Text := (path.splitOn '/').filter (· ≠ [])

structure Request where
  body : Text := []

structure RequestContext where
  req : Request
  body : Json
  pathParams : Params
  queryParams : Params

structure Response where
  status : Nat := 200
  body : Json := .object []
  rawBody : Text := []
  rawContentType : Text := []

/-- What a dispatch comes to: what the handler returned, or an answer of the router itself. -/
inductive Answer (ρ : Type)
  | returned (result : ρ)
  | answered (response : Response)

structure Route (M ρ : Type) where
  method : M
  pattern : Text
  segments : List Text
  handler : RequestContext → ρ
  split : segments = splitPath pattern

section Code

variable {M ρ : Type} [DecidableEq M]

def add (routes : List (Route M ρ)) (method : M) (pattern : Text) (handler : RequestContext → ρ) :
    List (Route M ρ) :=
  routes ++ [{
    method := method, pattern := pattern, segments := splitPath pattern, handler := handler, split := rfl }]

def isParam (pat : Text) : Bool :=
  2 ≤ pat.length && pat.head? = some '\x7b' && pat.getLast? = some '\x7d'

def paramName (pat : Text) : Text := (pat.drop 1).take (pat.length - 2)

/-- The loop of `match`, with what it has bound so far. -/
def matchLoop : List Text → List Text → Params → Bool × Params
  | pat :: pats, val :: vals, outParams =>
      if isParam pat then matchLoop pats vals (outParams.assign (paramName pat) val)
      else if pat ≠ val then (false, outParams)
      else matchLoop pats vals outParams
  | _, _, outParams => (true, outParams)

def matchRoute (route : Route M ρ) (segments : List Text) (outParams : Params) : Bool × Params :=
  if route.segments.length ≠ segments.length then (false, outParams)
  else matchLoop route.segments segments outParams

def errorBody (error : String) : Json := .object [("error", .string error)]

def invalidJson : Response := { status := 400, body := errorBody "invalid json" }

def methodNotAllowed : Response := { status := 405, body := errorBody "method not allowed" }

def notFound : Response := { status := 404, body := errorBody "not found" }

/-- The body of the context: an empty object for an empty body. -/
def contextBody (parse : Text → Option Json) (req : Request) : Option Json :=
  if req.body = [] then some (.object []) else parse req.body

def dispatchLoop (parse : Text → Option Json) (method : M) (segments : List Text)
    (queryParams : Params) (req : Request) : List (Route M ρ) → Bool → Answer ρ
  | [], pathMatchedAny => .answered (if pathMatchedAny then methodNotAllowed else notFound)
  | route :: rest, pathMatchedAny =>
      match matchRoute route segments .empty with
      | (false, _) => dispatchLoop parse method segments queryParams req rest pathMatchedAny
      | (true, params) =>
          if route.method ≠ method then dispatchLoop parse method segments queryParams req rest true
          else
            match contextBody parse req with
            | none => .answered invalidJson
            | some body =>
                .returned (route.handler {
                  req := req, body := body, pathParams := params, queryParams := queryParams })

def dispatch (parse : Text → Option Json) (routes : List (Route M ρ)) (method : M) (target : Text)
    (req : Request) : Answer ρ :=
  dispatchLoop parse method (splitPath (stripQuery target)) (parseQuery target) req routes false

end Code

section Routing

def SegmentMatches (pat val : Text) : Prop := isParam pat = true ∨ pat = val

def PathMatches (pats vals : List Text) : Prop := List.Forall₂ SegmentMatches pats vals

/-- The last segment that a name of the pattern stands at. -/
def bound (pats vals : List Text) : Params := fun name =>
  ((pats.zip vals).reverse.find? fun b => isParam b.1 && paramName b.1 = name).map Prod.snd

variable {M ρ : Type}

/-- The first route of a method whose pattern matches the segments. -/
def First (routes : List (Route M ρ)) (method : M) (segments : List Text) (route : Route M ρ) : Prop :=
  route.method = method ∧ PathMatches route.segments segments ∧ ∃ before after,
    routes = before ++ route :: after ∧
      ∀ other ∈ before, other.method = method → ¬ PathMatches other.segments segments

theorem bound_cons (pat val : Text) (pats vals : List Text) (name : Text) :
    bound (pat :: pats) (val :: vals) name = (bound pats vals name).or
      (if isParam pat = true ∧ paramName pat = name then some val else none) := by
  unfold bound
  rw [List.zip_cons_cons, List.reverse_cons, List.find?_append]
  cases (pats.zip vals).reverse.find? fun b => isParam b.1 && paramName b.1 = name with
  | some b => simp
  | none =>
      simp only [Option.map_none, Option.none_or, List.find?_singleton, Bool.and_eq_true,
        decide_eq_true_eq]
      split <;> rfl

theorem matchLoop_eq {pats vals : List Text} (same : pats.length = vals.length) (outParams : Params) :
    ((matchLoop pats vals outParams).1 = true ↔ PathMatches pats vals) ∧
      ((matchLoop pats vals outParams).1 = true →
        (matchLoop pats vals outParams).2 = fun name => (bound pats vals name).or (outParams name)) := by
  induction pats generalizing vals outParams with
  | nil =>
      obtain rfl : vals = [] := List.length_eq_zero_iff.mp same.symm
      exact ⟨⟨fun _ => .nil, fun _ => rfl⟩, fun _ => rfl⟩
  | cons pat pats ih =>
      cases vals with
      | nil => cases same
      | cons val vals =>
          have rest := ih (Nat.succ.inj same)
          rw [matchLoop, PathMatches, List.forall₂_cons, SegmentMatches]
          split
          · rename_i param
            obtain ⟨matched, params⟩ := rest (outParams.assign (paramName pat) val)
            refine ⟨by simp [param, matched, PathMatches], fun passed => ?_⟩
            rw [params passed]
            funext name
            rw [bound_cons, Option.or_assoc]
            congr 1
            by_cases here : paramName pat = name
            · simp [Params.assign, param, here]
            · simp [Params.assign, here, Ne.symm here]
          · rename_i literal
            split
            · rename_i apart
              exact ⟨by simp [literal, apart], fun passed => by cases passed⟩
            · rename_i equal
              obtain ⟨matched, params⟩ := rest outParams
              refine ⟨by simp [not_not.mp equal, matched, PathMatches], fun passed => ?_⟩
              rw [params passed]
              funext name
              rw [bound_cons, Option.or_assoc]
              simp [literal]

theorem matchRoute_eq (route : Route M ρ) (segments : List Text) :
    (PathMatches route.segments segments →
      matchRoute route segments .empty = (true, bound route.segments segments)) ∧
      (¬ PathMatches route.segments segments → (matchRoute route segments .empty).1 = false) := by
  by_cases same : route.segments.length = segments.length
  · rw [matchRoute, if_neg (not_not.mpr same)]
    obtain ⟨matched, params⟩ := matchLoop_eq same Params.empty
    refine ⟨fun path => ?_, fun other => ?_⟩
    · have passed := matched.mpr path
      refine Prod.ext passed ((params passed).trans ?_)
      funext name
      exact Option.or_none
    · exact Bool.eq_false_iff.mpr (mt matched.mp other)
  · rw [matchRoute, if_pos same]
    exact ⟨fun path => absurd path.length_eq same, fun _ => rfl⟩

theorem first_or_none (routes : List (Route M ρ)) (method : M) (segments : List Text) :
    (∃ route, First routes method segments route) ∨
      ∀ route ∈ routes, route.method = method → ¬ PathMatches route.segments segments := by
  induction routes with
  | nil => exact Or.inr fun _ mem => nomatch mem
  | cons route rest ih =>
      by_cases here : route.method = method ∧ PathMatches route.segments segments
      · exact Or.inl ⟨route, here.1, here.2, [], rest, rfl, fun _ mem => nomatch mem⟩
      · have apart : route.method = method → ¬ PathMatches route.segments segments :=
          fun own path => here ⟨own, path⟩
        rcases ih with ⟨found, own, path, before, after, whole, earlier⟩ | absent
        · refine Or.inl ⟨found, own, path, route :: before, after, by rw [whole, List.cons_append], ?_⟩
          exact List.forall_mem_cons.mpr ⟨apart, earlier⟩
        · exact Or.inr (List.forall_mem_cons.mpr ⟨apart, absent⟩)

section Dispatch

variable [DecidableEq M] {parse : Text → Option Json} {routes : List (Route M ρ)} {route : Route M ρ}
  {method : M} {segments : List Text} {queryParams : Params} {req : Request}

variable (parse queryParams req) in
theorem dispatchLoop_skip (flag : Bool) (rest : List (Route M ρ))
    (apart : route.method = method → ¬ PathMatches route.segments segments) :
    ∃ flag', dispatchLoop parse method segments queryParams req (route :: rest) flag =
        dispatchLoop parse method segments queryParams req rest flag' ∧
      (flag' = true ↔ flag = true ∨ PathMatches route.segments segments) := by
  obtain ⟨matches_, differs⟩ := matchRoute_eq route segments
  rw [dispatchLoop]
  by_cases path : PathMatches route.segments segments
  · have other : route.method ≠ method := fun own => apart own path
    rw [matches_ path]
    exact ⟨true, if_pos other, by simp [path]⟩
  · cases tried : matchRoute route segments .empty with
    | mk matched params =>
        obtain rfl : matched = false := by
          have failed := differs path
          rwa [tried] at failed
        exact ⟨flag, rfl, by simp [path]⟩

variable (queryParams) in
theorem dispatchLoop_first (first : First routes method segments route) {body : Json}
    (read : contextBody parse req = some body) (flag : Bool) :
    dispatchLoop parse method segments queryParams req routes flag = .returned (route.handler {
      req := req
      body := body
      pathParams := bound route.segments segments
      queryParams := queryParams }) := by
  obtain ⟨own, path, before, after, rfl, earlier⟩ := first
  induction before generalizing flag with
  | nil =>
      rw [List.nil_append, dispatchLoop, (matchRoute_eq route segments).1 path]
      simp only [own, ne_eq, not_true_eq_false, if_false, read]
  | cons other before ih =>
      obtain ⟨apart, rest⟩ := List.forall_mem_cons.mp earlier
      obtain ⟨flag', same, -⟩ := dispatchLoop_skip parse queryParams req flag (before ++ route :: after) apart
      rw [List.cons_append, same]
      exact ih flag' rest

variable (parse queryParams req) in
theorem dispatchLoop_none
    (absent : ∀ route ∈ routes, route.method = method → ¬ PathMatches route.segments segments)
    (flag : Bool) :
    (flag = true ∨ (∃ route ∈ routes, PathMatches route.segments segments) →
        dispatchLoop parse method segments queryParams req routes flag = .answered methodNotAllowed) ∧
      (flag = false ∧ (∀ route ∈ routes, ¬ PathMatches route.segments segments) →
        dispatchLoop parse method segments queryParams req routes flag = .answered notFound) := by
  induction routes generalizing flag with
  | nil =>
      refine ⟨fun some_path => ?_, fun none_path => ?_⟩
      · rcases some_path with rfl | ⟨_, mem, -⟩
        · rfl
        · cases mem
      · rw [none_path.1]
        rfl
  | cons route rest ih =>
      obtain ⟨apart, absent⟩ := List.forall_mem_cons.mp absent
      obtain ⟨flag', same, told⟩ := dispatchLoop_skip parse queryParams req flag rest apart
      rw [same]
      obtain ⟨allowed, found⟩ := ih absent flag'
      refine ⟨fun some_path => allowed ?_, fun none_path => found ?_⟩
      · rw [told]
        rcases some_path with marked | ⟨other, mem, path⟩
        · exact Or.inl (Or.inl marked)
        · rcases List.mem_cons.mp mem with rfl | later
          · exact Or.inl (Or.inr path)
          · exact Or.inr ⟨other, later, path⟩
      · obtain ⟨here, later⟩ := List.forall_mem_cons.mp none_path.2
        refine ⟨Bool.eq_false_iff.mpr fun marked => ?_, later⟩
        rcases told.mp marked with before | path
        · rw [none_path.1] at before
          cases before
        · exact here path

end Dispatch

theorem First.add {routes : List (Route M ρ)} {method : M} {segments : List Text} {route : Route M ρ}
    (first : First routes method segments route) (other : M) (pattern : Text)
    (handler : RequestContext → ρ) : First (add routes other pattern handler) method segments route := by
  obtain ⟨own, path, before, after, whole, earlier⟩ := first
  refine ⟨own, path, before, Router.add after other pattern handler, ?_, earlier⟩
  rw [Router.add, whole, List.append_assoc, List.cons_append]
  rfl

section Slashes

inductive SlashStep : Text → Text → Prop
  | leading (path : Text) : SlashStep path ('/' :: path)
  | trailing (path : Text) : SlashStep path (path ++ ['/'])
  | repeated (before after : Text) : SlashStep (before ++ '/' :: after) (before ++ '/' :: '/' :: after)

def IsQuery (query : Text) : Prop := query = [] ∨ query.head? = some '?'

theorem splitPath_nil : splitPath [] = [] := by
  simp [splitPath, List.splitOn_nil]

theorem splitPath_slash (before after : Text) :
    splitPath (before ++ '/' :: after) = splitPath before ++ splitPath after := by
  rw [splitPath, List.splitOn_append_cons_self, List.filter_append, splitPath, splitPath]

theorem SlashStep.splitPath_eq {path path' : Text} (step : SlashStep path path') :
    splitPath path = splitPath path' := by
  cases step with
  | leading path =>
      have slash := splitPath_slash [] path
      rw [splitPath_nil, List.nil_append, List.nil_append] at slash
      exact slash.symm
  | trailing path => rw [splitPath_slash, splitPath_nil, List.append_nil]
  | repeated before after =>
      have second := splitPath_slash [] after
      rw [splitPath_nil, List.nil_append, List.nil_append] at second
      rw [splitPath_slash, splitPath_slash, second]

theorem splitPath_eq_of_slashes {path path' : Text} (slashes : Relation.EqvGen SlashStep path path') :
    splitPath path = splitPath path' := by
  induction slashes with
  | rel _ _ step => exact step.splitPath_eq
  | refl _ => rfl
  | symm _ _ _ ih => exact ih.symm
  | trans _ _ _ _ _ left right => exact left.trans right

theorem stripQuery_append {path query : Text} (plain : '?' ∉ path) (rest : IsQuery query) :
    stripQuery (path ++ query) = path := by
  have whole : ∀ c ∈ path, decide (c ≠ '?') = true :=
    fun c mem => decide_eq_true fun same => plain (same ▸ mem)
  rw [stripQuery, List.takeWhile_append_of_pos whole]
  rcases rest with rfl | mark
  · rw [List.takeWhile_nil, List.append_nil]
  · obtain ⟨tail, rfl⟩ := List.head?_eq_some_iff.mp mark
    rw [List.takeWhile_cons_of_neg (by decide), List.append_nil]

end Slashes

def targetSegments (target : Text) : List Text := splitPath (stripQuery target)

/-- What a dispatch owes to a request. -/
structure Routed [DecidableEq M] (parse : Text → Option Json) (routes : List (Route M ρ)) (method : M)
    (target : Text) (req : Request) : Prop where
  called : ∀ route, First routes method (targetSegments target) route →
    ∃ body, contextBody parse req = some body ∧
      dispatch parse routes method target req = .returned (route.handler {
        req := req
        body := body
        pathParams := bound route.segments (targetSegments target)
        queryParams := parseQuery target })
  returned_iff : (∃ result, dispatch parse routes method target req = .returned result) ↔
    ∃ route, First routes method (targetSegments target) route
  notAllowed_iff : dispatch parse routes method target req = .answered methodNotAllowed ↔
    (¬ ∃ route, First routes method (targetSegments target) route) ∧
      ∃ route ∈ routes, PathMatches route.segments (targetSegments target)
  notFound_iff : dispatch parse routes method target req = .answered notFound ↔
    ¬ ∃ route ∈ routes, PathMatches route.segments (targetSegments target)

/-- The routes that a target can be dispatched to depend on neither slashes around its segments nor on
its query. -/
def SameRoutes (target : Text) : Prop :=
  ∀ path query path' query' : Text, target = path ++ query → '?' ∉ path → '?' ∉ path' →
    IsQuery query → IsQuery query' → Relation.EqvGen SlashStep path path' →
    targetSegments target = targetSegments (path' ++ query')

theorem sameRoutes (target : Text) : SameRoutes target := by
  rintro path query path' query' rfl plain plain' rest rest' slashes
  rw [targetSegments, targetSegments, stripQuery_append plain rest, stripQuery_append plain' rest']
  exact splitPath_eq_of_slashes slashes

theorem notFound_ne_methodNotAllowed : (Answer.answered notFound : Answer ρ) ≠ .answered methodNotAllowed := by
  intro same
  have status : notFound.status = methodNotAllowed.status :=
    congrArg Response.status (Answer.answered.inj same)
  revert status
  decide

theorem returned_ne_answered {result : ρ} {response : Response} :
    Answer.returned result ≠ .answered response := by
  intro same
  cases same

section Answers

variable [DecidableEq M] {parse : Text → Option Json} {routes : List (Route M ρ)} {method : M}
  {target : Text} {req : Request}

theorem routed_of_first {chosen : Route M ρ} (first : First routes method (targetSegments target) chosen)
    {body : Json} (read : contextBody parse req = some body) :
    Routed parse routes method target req := by
  have called (route : Route M ρ) (first : First routes method (targetSegments target) route) :=
    dispatchLoop_first (parseQuery target) first read false
  have result : dispatch parse routes method target req = _ := called chosen first
  have path : ∃ route ∈ routes, PathMatches route.segments (targetSegments target) := by
    obtain ⟨_, path, before, after, whole, -⟩ := first
    exact ⟨chosen, whole ▸ List.mem_append_right before List.mem_cons_self, path⟩
  refine ⟨fun route first => ⟨body, read, called route first⟩, ?_, ?_, ?_⟩
  · exact ⟨fun _ => ⟨chosen, first⟩, fun _ => ⟨_, result⟩⟩
  · rw [result]
    exact iff_of_false returned_ne_answered fun none_first => none_first.1 ⟨chosen, first⟩
  · rw [result]
    exact iff_of_false returned_ne_answered fun none_path => none_path path

theorem routed_of_absent (absent : ∀ route ∈ routes, route.method = method →
    ¬ PathMatches route.segments (targetSegments target)) : Routed parse routes method target req := by
  have no_first : ¬ ∃ route, First routes method (targetSegments target) route := by
    rintro ⟨route, own, path, before, after, rfl, -⟩
    exact absent route (List.mem_append_right before List.mem_cons_self) own path
  have none_called : ∀ {response}, dispatch parse routes method target req = .answered response →
      ¬ ∃ result, dispatch parse routes method target req = .returned result := by
    rintro _ answered ⟨result, same⟩
    exact returned_ne_answered (same.symm.trans answered)
  obtain ⟨allowed, found⟩ := dispatchLoop_none parse (parseQuery target) req absent false
  by_cases path : ∃ route ∈ routes, PathMatches route.segments (targetSegments target)
  · have result : dispatch parse routes method target req = .answered methodNotAllowed :=
      allowed (Or.inr path)
    refine ⟨fun route first => absurd ⟨route, first⟩ no_first,
      iff_of_false (none_called result) no_first, iff_of_true result ⟨no_first, path⟩, ?_⟩
    rw [result]
    exact iff_of_false notFound_ne_methodNotAllowed.symm (not_not.mpr path)
  · have result : dispatch parse routes method target req = .answered notFound :=
      found ⟨rfl, fun route mem matched => path ⟨route, mem, matched⟩⟩
    refine ⟨fun route first => absurd ⟨route, first⟩ no_first,
      iff_of_false (none_called result) no_first, ?_, iff_of_true result path⟩
    rw [result]
    exact iff_of_false notFound_ne_methodNotAllowed fun none_first => path none_first.2

end Answers

/-- Every request with a body that can be read is dispatched by the segments of its target: to the
first route of its method, with the bindings of that route alone. -/
theorem dispatch_routed [DecidableEq M] (parse : Text → Option Json) (routes : List (Route M ρ))
    (method : M) (target : Text) (req : Request) (valid : req.body = [] ∨ (parse req.body).isSome) :
    Routed parse routes method target req ∧ SameRoutes target := by
  refine ⟨?_, sameRoutes target⟩
  obtain ⟨body, read⟩ : ∃ body, contextBody parse req = some body := by
    rw [contextBody]
    rcases valid with empty | parsed
    · exact ⟨_, if_pos empty⟩
    · split
      · exact ⟨_, rfl⟩
      · exact Option.isSome_iff_exists.mp parsed
  rcases first_or_none routes method (targetSegments target) with ⟨chosen, first⟩ | absent
  · exact routed_of_first first read
  · exact routed_of_absent absent

theorem dispatch_routed_overlap :
    let handler : RequestContext → Option Text := fun ctx => ctx.pathParams ['a']
    let routes : List (Route Bool (Option Text)) :=
      add (add (add [] false "/p/{a}".toList handler) true "/p/q/r".toList handler) true
        "/{a}/{a}".toList handler
    let req : Request := {}
    (req.body = [] ∨ (none : Option Json).isSome) ∧
      (Routed (fun _ => none) routes true "//p/x/?n=1".toList req ∧ SameRoutes "//p/x/?n=1".toList) ∧
      dispatch (fun _ => none) routes true "//p/x/?n=1".toList req = .returned (some ['x']) :=
  ⟨Or.inl rfl, dispatch_routed (fun _ => none) _ true _ _ (Or.inl rfl), rfl⟩

end Routing

end Scand.Http.Router
