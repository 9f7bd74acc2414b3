import SecureNet.Library.Percent

/-!
# HTTP requests and routers

Header values and header maps as in the `http` crate, and routers as in `axum`: routes are merged,
and a layer wraps every route that the router has at that moment, and its fallback.
-/

namespace Http

open Hex (Bytes)
open Percent (ascii)

/-- A byte that may occur in a header value: no control character but the tab. -/
def isValidByte (b : UInt8) : Bool :=
  (decide (32 ≤ b.toNat) && b != 127) || b == ascii '\t'

def isVisibleAscii (b : UInt8) : Bool :=
  (decide (32 ≤ b.toNat) && decide (b.toNat < 127)) || b == ascii '\t'

abbrev HeaderValue := { bytes : Bytes // ∀ b ∈ bytes, isValidByte b = true }

namespace HeaderValue

/-- `str::parse::<HeaderValue>` -/
def fromStr (s : String) : Option HeaderValue :=
  if h : (Utf8.encode s).all isValidByte = true then
    some ⟨Utf8.encode s, List.all_eq_true.mp h⟩
  else none

def toStr (value : HeaderValue) : Option String :=
  if value.1.all isVisibleAscii then Utf8.decode value.1 else none

lemma fromStr_bytes {s : String} {value : HeaderValue} (h : fromStr s = some value) :
    value.1 = Utf8.encode s := by
  unfold fromStr at h
  split at h
  · cases h
    rfl
  · cases h

end HeaderValue

/-- The headers of a request with their names in lower case. A name may occur more than once. -/
abbrev HeaderMap := List (String × HeaderValue)

namespace HeaderMap

def getAll (headers : HeaderMap) (name : String) : List HeaderValue :=
  (headers.filter (fun header => header.1 == name)).map Prod.snd

def get (headers : HeaderMap) (name : String) : Option HeaderValue := (headers.getAll name).head?

/-- Sets a header and removes all its previous values. -/
def insert (headers : HeaderMap) (name : String) (value : HeaderValue) : HeaderMap :=
  headers.filter (fun header => header.1 != name) ++ [(name, value)]

@[simp] lemma getAll_insert_self (headers : HeaderMap) (name : String) (value : HeaderValue) :
    (headers.insert name value).getAll name = [value] := by
  have hnone : (headers.filter (fun header => header.1 != name)).filter
      (fun header => header.1 == name) = [] := by
    rw [List.filter_filter, List.filter_eq_nil_iff]
    intro header _
    simp
  rw [getAll, insert, List.filter_append, hnone]
  simp

@[simp] lemma getAll_insert_ne (headers : HeaderMap) {name other : String} (h : other ≠ name)
    (value : HeaderValue) : (headers.insert name value).getAll other = headers.getAll other := by
  have hkeep : (headers.filter (fun header => header.1 != name)).filter
      (fun header => header.1 == other) = headers.filter (fun header => header.1 == other) := by
    rw [List.filter_filter]
    apply List.filter_congr
    intro header _
    by_cases hother : header.1 = other
    · simp [hother, h]
    · simp [hother]
  have hdrop : [(name, value)].filter (fun header => header.1 == other) = [] := by
    simp [h.symm]
  rw [getAll, insert, List.filter_append, hkeep, hdrop, List.append_nil]
  rfl

end HeaderMap

inductive Method
  | get
  | head
  | post
  | other (name : String)
  deriving DecidableEq

structure Request where
  method : Method
  /-- The path as it was sent. -/
  path : Bytes
  headers : HeaderMap
  body : Bytes

/-- A segment of a route: a fixed text, or a parameter, which takes any nonempty segment. -/
inductive Segment
  | lit (text : String)
  | param

/-- The parameters of a path that matches the route, before they are decoded. -/
def matchSegments : List Segment → List Bytes → Option (List Bytes)
  | [], [] => some []
  | .lit text :: pattern, s :: rest =>
    if s = Utf8.encode text then matchSegments pattern rest else none
  | .param :: pattern, s :: rest =>
    if s = [] then none else (matchSegments pattern rest).map (s :: ·)
  | _, _ => none

/-- The segments of a path, which starts with a slash. -/
def pathSegments (path : Bytes) : List Bytes := (path.drop 1).splitOnP (· == ascii '/')

variable {α : Type}

abbrev Service (α : Type) := Request → α

structure Route (α : Type) where
  pattern : List Segment
  service : List Bytes → Service α

structure Router (α : Type) where
  routes : List (Route α)
  fallback : Service α

namespace Router

variable (refused : ℕ → α)

/-- `Router::new`, which answers 404 everywhere. -/
def new : Router α := ⟨[], fun _ => refused 404⟩

def route (self : Router α) (pattern : List Segment) (service : List Bytes → Service α) : Router α :=
  { self with routes := self.routes ++ [⟨pattern, service⟩] }

/-- `routing::get`, which serves HEAD requests too. -/
def get (handler : List Bytes → Service α) (params : List Bytes) : Service α := fun req =>
  if req.method = .get ∨ req.method = .head then handler params req else refused 405

def post (handler : List Bytes → Service α) (params : List Bytes) : Service α := fun req =>
  if req.method = .post then handler params req else refused 405

/-- A middleware around every route and the fallback. -/
def layer (self : Router α) (middleware : Service α → Service α) : Router α where
  routes := self.routes.map (fun r => ⟨r.pattern, fun params => middleware (r.service params)⟩)
  fallback := middleware self.fallback

/-- Of two fallbacks that nobody has set, the second one stays. -/
def merge (self other : Router α) : Router α := ⟨self.routes ++ other.routes, other.fallback⟩

def find (routes : List (Route α)) (segments : List Bytes) : Option (Service α) :=
  match routes with
  | [] => none
  | r :: rest =>
    match matchSegments r.pattern segments with
    | some params => some (r.service params)
    | none => find rest segments

def call (self : Router α) : Service α := fun req =>
  match find self.routes (pathSegments req.path) with
  | some service => service req
  | none => self.fallback req

lemma find_mem {routes : List (Route α)} {segments : List Bytes} {service : Service α}
    (h : find routes segments = some service) :
    ∃ r ∈ routes, ∃ params, matchSegments r.pattern segments = some params ∧
      service = r.service params := by
  induction routes with
  | nil => cases h
  | cons r rest ih =>
    rw [find] at h
    cases hmatch : matchSegments r.pattern segments with
    | none =>
      rw [hmatch] at h
      obtain ⟨r', hr', hrest⟩ := ih h
      exact ⟨r', List.mem_cons_of_mem r hr', hrest⟩
    | some params =>
      rw [hmatch] at h
      cases h
      exact ⟨r, List.mem_cons_self, params, hmatch, rfl⟩

/-- What a request reaches: a route that its path matches, or the fallback. -/
theorem call_cases (self : Router α) (req : Request) :
    (∃ r ∈ self.routes, ∃ params,
      matchSegments r.pattern (pathSegments req.path) = some params ∧
        self.call req = r.service params req) ∨
      self.call req = self.fallback req := by
  unfold call
  cases hfind : find self.routes (pathSegments req.path) with
  | none => exact .inr rfl
  | some service =>
    obtain ⟨r, hr, params, hmatch, rfl⟩ := find_mem hfind
    exact .inl ⟨r, hr, params, hmatch, rfl⟩

end Router

end Http
