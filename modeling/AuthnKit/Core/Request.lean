import AuthnKit.Core.Identity
import AuthnKit.Foundation.Text

/-!
# AuthnKit — the request view

`src/request.rs`: the parts of an HTTP request that authentication decides on, with the two
maps the source keeps (header name to values, cookie name to value), and the builder the
adapters fill it with.
-/

namespace AuthnKit

structure AuthRequest where
  method : String := ""
  path : String := ""
  routePattern : Option String := none
  query : String := ""
  headers : AList fun _ : String => List String := ∅
  cookies : AList fun _ : String => String := ∅

namespace AuthRequest

/-- The first value of `name`, matched case-insensitively. -/
def header (r : AuthRequest) (name : String) : Option String :=
  (r.headers.lookup name.toLower).bind List.head?

/-- Every value of `name`. -/
def headerAll (r : AuthRequest) (name : String) : List String :=
  (r.headers.lookup name.toLower).getD []

def cookie (r : AuthRequest) (name : String) : Option String := r.cookies.lookup name

/-- The path parameter `param`, braces included: the segment of the path where the pattern has
it. -/
def pathParam (r : AuthRequest) (param : String) : Option String := do
  let pattern ← r.routePattern
  let position ← (Text.split '/' pattern).findIdx? (· == param)
  (Text.split '/' r.path)[position]?

/-- The value of a header is the first of all its values, so a repeated header is read where it was
set first. -/
theorem header_eq_head? (r : AuthRequest) (name : String) :
    r.header name = (r.headerAll name).head? := by
  unfold header headerAll
  cases r.headers.lookup name.toLower <;> rfl

end AuthRequest

structure AuthRequestBuilder where
  request : AuthRequest := {}

namespace AuthRequestBuilder

def method (b : AuthRequestBuilder) (method : String) : AuthRequestBuilder :=
  ⟨{ b.request with method := method.toUpper }⟩

def path (b : AuthRequestBuilder) (path : String) : AuthRequestBuilder :=
  ⟨{ b.request with path := path }⟩

def routePattern (b : AuthRequestBuilder) (pattern : Option String) : AuthRequestBuilder :=
  ⟨{ b.request with routePattern := pattern }⟩

def query (b : AuthRequestBuilder) (query : String) : AuthRequestBuilder :=
  ⟨{ b.request with query := query }⟩

/-- Appends a header value, lowercasing the name. -/
def header (b : AuthRequestBuilder) (name value : String) : AuthRequestBuilder :=
  ⟨{ b.request with
      headers := b.request.headers.insert name.toLower (b.request.headerAll name ++ [value]) }⟩

/-- A cookie set twice keeps the later value. -/
def cookie (b : AuthRequestBuilder) (name value : String) : AuthRequestBuilder :=
  ⟨{ b.request with cookies := b.request.cookies.insert name value }⟩

def build (b : AuthRequestBuilder) : AuthRequest := b.request

/-- A cookie that was set last is the one that is read. -/
@[simp] theorem cookie_build_self (b : AuthRequestBuilder) (name value : String) :
    (b.cookie name value).build.cookie name = some value := by
  simp [cookie, build, AuthRequest.cookie]

/-- Setting a cookie leaves those with other names as they are. -/
theorem cookie_build_of_ne (b : AuthRequestBuilder) {name other : String} (h : other ≠ name)
    (value : String) : (b.cookie name value).build.cookie other = b.build.cookie other := by
  simp [cookie, build, AuthRequest.cookie, AList.lookup_insert_ne h]

/-- **Header names are case-insensitive**: a value added under one spelling of a name is found,
after those already there, under every other. -/
theorem headerAll_header (b : AuthRequestBuilder) {name other : String}
    (h : other.toLower = name.toLower) (value : String) :
    (b.header name value).build.headerAll other = b.build.headerAll other ++ [value] := by
  unfold AuthRequest.headerAll
  rw [h]
  simp [header, build, AuthRequest.headerAll]

end AuthRequestBuilder

end AuthnKit
