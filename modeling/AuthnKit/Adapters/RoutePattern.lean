import AuthnKit.Adapters.Cookies

/-!
# AuthnKit — route patterns

A router's pattern is a list of segments, some of them parameters, and possibly a last parameter
that takes the rest of the path. `AuthRequest::path_param` of `src/request.rs` finds a parameter
again by its position alone.

* **`Matches`**, **`Routes`** — the paths that match a pattern, and what it binds there.
* **`pathParam_of_matches`** — a parameter of one segment is found again.
* **`pathParam_routed_iff`** — every parameter is, unless the last one took more than a segment.
-/

namespace AuthnKit

/-! ## Patterns

A pattern is a list of segments, with a parameter at the end that may take the rest of the path. Its
text is what a router is given. -/

inductive Segment where
  | literal (text : String)
  | param (name : String)
  deriving DecidableEq

namespace Segment

def text : Segment → String
  | literal text => text
  | param name => "\x7b" ++ name ++ "\x7d"

def name : Segment → Option String
  | literal _ => none
  | param name => some name

end Segment

/-- The text of a parameter that takes the rest. -/
def catchAllText (name : String) : String := "\x7b*" ++ name ++ "\x7d"

structure RoutePattern where
  segments : List Segment
  catchAll : Option String
  nonempty : segments ≠ [] ∨ catchAll ≠ none
  /-- A slash is what separates them. -/
  slash_free : ∀ segment ∈ segments, '/' ∉ segment.text.toList
  slash_free_catchAll : ∀ name, catchAll = some name → '/' ∉ name.toList
  names_nodup : (segments.filterMap Segment.name).Nodup
  /-- What is in braces is a parameter, -/
  literal_plain : ∀ text, .literal text ∈ segments → ∀ name, text ≠ (Segment.param name).text
  /-- and what is in braces after a star takes the rest. -/
  param_plain : ∀ name, .param name ∈ segments → ∀ rest, name ≠ "*" ++ rest

namespace RoutePattern

def pieces (p : RoutePattern) : List String :=
  p.segments.map Segment.text ++ (p.catchAll.map catchAllText).toList

def text (p : RoutePattern) : String := Text.join '/' p.pieces

end RoutePattern

/-! ## Matching

The router's side, as the specification: which parameters a path binds, and to what. -/

/-- Segments match pieces of a path one by one. A parameter is bound to its piece. -/
inductive Matches : List Segment → List String → List (String × String) → Prop where
  | nil : Matches [] [] []
  | literal (text : String) {segments pieces bound} :
      Matches segments pieces bound → Matches (.literal text :: segments) (text :: pieces) bound
  | param (name : String) {value segments pieces bound} :
      '/' ∉ value.toList → Matches segments pieces bound →
      Matches (.param name :: segments) (value :: pieces) ((name, value) :: bound)

/-- The path matches the pattern, whose last parameter, if it has one, takes `rest`. -/
def RoutePattern.Routes (p : RoutePattern) (path : String) (bound : List (String × String))
    (rest : String) : Prop :=
  ∃ pieces, Matches p.segments pieces bound
    ∧ path = Text.join '/' (pieces ++ (p.catchAll.map fun _ => rest).toList)

namespace Matches

variable {segments : List Segment} {pieces : List String} {bound : List (String × String)}

/-- A path that matches has as many pieces as there are segments. -/
theorem length_eq (h : Matches segments pieces bound) : pieces.length = segments.length := by
  induction h with
  | nil => rfl
  | literal text _ ih => simp [ih]
  | param name _ _ ih => simp [ih]

/-- The pieces of a path contain no slash either. -/
theorem slash_free (h : Matches segments pieces bound)
    (hsegments : ∀ segment ∈ segments, '/' ∉ segment.text.toList) :
    ∀ piece ∈ pieces, '/' ∉ piece.toList := by
  induction h with
  | nil => exact fun piece hp => absurd hp List.not_mem_nil
  | literal text _ ih =>
    intro piece hp
    rcases List.mem_cons.mp hp with rfl | hp
    · exact hsegments (.literal piece) List.mem_cons_self
    · exact ih (fun s hs => hsegments s (List.mem_cons_of_mem _ hs)) piece hp
  | param name hvalue _ ih =>
    intro piece hp
    rcases List.mem_cons.mp hp with rfl | hp
    · exact hvalue
    · exact ih (fun s hs => hsegments s (List.mem_cons_of_mem _ hs)) piece hp

/-- A parameter that is bound is one of the pattern's. -/
theorem mem_names {name value : String} (h : Matches segments pieces bound)
    (hmem : (name, value) ∈ bound) : name ∈ segments.filterMap Segment.name := by
  induction h with
  | nil => exact absurd hmem List.not_mem_nil
  | literal text _ ih =>
    have hname : (Segment.literal text).name = none := rfl
    rw [List.filterMap_cons_none hname]
    exact ih hmem
  | param name' _ _ ih =>
    have hname : (Segment.param name').name = some name' := rfl
    rw [List.filterMap_cons_some hname]
    rcases List.mem_cons.mp hmem with heq | hmem
    · simp only [Prod.mk.injEq] at heq
      rw [heq.1]
      exact List.mem_cons_self
    · exact List.mem_cons_of_mem _ (ih hmem)

end Matches

/-! ## Finding a parameter again

The crate finds a parameter by its text in the pattern and takes the piece of the path at the same
place. The two agree as long as places do. -/

theorem Segment.param_text_inj {x y : String}
    (h : (Segment.param x).text = (Segment.param y).text) : x = y := by
  unfold text at h
  simpa [← String.toList_inj] using h

/-- **A parameter's value stands where its segment stands.** Induction along the match. -/
theorem Matches.find {segments : List Segment} {pieces : List String}
    {bound : List (String × String)} {name value : String} (h : Matches segments pieces bound)
    (hnodup : (segments.filterMap Segment.name).Nodup)
    (hplain : ∀ text, .literal text ∈ segments → ∀ name, text ≠ (Segment.param name).text)
    (hmem : (name, value) ∈ bound) :
    ∃ i, (segments.map Segment.text).findIdx? (· == (Segment.param name).text) = some i
      ∧ pieces[i]? = some value := by
  induction h with
  | nil => exact absurd hmem List.not_mem_nil
  | literal text _ ih =>
    have hname : (Segment.literal text).name = none := rfl
    rw [List.filterMap_cons_none hname] at hnodup
    obtain ⟨i, hi, hpiece⟩ := ih hnodup (fun t ht => hplain t (List.mem_cons_of_mem _ ht)) hmem
    have hne : ((Segment.literal text).text == (Segment.param name).text) = false :=
      beq_eq_false_iff_ne.mpr (hplain text List.mem_cons_self name)
    refine ⟨i + 1, ?_, by rw [List.getElem?_cons_succ, hpiece]⟩
    rw [List.map_cons, List.findIdx?_cons, hne, hi]
    rfl
  | param name' _ hrest ih =>
    have hname : (Segment.param name').name = some name' := rfl
    rw [List.filterMap_cons_some hname, List.nodup_cons] at hnodup
    rcases List.mem_cons.mp hmem with heq | hmem
    · simp only [Prod.mk.injEq] at heq
      obtain ⟨rfl, rfl⟩ := heq
      refine ⟨0, ?_, rfl⟩
      rw [List.map_cons, List.findIdx?_cons, beq_self_eq_true]
      rfl
    · obtain ⟨i, hi, hpiece⟩ :=
        ih hnodup.2 (fun t ht => hplain t (List.mem_cons_of_mem _ ht)) hmem
      -- the name stands further on, and only there
      have hne : ((Segment.param name').text == (Segment.param name).text) = false := by
        rw [beq_eq_false_iff_ne]
        intro htext
        rw [Segment.param_text_inj htext] at hnodup
        exact hnodup.1 (hrest.mem_names hmem)
      refine ⟨i + 1, ?_, by rw [List.getElem?_cons_succ, hpiece]⟩
      rw [List.map_cons, List.findIdx?_cons, hne, hi]
      rfl

section Routed

variable {r : AuthRequest} {p : RoutePattern} {bound : List (String × String)} {rest : String}

namespace RoutePattern

theorem pieces_slash_free (p : RoutePattern) : ∀ piece ∈ p.pieces, '/' ∉ piece.toList := by
  intro piece hp
  rcases List.mem_append.mp hp with hp | hp
  · obtain ⟨segment, hs, rfl⟩ := List.mem_map.mp hp
    exact p.slash_free segment hs
  · obtain ⟨name, hname, rfl⟩ := Option.map_eq_some_iff.mp (Option.mem_toList.mp hp)
    have hfree := p.slash_free_catchAll name hname
    unfold catchAllText
    simpa using hfree

theorem split_text (p : RoutePattern) : Text.split '/' p.text = p.pieces := by
  apply Text.split_join_self _ p.pieces_slash_free
  rcases p.nonempty with h | h
  · simp [pieces, h]
  · obtain ⟨name, hname⟩ := Option.ne_none_iff_exists'.mp h
    simp [pieces, hname]

theorem catchAllText_notMem (p : RoutePattern) (name : String) :
    catchAllText name ∉ p.segments.map Segment.text := by
  have hstar : catchAllText name = (Segment.param ("*" ++ name)).text := by
    rw [← String.toList_inj]
    simp [catchAllText, Segment.text]
  intro hmem
  obtain ⟨segment, hs, htext⟩ := List.mem_map.mp hmem
  cases segment with
  | literal text => exact p.literal_plain text hs ("*" ++ name) (htext.trans hstar)
  | param name' =>
    exact p.param_plain name' hs name (Segment.param_text_inj (htext.trans hstar))

end RoutePattern

/-- The segment that is found, and what the path has at its place. -/
theorem pathParam_eq (hpattern : r.routePattern = some p.text) (param : String) :
    r.pathParam param = (p.pieces.findIdx? (· == param)).bind ((Text.split '/' r.path)[·]?) := by
  unfold AuthRequest.pathParam
  rw [hpattern, ← p.split_text]
  rfl

/-- How the path of a match is split: the pieces of the segments, and then those of the rest. -/
theorem RoutePattern.Routes.split_path (hroute : p.Routes r.path bound rest) :
    ∃ pieces, Matches p.segments pieces bound ∧
      Text.split '/' r.path
        = pieces ++ (p.catchAll.map fun _ => Text.split '/' rest).getD [] := by
  obtain ⟨pieces, hmatch, hpath⟩ := hroute
  refine ⟨pieces, hmatch, ?_⟩
  have hfree := hmatch.slash_free p.slash_free
  rw [hpath]
  cases hc : p.catchAll with
  | some name => exact Text.split_join hfree rest
  | none =>
    have hne : pieces ≠ [] := by
      rcases p.nonempty with h | h
      · rw [Ne, ← List.length_eq_zero_iff] at h ⊢
        rw [hmatch.length_eq]
        exact h
      · exact absurd hc h
    show Text.split '/' (Text.join '/' (pieces ++ [])) = pieces ++ []
    rw [List.append_nil]
    exact Text.split_join_self hne hfree

/-- **A parameter of one segment is found again**, with the value the router has bound it to. -/
theorem pathParam_of_matches (hpattern : r.routePattern = some p.text)
    (hroute : p.Routes r.path bound rest) {name value : String} (hmem : (name, value) ∈ bound) :
    r.pathParam (Segment.param name).text = some value := by
  obtain ⟨pieces, hmatch, hsplit⟩ := hroute.split_path
  obtain ⟨i, hi, hpiece⟩ := hmatch.find p.names_nodup p.literal_plain hmem
  obtain ⟨hlt, -⟩ := List.getElem?_eq_some_iff.mp hpiece
  rw [pathParam_eq hpattern, hsplit, RoutePattern.pieces, List.findIdx?_append, hi]
  show (pieces ++ _)[i]? = some value
  rw [List.getElem?_append_left hlt, hpiece]

/-- **A parameter that takes the rest is given its first piece**, as it stands at one place of the
pattern. -/
theorem pathParam_catchAll (hpattern : r.routePattern = some p.text)
    (hroute : p.Routes r.path bound rest) {name : String} (hname : p.catchAll = some name) :
    r.pathParam (catchAllText name) = (Text.split '/' rest).head? := by
  obtain ⟨pieces, hmatch, hsplit⟩ := hroute.split_path
  have hnone : (p.segments.map Segment.text).findIdx? (· == catchAllText name) = none := by
    rw [List.findIdx?_eq_none_iff]
    intro text htext
    rw [beq_eq_false_iff_ne]
    rintro rfl
    exact p.catchAllText_notMem name htext
  have hfind : p.pieces.findIdx? (· == catchAllText name) = some p.segments.length := by
    rw [RoutePattern.pieces, List.findIdx?_append, hnone, hname]
    simp
  rw [pathParam_eq hpattern, hfind, hsplit, hname]
  show (pieces ++ Text.split '/' rest)[p.segments.length]? = _
  rw [← hmatch.length_eq, List.getElem?_append_right (le_refl _), Nat.sub_self,
    List.head?_eq_getElem?]

/-- What is no piece of the pattern is not found. -/
theorem pathParam_eq_none (hpattern : r.routePattern = some p.text) {param : String}
    (h : param ∉ p.pieces) : r.pathParam param = none := by
  have hnone : p.pieces.findIdx? (· == param) = none := by
    rw [List.findIdx?_eq_none_iff]
    intro text htext
    rw [beq_eq_false_iff_ne]
    rintro rfl
    exact h htext
  rw [pathParam_eq hpattern, hnone]
  rfl

/-- The parameters are the ones the router bound, and nothing else is one. -/
structure Aligned (r : AuthRequest) (p : RoutePattern) (bound : List (String × String))
    (rest : String) : Prop where
  params : ∀ name value, (name, value) ∈ bound →
    r.pathParam (Segment.param name).text = some value
  catchAll : ∀ name, p.catchAll = some name → r.pathParam (catchAllText name) = some rest
  others : ∀ param, param ∉ p.pieces → r.pathParam param = none

/-- **The parameters are the ones the router bound** as long as the last one is bound to no more
than a segment. -/
theorem pathParam_routed_iff (hpattern : r.routePattern = some p.text)
    (hroute : p.Routes r.path bound rest) :
    Aligned r p bound rest ↔ (p.catchAll ≠ none → '/' ∉ rest.toList) := by
  constructor
  · intro h hsome
    obtain ⟨name, hname⟩ := Option.ne_none_iff_exists'.mp hsome
    have hrest := h.catchAll name hname
    rw [pathParam_catchAll hpattern hroute hname] at hrest
    exact Text.head?_split.mp hrest
  · intro h
    constructor
    case params => exact fun name value hmem => pathParam_of_matches hpattern hroute hmem
    case catchAll =>
      intro name hname
      rw [pathParam_catchAll hpattern hroute hname]
      exact Text.head?_split.mpr (h (by simp [hname]))
    case others => exact fun param hparam => pathParam_eq_none hpattern hparam

end Routed

/-! ## Two routes

A pattern with a parameter in the middle, and one that takes the rest. -/

/-- A literal that does not start with a brace is no parameter's text. -/
theorem Segment.plain_of_head {text : String} (h : text.toList.head? ≠ some '\x7b')
    (name : String) : text ≠ (Segment.param name).text := by
  rintro rfl
  apply h
  simp [Segment.text]

/-- `/admin/{org_id}/workspaces`. -/
def adminRoute : RoutePattern where
  segments := [.literal "", .literal "admin", .param "org_id", .literal "workspaces"]
  catchAll := none
  nonempty := .inl (by simp)
  slash_free := by decide
  slash_free_catchAll name h := absurd h (by simp)
  names_nodup := by decide
  literal_plain text h := by
    apply Segment.plain_of_head
    simp only [List.mem_cons, Segment.literal.injEq, List.not_mem_nil, reduceCtorEq, or_false,
      false_or] at h
    rcases h with rfl | rfl | rfl <;> decide
  param_plain name h rest := by
    obtain rfl : name = "org_id" := by simpa using h
    intro heq
    have hhead := congrArg (fun s => s.toList.head?) heq
    simp at hhead

/-- `/files/{*path}`. -/
def filesRoute : RoutePattern where
  segments := [.literal "", .literal "files"]
  catchAll := some "path"
  nonempty := .inl (by simp)
  slash_free := by decide
  slash_free_catchAll name h := by
    obtain rfl := Option.some.inj h
    decide
  names_nodup := by decide
  literal_plain text h := by
    apply Segment.plain_of_head
    simp only [List.mem_cons, Segment.literal.injEq, List.not_mem_nil, or_false] at h
    rcases h with rfl | rfl <;> decide
  param_plain name h rest := absurd h (by simp)

def routedParts (path : String) (route : RoutePattern) : HttpParts where
  method := "GET"
  path := path
  matchedPath := some route.text
  query := none
  headers := []

/-- The parameter in the middle is found. -/
theorem pathParam_adminRoute :
    Aligned (Axum.request (routedParts "/admin/acme/workspaces" adminRoute)) adminRoute
      [("org_id", "acme")] "" := by
  have hroute : adminRoute.Routes "/admin/acme/workspaces" [("org_id", "acme")] "" :=
    ⟨["", "admin", "acme", "workspaces"],
      .literal "" (.literal "admin" (.param "org_id" (by decide) (.literal "workspaces" .nil))),
      by decide +kernel⟩
  exact (pathParam_routed_iff rfl hroute).mpr fun h => absurd rfl h

/-- The rest of the path is cut at its first slash. -/
theorem pathParam_filesRoute :
    filesRoute.Routes "/files/a/b" [] "a/b"
      ∧ (Axum.request (routedParts "/files/a/b" filesRoute)).routePattern = some filesRoute.text
      ∧ (Axum.request (routedParts "/files/a/b" filesRoute)).pathParam "\x7b*path\x7d" = some "a"
      ∧ ¬ Aligned (Axum.request (routedParts "/files/a/b" filesRoute)) filesRoute [] "a/b" := by
  have hroute : filesRoute.Routes "/files/a/b" [] "a/b" :=
    ⟨["", "files"], .literal "" (.literal "files" .nil), by decide +kernel⟩
  have hparam : (Axum.request (routedParts "/files/a/b" filesRoute)).pathParam "\x7b*path\x7d"
      = some "a" := by
    decide +kernel
  refine ⟨hroute, rfl, hparam, fun h => ?_⟩
  have hrest := h.catchAll "path" rfl
  have htext : catchAllText "path" = "\x7b*path\x7d" := by decide
  rw [htext, hparam] at hrest
  exact absurd hrest (by decide)

end AuthnKit
