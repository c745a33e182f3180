import AuthnKit.Foundation.Interleave

/-!
# AuthnKit — machines side by side

Programs that perform operations of several machines, each of which has a world of its own, and
other operations that touch none of these worlds.

* **`product`** — the machine of all of them.
* **`Uses`** — what such a program owes a part: whenever it performs an operation of the part, it
  stands where a request to the part alone would.
* **`Reachable.part`** — the rule: seen from a part, every run is a run of that part.
* **`SeenFrom.returned`** — what a request to the part has come to.
-/

namespace AuthnKit

/-- A program that has been answered so stands at one place: what is performed next is determined by
the answers so far. -/
theorem Prog.Leads.unique {Op : Type} {Ans : Op → Type} {α : Type} {p q q' : Prog Op Ans α}
    {tr : List (Σ op, Ans op)} (h : Prog.Leads p tr q) (h' : Prog.Leads p tr q') : q = q' := by
  induction h with
  | refl p =>
    cases h' with
    | refl => rfl
  | call _ ih =>
    cases h' with
    | call h' => exact ih h'

/-- A trace of a program leads to its result, with nothing left to perform. -/
theorem Prog.Returns.leads {Op : Type} {Ans : Op → Type} {α : Type} {p : Prog Op Ans α} {a : α}
    {tr : List (Σ op, Ans op)} (h : Prog.Returns p tr a) : Prog.Leads p tr (.ret a) := by
  induction h with
  | ret a => exact .refl _
  | call _ ih => exact .call ih

/-- A sequence about to perform an operation: the first program is about to perform it, or has
returned and the second one is. -/
theorem Prog.Leads.of_bind_call {Op : Type} {Ans : Op → Type} {α β : Type} {p : Prog Op Ans α}
    {f : α → Prog Op Ans β} {tr : List (Σ op, Ans op)} {op : Op} {next : Ans op → Prog Op Ans β}
    (h : Prog.Leads (p >>= f) tr (.call op next)) :
    (∃ next', Prog.Leads p tr (.call op next'))
      ∨ ∃ tr₁ a tr₂, tr = tr₁ ++ tr₂ ∧ Prog.Returns p tr₁ a
        ∧ Prog.Leads (f a) tr₂ (.call op next) := by
  rcases h.of_bind with ⟨p', hp', hnext⟩ | hsecond
  · cases p' with
    | ret a =>
      refine .inr ⟨tr, a, [], (List.append_nil tr).symm, hp'.returns, ?_⟩
      rw [hnext]
      exact .refl _
    | call op' next' =>
      cases hnext
      exact .inl ⟨next', hp'⟩
  · exact .inr hsecond

/-- An operation under another name is that operation: a renamed program that is about to perform
something is about to perform a renamed operation, and the program itself stands before that one. -/
theorem Prog.leads_call_of_rename {Op Op' : Type} {Ans' : Op' → Type} {α : Type} {f : Op → Op'}
    {p : Prog Op (fun op => Ans' (f op)) α} {tr : List (Σ op, Ans' op)} {op : Op'}
    {next : Ans' op → Prog Op' Ans' α} (h : Prog.Leads (p.rename f) tr (.call op next)) :
    ∃ tr' op' next', tr = Prog.renameTrace f tr' ∧ op = f op'
      ∧ Prog.Leads p tr' (.call op' next') := by
  obtain ⟨tr', q, rfl, hq, hnext⟩ := Prog.leads_of_rename h
  cases q with
  | ret a => cases hnext
  | call op' next' =>
    cases hnext
    exact ⟨tr', op', next', rfl, rfl, hq⟩

namespace Interleave

section Before

variable {Req Op : Type} {Ans : Op → Type} {W Res : Type} {M : Machine Req Op Ans W Res}
  {s s' : State Req Op Ans W Res}

/-- What was submitted stays so: a step may finish or abandon a task, but its request is still the
same. -/
theorem Step.submitted (h : Step M s s') {i : ℕ} {r : Req} (hi : s.Submitted i r) :
    s'.Submitted i r := by
  have hmove : ∀ {j r' v status}, s.Submitted j r' →
      (status = .abandoned r' ∨ ∃ p, status = .running r' p) → (s.move v j status).Submitted i r := by
    intro j r' v status hj hstatus
    by_cases hij : i = j
    · subst hij
      obtain rfl := hi.unique hj
      unfold State.Submitted
      rw [State.move_self]
      rcases hstatus with rfl | ⟨p, rfl⟩
      · exact .inr rfl
      · exact .inl ⟨p, rfl⟩
    · unfold State.Submitted
      rw [s.move_of_ne _ hij]
      exact hi
  cases h with
  | spawn j r' hj =>
    have hij : i ≠ j := fun hij => hi.not_idle (hij ▸ hj)
    unfold State.Submitted
    rw [s.move_of_ne _ hij]
    exact hi
  | act j hj a w hx => exact hmove (.inl ⟨_, hj⟩) (.inr ⟨_, rfl⟩)
  | abandon j hj w hx => exact hmove (.inl ⟨_, hj⟩) (.inl rfl)
  | env w hx => exact hi

/-- The state in which an event happened, on the way to this one: as in `Reachable.before`, and
every request submitted by then is still a submitted one now. -/
theorem Reachable.state_before (h : Reachable M s) {e : Event Req Op Ans W}
    {past : List (Event Req Op Ans W)} (he : Happened s.view.history e past) :
    ∃ s' next, Reachable M s' ∧ s'.view = ⟨e.pre, past⟩
      ∧ s'.tasks e.task = .running e.req (.call e.op next)
      ∧ ∀ i r, s'.Submitted i r → s.Submitted i r := by
  induction h with
  | init w hw =>
    obtain ⟨later, h⟩ := he
    exact absurd h (by simp)
  | @step s s₁ h hs ih =>
    have hlater : ∀ (he : Happened s.view.history e past), ∃ s' next, Reachable M s'
        ∧ s'.view = ⟨e.pre, past⟩ ∧ s'.tasks e.task = .running e.req (.call e.op next)
        ∧ ∀ i r, s'.Submitted i r → s₁.Submitted i r := by
      intro he
      obtain ⟨s', next, hs', hview, htask, hsub⟩ := ih he
      exact ⟨s', next, hs', hview, htask, fun i r hi => hs.submitted (hsub i r hi)⟩
    cases hs with
    | spawn i r hi => exact hlater he
    | abandon i hi w hx => exact hlater he
    | env w hx => exact hlater he
    | act i hi a w hx =>
      rcases happened_cons_iff.mp he with ⟨rfl, rfl⟩ | he'
      · exact ⟨_, _, h, rfl, hi, fun j r hj => (Step.act i hi a w hx).submitted hj⟩
      · exact hlater he'

/-- Two stretches a task goes alone, one after the other, are one. -/
theorem Alone.trans {i : ℕ} {r : Req} {v v' v'' : View Req Op Ans W} {p p' p'' : Prog Op Ans Res}
    (h : Alone M i r v p v' p') (h' : Alone M i r v' p' v'' p'') : Alone M i r v p v'' p'' := by
  induction h with
  | refl v p => exact h'
  | act a w hx _ ih => exact .act a w hx (ih h')
  | env w hx _ ih => exact .env w hx (ih h')

end Before

structure Part (Req Res : Type) where
  Op : Type
  Ans : Op → Type
  World : Type
  machine : Machine Req Op Ans World Res

variable {ι Req Res X Req' Res' : Type}

inductive PartsOp (parts : ι → Part Req Res) (X : Type) where
  | part (k : ι) (op : (parts k).Op)
  | own (x : X)

abbrev PartsOp.Answer {parts : ι → Part Req Res} (Y : X → Type) : PartsOp parts X → Type
  | part k op => (parts k).Ans op
  | own x => Y x

abbrev Worlds (parts : ι → Part Req Res) := ∀ k, (parts k).World

variable {parts : ι → Part Req Res} {Y : X → Type} [DecidableEq ι] (k : ι) (f : Req' → Req)

/-- An operation of the part, with its answer. -/
def ofPart : (Σ op : PartsOp parts X, op.Answer Y) → Option (Σ op : (parts k).Op, (parts k).Ans op)
  | ⟨.part j op, a⟩ => if h : j = k then some (h ▸ ⟨op, a⟩) else none
  | ⟨.own _, _⟩ => none

def partTrace (tr : List (Σ op : PartsOp parts X, op.Answer Y)) :
    List (Σ op : (parts k).Op, (parts k).Ans op) :=
  tr.filterMap (ofPart k)

/-- An event of the part, as the part sees it. -/
def Event.part (e : Event Req' (PartsOp parts X) (PartsOp.Answer Y) (Worlds parts)) :
    Option (Event Req (parts k).Op (parts k).Ans (parts k).World) :=
  (ofPart k ⟨e.op, e.ans⟩).map fun x => ⟨e.task, f e.req, x.1, x.2, e.pre k, e.post k⟩

def View.part (v : View Req' (PartsOp parts X) (PartsOp.Answer Y) (Worlds parts)) :
    View Req (parts k).Op (parts k).Ans (parts k).World :=
  ⟨v.world k, v.history.filterMap (Event.part k f)⟩

/-- An operation of a part is performed there; the other parts do not notice. -/
def product (body : Req' → Prog (PartsOp parts X) (PartsOp.Answer Y) Res') (f : Req' → Req) :
    Machine Req' (PartsOp parts X) (PartsOp.Answer Y) (Worlds parts) Res' where
  body := body
  init w := ∀ k, (parts k).machine.init (w k)
  exec i v op a w := match op, a with
    | .part k op, a => (parts k).machine.exec i (v.part k f) op a (w k) ∧ ∀ j, j ≠ k → w j = v.world j
    | .own _, _ => w = v.world
  abandon i v op w := match op with
    | .part k op => (parts k).machine.abandon i (v.part k f) op (w k) ∧ ∀ j, j ≠ k → w j = v.world j
    | .own _ => w = v.world
  env w w' := ∃ k, (parts k).machine.env (w k) (w' k) ∧ ∀ j, j ≠ k → w' j = w j

/-! ## Events

An event of the whole is an event of at most one part. Leaving out the others, and the other parts'
worlds, gives the history as that part has seen it; a task's trace is cut down in the same way. -/

/-- An operation of the part is seen as that operation, with the answer it was given. -/
@[simp] theorem ofPart_part (op : (parts k).Op) (a : (parts k).Ans op) :
    ofPart (X := X) (Y := Y) k ⟨.part k op, a⟩ = some ⟨op, a⟩ := dif_pos rfl

theorem ofPart_of_ne {j : ι} (h : j ≠ k) (op : (parts j).Op) (a : (parts j).Ans op) :
    ofPart (X := X) (Y := Y) k ⟨.part j op, a⟩ = none := dif_neg h

/-- The operation behind what the part sees is this very operation of the part, with this answer. -/
theorem ofPart_eq_some {x : Σ op : PartsOp parts X, op.Answer Y} {op : (parts k).Op}
    {a : (parts k).Ans op} (h : ofPart k x = some ⟨op, a⟩) : x = ⟨.part k op, a⟩ := by
  obtain ⟨op', a'⟩ := x
  cases op' with
  | own y => cases h
  | part j op' =>
    by_cases hj : j = k
    · subst hj
      rw [ofPart_part] at h
      cases h
      rfl
    · rw [ofPart_of_ne k hj] at h
      cases h

/-- What a part did under the names of the whole is, seen from the part, what it did. -/
theorem partTrace_rename_self (tr : List (Σ op : (parts k).Op, (parts k).Ans op)) :
    partTrace k (Prog.renameTrace (PartsOp.part k) tr : List (Σ op : PartsOp parts X, op.Answer Y))
      = tr := by
  unfold partTrace Prog.renameTrace
  rw [List.filterMap_map]
  have hsome : (ofPart (X := X) (Y := Y) k ∘
      fun x : Σ op : (parts k).Op, (parts k).Ans op => ⟨.part k x.1, x.2⟩) = some :=
    funext fun x => ofPart_part k x.1 x.2
  rw [hsome, List.filterMap_some]

theorem partTrace_rename_of_ne {j : ι} (h : j ≠ k)
    (tr : List (Σ op : (parts j).Op, (parts j).Ans op)) :
    partTrace k (Prog.renameTrace (PartsOp.part j) tr : List (Σ op : PartsOp parts X, op.Answer Y))
      = [] := by
  unfold partTrace Prog.renameTrace
  rw [List.filterMap_map]
  apply List.filterMap_eq_nil_iff.mpr
  intro x _
  exact ofPart_of_ne k h x.1 x.2

theorem partTrace_append (tr tr' : List (Σ op : PartsOp parts X, op.Answer Y)) :
    partTrace k (tr ++ tr') = partTrace k tr ++ partTrace k tr' := List.filterMap_append

variable {k f} {v : View Req' (PartsOp parts X) (PartsOp.Answer Y) (Worlds parts)}

/-- **A task's part in the part.** What a task has done in the part's history is what remains of its
trace when everything else is left out. Induction on the history. -/
theorem View.trace_part (i : ℕ) : (v.part k f).trace i = partTrace k (v.trace i) := by
  obtain ⟨w, history⟩ := v
  unfold View.part View.trace partTrace
  rw [List.filterMap_reverse]
  congr 1
  induction history with
  | nil => rfl
  | cons e history ih =>
    cases hx : ofPart k (⟨e.op, e.ans⟩ : Σ op : PartsOp parts X, op.Answer Y) with
    | none =>
      have hevent : Event.part k f e = none := by
        unfold Event.part
        rw [hx]
        rfl
      by_cases hi : e.task = i <;> simp_all
    | some x =>
      have hevent : Event.part k f e = some ⟨e.task, f e.req, x.1, x.2, e.pre k, e.post k⟩ := by
        unfold Event.part
        rw [hx]
        rfl
      by_cases hi : e.task = i <;> simp_all

/-- An event of the part happened in the whole: the same task performed it, for the request the
part's request stands for, with the same answer. -/
theorem View.mem_part {e : Event Req (parts k).Op (parts k).Ans (parts k).World}
    (h : e ∈ (v.part k f).history) :
    ∃ e' ∈ v.history, e'.task = e.task ∧ f e'.req = e.req ∧ e'.Did (.part k e.op) e.ans := by
  obtain ⟨e', he', hpart⟩ := List.mem_filterMap.mp h
  unfold Event.part at hpart
  obtain ⟨x, hx, rfl⟩ := Option.map_eq_some_iff.mp hpart
  exact ⟨e', he', rfl, rfl, ofPart_eq_some k hx⟩

/-- An event that is none of the part's, and leaves the part's world alone, leaves the part's view
as it was. -/
theorem View.part_after_none {e : Event Req' (PartsOp parts X) (PartsOp.Answer Y) (Worlds parts)}
    (he : ofPart k ⟨e.op, e.ans⟩ = none) (hw : e.post k = v.world k) :
    (v.after e).part k f = v.part k f := by
  have hnone : Event.part k f e = none := by
    unfold Event.part
    rw [he]
    rfl
  unfold View.part View.after
  simp only [List.filterMap_cons_none hnone, hw]

/-- An event of the part is added to what it has seen, between the worlds the part was in before and
after it. -/
theorem View.part_after_some {e : Event Req' (PartsOp parts X) (PartsOp.Answer Y) (Worlds parts)}
    {op : (parts k).Op} {a : (parts k).Ans op} (he : ofPart k ⟨e.op, e.ans⟩ = some ⟨op, a⟩) :
    (v.after e).part k f = (v.part k f).after ⟨e.task, f e.req, op, a, e.pre k, e.post k⟩ := by
  have hsome : Event.part k f e = some ⟨e.task, f e.req, op, a, e.pre k, e.post k⟩ := by
    unfold Event.part
    rw [he]
    rfl
  unfold View.part View.after
  rw [List.filterMap_cons_some hsome]

/-! ## Runs

A run of the whole is followed from one part: its tasks have counterparts there, which are started
with them and move when an operation of the part is performed. What the rest of the whole does is a
pause for the part, so each run of the whole is a run of each part. -/

/-- Whenever the program performs an operation of the part, it stands where a request to the part
would. -/
def Uses (body : Req' → Prog (PartsOp parts X) (PartsOp.Answer Y) Res') (f : Req' → Req) (k : ι) :
    Prop :=
  ∀ r tr op next, Prog.Leads (body r) tr (.call (.part k op) next) →
    ∃ next', Prog.Leads ((parts k).machine.body (f r)) (partTrace k tr) (.call op next')

/-- Where a task of the whole stands in the part: one that is abandoned elsewhere stays. -/
inductive Counterpart (f : Req' → Req) {Op Op' : Type} {Ans : Op → Type} {Ans' : Op' → Type} :
    Status Req' Op' Ans' Res' → Status Req Op Ans Res → Prop where
  | idle : Counterpart f .idle .idle
  | running {r : Req'} {p : Prog Op' Ans' Res'} {q : Prog Op Ans Res} :
      Counterpart f (.running r p) (.running (f r) q)
  | abandoned {r : Req'} : Counterpart f (.abandoned r) (.abandoned (f r))
  | left {r : Req'} {q : Prog Op Ans Res} : Counterpart f (.abandoned r) (.running (f r) q)

/-- A state of the whole, as the part sees it. -/
structure SeenFrom (k : ι) (f : Req' → Req)
    (s : State Req' (PartsOp parts X) (PartsOp.Answer Y) (Worlds parts) Res')
    (t : State Req (parts k).Op (parts k).Ans (parts k).World Res) : Prop where
  view : t.view = s.view.part k f
  tasks : ∀ i, Counterpart f (s.tasks i) (t.tasks i)

section Rule

variable {body : Req' → Prog (PartsOp parts X) (PartsOp.Answer Y) Res'}
  {s : State Req' (PartsOp parts X) (PartsOp.Answer Y) (Worlds parts) Res'}
  {t : State Req (parts k).Op (parts k).Ans (parts k).World Res}

/-- A running task has a counterpart that is running as well, for the part's request. -/
theorem SeenFrom.running (h : SeenFrom k f s t) {i : ℕ} {r : Req'}
    {p : Prog (PartsOp parts X) (PartsOp.Answer Y) Res'} (hi : s.tasks i = .running r p) :
    ∃ q, t.tasks i = .running (f r) q := by
  have htask := h.tasks i
  rw [hi] at htask
  generalize t.tasks i = status at htask
  cases htask with
  | running => exact ⟨_, rfl⟩

/-- A request to the whole is a request to the part. -/
theorem SeenFrom.submitted (h : SeenFrom k f s t) {i : ℕ} {r : Req'} (hi : s.Submitted i r) :
    t.Submitted i (f r) := by
  rcases hi with ⟨p, hp⟩ | hp
  · obtain ⟨q, hq⟩ := h.running hp
    exact .inl ⟨q, hq⟩
  · have htask := h.tasks i
    rw [hp] at htask
    unfold State.Submitted
    generalize t.tasks i = status at htask
    cases htask with
    | abandoned => exact .inr rfl
    | left => exact .inl ⟨_, rfl⟩

/-- A request to the part is one to the whole: nothing reaches a part that was not submitted to the
whole under the same identifier. -/
theorem SeenFrom.exists_submitted (h : SeenFrom k f s t) {i : ℕ} {r : Req} (hi : t.Submitted i r) :
    ∃ r', s.Submitted i r' ∧ f r' = r := by
  have htask := h.tasks i
  cases hs : s.tasks i with
  | idle =>
    rw [hs] at htask
    have hne := hi.not_idle
    generalize t.tasks i = status at htask hne
    cases htask with
    | idle => exact absurd rfl hne
  | running r' p =>
    have hsub : s.Submitted i r' := .inl ⟨p, hs⟩
    exact ⟨r', hsub, (h.submitted hsub).unique hi⟩
  | abandoned r' =>
    have hsub : s.Submitted i r' := .inr hs
    exact ⟨r', hsub, (h.submitted hsub).unique hi⟩

/-- **What a request to the part has come to** is what it would have come to alone: if the task has
done in the part what makes the part's program return `a`, its counterpart has returned `a`. -/
theorem SeenFrom.returned (h : SeenFrom k f s t) (ht : Reachable (parts k).machine t) {i : ℕ}
    {r : Req'} {p : Prog (PartsOp parts X) (PartsOp.Answer Y) Res'}
    (hi : s.tasks i = .running r p) {a : Res}
    (ha : Prog.Returns ((parts k).machine.body (f r)) (partTrace k (s.view.trace i)) a) :
    t.Returned i (f r) a := by
  obtain ⟨q, hq⟩ := h.running hi
  have hleads := ht.leads_running hq
  rw [h.view, View.trace_part] at hleads
  rw [hleads.unique ha.leads] at hq
  exact hq

/-- A task moves in the whole and in the part: with its counterpart moved to the whole's view, cut
down to the part, the two states are still counterparts. -/
theorem SeenFrom.move (h : SeenFrom k f s t)
    {v : View Req' (PartsOp parts X) (PartsOp.Answer Y) (Worlds parts)} {i : ℕ}
    {status : Status Req' (PartsOp parts X) (PartsOp.Answer Y) Res'}
    {status' : Status Req (parts k).Op (parts k).Ans Res} (hstatus : Counterpart f status status') :
    SeenFrom k f (s.move v i status) (t.move (v.part k f) i status') where
  view := rfl
  tasks j := by
    by_cases hj : j = i
    · subst hj
      rw [State.move_self, State.move_self]
      exact hstatus
    · rw [State.move_of_ne _ _ hj, State.move_of_ne _ _ hj]
      exact h.tasks j

/-- A task moves in the whole, and the part does not notice: its view is the same, so its state may
stay what it was. -/
theorem SeenFrom.elsewhere (h : SeenFrom k f s t)
    {v : View Req' (PartsOp parts X) (PartsOp.Answer Y) (Worlds parts)}
    (hv : v.part k f = s.view.part k f) {i : ℕ}
    {status : Status Req' (PartsOp parts X) (PartsOp.Answer Y) Res'}
    (hstatus : Counterpart f status (t.tasks i)) : SeenFrom k f (s.move v i status) t where
  view := h.view.trans hv.symm
  tasks j := by
    by_cases hj : j = i
    · subst hj
      rw [State.move_self]
      exact hstatus
    · rw [State.move_of_ne _ _ hj]
      exact h.tasks j

/-- **The rule.** A run of the whole is a run of each part that its programs only use as requests to
it do. Induction on the run: a step is one of the part, or the part does not notice. -/
theorem Reachable.part (hs : Reachable (product body f) s) (hbody : Uses body f k) :
    ∃ t, Reachable (parts k).machine t ∧ SeenFrom k f s t := by
  induction hs with
  | init w hw => exact ⟨_, .init (w k) (hw k), rfl, fun _ => .idle⟩
  | @step s s' hs hstep ih =>
    obtain ⟨t, ht, hseen⟩ := ih
    -- where the part stands, when the whole is about to perform one of its operations
    have hnext : ∀ {i r op next}, s.tasks i = .running r (.call (.part k op) next) →
        ∃ next', t.tasks i = .running (f r) (.call op next') := by
      intro i r op next hi
      obtain ⟨q, hq⟩ := hseen.running hi
      obtain ⟨next', hleads⟩ := hbody r _ op next (hs.leads_running hi)
      have hleads' := ht.leads_running hq
      rw [hseen.view, View.trace_part] at hleads'
      exact ⟨next', by rw [hq, hleads'.unique hleads]⟩
    cases hstep with
    | spawn i r hi =>
      have hidle : t.tasks i = .idle := by
        have htask := hseen.tasks i
        rw [hi] at htask
        generalize t.tasks i = status at htask
        cases htask
        rfl
      refine ⟨_, ht.step (.spawn i (f r) hidle), ?_⟩
      rw [hseen.view]
      exact hseen.move .running
    | @act i r op next hi a w hx =>
      cases op with
      | own x =>
        obtain rfl : w = s.view.world := hx
        refine ⟨t, ht, hseen.elsewhere (View.part_after_none rfl rfl) ?_⟩
        obtain ⟨q, hq⟩ := hseen.running hi
        rw [hq]
        exact .running
      | part j op =>
        obtain ⟨hexec, hothers⟩ := hx
        by_cases hj : j = k
        · subst hj
          obtain ⟨next', hi'⟩ := hnext hi
          rw [← hseen.view] at hexec
          refine ⟨_, ht.step (.act i hi' a (w j) hexec), ?_⟩
          have hafter := View.part_after_some (f := f) (v := s.view)
            (e := ⟨i, r, .part j op, a, s.view.world, w⟩) (ofPart_part j op a)
          rw [hseen.view]
          have hmove := hseen.move (i := i) (v := s.view.after ⟨i, r, .part j op, a, s.view.world, w⟩)
            (.running (f := f) (r := r) (p := next a) (q := next' a))
          rw [hafter] at hmove
          exact hmove
        · refine ⟨t, ht, hseen.elsewhere (View.part_after_none (ofPart_of_ne k hj op a)
            (hothers k (Ne.symm hj))) ?_⟩
          obtain ⟨q, hq⟩ := hseen.running hi
          rw [hq]
          exact .running
    | @abandon i r op next hi w hx =>
      cases op with
      | own x =>
        obtain rfl : w = s.view.world := hx
        refine ⟨t, ht, hseen.elsewhere rfl ?_⟩
        obtain ⟨q, hq⟩ := hseen.running hi
        rw [hq]
        exact .left
      | part j op =>
        obtain ⟨habandon, hothers⟩ := hx
        by_cases hj : j = k
        · subst hj
          obtain ⟨next', hi'⟩ := hnext hi
          rw [← hseen.view] at habandon
          refine ⟨_, ht.step (.abandon i hi' (w j) habandon), ?_⟩
          rw [hseen.view]
          exact hseen.move .abandoned
        · refine ⟨t, ht, hseen.elsewhere ?_ ?_⟩
          · unfold View.part
            rw [View.withWorld_world, hothers k (Ne.symm hj)]
            rfl
          · obtain ⟨q, hq⟩ := hseen.running hi
            rw [hq]
            exact .left
    | env w hx =>
      obtain ⟨j, henv, hothers⟩ := hx
      by_cases hj : j = k
      · subst hj
        have henv' : (parts j).machine.env t.view.world (w j) := by
          rw [hseen.view]
          exact henv
        refine ⟨_, ht.step (.env (w j) henv'), ?_, hseen.tasks⟩
        rw [hseen.view]
        rfl
      · refine ⟨t, ht, ?_, hseen.tasks⟩
        rw [hseen.view]
        unfold View.part
        rw [View.withWorld_world, hothers k (Ne.symm hj)]
        rfl

/-- **What a part can do alone, it can do in the whole**, and the other parts do not notice.
Induction on what it does alone; runs of the whole are thereby put together from runs of its parts.
-/
theorem Alone.whole (body : Req' → Prog (PartsOp parts X) (PartsOp.Answer Y) Res') {i : ℕ}
    {r : Req'} {v v' : View Req (parts k).Op (parts k).Ans (parts k).World}
    {p p' : Prog (parts k).Op (parts k).Ans Res} (h : Alone (parts k).machine i (f r) v p v' p')
    (g : Res → Prog (PartsOp parts X) (PartsOp.Answer Y) Res') :
    ∀ {V : View Req' (PartsOp parts X) (PartsOp.Answer Y) (Worlds parts)}, V.part k f = v →
      ∃ V', V'.part k f = v' ∧ (∀ j, j ≠ k → V'.part j f = V.part j f)
        ∧ Alone (product body f) i r V (p.rename (PartsOp.part k) >>= g) V'
          (p'.rename (PartsOp.part k) >>= g) := by
  induction h with
  | refl v p =>
    intro V hV
    exact ⟨V, hV, fun _ _ => rfl, .refl _ _⟩
  | @act v v' op next p' a w hx _ ih =>
    intro V hV
    let W : Worlds parts := Function.update V.world k w
    have hW : W k = w := Function.update_self ..
    have hothers : ∀ j, j ≠ k → W j = V.world j := fun j hj => Function.update_of_ne hj ..
    obtain ⟨V', hV', hframe, halone⟩ := ih (V := V.after ⟨i, r, .part k op, a, V.world, W⟩) (by
      rw [View.part_after_some (ofPart_part k op a), hV, ← hV]
      show _ = View.after _ ⟨i, f r, op, a, V.world k, w⟩
      rw [← hW])
    refine ⟨V', hV', fun j hj => ?_, .act a W ⟨?_, hothers⟩ halone⟩
    · rw [hframe j hj, View.part_after_none (ofPart_of_ne j (Ne.symm hj) op a) (hothers j hj)]
    · rw [hV, hW]
      exact hx
  | @env v v' p p' w hx _ ih =>
    intro V hV
    let W : Worlds parts := Function.update V.world k w
    have hW : W k = w := Function.update_self ..
    have hothers : ∀ j, j ≠ k → W j = V.world j := fun j hj => Function.update_of_ne hj ..
    obtain ⟨V', hV', hframe, halone⟩ := ih (V := V.withWorld W) (by
      unfold View.part
      rw [View.withWorld_world, hW, ← hV]
      rfl)
    refine ⟨V', hV', fun j hj => ?_, .env W ⟨k, ?_, hothers⟩ halone⟩
    · rw [hframe j hj]
      unfold View.part
      rw [View.withWorld_world, hothers j hj]
      rfl
    · rw [hW]
      rw [← hV] at hx
      exact hx

end Rule

end Interleave

end AuthnKit
