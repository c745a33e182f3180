import AuthnKit.Foundation.Interleave

/-!
# AuthnKit — programs that call into a shared machine

Programs that make calls to one machine, among operations of their own. A call is a request to the
machine, made on the caller's own task: its operations interleave with everybody's, and it is dropped
with its caller.

* **`inlined`** — a program with its calls opened up. A call begins by drawing a ticket.
* **`callers`** — the machine of such programs, over the world of the one they call.
* **`Reachable.attended`** — the rule: seen from the machine that is called, every run is a run of
  it, with one task for each call.
* **`Attends.returned`** — what a program came to, it came to with what its calls returned.
* **`Alone.invoke`** — a call that can be made alone can be made by a program alone.
-/

namespace AuthnKit.Interleave

variable {Req Op X Req' Res Res' W V α β : Type} {Ans : Op → Type} {Y : X → Type}

/-- A call, as one step, or an operation of the program's own. -/
inductive CallerOp (Req X : Type) where
  | invoke (r : Req)
  | own (x : X)

abbrev CallerOp.Answer (Res : Type) (Y : X → Type) : CallerOp Req X → Type
  | invoke _ => Res
  | own x => Y x

abbrev CallerProg (Req Res : Type) (Y : X → Type) :=
  Prog (CallerOp Req X) (CallerOp.Answer Res Y)

/-- The same with the call opened up: it is entered, then its operations are performed. -/
inductive InlinedOp (Req Op X : Type) where
  | enter (r : Req)
  | inner (n : ℕ) (r : Req) (op : Op)
  | own (x : X)

abbrev InlinedOp.Answer (Ans : Op → Type) (Y : X → Type) : InlinedOp Req Op X → Type
  | enter _ => ℕ
  | inner _ _ op => Ans op
  | own x => Y x

abbrev InlinedProg (Req : Type) (Ans : Op → Type) (Y : X → Type) :=
  Prog (InlinedOp Req Op X) (InlinedOp.Answer Ans Y)

/-- The calls of a program, opened up. -/
def inlined (body : Req → Prog Op Ans Res) : CallerProg Req Res Y α → InlinedProg Req Ans Y α
  | .ret a => .ret a
  | .call (.own x) k => .call (.own x) fun a => inlined body (k a)
  | .call (.invoke r) k => .call (.enter r) fun n =>
      (body r).rename (.inner n r) >>= fun res => inlined body (k res)

/-! ## The machine

A program that calls is run with its calls opened up, so that other tasks may move in the middle of
them. Entering a call draws a ticket, under which the machine that is called knows it; being dropped
in a call drops the call with it. -/

structure CallWorld (W V : Type) where
  service : W
  /-- The next ticket. -/
  next : ℕ
  rest : V

/-- What a call has done, as the machine that is called sees it: the ticket is the task. -/
def Event.service :
    Event Req' (InlinedOp Req Op X) (InlinedOp.Answer Ans Y) (CallWorld W V) →
      Option (Event Req Op Ans W)
  | ⟨_, _, .inner n r op, a, pre, post⟩ => some ⟨n, r, op, a, pre.service, post.service⟩
  | ⟨_, _, .enter _, _, _, _⟩ => none
  | ⟨_, _, .own _, _, _, _⟩ => none

def View.service (v : View Req' (InlinedOp Req Op X) (InlinedOp.Answer Ans Y) (CallWorld W V)) :
    View Req Op Ans W :=
  ⟨v.world.service, v.history.filterMap Event.service⟩

/-- The programs that call, and their own operations. These may look at the world of the machine
that is called, and leave it as it is. -/
structure Callers (M : Machine Req Op Ans W Res) (Req' : Type) (Y : X → Type) (V Res' : Type) where
  body : Req' → CallerProg Req Res Y Res'
  init : V → Prop
  exec : ℕ → W → V → (x : X) → Y x → V → Prop
  abandon : ℕ → W → V → X → V → Prop
  env : W → V → W → V → Prop
  env_service : ∀ w v w' v', env w v w' v' → M.env w w' ∨ w' = w

variable {M : Machine Req Op Ans W Res}

namespace Callers

variable (C : Callers M Req' Y V Res')

/-- What an operation of task `i` answers and leaves. -/
def performs (i : ℕ) (v : View Req' (InlinedOp Req Op X) (InlinedOp.Answer Ans Y) (CallWorld W V)) :
    (op : InlinedOp Req Op X) → op.Answer Ans Y → CallWorld W V → Prop
  | .enter _, n, w => n = v.world.next ∧ w = { v.world with next := n + 1 }
  | .inner n _ op, a, w => M.exec n v.service op a w.service
      ∧ w.next = v.world.next ∧ w.rest = v.world.rest
  | .own x, a, w => C.exec i v.world.service v.world.rest x a w.rest
      ∧ w.service = v.world.service ∧ w.next = v.world.next

/-- Who is dropped in a call drops the call. -/
def drops (i : ℕ) (v : View Req' (InlinedOp Req Op X) (InlinedOp.Answer Ans Y) (CallWorld W V)) :
    InlinedOp Req Op X → CallWorld W V → Prop
  | .enter _, w => w = v.world
  | .inner n _ op, w => M.abandon n v.service op w.service
      ∧ w.next = v.world.next ∧ w.rest = v.world.rest
  | .own x, w => C.abandon i v.world.service v.world.rest x w.rest
      ∧ w.service = v.world.service ∧ w.next = v.world.next

end Callers

def callers (C : Callers M Req' Y V Res') :
    Machine Req' (InlinedOp Req Op X) (InlinedOp.Answer Ans Y) (CallWorld W V) Res' where
  body r := inlined M.body (C.body r)
  init w := M.init w.service ∧ C.init w.rest ∧ w.next = 0
  exec := C.performs
  abandon := C.drops
  env w w' := C.env w.service w.rest w'.service w'.rest ∧ w'.next = w.next

/-! ## What the machine that is called sees

Tickets are its tasks. It sees the events of the calls, and none of the callers' own operations,
which leave its world as it is. -/

variable {C : Callers M Req' Y V Res'}
  {s s' : State Req' (InlinedOp Req Op X) (InlinedOp.Answer Ans Y) (CallWorld W V) Res'}
  {t t' : State Req Op Ans W Res}

/-- What stands behind the answers a task was given: its own operations, and calls of its own that
returned. -/
def Accounted (owner : ℕ → ℕ)
    (s : State Req' (InlinedOp Req Op X) (InlinedOp.Answer Ans Y) (CallWorld W V) Res')
    (t : State Req Op Ans W Res) (i : ℕ) (tr : List (Σ op : CallerOp Req X, op.Answer Res Y)) :
    Prop :=
  (∀ x a, ⟨.own x, a⟩ ∈ tr → ∃ ev ∈ s.view.history, ev.task = i ∧ ev.Did (.own x) a)
    ∧ ∀ r res, ⟨.invoke r, res⟩ ∈ tr → ∃ n, t.Returned n r res ∧ owner n = i

/-- Where the program of a task stands: between its calls, or in one. -/
inductive Stands (M : Machine Req Op Ans W Res) (owner : ℕ → ℕ) (t : State Req Op Ans W Res) (i : ℕ) :
    InlinedProg Req Ans Y α → CallerProg Req Res Y α → Prop where
  | between (q : CallerProg Req Res Y α) : Stands M owner t i (inlined M.body q) q
  | within (n : ℕ) {r : Req} {p : Prog Op Ans Res} (k : Res → CallerProg Req Res Y α)
      (howner : owner n = i) (htask : t.tasks n = .running r p) :
      Stands M owner t i (p.rename (.inner n r) >>= fun res => inlined M.body (k res))
        (.call (.invoke r) k)

/-- A run of callers, from the machine that is called. -/
structure Attends (C : Callers M Req' Y V Res') (owner : ℕ → ℕ)
    (s : State Req' (InlinedOp Req Op X) (InlinedOp.Answer Ans Y) (CallWorld W V) Res')
    (t : State Req Op Ans W Res) : Prop where
  view : t.view = s.view.service
  fresh : ∀ n, s.view.world.next ≤ n → t.tasks n = .idle
  tasks : ∀ i r' p', s.tasks i = .running r' p' → ∃ tr q, Prog.Leads (C.body r') tr q
    ∧ Accounted owner s t i tr ∧ Stands M owner t i p' q
  /-- What is done in a call is done by its owner. -/
  inside : ∀ ev ∈ s.view.history, ∀ n r op a, ev.Did (.inner n r op) a → ev.task = owner n

/-! ### One event

Events of calls become events of the machine that is called, in their order; all others disappear.
-/

section Event

variable {v : View Req' (InlinedOp Req Op X) (InlinedOp.Answer Ans Y) (CallWorld W V)}
  {w : CallWorld W V} {i n : ℕ} {r : Req} {r' : Req'}

/-- An operation of a caller's own is not seen by the machine that is called. -/
theorem View.service_after_own {x : X} (a : Y x) (h : w.service = v.world.service) :
    (v.after ⟨i, r', .own x, a, v.world, w⟩).service = v.service := by
  unfold View.service View.after
  rw [h]
  rfl

/-- An event of the machine that is called happened in a call: in the whole history there is the
event behind it, with the same operation and answer, between the same worlds of that machine. -/
theorem View.mem_service {ev : Event Req Op Ans W} (h : ev ∈ v.service.history) :
    ∃ ev' ∈ v.history, ev'.Did (.inner ev.task ev.req ev.op) ev.ans
      ∧ ev'.pre.service = ev.pre ∧ ev'.post.service = ev.post := by
  obtain ⟨ev', hmem, hev⟩ := List.mem_filterMap.mp h
  obtain ⟨task, req, op, a, pre, post⟩ := ev'
  cases op with
  | enter r => cases hev
  | own x => cases hev
  | inner n r op =>
    cases hev
    exact ⟨_, hmem, rfl, rfl, rfl⟩

/-- What happened in a call happened to the machine that is called, after what it had seen by then.
Pasts are cut down as the history is, so the order of events carries over. -/
theorem View.happened_service {ev} {past} (h : Happened v.history ev past) {op : Op} {a : Ans op}
    (hdid : ev.Did (.inner n r op) a) :
    Happened v.service.history ⟨n, r, op, a, ev.pre.service, ev.post.service⟩
      (past.filterMap Event.service) := by
  obtain ⟨later, hlater⟩ := h
  obtain ⟨task, req, op', a', pre, post⟩ := ev
  cases hdid
  refine ⟨later.filterMap Event.service, ?_⟩
  show v.history.filterMap Event.service = _
  rw [hlater, List.filterMap_append]
  rfl

end Event

variable {owner owner' : ℕ → ℕ}

/-- What has been accounted for stays so: histories grow, and calls that have returned keep their
result and their owner. -/
theorem Accounted.mono {i : ℕ} {tr : List (Σ op : CallerOp Req X, op.Answer Res Y)}
    (h : Accounted owner s t i tr) (hhistory : ∀ ev ∈ s.view.history, ev ∈ s'.view.history)
    (hreturned : ∀ n r res, t.Returned n r res → t'.Returned n r res ∧ owner' n = owner n) :
    Accounted owner' s' t' i tr := by
  obtain ⟨hown, hinvoke⟩ := h
  refine ⟨fun x a hmem => ?_, fun r res hmem => ?_⟩
  · obtain ⟨ev, hev, hrest⟩ := hown x a hmem
    exact ⟨ev, hhistory ev hev, hrest⟩
  · obtain ⟨n, hret, hn⟩ := hinvoke r res hmem
    obtain ⟨hret', hsame⟩ := hreturned n r res hret
    exact ⟨n, hret', hsame.trans hn⟩

/-- An operation of the caller's own is accounted for by its event. -/
theorem Accounted.own {i : ℕ} {tr : List (Σ op : CallerOp Req X, op.Answer Res Y)}
    (h : Accounted owner s t i tr) {x : X} {a : Y x} {ev} (hev : ev ∈ s.view.history)
    (hi : ev.task = i) (hdid : ev.Did (.own x) a) :
    Accounted owner s t i (tr ++ [⟨.own x, a⟩]) := by
  obtain ⟨hown, hinvoke⟩ := h
  refine ⟨fun x' a' hmem => ?_, fun r res hmem => ?_⟩
  · rcases List.mem_append.mp hmem with hold | hlast
    · exact hown x' a' hold
    · cases List.mem_singleton.mp hlast
      exact ⟨ev, hev, hi, hdid⟩
  · rcases List.mem_append.mp hmem with hold | hlast
    · exact hinvoke r res hold
    · cases List.mem_singleton.mp hlast

/-- The answer of a call is accounted for by the call, once it has returned to its owner. -/
theorem Accounted.invoke {i n : ℕ} {tr : List (Σ op : CallerOp Req X, op.Answer Res Y)}
    (h : Accounted owner s t i tr) {r : Req} {res : Res} (hret : t.Returned n r res)
    (hn : owner n = i) : Accounted owner s t i (tr ++ [⟨.invoke r, res⟩]) := by
  obtain ⟨hown, hinvoke⟩ := h
  refine ⟨fun x a hmem => ?_, fun r' res' hmem => ?_⟩
  · rcases List.mem_append.mp hmem with hold | hlast
    · exact hown x a hold
    · cases List.mem_singleton.mp hlast
  · rcases List.mem_append.mp hmem with hold | hlast
    · exact hinvoke r' res' hold
    · cases List.mem_singleton.mp hlast
      exact ⟨n, hret, hn⟩

/-- **Where a task stands**: between its calls, or about to perform an operation of one. A call that
has returned is over, since its result has been handed to the caller in the same step. -/
theorem Attends.stands (h : Attends C owner s t) {i : ℕ} {r' : Req'}
    {p' : InlinedProg Req Ans Y Res'} (hi : s.tasks i = .running r' p') :
    (∃ tr q, Prog.Leads (C.body r') tr q ∧ Accounted owner s t i tr ∧ p' = inlined M.body q)
      ∨ ∃ tr n r op next k, Prog.Leads (C.body r') tr (.call (.invoke r) k)
        ∧ Accounted owner s t i tr ∧ owner n = i ∧ t.tasks n = .running r (.call op next)
        ∧ p' = .call (.inner n r op) fun a =>
          (next a).rename (.inner n r) >>= fun res => inlined M.body (k res) := by
  obtain ⟨tr, q, hleads, hacc, hstands⟩ := h.tasks i r' p' hi
  cases hstands with
  | between q => exact .inl ⟨tr, q, hleads, hacc, rfl⟩
  | @within n r p k howner htask =>
    cases p with
    | ret res => exact .inl ⟨_, k res, hleads.snoc res, hacc.invoke htask howner, rfl⟩
    | call op next => exact .inr ⟨tr, n, r, op, next, k, hleads, hacc, howner, htask, rfl⟩

/-- **What a program came to, it came to with what its calls returned.** Its result is that of a
trace whose calls are single operations, each answered by a call of the task's own that returned
just that. -/
theorem Attends.returned (h : Attends C owner s t) {i : ℕ} {r' : Req'} {a : Res'}
    (hi : s.Returned i r' a) :
    ∃ tr, Prog.Returns (C.body r') tr a ∧ Accounted owner s t i tr := by
  rcases h.stands hi with ⟨tr, q, hleads, hacc, hq⟩ | ⟨tr, n, r, op, next, k, -, -, -, -, hq⟩
  · cases q with
    | ret b =>
      cases hq
      exact ⟨tr, hleads.returns, hacc⟩
    | call op k => cases op <;> cases hq
  · cases hq

/-- What a call did, its owner did: an event of the machine that is called is an event of the task
that made the call, inside it. -/
theorem Attends.performed (h : Attends C owner s t) {e : Event Req Op Ans W}
    (he : e ∈ t.view.history) :
    ∃ ev ∈ s.view.history, ev.task = owner e.task ∧ ev.Did (.inner e.task e.req e.op) e.ans := by
  rw [h.view] at he
  obtain ⟨ev, hev, hdid, -, -⟩ := View.mem_service he
  exact ⟨ev, hev, h.inside ev hev _ _ _ _ hdid, hdid⟩

/-! ### One step

A step of the callers is a step of the machine they call when it enters a call or moves inside one;
otherwise that machine pauses. The lemmas have one kind of step each. -/

/-- A move of task `i`, and what became of its call. The general case: where the called machine's
state accounts for task `i` again, and nothing changed for the calls of the others, it attends the
callers still. -/
theorem Attends.move (h : Attends C owner s t) (ht : Reachable M t) {i : ℕ}
    {v : View Req' (InlinedOp Req Op X) (InlinedOp.Answer Ans Y) (CallWorld W V)}
    {status : Status Req' (InlinedOp Req Op X) (InlinedOp.Answer Ans Y) Res'}
    (hview : t'.view = v.service) (hfresh : ∀ n, v.world.next ≤ n → t'.tasks n = .idle)
    (hhistory : ∀ ev ∈ s.view.history, ev ∈ v.history)
    (howner : ∀ n, t.tasks n ≠ .idle → owner' n = owner n)
    (hkept : ∀ n, t.tasks n ≠ .idle → owner n ≠ i → t'.tasks n = t.tasks n)
    (hreturned : ∀ n r res, t.Returned n r res → t'.Returned n r res)
    (hself : ∀ r' p', status = .running r' p' → ∃ tr q, Prog.Leads (C.body r') tr q
      ∧ Accounted owner' (s.move v i status) t' i tr ∧ Stands M owner' t' i p' q)
    (hinside : ∀ ev ∈ v.history, ev ∈ s.view.history
      ∨ ∀ n r op a, ev.Did (.inner n r op) a → ev.task = owner' n) :
    Attends C owner' (s.move v i status) t' := by
  refine ⟨hview, hfresh, fun j r' p' hj => ?_, fun ev hev n r op a hdid => ?_⟩
  · by_cases hji : j = i
    · subst hji
      rw [State.move_self] at hj
      exact hself r' p' hj
    · rw [s.move_of_ne _ hji] at hj
      obtain ⟨tr, q, hleads, hacc, hstands⟩ := h.tasks j r' p' hj
      refine ⟨tr, q, hleads, hacc.mono hhistory fun n r res hret =>
        ⟨hreturned n r res hret, howner n hret.submitted.not_idle⟩, ?_⟩
      cases hstands with
      | between q => exact .between q
      | within n k hn htask =>
        have hrunning : t.tasks n ≠ .idle := by
          rw [htask]
          nofun
        exact .within n k ((howner n hrunning).trans hn)
          ((hkept n hrunning (by rw [hn]; exact hji)).trans htask)
  · rcases hinside ev hev with hold | hnew
    · -- the call it was performed in had been entered
      have hsubmitted : t.Submitted n r := by
        obtain ⟨past, hpast⟩ := happened_of_mem hold
        have hevent := (View.happened_service hpast hdid).mem
        rw [← h.view] at hevent
        exact ht.submitted _ hevent
      exact (h.inside ev hold n r op a hdid).trans (howner n hsubmitted.not_idle).symm
    · exact hnew n r op a hdid

/-- A move that is none of a call's business: the machine that is called has seen nothing, and its
state may stay as it is. -/
theorem Attends.elsewhere (h : Attends C owner s t) (ht : Reachable M t) {i : ℕ}
    {v : View Req' (InlinedOp Req Op X) (InlinedOp.Answer Ans Y) (CallWorld W V)}
    {status : Status Req' (InlinedOp Req Op X) (InlinedOp.Answer Ans Y) Res'}
    (hservice : v.service = s.view.service) (hnext : v.world.next = s.view.world.next)
    (hhistory : ∀ ev ∈ s.view.history, ev ∈ v.history)
    (hself : ∀ r' p', status = .running r' p' → ∃ tr q, Prog.Leads (C.body r') tr q
      ∧ Accounted owner (s.move v i status) t i tr ∧ Stands M owner t i p' q)
    (hinside : ∀ ev ∈ v.history, ev ∈ s.view.history
      ∨ ∀ n r op a, ev.Did (.inner n r op) a → ev.task = owner n) :
    Attends C owner (s.move v i status) t :=
  h.move ht (h.view.trans hservice.symm) (fun n hn => h.fresh n (hnext ▸ hn)) hhistory
    (fun _ _ => rfl) (fun _ _ _ => rfl) (fun _ _ _ hret => hret) hself hinside

/-- A new task stands at the beginning of its program and has made no call yet. -/
theorem Attends.spawn (h : Attends C owner s t) (ht : Reachable M t) (i : ℕ) (r' : Req') :
    Attends C owner (s.move s.view i (.running r' ((callers C).body r'))) t := by
  refine h.elsewhere ht rfl rfl (fun _ hev => hev) ?_ fun _ hev => .inl hev
  intro r'' p' hrunning
  obtain ⟨rfl, rfl⟩ := Status.running.inj hrunning
  exact ⟨[], _, .refl _, ⟨by simp, by simp⟩, .between _⟩

/-- An operation of the program's own is added to what accounts for it; the machine that is called
does not notice. -/
theorem Attends.act_own (h : Attends C owner s t) (ht : Reachable M t) {i : ℕ} {r' : Req'} {x : X}
    {k : Y x → CallerProg Req Res Y Res'} {tr : List (Σ op : CallerOp Req X, op.Answer Res Y)}
    (hleads : Prog.Leads (C.body r') tr (.call (.own x) k)) (hacc : Accounted owner s t i tr)
    (a : Y x) {w : CallWorld W V} (hx : C.performs i s.view (.own x) a w) :
    Attends C owner (s.move (s.view.after ⟨i, r', .own x, a, s.view.world, w⟩) i
      (.running r' (inlined M.body (k a)))) t := by
  obtain ⟨-, hservice, hnext⟩ := hx
  have hhistory : ∀ ev ∈ s.view.history,
      ev ∈ (s.view.after ⟨i, r', .own x, a, s.view.world, w⟩).history :=
    fun _ hev => List.mem_cons_of_mem _ hev
  refine h.elsewhere ht (View.service_after_own a hservice) hnext hhistory ?_ ?_
  · intro r'' p' hrunning
    obtain ⟨rfl, rfl⟩ := Status.running.inj hrunning
    refine ⟨_, _, hleads.snoc a, Accounted.own ?_ List.mem_cons_self rfl rfl, .between _⟩
    exact hacc.mono hhistory fun _ _ _ hret => ⟨hret, rfl⟩
  · intro ev hev
    rcases List.mem_cons.mp hev with rfl | hold
    · exact .inr fun n r op a' hdid => nomatch hdid
    · exact .inl hold

/-- A call is entered: under a ticket nobody has had, a task is started in the machine that is
called, and the caller owns it. -/
theorem Attends.act_enter (h : Attends C owner s t) (ht : Reachable M t) {i : ℕ} {r' : Req'} {r : Req}
    {k : Res → CallerProg Req Res Y Res'} {tr : List (Σ op : CallerOp Req X, op.Answer Res Y)}
    (hleads : Prog.Leads (C.body r') tr (.call (.invoke r) k)) (hacc : Accounted owner s t i tr)
    {n : ℕ} {w : CallWorld W V} (hx : C.performs i s.view (.enter r) n w) :
    Step M t (t.move t.view n (.running r (M.body r)))
      ∧ Attends C (Function.update owner n i)
        (s.move (s.view.after ⟨i, r', .enter r, n, s.view.world, w⟩) i
          (.running r' ((M.body r).rename (.inner n r) >>= fun res => inlined M.body (k res))))
        (t.move t.view n (.running r (M.body r))) := by
  obtain ⟨rfl, rfl⟩ := hx
  have hidle : t.tasks s.view.world.next = .idle := h.fresh _ (Nat.le_refl _)
  -- the ticket is nobody's yet
  have hother : ∀ {m}, t.tasks m ≠ .idle → m ≠ s.view.world.next := by
    rintro m hm rfl
    exact hm hidle
  have howner : ∀ m, t.tasks m ≠ .idle → Function.update owner s.view.world.next i m = owner m :=
    fun m hm => Function.update_of_ne (hother hm) _ _
  have hreturned : ∀ m r₁ res, t.Returned m r₁ res →
      (t.move t.view s.view.world.next (.running r (M.body r))).Returned m r₁ res :=
    fun m r₁ res hret => (t.move_of_ne _ (hother hret.submitted.not_idle) _).trans hret
  refine ⟨.spawn _ r hidle, h.move ht h.view ?_ (fun _ hev => List.mem_cons_of_mem _ hev) howner
    (fun m hm _ => t.move_of_ne _ (hother hm) _) hreturned ?_ ?_⟩
  · intro m hm
    have hm' : s.view.world.next + 1 ≤ m := hm
    rw [t.move_of_ne _ (by omega)]
    exact h.fresh m (by omega)
  · intro r'' p' hrunning
    obtain ⟨rfl, rfl⟩ := Status.running.inj hrunning
    refine ⟨tr, _, hleads, hacc.mono (fun _ hev => List.mem_cons_of_mem _ hev) ?_,
      .within _ k (Function.update_self _ _ _) (t.move_self _ _ _)⟩
    exact fun m r₁ res hret => ⟨hreturned m r₁ res hret, howner m hret.submitted.not_idle⟩
  · intro ev hev
    rcases List.mem_cons.mp hev with rfl | hold
    · exact .inr fun n r op a hdid => nomatch hdid
    · exact .inl hold

/-- An operation of a call, or its being dropped there: a move of the call's task, and of no other
task of the machine that is called. -/
theorem Attends.within (h : Attends C owner s t) (ht : Reachable M t) {i n : ℕ} {r : Req}
    {p : Prog Op Ans Res} (hn : owner n = i) (htask : t.tasks n = .running r p)
    {v : View Req' (InlinedOp Req Op X) (InlinedOp.Answer Ans Y) (CallWorld W V)}
    {status : Status Req' (InlinedOp Req Op X) (InlinedOp.Answer Ans Y) Res'}
    {inner : Status Req Op Ans Res} (hp : ∀ res, p ≠ .ret res)
    (hnext : v.world.next = s.view.world.next) (hhistory : ∀ ev ∈ s.view.history, ev ∈ v.history)
    (hself : ∀ r' p', status = .running r' p' → ∃ tr q, Prog.Leads (C.body r') tr q
      ∧ Accounted owner s t i tr ∧ Stands M owner (t.move v.service n inner) i p' q)
    (hinside : ∀ ev ∈ v.history, ev ∈ s.view.history
      ∨ ∀ m r op a, ev.Did (.inner m r op) a → ev.task = owner m) :
    Attends C owner (s.move v i status) (t.move v.service n inner) := by
  have hreturned : ∀ m r₁ res, t.Returned m r₁ res →
      (t.move v.service n inner).Returned m r₁ res := by
    intro m r₁ res hret
    have hmn : m ≠ n := by
      rintro rfl
      exact hp res (Status.running.inj (htask.symm.trans hret)).2
    exact (t.move_of_ne _ hmn _).trans hret
  refine h.move ht rfl ?_ hhistory (fun _ _ => rfl) ?_ hreturned ?_ hinside
  · intro m hm
    have hidle := h.fresh m (hnext ▸ hm)
    have hmn : m ≠ n := by
      rintro rfl
      cases htask.symm.trans hidle
    exact (t.move_of_ne _ hmn _).trans hidle
  · intro m _ hm
    have hmn : m ≠ n := by
      rintro rfl
      exact hm hn
    exact t.move_of_ne _ hmn _
  · intro r' p' hrunning
    obtain ⟨tr, q, hleads, hacc, hstands⟩ := hself r' p' hrunning
    exact ⟨tr, q, hleads, hacc.mono hhistory fun m r₁ res hret =>
      ⟨hreturned m r₁ res hret, rfl⟩, hstands⟩

/-- The world moves by itself, and no task does: calls stand where they stood, if the service is
seen as it is now. -/
theorem Attends.withWorld (h : Attends C owner s t) {w : CallWorld W V}
    (hnext : w.next = s.view.world.next) {t' : State Req Op Ans W Res}
    (hview : t'.view = (s.view.withWorld w).service) (htasks : t'.tasks = t.tasks) :
    Attends C owner ⟨s.view.withWorld w, s.tasks⟩ t' := by
  obtain ⟨view', tasks'⟩ := t'
  cases htasks
  refine ⟨hview, fun n hn => h.fresh n (hnext ▸ hn), fun i r' p' hi => ?_, h.inside⟩
  obtain ⟨tr, q, hleads, hacc, hstands⟩ := h.tasks i r' p' hi
  refine ⟨tr, q, hleads, hacc.mono (fun _ hev => hev) fun _ _ _ hret => ⟨hret, rfl⟩, ?_⟩
  cases hstands with
  | between q => exact .between q
  | within n k howner htask => exact .within n k howner htask

/-- **One step of the callers is at most one of the machine they call.** Case split on the step and
on where the task stands. -/
theorem Attends.step (h : Attends C owner s t) (ht : Reachable M t) (hs : Step (callers C) s s') :
    ∃ owner' t', Reachable M t' ∧ Attends C owner' s' t' := by
  cases hs with
  | spawn i r' hi => exact ⟨owner, t, ht, h.spawn ht i r'⟩
  | @act i r' op next hi a w hx =>
    rcases h.stands hi with ⟨tr, q, hleads, hacc, hq⟩
      | ⟨tr, n, r, op', next', k, hleads, hacc, howner, htask, hq⟩
    · -- between its calls
      cases q with
      | ret b => cases hq
      | call op' k =>
        cases op' with
        | own x =>
          cases hq
          exact ⟨owner, t, ht, h.act_own ht hleads hacc a hx⟩
        | invoke r =>
          cases hq
          obtain ⟨hstep, hattends⟩ := h.act_enter ht hleads hacc hx
          exact ⟨_, _, ht.step hstep, hattends⟩
    · cases hq
      obtain ⟨hexec, hnext, -⟩ := hx
      refine ⟨owner, _, ht.step (.act n htask a w.service (h.view ▸ hexec)), ?_⟩
      rw [h.view]
      refine h.within ht howner htask (fun _ hret => nomatch hret) hnext
        (fun _ hev => List.mem_cons_of_mem _ hev) ?_ ?_
      · intro r'' p' hrunning
        obtain ⟨rfl, rfl⟩ := Status.running.inj hrunning
        exact ⟨tr, _, hleads, hacc, .within n k howner (t.move_self _ _ _)⟩
      · intro ev hev
        rcases List.mem_cons.mp hev with rfl | hold
        · refine .inr fun m r₁ op₁ a₁ hdid => ?_
          cases hdid
          exact howner.symm
        · exact .inl hold
  | @abandon i r' op next hi w hx =>
    rcases h.stands hi with ⟨tr, q, hleads, hacc, hq⟩
      | ⟨tr, n, r, op', next', k, hleads, hacc, howner, htask, hq⟩
    · cases q with
      | ret b => cases hq
      | call op' k =>
        cases op' with
        | own x =>
          cases hq
          obtain ⟨-, hservice, hnext⟩ := hx
          exact ⟨owner, t, ht, h.elsewhere ht (congrArg (View.mk · _) hservice) hnext
            (fun _ hev => hev) (fun _ _ hrunning => nomatch hrunning) fun _ hev => .inl hev⟩
        | invoke r =>
          cases hq
          cases hx
          exact ⟨owner, t, ht, h.elsewhere ht rfl rfl (fun _ hev => hev)
            (fun _ _ hrunning => nomatch hrunning) fun _ hev => .inl hev⟩
    · cases hq
      obtain ⟨habandon, hnext, -⟩ := hx
      refine ⟨owner, _, ht.step (.abandon n htask w.service (h.view ▸ habandon)), ?_⟩
      rw [h.view]
      exact h.within ht howner htask (fun _ hret => nomatch hret) hnext (fun _ hev => hev)
        (fun _ _ hrunning => nomatch hrunning) fun _ hev => .inl hev
  | env w hx =>
    obtain ⟨henv, hnext⟩ := hx
    rcases C.env_service _ _ _ _ henv with hmoved | hkept
    · have hworld : M.env t.view.world w.service := by
        rw [h.view]
        exact hmoved
      exact ⟨owner, _, ht.step (.env w.service hworld), h.withWorld hnext (by rw [h.view]; rfl) rfl⟩
    · refine ⟨owner, t, ht, h.withWorld hnext ?_ rfl⟩
      rw [h.view]
      exact congrArg (View.mk · _) hkept.symm

/-- **Seen from the machine that is called, every run of callers is a run of it.** Whatever that
machine's runs are known to satisfy therefore holds behind any number of callers. Induction on the
run. -/
theorem Reachable.attended (hs : Reachable (callers C) s) :
    ∃ owner t, Reachable M t ∧ Attends C owner s t := by
  induction hs with
  | init w hw =>
    refine ⟨fun _ => 0, _, .init w.service hw.1, rfl, fun _ _ => rfl, ?_, by simp⟩
    intro i r' p' hi
    cases hi
  | step _ hstep ih =>
    obtain ⟨owner, t, ht, hattends⟩ := ih
    exact hattends.step ht hstep

/-! ## A call on its own

The way back, for exhibiting runs: what the called machine can do in one call, the caller can do in
its place. -/

section Alone

variable {u : View Req' (InlinedOp Req Op X) (InlinedOp.Answer Ans Y) (CallWorld W V)} {n : ℕ} {r : Req}

/-- What a call can do alone, its caller can do alone, from the same view of the machine that is
called and without touching anything else. Induction on what the call does. -/
theorem Alone.called {v v' : View Req Op Ans W} {p p' : Prog Op Ans Res} (h : Alone M n r v p v' p')
    (i : ℕ) (r' : Req')
    (henv : ∀ w w' rest, M.env w w' → C.env w rest w' rest)
    (k : Res → InlinedProg Req Ans Y Res') (hu : u.service = v) :
    ∃ u', u'.service = v' ∧ u'.world.next = u.world.next ∧ u'.world.rest = u.world.rest
      ∧ Alone (callers C) i r' u (p.rename (.inner n r) >>= k) u' (p'.rename (.inner n r) >>= k) := by
  induction h generalizing u with
  | refl v p => exact ⟨u, hu, rfl, rfl, .refl _ _⟩
  | @act v v' op next p' a w hx _ ih =>
    subst hu
    let w' : CallWorld W V := { u.world with service := w }
    obtain ⟨u', hservice, hnext, hrest, halone⟩ :=
      ih (u := u.after ⟨i, r', .inner n r op, a, u.world, w'⟩) rfl
    exact ⟨u', hservice, hnext, hrest, .act a w' ⟨hx, rfl, rfl⟩ halone⟩
  | @env v v' p p' w hx _ ih =>
    subst hu
    let w' : CallWorld W V := { u.world with service := w }
    obtain ⟨u', hservice, hnext, hrest, halone⟩ := ih (u := u.withWorld w') rfl
    exact ⟨u', hservice, hnext, hrest, .env w' ⟨henv _ _ _ hx, rfl⟩ halone⟩

/-- **A call that can be made alone can be made by a program alone**, under the next ticket: it is
entered, its operations are performed, and its result is handed on. -/
theorem Alone.invoke {v' : View Req Op Ans W} {res : Res}
    (h : Alone M u.world.next r u.service (M.body r) v' (.ret res)) (i : ℕ) (r' : Req')
    (henv : ∀ w w' rest, M.env w w' → C.env w rest w' rest)
    (k : Res → CallerProg Req Res Y Res') :
    ∃ u', u'.service = v' ∧ u'.world.next = u.world.next + 1 ∧ u'.world.rest = u.world.rest
      ∧ Alone (callers C) i r' u (inlined M.body (.call (.invoke r) k)) u' (inlined M.body (k res)) := by
  let w : CallWorld W V := { u.world with next := u.world.next + 1 }
  obtain ⟨u', hservice, hnext, hrest, halone⟩ := h.called i r' henv
    (fun res => inlined M.body (k res))
    (u := u.after ⟨i, r', .enter r, u.world.next, u.world, w⟩) rfl
  exact ⟨u', hservice, hnext, hrest, .act _ w ⟨rfl, rfl⟩ halone⟩

end Alone

end AuthnKit.Interleave
