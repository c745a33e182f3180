import AuthnKit.Foundation.Prog

/-!
# AuthnKit — interleaved execution and the interference rule

Any number of programs run over one shared world. A step lets one of them perform its next
operation, starts a new one, abandons one in the middle (a dropped future, a panic), or lets
the world change on its own (time passing). The machine is a parameter: `body` is the program
of a request, `exec` what an operation does.

* **`View`** — what an assertion may speak about: the world and the `history` of every
  operation performed so far, newest first.
* **`Reachable.follows`** — what a task has performed is a path of its program.
* **`Contract`** — an invariant of the view, what each task may rely on while others move,
  and what it promises about the operations it performs and the result it returns.
* **`Sound`** — one task keeps its side of a contract from a given view on, whatever the
  others do. It is defined by recursion on the program, so it is proved by walking through it.
* **`Reachable.sound`** — the rule: if every body is sound for a valid contract, then in every
  reachable state the invariant holds and every running task is still sound.
-/

namespace AuthnKit.Interleave

variable {Req Op : Type} {Ans : Op → Type} {W Res α β : Type}

/-- One operation as it was performed: by which task and request, what it answered, and the
world before and after. -/
structure Event (Req Op : Type) (Ans : Op → Type) (W : Type) where
  task : ℕ
  req : Req
  op : Op
  ans : Ans op
  pre : W
  post : W

/-- The event performed `op` and was answered `a`. -/
def Event.Did (e : Event Req Op Ans W) (op : Op) (a : Ans op) : Prop :=
  (⟨e.op, e.ans⟩ : Σ op, Ans op) = ⟨op, a⟩

/-- `e` is in the history, and `past` is what had happened before it. -/
def Happened (history : List (Event Req Op Ans W)) (e : Event Req Op Ans W)
    (past : List (Event Req Op Ans W)) : Prop :=
  ∃ later, history = later ++ e :: past

theorem Happened.mem {history past : List (Event Req Op Ans W)} {e : Event Req Op Ans W}
    (h : Happened history e past) : e ∈ history := by
  obtain ⟨later, rfl⟩ := h
  exact List.mem_append_right later List.mem_cons_self

/-- What happened before an event of a history is in that history as well. -/
theorem Happened.past_mem {history past : List (Event Req Op Ans W)} {e e' : Event Req Op Ans W}
    (h : Happened history e past) (he' : e' ∈ past) : e' ∈ history := by
  obtain ⟨later, rfl⟩ := h
  exact List.mem_append_right later (List.mem_cons_of_mem e he')

/-- An event keeps its past whatever happens later: histories grow at the front, and the past of an
event is the part behind it. -/
theorem Happened.append {history past : List (Event Req Op Ans W)} {e : Event Req Op Ans W}
    (h : Happened history e past) (l : List (Event Req Op Ans W)) :
    Happened (l ++ history) e past := by
  obtain ⟨later, rfl⟩ := h
  exact ⟨l ++ later, by rw [List.append_assoc]⟩

/-- The past of an event in the past of another is its past in the whole history. -/
theorem Happened.trans {history past past' : List (Event Req Op Ans W)} {e e' : Event Req Op Ans W}
    (h : Happened history e past) (h' : Happened past e' past') : Happened history e' past' := by
  obtain ⟨later, rfl⟩ := h
  exact (h'.append [e]).append later

/-- Every event of a history happened in it, after some past: the list is cut at one of its
occurrences. -/
theorem happened_of_mem {history : List (Event Req Op Ans W)} {e : Event Req Op Ans W}
    (h : e ∈ history) : ∃ past, Happened history e past := by
  obtain ⟨later, past, rfl⟩ := List.append_of_mem h
  exact ⟨past, later, rfl⟩

/-- What is in the later part of a history happened after all of the earlier part, so the earlier
part closes the event's own past. -/
theorem happened_of_mem_later {later : List (Event Req Op Ans W)} {e : Event Req Op Ans W}
    (h : e ∈ later) (earlier : List (Event Req Op Ans W)) : ∃ past, Happened (later ++ earlier) e (past ++ earlier) := by
  obtain ⟨past, l, rfl⟩ := happened_of_mem h
  exact ⟨past, l, by simp⟩

/-- Of two different events of a history, one happened after the other, and the other is in its
past. Events are compared by their place, so no clock is needed. -/
theorem happened_total {history : List (Event Req Op Ans W)} {e e' : Event Req Op Ans W}
    (he : e ∈ history) (he' : e' ∈ history) (hne : e' ≠ e) :
    (∃ past, Happened history e past ∧ e' ∈ past)
      ∨ ∃ past, Happened history e' past ∧ e ∈ past := by
  obtain ⟨past, later, rfl⟩ := happened_of_mem he
  rcases List.mem_append.mp he' with hlater | hpast
  · obtain ⟨past', hhappened⟩ := happened_of_mem_later hlater (e :: past)
    exact .inr ⟨_, hhappened, List.mem_append_right past' List.mem_cons_self⟩
  · have hmem : e' ∈ past := (List.mem_cons.mp hpast).resolve_left hne
    exact .inl ⟨past, ⟨later, rfl⟩, hmem⟩

/-- The newest event has the rest of the history as its past; every other event has the past it had.
-/
theorem happened_cons_iff {history past : List (Event Req Op Ans W)} {e e' : Event Req Op Ans W} :
    Happened (e' :: history) e past ↔ e = e' ∧ past = history ∨ Happened history e past := by
  constructor
  · rintro ⟨later, h⟩
    cases later with
    | nil =>
      obtain ⟨rfl, rfl⟩ := List.cons.inj h
      exact .inl ⟨rfl, rfl⟩
    | cons x later => exact .inr ⟨later, (List.cons.inj h).2⟩
  · rintro (⟨rfl, rfl⟩ | h)
    · exact ⟨[], rfl⟩
    · exact h.append [e']

/-- The shared part of a state: the world, and every event so far, newest first. -/
structure View (Req Op : Type) (Ans : Op → Type) (W : Type) where
  world : W
  history : List (Event Req Op Ans W)

namespace View

/-- The view once `e` has happened. -/
def after (v : View Req Op Ans W) (e : Event Req Op Ans W) : View Req Op Ans W :=
  ⟨e.post, e :: v.history⟩

/-- The view with another world and no new event. -/
def withWorld (v : View Req Op Ans W) (w : W) : View Req Op Ans W := ⟨w, v.history⟩

@[simp] theorem after_world (v : View Req Op Ans W) (e : Event Req Op Ans W) :
    (v.after e).world = e.post := rfl

@[simp] theorem after_history (v : View Req Op Ans W) (e : Event Req Op Ans W) :
    (v.after e).history = e :: v.history := rfl

@[simp] theorem withWorld_world (v : View Req Op Ans W) (w : W) : (v.withWorld w).world = w := rfl

@[simp] theorem withWorld_history (v : View Req Op Ans W) (w : W) :
    (v.withWorld w).history = v.history := rfl

/-- Between `v` and `v'` only tasks other than `i` have performed operations. -/
def Others (i : ℕ) (v v' : View Req Op Ans W) : Prop :=
  ∃ l, v'.history = l ++ v.history ∧ ∀ e ∈ l, e.task ≠ i

theorem Others.refl (i : ℕ) (v : View Req Op Ans W) : Others i v v := ⟨[], rfl, by simp⟩

/-- What the others did in two stretches of a run they did in both of them together. -/
theorem Others.trans {i : ℕ} {v₁ v₂ v₃ : View Req Op Ans W} (h₁ : Others i v₁ v₂)
    (h₂ : Others i v₂ v₃) : Others i v₁ v₃ := by
  obtain ⟨l₁, hl₁, hn₁⟩ := h₁
  obtain ⟨l₂, hl₂, hn₂⟩ := h₂
  refine ⟨l₂ ++ l₁, by rw [hl₂, hl₁, List.append_assoc], ?_⟩
  intro e he
  rcases List.mem_append.mp he with h | h
  · exact hn₂ e h
  · exact hn₁ e h

/-- History is never forgotten: an event from before the others moved is still there after it. -/
theorem Others.mem {i : ℕ} {v v' : View Req Op Ans W} (h : Others i v v')
    {e : Event Req Op Ans W} (he : e ∈ v.history) : e ∈ v'.history := by
  obtain ⟨l, hl, _⟩ := h
  rw [hl]
  exact List.mem_append_right l he

/-- The task's own events are the ones it already had, since all that has been added is somebody
else's. -/
theorem Others.own {i : ℕ} {v v' : View Req Op Ans W} (h : Others i v v')
    {e : Event Req Op Ans W} (he : e ∈ v'.history) (hi : e.task = i) : e ∈ v.history := by
  obtain ⟨l, hl, hn⟩ := h
  rw [hl] at he
  rcases List.mem_append.mp he with h' | h'
  · exact absurd hi (hn e h')
  · exact h'

end View

/-- What runs: the program of each request, and the meaning of the operations. -/
structure Machine (Req Op : Type) (Ans : Op → Type) (W Res : Type) where
  body : Req → Prog Op Ans Res
  init : W → Prop
  /-- Task `i` performs the operation on this view, is answered, and leaves a world. -/
  exec : ℕ → View Req Op Ans W → (op : Op) → Ans op → W → Prop
  /-- Task `i` ends at the operation without an answer, leaving a world. -/
  abandon : ℕ → View Req Op Ans W → Op → W → Prop
  /-- The world changes without any task moving. -/
  env : W → W → Prop

inductive Status (Req Op : Type) (Ans : Op → Type) (Res : Type) where
  | idle
  | running (r : Req) (p : Prog Op Ans Res)
  | abandoned (r : Req)

structure State (Req Op : Type) (Ans : Op → Type) (W Res : Type) where
  view : View Req Op Ans W
  tasks : ℕ → Status Req Op Ans Res

/-- The state once task `i` has moved: the new view, and its new status. -/
def State.move (s : State Req Op Ans W Res) (v : View Req Op Ans W) (i : ℕ)
    (t : Status Req Op Ans Res) : State Req Op Ans W Res :=
  ⟨v, Function.update s.tasks i t⟩

@[simp] theorem State.move_view (s : State Req Op Ans W Res) (v : View Req Op Ans W) (i : ℕ)
    (t : Status Req Op Ans Res) : (s.move v i t).view = v := rfl

@[simp] theorem State.move_self (s : State Req Op Ans W Res) (v : View Req Op Ans W) (i : ℕ)
    (t : Status Req Op Ans Res) : (s.move v i t).tasks i = t := by
  simp [State.move]

theorem State.move_of_ne (s : State Req Op Ans W Res) (v : View Req Op Ans W) {i j : ℕ}
    (h : j ≠ i) (t : Status Req Op Ans Res) : (s.move v i t).tasks j = s.tasks j := by
  simp [State.move, h]

variable {M : Machine Req Op Ans W Res}

/-- One step of the interleaving. Task identifiers are never reused. -/
inductive Step (M : Machine Req Op Ans W Res) :
    State Req Op Ans W Res → State Req Op Ans W Res → Prop where
  | spawn {s : State Req Op Ans W Res} (i : ℕ) (r : Req) (hi : s.tasks i = .idle) :
      Step M s (s.move s.view i (.running r (M.body r)))
  | act {s : State Req Op Ans W Res} (i : ℕ) {r : Req} {op : Op}
      {k : Ans op → Prog Op Ans Res} (hi : s.tasks i = .running r (.call op k))
      (a : Ans op) (w : W) (hx : M.exec i s.view op a w) :
      Step M s (s.move (s.view.after ⟨i, r, op, a, s.view.world, w⟩) i (.running r (k a)))
  | abandon {s : State Req Op Ans W Res} (i : ℕ) {r : Req} {op : Op}
      {k : Ans op → Prog Op Ans Res} (hi : s.tasks i = .running r (.call op k))
      (w : W) (hx : M.abandon i s.view op w) :
      Step M s (s.move (s.view.withWorld w) i (.abandoned r))
  | env {s : State Req Op Ans W Res} (w : W) (hx : M.env s.view.world w) :
      Step M s ⟨s.view.withWorld w, s.tasks⟩

/-- The states of all runs, from any initial world and with no task started. -/
inductive Reachable (M : Machine Req Op Ans W Res) : State Req Op Ans W Res → Prop where
  | init (w : W) (hw : M.init w) : Reachable M ⟨⟨w, []⟩, fun _ => .idle⟩
  | step {s s' : State Req Op Ans W Res} (h : Reachable M s) (hs : Step M s s') : Reachable M s'

/-- Request `r` was submitted as task `i`. -/
def State.Submitted (s : State Req Op Ans W Res) (i : ℕ) (r : Req) : Prop :=
  (∃ p, s.tasks i = .running r p) ∨ s.tasks i = .abandoned r

/-- A task works for one request, whatever has become of it. -/
theorem State.Submitted.unique {s : State Req Op Ans W Res} {i : ℕ} {r r' : Req}
    (h : s.Submitted i r) (h' : s.Submitted i r') : r = r' := by
  rcases h with ⟨p, hp⟩ | hp
  · rcases h' with ⟨q, hq⟩ | hq
    · exact (Status.running.inj (hp.symm.trans hq)).1
    · cases hp.symm.trans hq
  · rcases h' with ⟨q, hq⟩ | hq
    · cases hp.symm.trans hq
    · exact Status.abandoned.inj (hp.symm.trans hq)

/-- A task that works for a request, or has done so, is not idle any more, which is what keeps task
identifiers from being used again. -/
theorem State.Submitted.not_idle {s : State Req Op Ans W Res} {i : ℕ} {r : Req}
    (h : s.Submitted i r) : s.tasks i ≠ .idle := by
  intro hidle
  rcases h with ⟨p, hp⟩ | hp
  · cases hidle.symm.trans hp
  · cases hidle.symm.trans hp

/-- Task `i`, working for request `r`, has returned `a`. -/
def State.Returned (s : State Req Op Ans W Res) (i : ℕ) (r : Req) (a : Res) : Prop :=
  s.tasks i = .running r (.ret a)

/-- A task that has returned was submitted, for the same request. -/
theorem State.Returned.submitted {s : State Req Op Ans W Res} {i : ℕ} {r : Req} {a : Res}
    (h : s.Returned i r a) : s.Submitted i r := .inl ⟨_, h⟩

/-! ## What one task has done

A history has the events of all tasks. Restricted to one of them it is that task's trace, and this
trace is always a path of the task's program, however the tasks were interleaved. -/

/-- What task `i` has performed and was answered, oldest first. -/
def View.trace (i : ℕ) (v : View Req Op Ans W) : List (Σ op, Ans op) :=
  ((v.history.filter fun e => e.task = i).map fun e => ⟨e.op, e.ans⟩).reverse

/-- What a task has done are its own events in the history, and nothing else. -/
theorem View.mem_trace {i : ℕ} {v : View Req Op Ans W} {op : Op} {a : Ans op} :
    ⟨op, a⟩ ∈ v.trace i ↔ ∃ e ∈ v.history, e.task = i ∧ e.Did op a := by
  simp [trace, Event.Did, and_assoc]

/-- An operation of the task is added at the end of its trace. -/
@[simp] theorem View.trace_after_self (v : View Req Op Ans W) (i : ℕ) (r : Req) (op : Op)
    (a : Ans op) (w w' : W) :
    (v.after ⟨i, r, op, a, w, w'⟩).trace i = v.trace i ++ [⟨op, a⟩] := by
  simp [trace]

/-- An operation of another task leaves the trace as it was. -/
theorem View.trace_after_of_ne (v : View Req Op Ans W) {i j : ℕ} (h : j ≠ i) (r : Req) (op : Op)
    (a : Ans op) (w w' : W) : (v.after ⟨j, r, op, a, w, w'⟩).trace i = v.trace i := by
  simp [trace, h]

/-- Around one of its events, what a task had done before and has done since: the trace has the
event in the middle, as the history does. -/
theorem View.trace_split {i : ℕ} {v : View Req Op Ans W} {e : Event Req Op Ans W}
    {past : List (Event Req Op Ans W)} (h : Happened v.history e past) (hi : e.task = i) :
    ∃ later, v.history = later ++ e :: past
      ∧ v.trace i = (⟨v.world, past⟩ : View Req Op Ans W).trace i
          ++ ⟨e.op, e.ans⟩ :: (⟨v.world, later⟩ : View Req Op Ans W).trace i := by
  obtain ⟨later, hlater⟩ := h
  refine ⟨later, hlater, ?_⟩
  unfold trace
  rw [hlater]
  simp [hi]

/-- **The event behind a position of a trace**, and what the task had done before it: by induction
on the history, the part of the trace before that position is the trace in the event's past. -/
theorem View.event_of_trace {i : ℕ} {v : View Req Op Ans W} {before after : List (Σ op, Ans op)}
    {op : Op} {a : Ans op} (h : v.trace i = before ++ ⟨op, a⟩ :: after) :
    ∃ e past, Happened v.history e past ∧ e.task = i ∧ e.Did op a
      ∧ ∀ w, (⟨w, past⟩ : View Req Op Ans W).trace i = before := by
  obtain ⟨world, history⟩ := v
  induction history generalizing after with
  | nil => exact absurd h (by simp [trace])
  | cons e past ih =>
    -- the newest event is the task's last, or of another task
    by_cases hi : e.task = i
    · have hsnoc : (⟨world, e :: past⟩ : View Req Op Ans W).trace i
          = (⟨world, past⟩ : View Req Op Ans W).trace i ++ [⟨e.op, e.ans⟩] := by
        simp [trace, hi]
      rw [hsnoc] at h
      rcases List.eq_nil_or_concat after with rfl | ⟨after', x, rfl⟩
      · obtain ⟨hbefore, hlast⟩ := List.append_inj' h rfl
        exact ⟨e, past, ⟨[], rfl⟩, hi, (List.cons.inj hlast).1, fun w => hbefore⟩
      · rw [List.concat_eq_append, ← List.cons_append, ← List.append_assoc] at h
        obtain ⟨e', past', hhappened, hrest⟩ := ih (List.append_inj' h rfl).1
        exact ⟨e', past', hhappened.append [e], hrest⟩
    · have hskip : (⟨world, e :: past⟩ : View Req Op Ans W).trace i
          = (⟨world, past⟩ : View Req Op Ans W).trace i := by
        simp [trace, hi]
      rw [hskip] at h
      obtain ⟨e', past', hhappened, hrest⟩ := ih h
      exact ⟨e', past', hhappened.append [e], hrest⟩

/-- What a task has done is a path of the program it was started with. -/
def State.Follows (M : Machine Req Op Ans W Res) (s : State Req Op Ans W Res) (i : ℕ) : Prop :=
  match s.tasks i with
  | .idle => s.view.trace i = []
  | .running r p => Prog.Leads (M.body r) (s.view.trace i) p
  | .abandoned r => ∃ p, Prog.Leads (M.body r) (s.view.trace i) p

/-- **Every task follows its program**, in every run: what it has performed is a path of the program
it was started with, to what is left of it. One step adds one operation to one task's path. -/
theorem Reachable.follows {s : State Req Op Ans W Res} (h : Reachable M s) (i : ℕ) :
    s.Follows M i := by
  induction h with
  | init w hw => rfl
  | @step s s' _ hs ih =>
    unfold State.Follows at ih ⊢
    cases hs with
    | spawn j r hj =>
      by_cases hij : i = j
      · subst hij
        rw [hj] at ih
        rw [State.move_self, State.move_view, show s.view.trace i = [] from ih]
        exact .refl _
      · rw [s.move_of_ne _ hij]
        exact ih
    | act j hj a w hx =>
      by_cases hij : i = j
      · subst hij
        rw [hj] at ih
        rw [State.move_self, State.move_view, View.trace_after_self]
        exact Prog.Leads.snoc ih a
      · rw [s.move_of_ne _ hij, State.move_view, View.trace_after_of_ne _ (Ne.symm hij)]
        exact ih
    | abandon j hj w hx =>
      by_cases hij : i = j
      · subst hij
        rw [hj] at ih
        rw [State.move_self]
        exact ⟨_, ih⟩
      · rw [s.move_of_ne _ hij]
        exact ih
    | env w hx => exact ih

/-- What a running request has done leads from its program to what is left of it. -/
theorem Reachable.leads_running {s : State Req Op Ans W Res} (h : Reachable M s) {i : ℕ} {r : Req}
    {p : Prog Op Ans Res} (hi : s.tasks i = .running r p) :
    Prog.Leads (M.body r) (s.view.trace i) p := by
  have hf := h.follows i
  unfold State.Follows at hf
  rwa [hi] at hf

/-- What a submitted request has done so far is a path of its program, also when it has been
abandoned in the middle. -/
theorem Reachable.leads {s : State Req Op Ans W Res} (h : Reachable M s) {i : ℕ} {r : Req}
    (hi : s.Submitted i r) : ∃ p, Prog.Leads (M.body r) (s.view.trace i) p := by
  rcases hi with ⟨p, hp⟩ | hp
  · exact ⟨p, h.leads_running hp⟩
  · have hf := h.follows i
    unfold State.Follows at hf
    rwa [hp] at hf

/-- What a finished request has done is a whole trace of its program, and what it returned is that
trace's result. A property of traces thereby becomes one of runs. -/
theorem Reachable.returns {s : State Req Op Ans W Res} (h : Reachable M s) {i : ℕ} {r : Req}
    {a : Res} (hi : s.Returned i r a) : Prog.Returns (M.body r) (s.view.trace i) a :=
  (h.leads_running hi).returns

/-- **The state in which an event happened**: the task was about to perform the operation, for the
request the event names, and the machine allowed the step. Induction on the run; the newest event is
that of the last step. -/
theorem Reachable.before {s : State Req Op Ans W Res} (h : Reachable M s) {e : Event Req Op Ans W}
    {past : List (Event Req Op Ans W)} (he : Happened s.view.history e past) :
    ∃ s' k, Reachable M s' ∧ s'.view = ⟨e.pre, past⟩ ∧ s'.tasks e.task = .running e.req (.call e.op k)
      ∧ M.exec e.task ⟨e.pre, past⟩ e.op e.ans e.post := by
  induction h with
  | init w hw =>
    obtain ⟨later, h⟩ := he
    exact absurd h (by simp)
  | step h hs ih =>
    cases hs with
    | spawn i r hi => exact ih he
    | abandon i hi w hx => exact ih he
    | env w hx => exact ih he
    | act i hi a w hx =>
      rcases happened_cons_iff.mp he with ⟨rfl, rfl⟩ | he'
      · exact ⟨_, _, h, rfl, hi, hx⟩
      · exact ih he'

/-- Every event of a run was a step of the machine, from the view it happened in to the world it
left. -/
theorem Reachable.exec_of_happened {s : State Req Op Ans W Res} (h : Reachable M s)
    {e : Event Req Op Ans W} {past : List (Event Req Op Ans W)}
    (he : Happened s.view.history e past) : M.exec e.task ⟨e.pre, past⟩ e.op e.ans e.post := by
  obtain ⟨s', k, -, -, -, hx⟩ := h.before he
  exact hx

/-- What a task had done before one of its events leads to a program that is about to perform that
operation. -/
theorem Reachable.leads_before {s : State Req Op Ans W Res} (h : Reachable M s)
    {e : Event Req Op Ans W} {past : List (Event Req Op Ans W)} (he : Happened s.view.history e past) :
    ∃ k, Prog.Leads (M.body e.req) ((⟨e.pre, past⟩ : View Req Op Ans W).trace e.task) (.call e.op k) := by
  obtain ⟨s', k, hs', hview, hi, -⟩ := h.before he
  have hleads := hs'.leads_running hi
  rw [hview] at hleads
  exact ⟨k, hleads⟩

/-- Every event is of a submitted request, and names the request its task was submitted for. -/
theorem Reachable.submitted {s : State Req Op Ans W Res} (h : Reachable M s) :
    ∀ e ∈ s.view.history, s.Submitted e.task e.req := by
  induction h with
  | init w hw => simp
  | @step s s' _ hs ih =>
    -- a task that moves keeps its request, and the others stay as they are
    have hmove : ∀ {i r v t}, s.Submitted i r →
        (t = .abandoned r ∨ ∃ p, t = .running r p) → ∀ e ∈ s.view.history,
        (s.move v i t).Submitted e.task e.req := by
      intro i r v t hi ht e he
      by_cases hei : e.task = i
      · have hreq : e.req = r := State.Submitted.unique (hei ▸ ih e he) hi
        rw [hei, hreq]
        rcases ht with rfl | ⟨p, rfl⟩
        · exact .inr (s.move_self v i _)
        · exact .inl ⟨p, s.move_self v i _⟩
      · unfold State.Submitted
        rw [s.move_of_ne _ hei]
        exact ih e he
    cases hs with
    | spawn i r hi =>
      intro e he
      have hne : e.task ≠ i := by
        intro heq
        rcases ih e he with ⟨p, hp⟩ | hp
        · rw [heq, hi] at hp; cases hp
        · rw [heq, hi] at hp; cases hp
      unfold State.Submitted
      rw [s.move_of_ne _ hne]
      exact ih e he
    | act i hi a w hx =>
      intro e he
      rcases List.mem_cons.mp he with rfl | hmem
      · exact .inl ⟨_, s.move_self _ i _⟩
      · exact hmove (.inl ⟨_, hi⟩) (.inr ⟨_, rfl⟩) e hmem
    | abandon i hi w hx => exact hmove (.inl ⟨_, hi⟩) (.inl rfl)
    | env w hx => exact ih

/-- **An answer that is always fresh belongs to one task.** If the machine never gives it when it
has been given before, two tasks that were given it are the same: of the two events the later one
would have found the earlier one in its past. -/
theorem Reachable.task_unique {s : State Req Op Ans W Res} (h : Reachable M s) {op : Op} {a : Ans op}
    (hfresh : ∀ i v w, M.exec i v op a w → ∀ e ∈ v.history, ¬ e.Did op a) {i j : ℕ}
    (hi : ⟨op, a⟩ ∈ s.view.trace i) (hj : ⟨op, a⟩ ∈ s.view.trace j) : j = i := by
  obtain ⟨e, he, hei, hdid⟩ := View.mem_trace.mp hi
  obtain ⟨e', he', hej, hdid'⟩ := View.mem_trace.mp hj
  have hnew : ∀ {ev : Event Req Op Ans W} {past}, Happened s.view.history ev past → ev.Did op a →
      ∀ ev' ∈ past, ¬ ev'.Did op a := by
    intro ev past hev hdid
    have hx := h.exec_of_happened hev
    obtain ⟨task, req, op', ans, pre, post⟩ := ev
    cases hdid
    exact hfresh _ _ _ hx
  by_cases hsame : e' = e
  · rw [← hej, ← hei, hsame]
  · rcases happened_total he he' hsame with ⟨past, hev, hmem⟩ | ⟨past, hev, hmem⟩
    · exact absurd hdid' (hnew hev hdid e' hmem)
    · exact absurd hdid (hnew hev hdid' e hmem)

/-! ## One task at a time

The runs in which nobody interferes: enough to exhibit a behaviour. -/

/-- Task `i`, working for `r`, goes from one view and program to another while only the world
moves besides it. -/
inductive Alone (M : Machine Req Op Ans W Res) (i : ℕ) (r : Req) :
    View Req Op Ans W → Prog Op Ans Res → View Req Op Ans W → Prog Op Ans Res → Prop where
  | refl (v : View Req Op Ans W) (p : Prog Op Ans Res) : Alone M i r v p v p
  | act {v v' : View Req Op Ans W} {op : Op} {k : Ans op → Prog Op Ans Res}
      {p' : Prog Op Ans Res} (a : Ans op) (w : W) (hx : M.exec i v op a w)
      (h : Alone M i r (v.after ⟨i, r, op, a, v.world, w⟩) (k a) v' p') :
      Alone M i r v (.call op k) v' p'
  | env {v v' : View Req Op Ans W} {p p' : Prog Op Ans Res} (w : W) (hx : M.env v.world w)
      (h : Alone M i r (v.withWorld w) p v' p') : Alone M i r v p v' p'

/-- What a task does alone is added to the history, and nothing of it is taken away. -/
theorem Alone.history {i : ℕ} {r : Req} {v v' : View Req Op Ans W} {p p' : Prog Op Ans Res}
    (h : Alone M i r v p v' p') : ∃ later, v'.history = later ++ v.history := by
  induction h with
  | refl v p => exact ⟨[], rfl⟩
  | act a w hx _ ih =>
    obtain ⟨later, hlater⟩ := ih
    exact ⟨later ++ [_], by rw [hlater, View.after_history, List.append_assoc]; rfl⟩
  | env w hx _ ih =>
    obtain ⟨later, hlater⟩ := ih
    exact ⟨later, hlater⟩

/-- **A task that can go on alone can do so from any reachable state it runs in**, and the other
tasks stay as they are. Induction on its steps, each of which is one of the machine. -/
theorem Reachable.alone {i : ℕ} {r : Req} {v v' : View Req Op Ans W} {p p' : Prog Op Ans Res}
    (ha : Alone M i r v p v' p') : ∀ {s : State Req Op Ans W Res}, Reachable M s → s.view = v →
      s.tasks i = .running r p →
      ∃ s', Reachable M s' ∧ s'.view = v' ∧ s'.tasks i = .running r p'
        ∧ ∀ j, j ≠ i → s'.tasks j = s.tasks j := by
  induction ha with
  | refl v p =>
    intro s h hv hi
    exact ⟨s, h, hv, hi, fun _ _ => rfl⟩
  | act a w hx _ ih =>
    intro s h hv hi
    subst hv
    obtain ⟨s', h', hv', hi', hframe⟩ := ih (h.step (.act i hi a w hx)) rfl (s.move_self _ i _)
    exact ⟨s', h', hv', hi', fun j hj => (hframe j hj).trans (s.move_of_ne _ hj _)⟩
  | env w hx _ ih =>
    intro s h hv hi
    subst hv
    have h₁ : Reachable M ⟨s.view.withWorld w, s.tasks⟩ := h.step (.env w hx)
    obtain ⟨s', h', hv', hi', hframe⟩ := ih h₁ rfl hi
    exact ⟨s', h', hv', hi', hframe⟩

/-- The operations of a trace, performed by task `i` one after the other. -/
inductive Plays (M : Machine Req Op Ans W Res) (i : ℕ) (r : Req) :
    View Req Op Ans W → List (Σ op, Ans op) → View Req Op Ans W → Prop where
  | nil (v : View Req Op Ans W) : Plays M i r v [] v
  | cons {v v' : View Req Op Ans W} {op : Op} {a : Ans op} {tr : List (Σ op, Ans op)} (w : W)
      (hx : M.exec i v op a w) (h : Plays M i r (v.after ⟨i, r, op, a, v.world, w⟩) tr v') :
      Plays M i r v (⟨op, a⟩ :: tr) v'

/-- A behaviour that can be performed is one a task can go through alone, from the program's
beginning to its result. -/
theorem Plays.alone {i : ℕ} {r : Req} {v v' : View Req Op Ans W} {p : Prog Op Ans Res}
    {tr : List (Σ op, Ans op)} {a : Res} (h : Plays M i r v tr v') (hret : Prog.Returns p tr a) :
    Alone M i r v p v' (.ret a) := by
  induction h generalizing p with
  | nil v =>
    cases hret with
    | ret a => exact .refl v _
  | cons w hx _ ih =>
    cases hret with
    | call hret => exact .act _ w hx (ih hret)

/-- **A behaviour of a program can be performed alone** where the machine allows every operation of
it, and none changes the world. What has to be checked of an operation may use what the task has
done by then, and only that. -/
theorem alone_of_returns {i : ℕ} {r : Req} {p : Prog Op Ans Res} {tr : List (Σ op, Ans op)} {a : Res}
    (h : Prog.Returns p tr a) : ∀ v : View Req Op Ans W,
      (∀ before op ans after, tr = before ++ ⟨op, ans⟩ :: after → ∀ own : List (Event Req Op Ans W),
        (∀ e ∈ own, ⟨e.op, e.ans⟩ ∈ before) →
          M.exec i ⟨v.world, own ++ v.history⟩ op ans v.world) →
      ∃ own, (∀ e ∈ own, ⟨e.op, e.ans⟩ ∈ tr)
        ∧ Alone M i r v p ⟨v.world, own ++ v.history⟩ (.ret a) := by
  induction h with
  | ret a =>
    intro v _
    exact ⟨[], by simp, .refl _ _⟩
  | @call op k ans tr a _ ih =>
    intro v hexec
    let e : Event Req Op Ans W := ⟨i, r, op, ans, v.world, v.world⟩
    have hfirst : M.exec i v op ans v.world := hexec [] op ans tr rfl [] (by simp)
    obtain ⟨own, hown, halone⟩ := ih (v.after e) (by
      intro before op' ans' after htr own hmem
      have hx := hexec (⟨op, ans⟩ :: before) op' ans' after (by rw [htr]; rfl) (own ++ [e]) (by
        intro e' he'
        rcases List.mem_append.mp he' with hearlier | hlast
        · exact List.mem_cons_of_mem _ (hmem e' hearlier)
        · rw [List.mem_singleton.mp hlast]
          exact List.mem_cons_self)
      rw [List.append_assoc] at hx
      exact hx)
    refine ⟨own ++ [e], ?_, ?_⟩
    · intro e' he'
      rcases List.mem_append.mp he' with hearlier | hlast
      · exact List.mem_cons_of_mem _ (hown e' hearlier)
      · rw [List.mem_singleton.mp hlast]
        exact List.mem_cons_self
    · rw [List.append_assoc]
      exact .act ans v.world hfirst halone

/-- A request submitted under a fresh identifier that goes on alone. The other tasks are as they
were, so one run can be put together from several such stretches. -/
theorem Reachable.submit {s : State Req Op Ans W Res} (h : Reachable M s) {i : ℕ}
    (hi : s.tasks i = .idle) {r : Req} {v' : View Req Op Ans W} {p' : Prog Op Ans Res}
    (ha : Alone M i r s.view (M.body r) v' p') :
    ∃ s', Reachable M s' ∧ s'.view = v' ∧ s'.tasks i = .running r p'
      ∧ ∀ j, j ≠ i → s'.tasks j = s.tasks j := by
  obtain ⟨s', h', hv', hi', hframe⟩ :=
    Reachable.alone ha (h.step (.spawn i r hi)) rfl (s.move_self _ i _)
  exact ⟨s', h', hv', hi', fun j hj => (hframe j hj).trans (s.move_of_ne _ hj _)⟩

/-! ## Restricting a machine

A claim about "every run whose steps all meet a condition" is a claim about every run of the
machine whose steps are cut down to that condition. -/

/-- The machine whose operations meet `ok`, whose abandonments meet `drop` and whose world
moves on its own only along `tick`. -/
def Machine.restrict (M : Machine Req Op Ans W Res)
    (ok : ℕ → View Req Op Ans W → (op : Op) → Ans op → W → Prop)
    (drop : ℕ → View Req Op Ans W → Op → W → Prop) (tick : W → W → Prop) :
    Machine Req Op Ans W Res where
  body := M.body
  init := M.init
  exec i v op a w := M.exec i v op a w ∧ ok i v op a w
  abandon i v op w := M.abandon i v op w ∧ drop i v op w
  env w w' := M.env w w' ∧ tick w w'

section Restrict

variable {ok : ℕ → View Req Op Ans W → (op : Op) → Ans op → W → Prop}
  {drop : ℕ → View Req Op Ans W → Op → W → Prop} {tick : W → W → Prop}
  {s : State Req Op Ans W Res}

/-- A run of the restricted machine is a run of the machine: the condition only takes steps away, so
whatever holds in all runs still does. -/
theorem Reachable.of_restrict (h : Reachable (M.restrict ok drop tick) s) : Reachable M s := by
  induction h with
  | init w hw => exact .init w hw
  | step _ hs ih =>
    cases hs with
    | spawn i r hi => exact .step ih (.spawn i r hi)
    | act i hi a w hx => exact .step ih (.act i hi a w hx.1)
    | abandon i hi w hx => exact .step ih (.abandon i hi w hx.1)
    | env w hx => exact .step ih (.env w hx.1)

/-- What a task does alone under restrictions, it can do alone without them: every one of its steps
was allowed by the machine itself. -/
theorem Alone.of_restrict {i : ℕ} {r : Req} {v v' : View Req Op Ans W} {p p' : Prog Op Ans Res}
    (h : Alone (M.restrict ok drop tick) i r v p v' p') : Alone M i r v p v' p' := by
  induction h with
  | refl v p => exact .refl v p
  | act a w hx _ ih => exact .act a w hx.1 ih
  | env w hx _ ih => exact .env w hx.1 ih

/-- **Every operation of a restricted run met the condition when it was performed**, in the view and
with the answer of that moment. -/
theorem Reachable.restrict_ok (h : Reachable (M.restrict ok drop tick) s)
    {e : Event Req Op Ans W} {past : List (Event Req Op Ans W)}
    (he : Happened s.view.history e past) : ok e.task ⟨e.pre, past⟩ e.op e.ans e.post :=
  (h.exec_of_happened he).2

/-- A condition that every run meets restricts nothing: a run of the machine is one of the
restricted machine, when every step from a reachable state meets it. -/
theorem Reachable.to_restrict (h : Reachable M s)
    (hok : ∀ s, Reachable M s → ∀ i op a w, M.exec i s.view op a w → ok i s.view op a w)
    (hdrop : ∀ s, Reachable M s → ∀ i op w, M.abandon i s.view op w → drop i s.view op w)
    (htick : ∀ w w', M.env w w' → tick w w') : Reachable (M.restrict ok drop tick) s := by
  induction h with
  | init w hw => exact .init w hw
  | step h hs ih =>
    cases hs with
    | spawn i r hi => exact .step ih (.spawn i r hi)
    | act i hi a w hx => exact .step ih (.act i hi a w ⟨hx, hok _ h i _ a w hx⟩)
    | abandon i hi w hx => exact .step ih (.abandon i hi w ⟨hx, hdrop _ h i _ w hx⟩)
    | env w hx => exact .step ih (.env w ⟨hx, htick _ w hx⟩)

end Restrict

/-- The machine started in fewer worlds. -/
def Machine.startedIn (M : Machine Req Op Ans W Res) (start : W → Prop) :
    Machine Req Op Ans W Res :=
  { M with init := fun w => M.init w ∧ start w }

theorem Step.of_startedIn {start : W → Prop} {s s' : State Req Op Ans W Res}
    (h : Step (M.startedIn start) s s') : Step M s s' := by
  cases h with
  | spawn i r hi => exact .spawn i r hi
  | act i hi a w hx => exact .act i hi a w hx
  | abandon i hi w hx => exact .abandon i hi w hx
  | env w hx => exact .env w hx

/-- A run from one of fewer worlds is a run of the machine. -/
theorem Reachable.of_startedIn {start : W → Prop} {s : State Req Op Ans W Res}
    (h : Reachable (M.startedIn start) s) : Reachable M s := by
  induction h with
  | init w hw => exact .init w hw.1
  | step _ hs ih => exact .step ih hs.of_startedIn

/-- Where a machine starts has no say in what a task does alone, so behaviours are exhibited once
for all starting worlds. -/
theorem Alone.startedIn {start : W → Prop} {i : ℕ} {r : Req} {v v' : View Req Op Ans W}
    {p p' : Prog Op Ans Res} (h : Alone M i r v p v' p') :
    Alone (M.startedIn start) i r v p v' p' := by
  induction h with
  | refl v p => exact .refl v p
  | act a w hx _ ih => exact .act a w hx ih
  | env w hx _ ih => exact .env w hx ih

/-- Such a run has a world it started in, which the machine and the narrower condition both allow.
-/
theorem Reachable.exists_start {start : W → Prop} {s : State Req Op Ans W Res}
    (h : Reachable (M.startedIn start) s) : ∃ w, M.init w ∧ start w := by
  induction h with
  | init w hw => exact ⟨w, hw⟩
  | step _ _ ih => exact ih

/-! ## Worlds in order

Clocks do not go back, counters do not go down. Where every step moves the world along a preorder,
the worlds before and after two events are in the order of the events. -/

/-- A preorder along which every step moves the world. -/
structure Machine.Advances (M : Machine Req Op Ans W Res) (R : W → W → Prop) : Prop where
  refl : ∀ w, R w w
  trans : ∀ w₁ w₂ w₃, R w₁ w₂ → R w₂ w₃ → R w₁ w₃
  exec : ∀ i v op a w, M.exec i v op a w → R v.world w
  abandon : ∀ i v op w, M.abandon i v op w → R v.world w
  env : ∀ w w', M.env w w' → R w w'

/-- The history and the world are in the order of the run: every event lies between those
before it and the current world. -/
structure View.Ordered (R : W → W → Prop) (v : View Req Op Ans W) : Prop where
  last : ∀ e ∈ v.history, R e.post v.world
  step : ∀ e ∈ v.history, R e.pre e.post
  past : ∀ e past, Happened v.history e past → ∀ e' ∈ past, R e'.post e.pre

theorem View.Ordered.withWorld {R : W → W → Prop} (htrans : ∀ w₁ w₂ w₃, R w₁ w₂ → R w₂ w₃ → R w₁ w₃)
    {v : View Req Op Ans W} (h : v.Ordered R) {w : W} (hw : R v.world w) :
    (v.withWorld w).Ordered R :=
  ⟨fun e he => htrans _ _ _ (h.last e he) hw, h.step, h.past⟩

/-- One more event, from the current world along the preorder, keeps the history in order. -/
theorem View.Ordered.after {R : W → W → Prop} (hrefl : ∀ w, R w w)
    (htrans : ∀ w₁ w₂ w₃, R w₁ w₂ → R w₂ w₃ → R w₁ w₃)
    {v : View Req Op Ans W} (h : v.Ordered R) {e : Event Req Op Ans W} (hpre : e.pre = v.world)
    (hw : R e.pre e.post) : (v.after e).Ordered R := by
  refine ⟨?_, ?_, ?_⟩
  · intro e' he'
    rcases List.mem_cons.mp he' with rfl | hmem
    · exact hrefl _
    · exact htrans _ _ _ (h.last e' hmem) (hpre ▸ hw)
  · intro e' he'
    rcases List.mem_cons.mp he' with rfl | hmem
    · exact hw
    · exact h.step e' hmem
  · intro e' past he' e'' he''
    rcases happened_cons_iff.mp he' with ⟨rfl, rfl⟩ | hpast
    · rw [hpre]
      exact h.last e'' he''
    · exact h.past e' past hpast e'' he''

/-- **Runs move along the preorder.** If every step of the machine does, then of any two events of a
run the earlier one left a world below that in which the later one happened. -/
theorem Reachable.ordered {s : State Req Op Ans W Res} (h : Reachable M s) {R : W → W → Prop}
    (hR : M.Advances R) : s.view.Ordered R := by
  induction h with
  | init w hw =>
    refine ⟨by simp, by simp, ?_⟩
    rintro e past ⟨later, h⟩
    exact absurd h (by simp)
  | step _ hs ih =>
    cases hs with
    | spawn i r hi => exact ih
    | act i hi a w hx => exact ih.after hR.refl hR.trans rfl (hR.exec i _ _ a w hx)
    | abandon i hi w hx => exact ih.withWorld hR.trans (hR.abandon i _ _ w hx)
    | env w hx => exact ih.withWorld hR.trans (hR.env _ w hx)

/-! ## Contracts

A task is verified on its own, against what the others may do between its operations, which is what
they promise in turn. The program logic is a recursion over the program; a run needs no proof of its
own. -/

/-- An invariant of the view, the interference each task tolerates, and what a task promises:
`pre` of each operation when it performs it, `post` of its result. -/
structure Contract (M : Machine Req Op Ans W Res) where
  inv : View Req Op Ans W → Prop
  rely : ℕ → View Req Op Ans W → View Req Op Ans W → Prop
  pre : Req → ℕ → View Req Op Ans W → Op → Prop
  post : Req → ℕ → View Req Op Ans W → Res → Prop

variable (C : Contract M)

/-- What may have happened to the view while task `i` was not moving. -/
structure Contract.Interferes (i : ℕ) (v v' : View Req Op Ans W) : Prop where
  others : View.Others i v v'
  rely : C.rely i v v'
  inv : C.inv v'

/-- A move of task `i` that the invariant and every other task tolerate. -/
structure Contract.Keeps (i : ℕ) (v v' : View Req Op Ans W) : Prop where
  inv : C.inv v'
  rely : ∀ j, j ≠ i → C.rely j v v'

/-- **A task keeps its side of the contract** from view `v` on, ending in `Q`. Recursion on
the program: at each operation others may have moved first, the promise `pre` holds, and
whatever the operation answers (or if the task is abandoned there) the move is tolerated. -/
def Contract.Sound (Q : View Req Op Ans W → α → Prop) (r : Req) (i : ℕ) :
    View Req Op Ans W → Prog Op Ans α → Prop
  | v, .ret a => ∀ v', C.Interferes i v v' → Q v' a
  | v, .call op k => ∀ v', C.Interferes i v v' →
      C.pre r i v' op
      ∧ (∀ a w, M.exec i v' op a w →
          C.Keeps i v' (v'.after ⟨i, r, op, a, v'.world, w⟩)
          ∧ Contract.Sound Q r i (v'.after ⟨i, r, op, a, v'.world, w⟩) (k a))
      ∧ (∀ w, M.abandon i v' op w → C.Keeps i v' (v'.withWorld w))

/-- The obligations under which a contract holds of every run. -/
structure Contract.Valid : Prop where
  refl : ∀ i v, C.rely i v v
  trans : ∀ i v₁ v₂ v₃, C.rely i v₁ v₂ → C.rely i v₂ v₃ → C.rely i v₁ v₃
  init : ∀ w, M.init w → C.inv ⟨w, []⟩
  env : ∀ v w, C.inv v → M.env v.world w →
    C.inv (v.withWorld w) ∧ ∀ i, C.rely i v (v.withWorld w)
  spawn : ∀ r i v, C.inv v → (∀ e ∈ v.history, e.task ≠ i) →
    C.Sound (C.post r i) r i v (M.body r)

variable {C}

/-- No move at all is a tolerated one, where the invariant holds. -/
theorem Contract.Valid.interferes_refl (hC : C.Valid) {i : ℕ} {v : View Req Op Ans W}
    (hv : C.inv v) : C.Interferes i v v :=
  ⟨View.Others.refl i v, hC.refl i v, hv⟩

/-- What is tolerated twice in a row is tolerated as a whole, so any number of moves of others
counts as one. -/
theorem Contract.Valid.interferes_trans (hC : C.Valid) {i : ℕ} {v₁ v₂ v₃ : View Req Op Ans W}
    (h₁ : C.Interferes i v₁ v₂) (h₂ : C.Interferes i v₂ v₃) : C.Interferes i v₁ v₃ :=
  ⟨h₁.others.trans h₂.others, hC.trans i v₁ v₂ v₃ h₁.rely h₂.rely, h₂.inv⟩

/-- Soundness survives interference: what a task promises from one view on, it promises from any
view the others have brought about. The first operation is reached through one longer stretch of
interference. -/
theorem Contract.Valid.sound_interferes (hC : C.Valid) {Q : View Req Op Ans W → α → Prop}
    {r : Req} {i : ℕ} {v v' : View Req Op Ans W} {p : Prog Op Ans α}
    (h : C.Sound Q r i v p) (hv : C.Interferes i v v') : C.Sound Q r i v' p := by
  cases p with
  | ret a => intro v'' hv''; exact h v'' (hC.interferes_trans hv hv'')
  | call op k => intro v'' hv''; exact h v'' (hC.interferes_trans hv hv'')

/-- **Sequencing.** A program that ends where `f` is sound is sound followed by `f`. Induction on
the first program; this is how the functions of a component are verified one by one. -/
theorem Contract.sound_bind (hrefl : ∀ i v, C.rely i v v) {Q : View Req Op Ans W → β → Prop}
    {r : Req} {i : ℕ} {f : α → Prog Op Ans β} {p : Prog Op Ans α} :
    ∀ {v : View Req Op Ans W}, C.Sound (fun v' a => C.Sound Q r i v' (f a)) r i v p →
      C.Sound Q r i v (p >>= f) := by
  induction p with
  | ret a =>
    intro v h
    rw [Prog.ret_bind]
    -- `f a` is sound in every view that interference can reach, so in particular there
    cases hf : f a with
    | ret b =>
      intro v' hv'
      have hs : C.Sound Q r i v' (f a) := h v' hv'
      rw [hf] at hs
      exact hs v' ⟨View.Others.refl i v', hrefl i v', hv'.inv⟩
    | call op k =>
      intro v' hv'
      have hs : C.Sound Q r i v' (f a) := h v' hv'
      rw [hf] at hs
      exact hs v' ⟨View.Others.refl i v', hrefl i v', hv'.inv⟩
  | call op k ih =>
    intro v h v' hv'
    obtain ⟨hpre, hexec, hdrop⟩ := h v' hv'
    refine ⟨hpre, ?_, hdrop⟩
    intro a w hx
    obtain ⟨hkeep, hs⟩ := hexec a w hx
    exact ⟨hkeep, ih a hs⟩

/-! ## The rule

From the obligations to the runs: each kind of step has its own lemma, and the induction over the
run puts them together. -/

/-- What every reachable state satisfies when the contract is valid. -/
structure Contract.Holds (C : Contract M) (s : State Req Op Ans W Res) : Prop where
  inv : C.inv s.view
  idle : ∀ i, s.tasks i = .idle → ∀ e ∈ s.view.history, e.task ≠ i
  submitted : ∀ e ∈ s.view.history, s.Submitted e.task e.req
  sound : ∀ i r p, s.tasks i = .running r p → C.Sound (C.post r i) r i s.view p

/-- A new task begins sound, by the obligation on the programs of requests, and disturbs nobody. -/
theorem Contract.Valid.holds_spawn (hC : C.Valid) {s : State Req Op Ans W Res}
    (h : C.Holds s) {i : ℕ} (r : Req) (hi : s.tasks i = .idle) :
    C.Holds (s.move s.view i (.running r (M.body r))) := by
  refine ⟨h.inv, ?_, ?_, ?_⟩
  · intro j hj
    by_cases hji : j = i
    · subst hji; simp at hj
    · rw [s.move_of_ne _ hji] at hj
      exact h.idle j hj
  · intro e he
    have hne : e.task ≠ i := h.idle i hi e he
    unfold State.Submitted
    rw [s.move_of_ne _ hne]
    exact h.submitted e he
  · intro j r' p hj
    by_cases hji : j = i
    · subst hji
      simp only [State.move_self, Status.running.injEq] at hj
      obtain ⟨rfl, rfl⟩ := hj
      exact hC.spawn _ _ _ h.inv (h.idle j hi)
    · rw [s.move_of_ne _ hji] at hj
      exact h.sound j r' p hj

/-- A running task moves on or is abandoned: its own soundness says that the move is tolerated, so
the invariant holds after it and every other task is still sound. -/
theorem Contract.Valid.holds_move (hC : C.Valid) {s : State Req Op Ans W Res}
    (h : C.Holds s) {i : ℕ} {r : Req} {p : Prog Op Ans Res} (hi : s.tasks i = .running r p)
    {v : View Req Op Ans W} {l : List (Event Req Op Ans W)}
    (hl : v.history = l ++ s.view.history) (hown : ∀ e ∈ l, e.task = i ∧ e.req = r)
    (hkeep : C.Keeps i s.view v) {t : Status Req Op Ans Res}
    (ht : t = .abandoned r ∨ ∃ q, t = .running r q ∧ C.Sound (C.post r i) r i v q) :
    C.Holds (s.move v i t) := by
  have hsub : (s.move v i t).Submitted i r := by
    rcases ht with rfl | ⟨q, rfl, _⟩
    · exact .inr (s.move_self v i _)
    · exact .inl ⟨q, s.move_self v i _⟩
  refine ⟨hkeep.inv, ?_, ?_, ?_⟩
  · intro j hj e he
    by_cases hji : j = i
    · subst hji
      rcases hsub with ⟨q, hq⟩ | hq
      · rw [hq] at hj; cases hj
      · rw [hq] at hj; cases hj
    · rw [s.move_of_ne _ hji] at hj
      rw [State.move_view, hl] at he
      rcases List.mem_append.mp he with he' | he'
      · exact fun heq => hji (heq ▸ (hown e he').1)
      · exact h.idle j hj e he'
  · intro e he
    rw [State.move_view, hl] at he
    rcases List.mem_append.mp he with he' | he'
    · obtain ⟨htask, hreq⟩ := hown e he'
      rw [htask, hreq]
      exact hsub
    · by_cases hei : e.task = i
      · have hreq : e.req = r := by
          rcases h.submitted e he' with ⟨q, hq⟩ | hq
          · rw [hei, hi] at hq; exact (Status.running.inj hq).1.symm
          · rw [hei, hi] at hq; cases hq
        rw [hei, hreq]
        exact hsub
      · unfold State.Submitted
        rw [s.move_of_ne _ hei]
        exact h.submitted e he'
  · intro j r' q hj
    by_cases hji : j = i
    · subst hji
      rw [State.move_self] at hj
      rcases ht with rfl | ⟨q', rfl, hq'⟩
      · cases hj
      · obtain ⟨rfl, rfl⟩ := Status.running.inj hj
        exact hq'
    · rw [s.move_of_ne _ hji] at hj
      refine hC.sound_interferes (h.sound j r' q hj) ⟨⟨l, hl, ?_⟩, hkeep.rely j hji, hkeep.inv⟩
      exact fun e he heq => hji (heq ▸ (hown e he).1)

theorem Contract.Valid.holds_env (hC : C.Valid) {s : State Req Op Ans W Res}
    (h : C.Holds s) (w : W) (hx : M.env s.view.world w) :
    C.Holds ⟨s.view.withWorld w, s.tasks⟩ := by
  obtain ⟨hinv, hrely⟩ := hC.env s.view w h.inv hx
  refine ⟨hinv, h.idle, h.submitted, ?_⟩
  intro i r p hi
  exact hC.sound_interferes (h.sound i r p hi) ⟨⟨[], rfl, by simp⟩, hrely i, hinv⟩

/-- **The interference rule.** In every reachable state of a machine with a valid contract the
invariant holds and every running task is still sound. Induction on the run, one lemma per kind of
step. -/
theorem Reachable.holds {s : State Req Op Ans W Res} (h : Reachable M s) (hC : C.Valid) :
    C.Holds s := by
  induction h with
  | init w hw => exact ⟨hC.init w hw, by simp, by simp, by simp⟩
  | step _ hs ih =>
    cases hs with
    | spawn i r hi => exact hC.holds_spawn ih r hi
    | act i hi a w hx =>
      obtain ⟨_, hexec, _⟩ := ih.sound i _ _ hi _ (hC.interferes_refl ih.inv)
      obtain ⟨hkeep, hs⟩ := hexec a w hx
      exact hC.holds_move ih hi (l := [_]) rfl (by simp) hkeep (.inr ⟨_, rfl, hs⟩)
    | abandon i hi w hx =>
      obtain ⟨_, _, hdrop⟩ := ih.sound i _ _ hi _ (hC.interferes_refl ih.inv)
      refine hC.holds_move ih hi (l := []) ?_ (by simp) (hdrop w hx) (.inl rfl)
      rfl
    | env w hx => exact hC.holds_env ih w hx

/-- A task that has returned meets its postcondition, in the present view and not only in that of
the moment it returned: the others have tolerated moves since. -/
theorem Reachable.post {s : State Req Op Ans W Res} (h : Reachable M s) (hC : C.Valid) {i : ℕ}
    {r : Req} {a : Res} (ha : s.Returned i r a) : C.post r i s.view a :=
  (h.holds hC).sound i r _ ha s.view (hC.interferes_refl (h.holds hC).inv)

/-- A task about to perform an operation meets the promise for it, in the very view it performs it
in. -/
theorem Reachable.pre {s : State Req Op Ans W Res} (h : Reachable M s) (hC : C.Valid) {i : ℕ}
    {r : Req} {op : Op} {k : Ans op → Prog Op Ans Res} (hi : s.tasks i = .running r (.call op k)) :
    C.pre r i s.view op :=
  ((h.holds hC).sound i r _ hi s.view (hC.interferes_refl (h.holds hC).inv)).1

end AuthnKit.Interleave
