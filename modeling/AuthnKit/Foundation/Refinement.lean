import AuthnKit.Foundation.Interleave

/-!
# AuthnKit — refinement between two machines

The same requests at two levels. An operation of the upper level is performed by one or more of the
lower one, whose answers are read in the lower level's own terms: each either completes the upper
operation, and says what it is answered, or leaves it under way. A lower operation that has no
answers at all (a panic) leaves it under way for ever, until the task is abandoned.

* **`Translation`** — which operation works for which, and what its answer means.
* **`Translation.Refines`** — a program against a program; `Refines.bind` for sequences.
* **`Refinement`** — what a machine must show of its bodies and its operations.
* **`Reachable.refined`** — the rule: every state the lower machine reaches is the image of one
  that the upper machine reaches, with the same results and a history it accounts for.
-/

namespace AuthnKit.Interleave

variable {Req Op Op' : Type} {Ans : Op → Type} {Ans' : Op' → Type} {W W' Res α β : Type}

/-- How the operations of a lower level work for those of an upper one. -/
structure Translation (Ans : Op → Type) (Ans' : Op' → Type) where
  Serves : Op' → Op → Prop
  /-- With this answer, the upper operation has been performed, and answered so. -/
  Completes : (op' : Op') → Ans' op' → (Σ op, Ans op) → Prop
  /-- With this answer, it is still under way. -/
  Continues : (op' : Op') → Ans' op' → Prop

namespace Translation

variable (T : Translation Ans Ans')

/-- The lower program performs the upper one's operations. -/
inductive Refines : Prog Op' Ans' α → Prog Op Ans α → Prop where
  | ret (a : α) : Refines (.ret a) (.ret a)
  | call {op' : Op'} {op : Op} {k' : Ans' op' → Prog Op' Ans' α} {k : Ans op → Prog Op Ans α}
      (hop : T.Serves op' op)
      (hdone : ∀ a' a, T.Completes op' a' ⟨op, a⟩ → Refines (k' a') (k a))
      (hgoes : ∀ a', T.Continues op' a' → Refines (k' a') (.call op k)) :
      Refines (.call op' k') (.call op k)

variable {T}

/-- **Sequencing.** Where the first programs refine one another and so do the second ones from each
value, the whole does. -/
theorem Refines.bind {p' : Prog Op' Ans' α} {p : Prog Op Ans α} {f' : α → Prog Op' Ans' β}
    {f : α → Prog Op Ans β} (h : T.Refines p' p) (hf : ∀ a, T.Refines (f' a) (f a)) :
    T.Refines (p' >>= f') (p >>= f) := by
  induction h with
  | ret a => exact hf a
  | call hop _ _ ihdone ihgoes => exact .call hop ihdone ihgoes

/-! ## States

A state below and one above correspond when their worlds are related, every task stands at refining
programs, and the events above are those below that completed something. -/

variable (T)

/-- The lower event completed the upper one. -/
structure Renders (e' : Event Req Op' Ans' W') (e : Event Req Op Ans W) : Prop where
  task : e'.task = e.task
  req : e'.req = e.req
  completes : T.Completes e'.op e'.ans ⟨e.op, e.ans⟩

/-- Event by event, but for those that completed nothing. -/
inductive Traced : List (Event Req Op' Ans' W') → List (Event Req Op Ans W) → Prop where
  | nil : Traced [] []
  | event {e' : Event Req Op' Ans' W'} {e : Event Req Op Ans W} {l' : List (Event Req Op' Ans' W')}
      {l : List (Event Req Op Ans W)} (he : T.Renders e' e) (h : Traced l' l) :
      Traced (e' :: l') (e :: l)
  | skip {e' : Event Req Op' Ans' W'} {l' : List (Event Req Op' Ans' W')}
      {l : List (Event Req Op Ans W)} (h : Traced l' l) : Traced (e' :: l') l

/-- Where a task stands at the two levels. -/
inductive Alike : Status Req Op' Ans' Res → Status Req Op Ans Res → Prop where
  | idle : Alike .idle .idle
  | running {r : Req} {p' : Prog Op' Ans' Res} {p : Prog Op Ans Res} (h : T.Refines p' p) :
      Alike (.running r p') (.running r p)
  | abandoned {r : Req} : Alike (.abandoned r) (.abandoned r)

/-- The lower state is an image of the upper one, in worlds related by `R`. -/
structure Simulates (R : W' → W → Prop) (s' : State Req Op' Ans' W' Res)
    (s : State Req Op Ans W Res) : Prop where
  world : R s'.view.world s.view.world
  history : T.Traced s'.view.history s.view.history
  tasks : ∀ i, T.Alike (s'.tasks i) (s.tasks i)

variable {T}

/-- **Whatever happened above happened below**, in an event that completed it. This is how an answer
that is seen above is traced to what was done for it. -/
theorem Traced.mem {l' : List (Event Req Op' Ans' W')} {l : List (Event Req Op Ans W)}
    (h : T.Traced l' l) {e : Event Req Op Ans W} (he : e ∈ l) : ∃ e' ∈ l', T.Renders e' e := by
  induction h with
  | nil => exact absurd he (by simp)
  | @event e' e₀ l' l hr _ ih =>
    rcases List.mem_cons.mp he with rfl | hmem
    · exact ⟨e', List.mem_cons_self, hr⟩
    · obtain ⟨e'', hmem', hr'⟩ := ih hmem
      exact ⟨e'', List.mem_cons_of_mem _ hmem', hr'⟩
  | skip _ ih =>
    obtain ⟨e', hmem', hr'⟩ := ih he
    exact ⟨e', List.mem_cons_of_mem _ hmem', hr'⟩

variable {R : W' → W → Prop} {s' : State Req Op' Ans' W' Res} {s : State Req Op Ans W Res}

theorem Simulates.idle (h : T.Simulates R s' s) {i : ℕ} (hi : s'.tasks i = .idle) :
    s.tasks i = .idle := by
  have halike := h.tasks i
  rw [hi] at halike
  generalize s.tasks i = t at halike
  cases halike
  rfl

/-- A running task is running above, for the same request, and what is left of it refines what is
left there. -/
theorem Simulates.running (h : T.Simulates R s' s) {i : ℕ} {r : Req} {p' : Prog Op' Ans' Res}
    (hi : s'.tasks i = .running r p') : ∃ p, s.tasks i = .running r p ∧ T.Refines p' p := by
  have halike := h.tasks i
  rw [hi] at halike
  generalize s.tasks i = t at halike
  cases halike with
  | running h => exact ⟨_, rfl, h⟩

/-- **What was returned below was returned above**, for the same request: results are carried over
as they are. -/
theorem Simulates.returned (h : T.Simulates R s' s) {i : ℕ} {r : Req} {a : Res}
    (hi : s'.Returned i r a) : s.Returned i r a := by
  obtain ⟨p, hp, hrefines⟩ := h.running hi
  cases hrefines
  exact hp

theorem Simulates.submitted (h : T.Simulates R s' s) {i : ℕ} {r : Req} (hi : s.Submitted i r) :
    s'.Submitted i r := by
  have halike := h.tasks i
  unfold State.Submitted at hi ⊢
  generalize s'.tasks i = t' at halike
  rcases hi with ⟨p, hp⟩ | hp
  · rw [hp] at halike
    cases halike with
    | running h => exact .inl ⟨_, rfl⟩
  · rw [hp] at halike
    cases halike
    exact .inr rfl

/-- Both levels have moved task `i`, to programs that refine one another. -/
theorem Simulates.move (h : T.Simulates R s' s) {v' : View Req Op' Ans' W'} {v : View Req Op Ans W}
    (hworld : R v'.world v.world) (hhistory : T.Traced v'.history v.history) {i : ℕ}
    {t' : Status Req Op' Ans' Res} {t : Status Req Op Ans Res} (ht : T.Alike t' t) :
    T.Simulates R (s'.move v' i t') (s.move v i t) := by
  refine ⟨hworld, hhistory, ?_⟩
  intro j
  by_cases hji : j = i
  · subst hji
    rw [State.move_self, State.move_self]
    exact ht
  · rw [s'.move_of_ne v' hji, s.move_of_ne v hji]
    exact h.tasks j

/-- The lower level has moved task `i`, the upper one has not: the operation below is only part of
one above, or has completed nothing yet. -/
theorem Simulates.stutter (h : T.Simulates R s' s) {v' : View Req Op' Ans' W'}
    (hworld : R v'.world s.view.world) (hhistory : T.Traced v'.history s.view.history) {i : ℕ}
    {t' : Status Req Op' Ans' Res} (ht : T.Alike t' (s.tasks i)) :
    T.Simulates R (s'.move v' i t') s := by
  refine ⟨hworld, hhistory, ?_⟩
  intro j
  by_cases hji : j = i
  · subst hji
    rw [State.move_self]
    exact ht
  · rw [s'.move_of_ne v' hji]
    exact h.tasks j

end Translation

/-! ## Machines

One program refining another is lifted to the machines that run them. The obligation left to the
user of this file is one completed operation at a time. -/

section Rule

variable {T : Translation Ans Ans'} {R : W' → W → Prop} {M' : Machine Req Op' Ans' W' Res}
  {M : Machine Req Op Ans W Res}

/-- The lower machine's requests refine the upper one's, and so do its operations. -/
structure Refinement (T : Translation Ans Ans') (R : W' → W → Prop)
    (M' : Machine Req Op' Ans' W' Res) (M : Machine Req Op Ans W Res) : Prop where
  body : ∀ r, T.Refines (M'.body r) (M.body r)
  init : ∀ w', M'.init w' → ∃ w, M.init w ∧ R w' w
  /-- As long as nothing is completed, the world stays as it was above. -/
  exec : ∀ (i : ℕ) (v' : View Req Op' Ans' W') (v : View Req Op Ans W) (op' : Op') (op : Op)
    (a' : Ans' op') (w' : W'), R v'.world v.world → T.Serves op' op → M'.exec i v' op' a' w' →
    (∃ a w, T.Completes op' a' ⟨op, a⟩ ∧ M.exec i v op a w ∧ R w' w)
      ∨ T.Continues op' a' ∧ R w' v.world
  abandon : ∀ (i : ℕ) (v' : View Req Op' Ans' W') (v : View Req Op Ans W) (op' : Op') (op : Op)
    (w' : W'), R v'.world v.world → T.Serves op' op → M'.abandon i v' op' w' →
    ∃ w, M.abandon i v op w ∧ R w' w
  env : ∀ w₁' w₁ w₂', R w₁' w₁ → M'.env w₁' w₂' → ∃ w₂, M.env w₁ w₂ ∧ R w₂' w₂

variable {s₁' s₂' : State Req Op' Ans' W' Res} {s₁ : State Req Op Ans W Res}

/-- **One step below** is one step above, or none. Case split on the step, and for an operation on
whether it completes one above. -/
theorem Refinement.step (hM : Refinement T R M' M) (hsim : T.Simulates R s₁' s₁)
    (hs : Step M' s₁' s₂') :
    T.Simulates R s₂' s₁ ∨ ∃ s₂, Step M s₁ s₂ ∧ T.Simulates R s₂' s₂ := by
  cases hs with
  | spawn i r hi =>
    exact .inr ⟨_, .spawn i r (hsim.idle hi),
      hsim.move hsim.world hsim.history (.running (hM.body r))⟩
  | @act i r op' k' hi a' w' hx =>
    obtain ⟨p, hp, hrefines⟩ := hsim.running hi
    cases hrefines with
    | @call _ op _ k hop hdone hgoes =>
      rcases hM.exec i _ _ op' op a' w' hsim.world hop hx with ⟨a, w, ha, hw, hR⟩ | ⟨ha, hR⟩
      · have hevent : T.Renders (⟨i, r, op', a', s₁'.view.world, w'⟩ : Event Req Op' Ans' W')
            (⟨i, r, op, a, s₁.view.world, w⟩ : Event Req Op Ans W) := ⟨rfl, rfl, ha⟩
        refine .inr ⟨_, .act i hp a w hw, ?_⟩
        apply hsim.move
        · exact hR
        · exact .event hevent hsim.history
        · exact .running (hdone a' a ha)
      · -- above, the task still waits
        refine .inl (hsim.stutter hR (.skip hsim.history) ?_)
        rw [hp]
        exact .running (hgoes a' ha)
  | @abandon i r op' k' hi w' hx =>
    obtain ⟨p, hp, hrefines⟩ := hsim.running hi
    cases hrefines with
    | @call _ op _ k hop _ _ =>
      obtain ⟨w, hw, hR⟩ := hM.abandon i _ _ op' op w' hsim.world hop hx
      refine .inr ⟨_, .abandon i hp w hw, ?_⟩
      apply hsim.move
      · exact hR
      · exact hsim.history
      · exact .abandoned
  | env w' hx =>
    obtain ⟨w, hw, hR⟩ := hM.env _ _ w' hsim.world hx
    exact .inr ⟨_, .env w hw, ⟨hR, hsim.history, hsim.tasks⟩⟩

/-- **The rule.** Every run below simulates a run above, so whatever holds in all runs above holds
of the image of every run below. Induction on the lower run. -/
theorem Reachable.refined (h : Reachable M' s₁') (hM : Refinement T R M' M) :
    ∃ s, Reachable M s ∧ T.Simulates R s₁' s := by
  induction h with
  | init w' hw' =>
    obtain ⟨w, hw, hR⟩ := hM.init w' hw'
    exact ⟨_, .init w hw, hR, .nil, fun _ => .idle⟩
  | step _ hs ih =>
    obtain ⟨s, hreach, hsim⟩ := ih
    rcases hM.step hsim hs with hsim' | ⟨s₂, hs₂, hsim'⟩
    · exact ⟨s, hreach, hsim'⟩
    · exact ⟨s₂, .step hreach hs₂, hsim'⟩

end Rule

/-- **Another meaning for the operations**: a run stays one where every step of it keeps its
meaning. The meaning need only agree where the operations are performed, in reachable states. -/
theorem Reachable.withExec {M : Machine Req Op Ans W Res} {s : State Req Op Ans W Res}
    {exec : ℕ → View Req Op Ans W → (op : Op) → Ans op → W → Prop} (hs : Reachable M s)
    (hexec : ∀ {s i r op k a w}, Reachable M s → s.tasks i = .running r (.call op k) →
      M.exec i s.view op a w → exec i s.view op a w) : Reachable { M with exec := exec } s := by
  induction hs with
  | init w hw => exact .init w hw
  | step hs hstep ih =>
    apply ih.step
    cases hstep with
    | spawn i r hi => exact .spawn i r hi
    | act i hi a w hx => exact .act i hi a w (hexec hs hi hx)
    | abandon i hi w hx => exact .abandon i hi w hx
    | env w hx => exact .env w hx

theorem Plays.withExec {M M' : Machine Req Op Ans W Res} {i : ℕ} {r : Req} {v v' : View Req Op Ans W}
    {tr : List (Σ op, Ans op)} (h : Plays M i r v tr v')
    (hexec : ∀ v op a w, M.exec i v op a w → M'.exec i v op a w) : Plays M' i r v tr v' := by
  induction h with
  | nil v => exact .nil v
  | cons w hx h ih => exact .cons w (hexec _ _ _ _ hx) ih

end AuthnKit.Interleave
