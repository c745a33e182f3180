import AuthnKit.Foundation.Interleave

/-!
# AuthnKit — a mutex that cannot wedge

One lock among the operations of a machine (`Foundation.Interleave`). A program is *bracketed*
when, however it is answered, it takes the lock only while it does not hold it and gives it back
before it returns. If every body is bracketed and a task that is dropped gives the lock back too,
no run can get stuck:

* **`Reachable.brackets`** — in every reachable state the lock is held by a running task that
  still has an `unlock` ahead of it, or by nobody.
* **`Reachable.drains`** — from every reachable state the running tasks can all be brought to
  their end by moves of their own, whatever the operations answer.
-/

namespace AuthnKit.Interleave

variable {Req Op : Type} {Ans : Op → Type} {W Res α β : Type}

/-! ## Bracketed programs

A program takes the lock and gives it back in the same branch. That is a property of its text,
checked once for each function, and the guard's drop at the end of a scope is where the `unlock`
stands. -/

/-- However it is answered, the program takes the lock only while it does not hold it, and returns
only after it has given it back. The flag says whether it holds the lock now. -/
inductive Brackets (IsLock IsUnlock : Op → Prop) : Bool → Prog Op Ans α → Prop where
  | ret (a : α) : Brackets IsLock IsUnlock false (.ret a)
  | lock {op : Op} {k : Ans op → Prog Op Ans α} (h : IsLock op)
      (hk : ∀ r, Brackets IsLock IsUnlock true (k r)) : Brackets IsLock IsUnlock false (.call op k)
  | unlock {op : Op} {k : Ans op → Prog Op Ans α} (h : IsUnlock op)
      (hk : ∀ r, Brackets IsLock IsUnlock false (k r)) : Brackets IsLock IsUnlock true (.call op k)
  | other {held : Bool} {op : Op} {k : Ans op → Prog Op Ans α} (hlock : ¬ IsLock op)
      (hunlock : ¬ IsUnlock op) (hk : ∀ r, Brackets IsLock IsUnlock held (k r)) :
      Brackets IsLock IsUnlock held (.call op k)

/-- A sequence whose first part ends without the lock: the second part begins without it, and the
whole is bracketed. -/
theorem Brackets.bind {IsLock IsUnlock : Op → Prop} {held : Bool} {p : Prog Op Ans α}
    {f : α → Prog Op Ans β} (h : Brackets IsLock IsUnlock held p)
    (hf : ∀ a, Brackets IsLock IsUnlock false (f a)) : Brackets IsLock IsUnlock held (p >>= f) := by
  induction h with
  | ret a => exact hf a
  | lock h _ ih => exact .lock h ih
  | unlock h _ ih => exact .unlock h ih
  | other hlock hunlock _ ih => exact .other hlock hunlock ih

/-! ## The lock of a machine

For a machine whose programs are bracketed, who holds the lock can be read off the program that is
left: the invariant below has nothing else to say. -/

/-- What the operations do to the lock: who holds it, if anyone. -/
structure Mutex (M : Machine Req Op Ans W Res) where
  IsLock : Op → Prop
  IsUnlock : Op → Prop
  holder : W → Option ℕ
  distinct : ∀ op, IsLock op → ¬ IsUnlock op
  init : ∀ w, M.init w → holder w = none
  body : ∀ r, Brackets IsLock IsUnlock false (M.body r)
  /-- The lock is taken only while nobody holds it. -/
  exec_lock : ∀ i v op a w, M.exec i v op a w → IsLock op →
    holder v.world = none ∧ holder w = some i
  exec_unlock : ∀ i v op a w, M.exec i v op a w → IsUnlock op → holder w = none
  exec_other : ∀ i v op a w, M.exec i v op a w → ¬ IsLock op → ¬ IsUnlock op →
    holder w = holder v.world
  /-- A task that is dropped gives the lock back. -/
  abandon : ∀ i v op w, M.abandon i v op w →
    holder w = if holder v.world = some i then none else holder v.world
  env : ∀ w w', M.env w w' → holder w' = holder w

namespace Mutex

variable {M : Machine Req Op Ans W Res} (X : Mutex M)

/-- What the lock says about the status of task `i`. -/
def Fits (holder : Option ℕ) (i : ℕ) : Status Req Op Ans Res → Prop
  | .idle | .abandoned _ => holder ≠ some i
  | .running _ p => Brackets X.IsLock X.IsUnlock (decide (holder = some i)) p

/-- Every task stands where the lock says it does. -/
def Sits (s : State Req Op Ans W Res) : Prop := ∀ i, X.Fits (X.holder s.view.world) i (s.tasks i)

variable {X}

/-- Whether a task fits depends on whether it is the holder, not on who else is, so the moves of
others matter to it only as far as they touch that. -/
theorem Fits.congr {h h' : Option ℕ} {i : ℕ} {t : Status Req Op Ans Res}
    (hiff : h' = some i ↔ h = some i) (hfits : X.Fits h i t) : X.Fits h' i t := by
  cases t with
  | idle => exact fun hheld => hfits (hiff.mp hheld)
  | abandoned r => exact fun hheld => hfits (hiff.mp hheld)
  | running r p =>
    show Brackets X.IsLock X.IsUnlock (decide (h' = some i)) p
    rw [decide_eq_decide.mpr hiff]
    exact hfits

/-- A move of task `i` that leaves it where the lock says, and whose effect on the lock the others
do not notice, leaves every task there. -/
theorem Sits.move {s : State Req Op Ans W Res} (h : X.Sits s) {v : View Req Op Ans W} {i : ℕ}
    {t : Status Req Op Ans Res} (hi : X.Fits (X.holder v.world) i t)
    (hothers : ∀ j, j ≠ i → (X.holder v.world = some j ↔ X.holder s.view.world = some j)) :
    X.Sits (s.move v i t) := by
  intro j
  rw [State.move_view]
  by_cases hji : j = i
  · subst hji
    rw [State.move_self]
    exact hi
  · rw [s.move_of_ne _ hji]
    exact (h j).congr (hothers j hji)

/-- **One operation of a bracketed task**: what it does to the lock is what the bracket says. Case
split on whether it takes the lock, gives it back, or does neither. -/
theorem Sits.act {s : State Req Op Ans W Res} (h : X.Sits s) {i : ℕ} {r : Req} {op : Op}
    {k : Ans op → Prog Op Ans Res} (hi : s.tasks i = .running r (.call op k)) {a : Ans op} {w : W}
    (hx : M.exec i s.view op a w) :
    X.Sits (s.move (s.view.after ⟨i, r, op, a, s.view.world, w⟩) i (.running r (k a)))
      ∧ ((X.holder s.view.world = none ∨ X.holder s.view.world = some i) →
          X.holder w = none ∨ X.holder w = some i) := by
  have hfits : Brackets X.IsLock X.IsUnlock (decide (X.holder s.view.world = some i))
      (.call op k) := by
    have := h i
    rwa [hi] at this
  generalize hheld : decide (X.holder s.view.world = some i) = held at hfits
  cases hfits with
  | lock hlock hk =>
    obtain ⟨hfree, htaken⟩ := X.exec_lock i s.view op a w hx hlock
    refine ⟨h.move ?_ ?_, fun _ => .inr htaken⟩
    · show Brackets X.IsLock X.IsUnlock (decide (X.holder w = some i)) (k a)
      rw [htaken, decide_eq_true rfl]
      exact hk a
    · intro j hj
      rw [View.after_world, htaken, hfree]
      simp [Ne.symm hj]
  | unlock hunlock hk =>
    have hfree := X.exec_unlock i s.view op a w hx hunlock
    refine ⟨h.move ?_ ?_, fun _ => .inl hfree⟩
    · show Brackets X.IsLock X.IsUnlock (decide (X.holder w = some i)) (k a)
      rw [hfree, decide_eq_false (by simp)]
      exact hk a
    · intro j hj
      rw [View.after_world, hfree, of_decide_eq_true hheld]
      simp [Ne.symm hj]
  | other hlock hunlock hk =>
    have hsame := X.exec_other i s.view op a w hx hlock hunlock
    refine ⟨h.move ?_ ?_, fun hor => by rw [hsame]; exact hor⟩
    · show Brackets X.IsLock X.IsUnlock (decide (X.holder w = some i)) (k a)
      rw [hsame, hheld]
      exact hk a
    · intro j _
      rw [View.after_world, hsame]

/-- One step keeps every task where the lock says it is: a new task begins without the lock, and an
abandoned one has given it back. -/
theorem Sits.step {s s' : State Req Op Ans W Res} (h : X.Sits s) (hs : Step M s s') :
    X.Sits s' := by
  cases hs with
  | spawn i r hi =>
    have hnot : X.holder s.view.world ≠ some i := by
      have := h i
      rwa [hi] at this
    refine h.move ?_ fun _ _ => Iff.rfl
    show Brackets X.IsLock X.IsUnlock (decide (X.holder s.view.world = some i)) (M.body r)
    rw [decide_eq_false hnot]
    exact X.body r
  | act i hi a w hx => exact (h.act hi hx).1
  | abandon i hi w hx =>
    have hw := X.abandon i s.view _ w hx
    refine h.move ?_ ?_
    · show X.holder w ≠ some i
      rw [hw]
      split
      · simp
      · assumption
    · intro j hj
      rw [View.withWorld_world, hw]
      split
      next hheld => rw [hheld]; simp [Ne.symm hj]
      next => exact Iff.rfl
  | env w hx =>
    intro i
    rw [View.withWorld_world, X.env _ w hx]
    exact h i

end Mutex

variable {M : Machine Req Op Ans W Res} {s : State Req Op Ans W Res}

/-- **The lock is held by a running task that still has to give it back**, or by nobody. Induction
on the run. -/
theorem Reachable.brackets (h : Reachable M s) (X : Mutex M) : X.Sits s := by
  induction h with
  | init w hw =>
    intro i
    show X.holder w ≠ some i
    rw [X.init w hw]
    simp
  | step _ hs ih => exact ih.step hs

/-- Whoever holds the lock is about to perform an operation: it cannot have returned, since programs
return without the lock. -/
theorem Mutex.Sits.holder_runs {X : Mutex M} (h : X.Sits s) {i : ℕ}
    (hi : X.holder s.view.world = some i) :
    ∃ r op k, s.tasks i = .running r (.call op k)
      ∧ Brackets X.IsLock X.IsUnlock true (.call op k) := by
  have hfits := h i
  cases ht : s.tasks i with
  | idle => rw [ht] at hfits; exact absurd hi hfits
  | abandoned r => rw [ht] at hfits; exact absurd hi hfits
  | running r p =>
    rw [ht] at hfits
    have hp : Brackets X.IsLock X.IsUnlock true p := by
      have : Brackets X.IsLock X.IsUnlock (decide (X.holder s.view.world = some i)) p := hfits
      rwa [decide_eq_true hi] at this
    cases p with
    | ret a => cases hp
    | call op k => exact ⟨r, op, k, rfl, hp⟩

/-! ## Draining

That a call can finish is a statement about continuing runs: from every reachable state there is a
continuation in which it does. No fairness is needed for it, and no bound on how long others take.
-/

/-- A task performs its next operation, answered by `answer`. -/
inductive Moves (M : Machine Req Op Ans W Res)
    (answer : ℕ → View Req Op Ans W → (op : Op) → Ans op) :
    State Req Op Ans W Res → State Req Op Ans W Res → Prop where
  | move {s : State Req Op Ans W Res} (i : ℕ) {r : Req} {op : Op} {k : Ans op → Prog Op Ans Res}
      (hi : s.tasks i = .running r (.call op k)) (w : W)
      (hx : M.exec i s.view op (answer i s.view op) w) :
      Moves M answer s (s.move (s.view.after ⟨i, r, op, answer i s.view op, s.view.world, w⟩) i
        (.running r (k (answer i s.view op))))

variable {answer : ℕ → View Req Op Ans W → (op : Op) → Ans op}

/-- A move is a step of the machine, so what is reached by moves is reached by a run. -/
theorem Moves.step {s s' : State Req Op Ans W Res} (h : Moves M answer s s') : Step M s s' := by
  cases h with
  | move i hi w hx => exact .act i hi _ w hx

theorem Reachable.moves {s s' : State Req Op Ans W Res} (h : Reachable M s)
    (hs : Relation.ReflTransGen (Moves M answer) s s') : Reachable M s' := by
  induction hs with
  | refl => exact h
  | tail _ hstep ih => exact ih.step hstep.step

/-- The machine never refuses an operation answered by `answer`, except a `lock` while the lock is
held. -/
def Mutex.Serves (X : Mutex M) (answer : ℕ → View Req Op Ans W → (op : Op) → Ans op) : Prop :=
  ∀ i v op, (X.IsLock op → X.holder v.world = none) → ∃ w, M.exec i v op (answer i v op) w

namespace Mutex.Sits

variable {X : Mutex M}

/-- **A task that holds the lock, or finds it free, can go on to its end**, and the lock is free
then. Induction on what is left of its program: every operation is answered, and the lock is in
nobody's way. -/
theorem finish (hserves : X.Serves answer) {i : ℕ} {r : Req} {p : Prog Op Ans Res} :
    ∀ {s : State Req Op Ans W Res}, X.Sits s → s.tasks i = .running r p →
      (X.holder s.view.world = none ∨ X.holder s.view.world = some i) →
      ∃ s' a, Relation.ReflTransGen (Moves M answer) s s' ∧ s'.tasks i = .running r (.ret a)
        ∧ (∀ j, j ≠ i → s'.tasks j = s.tasks j) ∧ X.Sits s' ∧ X.holder s'.view.world = none := by
  induction p with
  | ret a =>
    intro s h hi hor
    have hfits := h i
    rw [hi] at hfits
    have hnot : X.holder s.view.world ≠ some i := by
      intro hheld
      have : Brackets X.IsLock X.IsUnlock (decide (X.holder s.view.world = some i))
        (.ret a : Prog Op Ans Res) := hfits
      rw [decide_eq_true hheld] at this
      cases this
    exact ⟨s, a, .refl, hi, fun _ _ => rfl, h, hor.resolve_right hnot⟩
  | call op k ih =>
    intro s h hi hor
    -- a task about to take the lock does not hold it, so it finds it free
    have hfree : X.IsLock op → X.holder s.view.world = none := by
      intro hlock
      refine hor.resolve_right fun hheld => ?_
      obtain ⟨r', op', k', ht, hb⟩ := h.holder_runs hheld
      rw [hi] at ht
      cases ht
      cases hb with
      | unlock hunlock _ => exact X.distinct op hlock hunlock
      | other hnot _ _ => exact hnot hlock
    obtain ⟨w, hx⟩ := hserves i s.view op hfree
    obtain ⟨h', hor'⟩ := h.act hi hx
    obtain ⟨s', a, hsteps, hdone, hframe, hsits, hnone⟩ :=
      ih (answer i s.view op) h' (s.move_self _ i _) (hor' hor)
    exact ⟨s', a, .head (.move i hi w hx) hsteps, hdone,
      fun j hj => (hframe j hj).trans (s.move_of_ne _ hj _), hsits, hnone⟩

/-- The tasks below `n` brought to their end, one after the other: each of them finds the lock free
when its turn comes. Induction on `n`. -/
theorem finish_below (hserves : X.Serves answer) (h : X.Sits s)
    (hfree : X.holder s.view.world = none) (n : ℕ) :
    ∃ s', Relation.ReflTransGen (Moves M answer) s s' ∧ X.Sits s'
      ∧ X.holder s'.view.world = none ∧ (∀ j, n ≤ j → s'.tasks j = s.tasks j)
      ∧ ∀ j, j < n → ∀ r p, s.tasks j = .running r p → ∃ a, s'.Returned j r a := by
  induction n with
  | zero => exact ⟨s, .refl, h, hfree, fun _ _ => rfl, fun j hj => absurd hj (Nat.not_lt_zero j)⟩
  | succ n ih =>
    obtain ⟨s₁, hsteps, hsits, hnone, hframe, hdone⟩ := ih
    by_cases hn : ∃ r p, s.tasks n = .running r p
    · obtain ⟨r, p, ht⟩ := hn
      have ht₁ : s₁.tasks n = .running r p := (hframe n (Nat.le_refl n)).trans ht
      obtain ⟨s₂, a, hmore, hret, hframe₂, hsits₂, hnone₂⟩ :=
        finish hserves hsits ht₁ (.inl hnone)
      refine ⟨s₂, hsteps.trans hmore, hsits₂, hnone₂, ?_, ?_⟩
      · intro j hj
        exact (hframe₂ j (by omega)).trans (hframe j (by omega))
      · intro j hj r' p' hj'
        by_cases hjn : j = n
        · subst hjn
          obtain ⟨rfl, -⟩ := Status.running.inj (ht.symm.trans hj')
          exact ⟨a, hret⟩
        · obtain ⟨a', ha'⟩ := hdone j (by omega) r' p' hj'
          exact ⟨a', (hframe₂ j hjn).trans ha'⟩
    · refine ⟨s₁, hsteps, hsits, hnone, fun j hj => hframe j (by omega), ?_⟩
      intro j hj r p ht
      by_cases hjn : j = n
      · subst hjn
        exact absurd ⟨r, p, ht⟩ hn
      · exact hdone j (by omega) r p ht

end Mutex.Sits

/-- Only finitely many tasks have been started: a run has finitely many steps, each of which starts
one at most. -/
theorem Reachable.idle_beyond (h : Reachable M s) : ∃ n, ∀ i, n ≤ i → s.tasks i = .idle := by
  induction h with
  | init w hw => exact ⟨0, fun _ _ => rfl⟩
  | @step s s' _ hs ih =>
    obtain ⟨n, hn⟩ := ih
    -- a step touches one task at most
    have hmove : ∀ i v t, ∃ m, ∀ j, m ≤ j → (s.move v i t).tasks j = .idle := by
      intro i v t
      refine ⟨max n (i + 1), fun j hj => ?_⟩
      rw [s.move_of_ne v (by omega : j ≠ i) t]
      exact hn j (by omega)
    cases hs with
    | spawn i r hi => exact hmove i _ _
    | act i hi a w hx => exact hmove i _ _
    | abandon i hi w hx => exact hmove i _ _
    | env w hx => exact ⟨n, hn⟩

/-- **No run gets stuck.** From every reachable state the running tasks can be brought to their end
by moves of their own alone, however the operations are answered. The holder of the lock goes first;
after it everyone finds the lock free. -/
theorem Reachable.drains (h : Reachable M s) (X : Mutex M) (hserves : X.Serves answer) :
    ∃ s', Relation.ReflTransGen (Moves M answer) s s' ∧ X.holder s'.view.world = none
      ∧ ∀ i r p, s.tasks i = .running r p → ∃ a, s'.Returned i r a := by
  have hsits : X.Sits s := h.brackets X
  -- the lock given back
  obtain ⟨s₁, hfirst, hsits₁, hfree, hrunning⟩ : ∃ s₁,
      Relation.ReflTransGen (Moves M answer) s s₁ ∧ X.Sits s₁ ∧ X.holder s₁.view.world = none
        ∧ ∀ i r p, s.tasks i = .running r p → ∃ p₁, s₁.tasks i = .running r p₁ := by
    cases hheld : X.holder s.view.world with
    | none => exact ⟨s, .refl, hsits, hheld, fun i r p ht => ⟨p, ht⟩⟩
    | some j =>
      obtain ⟨r, op, k, ht, -⟩ := hsits.holder_runs hheld
      obtain ⟨s₁, a, hsteps, hret, hframe, hsits₁, hnone⟩ :=
        Mutex.Sits.finish hserves hsits ht (.inr hheld)
      refine ⟨s₁, hsteps, hsits₁, hnone, ?_⟩
      intro i r' p' hi
      by_cases hij : i = j
      · subst hij
        obtain ⟨rfl, -⟩ := Status.running.inj (ht.symm.trans hi)
        exact ⟨_, hret⟩
      · exact ⟨p', (hframe i hij).trans hi⟩
  -- then the others, in order
  obtain ⟨n, hn⟩ := h.idle_beyond
  obtain ⟨s₂, hsteps, -, hnone, -, hdone⟩ := hsits₁.finish_below hserves hfree n
  refine ⟨s₂, hfirst.trans hsteps, hnone, ?_⟩
  intro i r p ht
  obtain ⟨p₁, ht₁⟩ := hrunning i r p ht
  refine hdone i ?_ r p₁ ht₁
  by_contra hlt
  rw [hn i (Nat.le_of_not_lt hlt)] at ht
  cases ht

end AuthnKit.Interleave
