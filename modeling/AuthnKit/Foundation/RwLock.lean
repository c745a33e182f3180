import AuthnKit.Foundation.Mutex

/-!
# AuthnKit — a readers-writer lock

A lock among the operations of a machine (`Foundation.Interleave`) that one task may hold to change
what it protects, or any number to look at it. What readers rely on may be less than all of it.

* **`Guarded`** — a program that does nothing it does not hold the lock for.
* **`Reachable.sits`** — in every reachable state each task holds what its program says, and a
  writer is alone.
* **`RwLock.Rely`** — what a task may rely on while others move; `Sits` programs keep it.
* **`Reachable.settles`** — no run can get stuck, also where operations may panic.
-/

namespace AuthnKit.Interleave

variable {Req Op : Type} {Ans : Op → Type} {W Res D D' α β : Type}

inductive Mode where
  | out
  | shared
  | exclusive
  deriving DecidableEq

/-- What an operation does with the lock, or needs it for. -/
inductive LockAccess where
  | free
  | read
  | unread
  | write
  | unwrite
  | look
  | change
  deriving DecidableEq

/-- What a task holds after an operation, if it may perform it. -/
def LockAccess.next : LockAccess → Mode → Option Mode
  | .free, mode => some mode
  | .read, .out => some .shared
  | .unread, .shared => some .out
  | .write, .out => some .exclusive
  | .unwrite, .exclusive => some .out
  | .look, .shared => some .shared
  | .look, .exclusive => some .exclusive
  | .change, .exclusive => some .exclusive
  | _, _ => none

/-- What may be performed, and when: the whole table of modes, as one case split for the lemmas
below. -/
theorem LockAccess.next_eq_some {access : LockAccess} {mode mode' : Mode} (h : access.next mode = some mode') :
    (access = .free ∧ mode' = mode)
      ∨ (access = .read ∧ mode = .out ∧ mode' = .shared)
      ∨ (access = .unread ∧ mode = .shared ∧ mode' = .out)
      ∨ (access = .write ∧ mode = .out ∧ mode' = .exclusive)
      ∨ (access = .unwrite ∧ mode = .exclusive ∧ mode' = .out)
      ∨ (access = .look ∧ mode = .shared ∧ mode' = .shared)
      ∨ ((access = .look ∨ access = .change) ∧ mode = .exclusive ∧ mode' = .exclusive) := by
  cases access <;> cases mode <;> simp_all [LockAccess.next]

/-- However it is answered, the program does what it holds the lock for, and ends without it. -/
inductive Guarded (access : Op → LockAccess) : Mode → Prog Op Ans α → Prop where
  | ret (a : α) : Guarded access .out (.ret a)
  | call {mode mode' : Mode} {op : Op} {k : Ans op → Prog Op Ans α}
      (h : (access op).next mode = some mode') (hk : ∀ a, Guarded access mode' (k a)) :
      Guarded access mode (.call op k)

/-- A sequence whose first part ends without the lock: the second one is guarded from there, and so
is the whole. -/
theorem Guarded.bind {access : Op → LockAccess} {mode : Mode} {p : Prog Op Ans α}
    {f : α → Prog Op Ans β} (h : Guarded access mode p) (hf : ∀ a, Guarded access .out (f a)) :
    Guarded access mode (p >>= f) := by
  induction h with
  | ret a => exact hf a
  | call h _ ih => exact .call h ih

/-- What the operations do to the lock, and to what it protects. -/
structure RwLock (M : Machine Req Op Ans W Res) (D D' : Type) where
  access : Op → LockAccess
  writer : W → Option ℕ
  readers : W → Finset ℕ
  data : W → D
  /-- What readers rely on. -/
  seen : D → D'
  init : ∀ w, M.init w → writer w = none ∧ readers w = ∅
  body : ∀ r, Guarded access .out (M.body r)
  /-- Acquired while nobody writes. -/
  exec_read : ∀ i v op a w, M.exec i v op a w → access op = .read →
    writer v.world = none ∧ writer w = none ∧ readers w = insert i (readers v.world)
      ∧ data w = data v.world
  exec_unread : ∀ i v op a w, M.exec i v op a w → access op = .unread →
    writer w = writer v.world ∧ readers w = (readers v.world).erase i ∧ data w = data v.world
  /-- Acquired while nobody holds it. -/
  exec_write : ∀ i v op a w, M.exec i v op a w → access op = .write →
    writer v.world = none ∧ readers v.world = ∅ ∧ writer w = some i ∧ readers w = ∅
      ∧ data w = data v.world
  exec_unwrite : ∀ i v op a w, M.exec i v op a w → access op = .unwrite →
    writer w = none ∧ readers w = readers v.world ∧ data w = data v.world
  exec_free : ∀ i v op a w, M.exec i v op a w → access op = .free →
    writer w = writer v.world ∧ readers w = readers v.world ∧ data w = data v.world
  exec_look : ∀ i v op a w, M.exec i v op a w → access op = .look →
    writer w = writer v.world ∧ readers w = readers v.world
      ∧ seen (data w) = seen (data v.world)
  exec_change : ∀ i v op a w, M.exec i v op a w → access op = .change →
    writer w = writer v.world ∧ readers w = readers v.world
  /-- Whoever is dropped gives back what it holds. -/
  abandon : ∀ i v op w, M.abandon i v op w →
    writer w = (if writer v.world = some i then none else writer v.world)
      ∧ readers w = (readers v.world).erase i ∧ data w = data v.world
  env : ∀ w w', M.env w w' → writer w' = writer w ∧ readers w' = readers w ∧ data w' = data w

namespace RwLock

variable {M : Machine Req Op Ans W Res} (X : RwLock M D D')

/-- What task `i` holds. -/
def mode (w : W) (i : ℕ) : Mode :=
  if X.writer w = some i then .exclusive
  else if i ∈ X.readers w then .shared else .out

/-- A writer is alone. -/
def Exclusive (w : W) : Prop := X.writer w ≠ none → X.readers w = ∅

/-- What task `i` may rely on while others move. -/
structure Rely (i : ℕ) (w w' : W) : Prop where
  mode : X.mode w' i = X.mode w i
  exclusive : X.mode w i = .exclusive → X.data w' = X.data w
  shared : X.mode w i = .shared → X.seen (X.data w') = X.seen (X.data w)

variable {X} {w w' w'' : W} {i j : ℕ}

/-- A task holds the lock exclusively when it is the writer. -/
theorem mode_eq_exclusive : X.mode w i = .exclusive ↔ X.writer w = some i := by
  unfold mode
  split <;> simp_all
  split <;> simp_all

/-- A task holds the lock shared when it is one of the readers, and not the writer. -/
theorem mode_eq_shared : X.mode w i = .shared ↔ X.writer w ≠ some i ∧ i ∈ X.readers w := by
  unfold mode
  split <;> simp_all

/-- A task is out of the lock when it is neither. -/
theorem mode_eq_out : X.mode w i = .out ↔ X.writer w ≠ some i ∧ i ∉ X.readers w := by
  unfold mode
  split <;> simp_all

theorem Rely.refl (i : ℕ) (w : W) : X.Rely i w w := ⟨rfl, fun _ => rfl, fun _ => rfl⟩

/-- What may be relied on over two stretches may be relied on over both: the mode is kept in
between, so the second stretch relies on what the first one has kept. -/
theorem Rely.trans (h : X.Rely i w w') (h' : X.Rely i w' w'') : X.Rely i w w'' where
  mode := h'.mode.trans h.mode
  exclusive hmode := (h'.exclusive (h.mode.trans hmode)).trans (h.exclusive hmode)
  shared hmode := (h'.shared (h.mode.trans hmode)).trans (h.shared hmode)

/-- The mode of a task whose part in the lock has not changed is the one it had. -/
theorem mode_congr (hwriter : X.writer w' = some i ↔ X.writer w = some i)
    (hreaders : i ∈ X.readers w' ↔ i ∈ X.readers w) : X.mode w' i = X.mode w i := by
  unfold mode
  simp only [hwriter, hreaders]

/-- What an operation did, as far as the lock is concerned. -/
structure Performed (X : RwLock M D D') (i : ℕ) (w w' : W) (mode' : Mode) : Prop where
  exclusive : X.Exclusive w'
  mode : X.mode w' i = mode'
  rely : ∀ j, j ≠ i → X.Rely j w w'

/-- A writer is alone: everybody else is out of the lock. -/
theorem Exclusive.out (h : X.Exclusive w) (hi : X.writer w = some i) (hj : j ≠ i) :
    X.mode w j = .out := by
  have hreaders : X.readers w = ∅ := h (by rw [hi]; exact Option.some_ne_none i)
  rw [mode_eq_out, hi, hreaders]
  exact ⟨fun hij => hj (Option.some.inj hij).symm, Finset.notMem_empty j⟩

theorem Exclusive.not_shared (h : X.Exclusive w) (hi : i ∈ X.readers w) : X.writer w = none := by
  by_contra hne
  rw [h hne] at hi
  exact Finset.notMem_empty i hi

/-- The lock is left alone, and so is what the others rely on: the case of every operation that
neither takes nor gives anything. -/
theorem Performed.of_same (hexcl : X.Exclusive w) (hwriter : X.writer w' = X.writer w)
    (hreaders : X.readers w' = X.readers w)
    (hdata : ∀ j, j ≠ i → X.mode w j = .exclusive → X.data w' = X.data w)
    (hseen : ∀ j, j ≠ i → X.mode w j = .shared → X.seen (X.data w') = X.seen (X.data w)) :
    X.Performed i w w' (X.mode w i) := by
  have hmode : ∀ j, X.mode w' j = X.mode w j := fun j =>
    mode_congr (by rw [hwriter]) (by rw [hreaders])
  refine ⟨?_, hmode i, fun j hj => ⟨hmode j, hdata j hj, hseen j hj⟩⟩
  intro hne
  rw [hreaders]
  exact hexcl (by rwa [hwriter] at hne)

/-- **One operation of a task that may perform it** keeps writers alone, changes the task's mode as
the table says, and leaves the others what they rely on. Case split on the kind of access. -/
theorem performed_of_exec {v : View Req Op Ans W} {op : Op} {a : Ans op} {mode' : Mode}
    (hexcl : X.Exclusive v.world) (hmode : (X.access op).next (X.mode v.world i) = some mode')
    (hx : M.exec i v op a w) : X.Performed i v.world w mode' := by
  rcases LockAccess.next_eq_some hmode with ⟨hop, rfl⟩ | ⟨hop, hi, rfl⟩ | ⟨hop, hi, rfl⟩ | ⟨hop, hi, rfl⟩
    | ⟨hop, hi, rfl⟩ | ⟨hop, hi, rfl⟩ | ⟨hop, hi, rfl⟩
  · obtain ⟨hwriter, hreaders, hdata⟩ := X.exec_free i v op a w hx hop
    exact .of_same hexcl hwriter hreaders (fun _ _ _ => hdata) fun _ _ _ => by rw [hdata]
  · obtain ⟨hfree, hwriter, hreaders, hdata⟩ := X.exec_read i v op a w hx hop
    refine ⟨fun hne => absurd hwriter hne, ?_, fun j hj => ⟨?_, fun _ => hdata, fun _ => by rw [hdata]⟩⟩
    · rw [mode_eq_shared, hwriter, hreaders]
      exact ⟨Option.some_ne_none i |>.symm, Finset.mem_insert_self i _⟩
    · exact mode_congr (by rw [hwriter, hfree]) (by rw [hreaders, Finset.mem_insert]; simp [hj])
  · obtain ⟨hwriter, hreaders, hdata⟩ := X.exec_unread i v op a w hx hop
    obtain ⟨hnot, -⟩ := mode_eq_shared.mp hi
    refine ⟨?_, ?_, fun j hj => ⟨?_, fun _ => hdata, fun _ => by rw [hdata]⟩⟩
    · intro hne
      rw [hreaders, hexcl (by rwa [hwriter] at hne), Finset.erase_empty]
    · rw [mode_eq_out, hwriter, hreaders]
      exact ⟨hnot, Finset.notMem_erase i _⟩
    · exact mode_congr (by rw [hwriter]) (by rw [hreaders, Finset.mem_erase]; simp [hj])
  · obtain ⟨hfree, hnone, hwriter, hreaders, hdata⟩ := X.exec_write i v op a w hx hop
    refine ⟨fun _ => hreaders, mode_eq_exclusive.mpr hwriter,
      fun j hj => ⟨?_, fun _ => hdata, fun _ => by rw [hdata]⟩⟩
    refine mode_congr ?_ (by rw [hreaders, hnone])
    rw [hwriter, hfree]
    simp [Ne.symm hj]
  · obtain ⟨hwriter, hreaders, hdata⟩ := X.exec_unwrite i v op a w hx hop
    have hheld := mode_eq_exclusive.mp hi
    have hnone : X.readers v.world = ∅ := hexcl (by rw [hheld]; exact Option.some_ne_none i)
    refine ⟨fun hne => absurd hwriter hne, ?_, fun j hj => ⟨?_, fun _ => hdata, fun _ => by rw [hdata]⟩⟩
    · rw [mode_eq_out, hwriter, hreaders, hnone]
      exact ⟨Option.some_ne_none i |>.symm, Finset.notMem_empty i⟩
    · refine mode_congr ?_ (by rw [hreaders])
      rw [hwriter, hheld]
      simp [Ne.symm hj]
  · -- a reader: nobody writes, and the readers do not notice
    obtain ⟨hwriter, hreaders, hseen⟩ := X.exec_look i v op a w hx hop
    have hfree := hexcl.not_shared (mode_eq_shared.mp hi).2
    rw [← hi]
    refine .of_same hexcl hwriter hreaders (fun j _ hj => ?_) fun _ _ _ => hseen
    rw [mode_eq_exclusive, hfree] at hj
    cases hj
  · -- the writer: there is nobody else
    have hheld := mode_eq_exclusive.mp hi
    have hsame : X.writer w = X.writer v.world ∧ X.readers w = X.readers v.world := by
      rcases hop with hop | hop
      · exact ⟨(X.exec_look i v op a w hx hop).1, (X.exec_look i v op a w hx hop).2.1⟩
      · exact X.exec_change i v op a w hx hop
    rw [← hi]
    refine .of_same hexcl hsame.1 hsame.2 (fun j hj hmode => ?_) fun j hj hmode => ?_
    · rw [hexcl.out hheld hj] at hmode
      cases hmode
    · rw [hexcl.out hheld hj] at hmode
      cases hmode

/-- A task that is dropped holds nothing any more, and has changed nothing that the lock protects.
-/
theorem performed_of_abandon {v : View Req Op Ans W} {op : Op} (hexcl : X.Exclusive v.world)
    (hx : M.abandon i v op w) : X.Performed i v.world w .out := by
  obtain ⟨hwriter, hreaders, hdata⟩ := X.abandon i v op w hx
  have hother : ∀ j, j ≠ i → (X.writer w = some j ↔ X.writer v.world = some j) := by
    intro j hj
    rw [hwriter]
    split
    next hheld =>
      rw [hheld]
      simp [Ne.symm hj]
    next => exact Iff.rfl
  refine ⟨?_, ?_, fun j hj => ⟨?_, fun _ => hdata, fun _ => by rw [hdata]⟩⟩
  · intro hne
    have hbefore : X.writer v.world ≠ none := by
      intro hnone
      rw [hwriter, hnone] at hne
      exact hne (if_neg (Option.some_ne_none i).symm)
    rw [hreaders, hexcl hbefore, Finset.erase_empty]
  · rw [mode_eq_out, hwriter, hreaders]
    refine ⟨?_, Finset.notMem_erase i _⟩
    split
    next => exact (Option.some_ne_none i).symm
    next hnot => exact hnot
  · exact mode_congr (hother j hj) (by rw [hreaders, Finset.mem_erase]; simp [hj])

/-- The world moving by itself touches neither the lock nor what it protects. -/
theorem rely_of_env (hx : M.env w w') (i : ℕ) : X.Rely i w w' := by
  obtain ⟨hwriter, hreaders, hdata⟩ := X.env w w' hx
  exact ⟨mode_congr (by rw [hwriter]) (by rw [hreaders]), fun _ => hdata, fun _ => by rw [hdata]⟩

/-! ## Runs

From one operation to every run: the invariant says of each task that it holds what the rest of its
program is guarded for. -/

/-- What a task holds is what its program is guarded for. -/
def Fits (mode : Mode) : Status Req Op Ans Res → Prop
  | .idle | .abandoned _ => mode = .out
  | .running _ p => Guarded X.access mode p

/-- A writer is alone, and every task holds what it should. -/
structure Sits (s : State Req Op Ans W Res) : Prop where
  exclusive : X.Exclusive s.view.world
  fits : ∀ i, X.Fits (X.mode s.view.world i) (s.tasks i)

variable {s s' : State Req Op Ans W Res}

/-- A move of task `i` that the others tolerate: they keep their modes, hence what their programs
are guarded for. -/
theorem Sits.move (h : X.Sits s) {v : View Req Op Ans W} {mode' : Mode}
    (hperf : X.Performed i s.view.world v.world mode') {status : Status Req Op Ans Res}
    (hfits : X.Fits mode' status) : X.Sits (s.move v i status) := by
  refine ⟨hperf.exclusive, fun j => ?_⟩
  rw [State.move_view]
  by_cases hj : j = i
  · subst hj
    rw [State.move_self, hperf.mode]
    exact hfits
  · rw [s.move_of_ne _ hj, (hperf.rely j hj).mode]
    exact h.fits j

/-- A task about to perform an operation may perform it, in the mode it is in, and its program is
guarded for the mode it will be in then. -/
theorem Sits.next (h : X.Sits s) {r : Req} {op : Op} {k : Ans op → Prog Op Ans Res}
    (hi : s.tasks i = .running r (.call op k)) :
    ∃ mode', (X.access op).next (X.mode s.view.world i) = some mode'
      ∧ ∀ a, Guarded X.access mode' (k a) := by
  have hfits := h.fits i
  rw [hi] at hfits
  generalize X.mode s.view.world i = mode at hfits
  cases hfits with
  | call h hk => exact ⟨_, h, hk⟩

theorem Sits.act (h : X.Sits s) {r : Req} {op : Op} {k : Ans op → Prog Op Ans Res}
    (hi : s.tasks i = .running r (.call op k)) {a : Ans op} (hx : M.exec i s.view op a w) :
    X.Sits (s.move (s.view.after ⟨i, r, op, a, s.view.world, w⟩) i (.running r (k a))) := by
  obtain ⟨mode', hnext, hk⟩ := h.next hi
  exact h.move (performed_of_exec h.exclusive hnext hx) (hk a)

/-- One step, of whichever kind. -/
theorem Sits.step (h : X.Sits s) (hs : Step M s s') : X.Sits s' := by
  cases hs with
  | spawn i r hi =>
    have hout : X.mode s.view.world i = .out := by
      have hfits := h.fits i
      rwa [hi] at hfits
    have hperf : X.Performed i s.view.world s.view.world .out :=
      ⟨h.exclusive, hout, fun j _ => .refl j _⟩
    exact h.move hperf (X.body r)
  | act i hi a w hx => exact h.act hi hx
  | abandon i hi w hx => exact h.move (performed_of_abandon h.exclusive hx) rfl
  | env w hx =>
    obtain ⟨hwriter, hreaders, -⟩ := X.env _ w hx
    refine ⟨fun hne => ?_, fun i => ?_⟩
    · rw [View.withWorld_world] at hne ⊢
      rw [hreaders]
      exact h.exclusive (by rwa [hwriter] at hne)
    · rw [View.withWorld_world, (rely_of_env hx i).mode]
      exact h.fits i

end RwLock

variable {M : Machine Req Op Ans W Res} {s s' : State Req Op Ans W Res}

/-- **Everyone holds what it should**, in every run: a writer is alone, and each task holds the lock
as the rest of its program needs it. Induction on the run. -/
theorem Reachable.sits (h : Reachable M s) (X : RwLock M D D') : X.Sits s := by
  induction h with
  | init w hw =>
    obtain ⟨hwriter, hreaders⟩ := X.init w hw
    refine ⟨fun _ => hreaders, fun i => ?_⟩
    show X.mode w i = .out
    rw [RwLock.mode_eq_out, hwriter, hreaders]
    exact ⟨(Option.some_ne_none i).symm, Finset.notMem_empty i⟩
  | step _ hs ih => exact ih.step hs

/-- **What was done was allowed**: whoever changed what the lock protects was its writer, and alone;
whoever looked at it held the lock in one of the two ways. -/
theorem Reachable.allowed (h : Reachable M s) (X : RwLock M D D') {e : Event Req Op Ans W}
    (he : e ∈ s.view.history) : X.Exclusive e.pre
      ∧ ∃ mode', (X.access e.op).next (X.mode e.pre e.task) = some mode' := by
  obtain ⟨past, hhappened⟩ := happened_of_mem he
  obtain ⟨s', k, hs', hview, hi, -⟩ := h.before hhappened
  have hsits := hs'.sits X
  have hexcl := hsits.exclusive
  obtain ⟨mode', hnext, -⟩ := hsits.next hi
  rw [hview] at hexcl hnext
  exact ⟨hexcl, mode', hnext⟩

/-! ## Settling

A task settles when it returns, or panics and is gone. From every reachable state all running tasks
can, by their own moves, provided that an operation is refused only while the lock is taken. -/

/-- A running task performs its next operation, or panics there. -/
inductive Own (M : Machine Req Op Ans W Res) : State Req Op Ans W Res → State Req Op Ans W Res → Prop
  | act {s : State Req Op Ans W Res} (i : ℕ) {r : Req} {op : Op} {k : Ans op → Prog Op Ans Res}
      (hi : s.tasks i = .running r (.call op k)) (a : Ans op) (w : W) (hx : M.exec i s.view op a w) :
      Own M s (s.move (s.view.after ⟨i, r, op, a, s.view.world, w⟩) i (.running r (k a)))
  | abandon {s : State Req Op Ans W Res} (i : ℕ) {r : Req} {op : Op}
      {k : Ans op → Prog Op Ans Res} (hi : s.tasks i = .running r (.call op k)) (w : W)
      (hx : M.abandon i s.view op w) : Own M s (s.move (s.view.withWorld w) i (.abandoned r))

/-- A move of a task's own is a step of the machine. -/
theorem Own.step (h : Own M s s') : Step M s s' := by
  cases h with
  | act i hi a w hx => exact .act i hi a w hx
  | abandon i hi w hx => exact .abandon i hi w hx

theorem Reachable.own (h : Reachable M s) (hs : Relation.ReflTransGen (Own M) s s') :
    Reachable M s' := by
  induction hs with
  | refl => exact h
  | tail _ hown ih => exact ih.step hown.step

def State.Settled (s : State Req Op Ans W Res) (i : ℕ) (r : Req) : Prop :=
  (∃ a, s.Returned i r a) ∨ s.tasks i = .abandoned r

namespace RwLock

variable {X : RwLock M D D'}

/-- An operation is refused only where the lock is taken. -/
def Serves (X : RwLock M D D') : Prop :=
  ∀ i v op, (X.access op = .read → X.writer v.world = none) →
    (X.access op = .write → X.writer v.world = none ∧ X.readers v.world = ∅) →
    (∃ a w, M.exec i v op a w) ∨ ∃ w, M.abandon i v op w

/-- Task `i` has moved on by itself, to where it holds `mode'`; the others have not noticed. -/
structure Onward (X : RwLock M D D') (i : ℕ) (s s' : State Req Op Ans W Res) (mode' : Mode) : Prop where
  moves : Relation.ReflTransGen (Own M) s s'
  sits : X.Sits s'
  mode : X.mode s'.view.world i = mode'
  others : ∀ j, j ≠ i → s'.tasks j = s.tasks j
    ∧ X.mode s'.view.world j = X.mode s.view.world j

theorem Onward.trans {i : ℕ} {s s' s'' : State Req Op Ans W Res} {mode mode' : Mode}
    (h : X.Onward i s s' mode) (h' : X.Onward i s' s'' mode') : X.Onward i s s'' mode' :=
  ⟨h.moves.trans h'.moves, h'.sits, h'.mode, fun j hj =>
    ⟨((h'.others j hj).1).trans (h.others j hj).1, ((h'.others j hj).2).trans (h.others j hj).2⟩⟩

/-- **One operation of a running task**, if the lock is not in its way: it is performed, or panics,
and the others do not notice. -/
theorem Sits.onward (hserves : X.Serves) (h : X.Sits s) {i : ℕ} {r : Req} {op : Op}
    {k : Ans op → Prog Op Ans Res} (hi : s.tasks i = .running r (.call op k))
    (hread : X.access op = .read → X.writer s.view.world = none)
    (hwrite : X.access op = .write → X.writer s.view.world = none ∧ X.readers s.view.world = ∅) :
    ∃ s' mode', X.Onward i s s' mode'
      ∧ ((∃ a, s'.tasks i = .running r (k a)) ∨ s'.tasks i = .abandoned r ∧ mode' = .out) := by
  obtain ⟨mode', hnext, hk⟩ := h.next hi
  rcases hserves i s.view op hread hwrite with ⟨a, w, hx⟩ | ⟨w, hx⟩
  · have hperf := performed_of_exec h.exclusive hnext hx
    refine ⟨_, mode', ⟨.single (.act i hi a w hx), h.act hi hx, hperf.mode, fun j hj => ?_⟩,
      .inl ⟨a, s.move_self _ i _⟩⟩
    exact ⟨s.move_of_ne _ hj _, (hperf.rely j hj).mode⟩
  · have hperf := performed_of_abandon h.exclusive hx
    refine ⟨_, .out, ⟨.single (.abandon i hi w hx), h.move hperf rfl, hperf.mode, fun j hj => ?_⟩,
      .inr ⟨s.move_self _ i _, rfl⟩⟩
    exact ⟨s.move_of_ne _ hj _, (hperf.rely j hj).mode⟩

/-- **Whoever holds the lock can go on until it has given it back.** Induction on what is left of
its program; while it holds the lock none of its operations waits for it. -/
theorem Sits.release (hserves : X.Serves) {i : ℕ} {r : Req} {p : Prog Op Ans Res} :
    ∀ {s : State Req Op Ans W Res}, X.Sits s → s.tasks i = .running r p →
      ∃ s', X.Onward i s s' .out
        ∧ ((∃ p', s'.tasks i = .running r p') ∨ s'.tasks i = .abandoned r) := by
  induction p with
  | ret a =>
    intro s h hi
    have hfits := h.fits i
    rw [hi] at hfits
    generalize hmode : X.mode s.view.world i = mode at hfits
    cases hfits with
    | ret => exact ⟨s, ⟨.refl, h, hmode, fun j _ => ⟨rfl, rfl⟩⟩, .inl ⟨_, hi⟩⟩
  | call op k ih =>
    intro s h hi
    cases hmode : X.mode s.view.world i with
    | out => exact ⟨s, ⟨.refl, h, hmode, fun j _ => ⟨rfl, rfl⟩⟩, .inl ⟨_, hi⟩⟩
    | _ =>
      -- it is not about to acquire what it holds
      obtain ⟨mode₁, hnext, -⟩ := h.next hi
      have hnot : X.access op ≠ .read ∧ X.access op ≠ .write := by
        rw [hmode] at hnext
        constructor <;> (intro hop; rw [hop] at hnext; cases hnext)
      obtain ⟨s₁, mode', honward, ⟨a, ha⟩ | ⟨hdropped, rfl⟩⟩ := h.onward hserves hi
        (fun hop => absurd hop hnot.1) fun hop => absurd hop hnot.2
      · obtain ⟨s₂, honward₂, hstatus⟩ := ih a honward.sits ha
        exact ⟨s₂, honward.trans honward₂, hstatus⟩
      · exact ⟨s₁, honward, .inr hdropped⟩

/-- **Where nobody else holds it, a task can go on to its end.** Induction on what is left of its
program: whatever it does with the lock, the lock is not in its way. -/
theorem Sits.finish (hserves : X.Serves) {i : ℕ} {r : Req} {p : Prog Op Ans Res} :
    ∀ {s : State Req Op Ans W Res}, X.Sits s → s.tasks i = .running r p →
      (∀ j, j ≠ i → X.mode s.view.world j = .out) →
      ∃ s', X.Onward i s s' .out ∧ s'.Settled i r := by
  induction p with
  | ret a =>
    intro s h hi _
    have hfits := h.fits i
    rw [hi] at hfits
    generalize hmode : X.mode s.view.world i = mode at hfits
    cases hfits with
    | ret => exact ⟨s, ⟨.refl, h, hmode, fun j _ => ⟨rfl, rfl⟩⟩, .inl ⟨_, hi⟩⟩
  | call op k ih =>
    intro s h hi hothers
    obtain ⟨mode₁, hnext, -⟩ := h.next hi
    -- a task that acquires the lock finds it free
    have hfree : X.mode s.view.world i = .out →
        X.writer s.view.world = none ∧ X.readers s.view.world = ∅ := by
      intro hout
      have hall : ∀ j, X.mode s.view.world j = .out := fun j => by
        by_cases hj : j = i
        · rw [hj, hout]
        · exact hothers j hj
      constructor
      · cases hwriter : X.writer s.view.world with
        | none => rfl
        | some j => exact absurd hwriter (mode_eq_out.mp (hall j)).1
      · exact Finset.eq_empty_of_forall_notMem fun j => (mode_eq_out.mp (hall j)).2
    have hout : X.access op = .read ∨ X.access op = .write → X.mode s.view.world i = .out := by
      intro hop
      generalize X.mode s.view.world i = mode at hnext
      rcases hop with hop | hop <;> rw [hop] at hnext <;> cases mode <;> first | rfl | cases hnext
    obtain ⟨s₁, mode', honward, ⟨a, ha⟩ | ⟨hdropped, rfl⟩⟩ := h.onward hserves hi
      (fun hop => (hfree (hout (.inl hop))).1) fun hop => hfree (hout (.inr hop))
    · obtain ⟨s₂, honward₂, hsettled⟩ := ih a honward.sits ha
        fun j hj => (honward.others j hj).2.trans (hothers j hj)
      exact ⟨s₂, honward.trans honward₂, hsettled⟩
    · exact ⟨s₁, honward, .inr hdropped⟩

theorem settled_of_tasks {i : ℕ} {r : Req} (h : s.Settled i r) (htasks : s'.tasks i = s.tasks i) :
    s'.Settled i r := by
  rcases h with ⟨a, ha⟩ | ha
  · exact .inl ⟨a, htasks.trans ha⟩
  · exact .inr (htasks.trans ha)

/-- The tasks below `n` have given the lock back, one after the other, and those from `n` on are where
they were. Induction on `n`. -/
theorem Sits.release_below (hserves : X.Serves) (h : X.Sits s) (n : ℕ) :
    ∃ s', Relation.ReflTransGen (Own M) s s' ∧ X.Sits s'
      ∧ (∀ j, j < n → X.mode s'.view.world j = .out)
      ∧ (∀ j, n ≤ j → s'.tasks j = s.tasks j ∧ X.mode s'.view.world j = X.mode s.view.world j)
      ∧ ∀ j r p, s.tasks j = .running r p →
        (∃ p', s'.tasks j = .running r p') ∨ s'.tasks j = .abandoned r := by
  induction n with
  | zero =>
    exact ⟨s, .refl, h, fun j hj => absurd hj (Nat.not_lt_zero j), fun _ _ => ⟨rfl, rfl⟩,
      fun j r p hj => .inl ⟨p, hj⟩⟩
  | succ n ih =>
    obtain ⟨s₁, hmoves, hsits, hout, hrest, hrunning⟩ := ih
    by_cases hn : ∃ r p, s₁.tasks n = .running r p
    · obtain ⟨r, p, hp⟩ := hn
      obtain ⟨s₂, honward, hstatus⟩ := hsits.release hserves hp
      refine ⟨s₂, hmoves.trans honward.moves, honward.sits, ?_, ?_, ?_⟩
      · intro j hj
        by_cases hjn : j = n
        · rw [hjn, honward.mode]
        · rw [(honward.others j hjn).2]
          exact hout j (by omega)
      · intro j hj
        have hjn : j ≠ n := by omega
        exact ⟨((honward.others j hjn).1).trans (hrest j (by omega)).1,
          ((honward.others j hjn).2).trans (hrest j (by omega)).2⟩
      · intro j r' p' hj
        by_cases hjn : j = n
        · subst hjn
          have hsame := (hrest j (Nat.le_refl j)).1.trans hj
          rw [hp] at hsame
          cases hsame
          exact hstatus
        · rw [(honward.others j hjn).1]
          exact hrunning j r' p' hj
    · refine ⟨s₁, hmoves, hsits, ?_, fun j hj => hrest j (by omega), hrunning⟩
      intro j hj
      by_cases hjn : j = n
      · subst hjn
        have hfits := hsits.fits j
        cases ht : s₁.tasks j with
        | running r p => exact absurd ⟨r, p, ht⟩ hn
        | idle =>
          rw [ht] at hfits
          exact hfits
        | abandoned r =>
          rw [ht] at hfits
          exact hfits
      · exact hout j (by omega)

/-- Those below `n` have come to their end, once everybody is out of the lock. Induction on `n`,
each time with the lock free again. -/
theorem Sits.finish_below (hserves : X.Serves) (h : X.Sits s)
    (hout : ∀ j, X.mode s.view.world j = .out) (n : ℕ) :
    ∃ s', Relation.ReflTransGen (Own M) s s' ∧ X.Sits s'
      ∧ (∀ j, X.mode s'.view.world j = .out) ∧ (∀ j, n ≤ j → s'.tasks j = s.tasks j)
      ∧ (∀ j r, s.tasks j = .abandoned r → s'.tasks j = .abandoned r)
      ∧ ∀ j, j < n → ∀ r p, s.tasks j = .running r p → s'.Settled j r := by
  induction n with
  | zero =>
    exact ⟨s, .refl, h, hout, fun _ _ => rfl, fun _ _ hj => hj,
      fun j hj => absurd hj (Nat.not_lt_zero j)⟩
  | succ n ih =>
    obtain ⟨s₁, hmoves, hsits, hout₁, hrest, hkeeps, hdone⟩ := ih
    by_cases hn : ∃ r p, s₁.tasks n = .running r p
    · obtain ⟨r, p, hp⟩ := hn
      obtain ⟨s₂, honward, hsettled⟩ := hsits.finish hserves hp fun j _ => hout₁ j
      refine ⟨s₂, hmoves.trans honward.moves, honward.sits, ?_, ?_, ?_, ?_⟩
      · intro j
        by_cases hjn : j = n
        · rw [hjn, honward.mode]
        · rw [(honward.others j hjn).2, hout₁ j]
      · intro j hj
        exact ((honward.others j (by omega)).1).trans (hrest j (by omega))
      · intro j r' hj
        have hj₁ := hkeeps j r' hj
        have hjn : j ≠ n := by
          rintro rfl
          rw [hj₁] at hp
          cases hp
        exact ((honward.others j hjn).1).trans hj₁
      · intro j hj r' p' hj'
        by_cases hjn : j = n
        · subst hjn
          have hsame := (hrest j (Nat.le_refl j)).trans hj'
          rw [hp] at hsame
          cases hsame
          exact hsettled
        · exact settled_of_tasks (hdone j (by omega) r' p' hj') (honward.others j hjn).1
    · refine ⟨s₁, hmoves, hsits, hout₁, fun j hj => hrest j (by omega), hkeeps, ?_⟩
      intro j hj r p hj'
      by_cases hjn : j = n
      · subst hjn
        exact absurd ⟨r, p, (hrest j (Nat.le_refl j)).trans hj'⟩ hn
      · exact hdone j (by omega) r p hj'

end RwLock

/-- **No run gets stuck**: the tasks that run can all be brought to their end, by moves of their own
alone. Those that hold the lock go first; after them everyone finds it free. -/
theorem Reachable.settles (h : Reachable M s) (X : RwLock M D D') (hserves : X.Serves) :
    ∃ s', Relation.ReflTransGen (Own M) s s' ∧ X.writer s'.view.world = none
      ∧ X.readers s'.view.world = ∅ ∧ ∀ i r p, s.tasks i = .running r p → s'.Settled i r := by
  obtain ⟨n, hn⟩ := h.idle_beyond
  obtain ⟨s₁, hmoves₁, hsits₁, hout, hrest, hrunning⟩ := (h.sits X).release_below hserves n
  have hout₁ : ∀ j, X.mode s₁.view.world j = .out := by
    intro j
    by_cases hj : j < n
    · exact hout j hj
    · obtain ⟨-, hmode⟩ := hrest j (by omega)
      have hfits := (h.sits X).fits j
      rw [hn j (by omega)] at hfits
      exact hmode.trans hfits
  obtain ⟨s₂, hmoves₂, hsits₂, hout₂, -, hkeeps, hdone⟩ := hsits₁.finish_below hserves hout₁ n
  refine ⟨s₂, hmoves₁.trans hmoves₂, ?_, ?_, ?_⟩
  · cases hwriter : X.writer s₂.view.world with
    | none => rfl
    | some j => exact absurd hwriter (RwLock.mode_eq_out.mp (hout₂ j)).1
  · exact Finset.eq_empty_of_forall_notMem fun j => (RwLock.mode_eq_out.mp (hout₂ j)).2
  · intro i r p hi
    have hlt : i < n := by
      by_contra hge
      rw [hn i (by omega)] at hi
      cases hi
    rcases hrunning i r p hi with ⟨p', hp'⟩ | hdropped
    · exact hdone i hlt r p' hp'
    · exact .inr (hkeeps i r hdropped)

end AuthnKit.Interleave
