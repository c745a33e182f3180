import AuthnKit.Oidc.ProviderRuns

/-!
# AuthnKit — what the refresh lock guards

The invariant of every run of the calls to one provider. `gap` is a length of time that a fetch
which fails or is given up lasts for at least; with `gap = 0` that restricts nothing.

* **`Inv`** — a fetch in flight is under the lock; every fetch that was started is still under the
  lock, ended late, or was stored; starts are `gap` apart; what is stored was fetched.
* **`sound_refresh`** — one `refresh` keeps it, whatever the others do: the walk through its
  operations.
* **`valid`** — every run keeps it.
-/

namespace AuthnKit

open Interleave

def Starts (ev : ProviderEvent) : Prop := ∃ issuer, ev.Did (.discoverStart issuer) ()

/-- Task `i` has fetched this snapshot: its discovery was answered, and the clock was read. -/
def FetchedBy (c : ProviderService) (past : List ProviderEvent) (i : ℕ) (state : ProviderState) :
    Prop :=
  ∃ fetch ∈ past, fetch.task = i ∧ ∃ issuer metadata,
    fetch.Did (.discoverAwait issuer) (.ok metadata) ∧ state = c.stateOf metadata state.fetchedAt

/-- Every fetch task `i` has started is at least `gap` old. -/
def Lingers (gap : ℕ) (i : ℕ) (v : ProviderView) (now : Instant) : Prop :=
  ∀ start ∈ v.history, start.task = i → Starts start → start.post.now.nanos + gap ≤ now.nanos

/-- If the operation is a fetch that fails, it is at least `gap` old. -/
def FailsLate (gap : ℕ) (i : ℕ) (v : ProviderView) (op : ProviderOp) (a : op.Answer)
    (w : ProviderWorld) : Prop :=
  ∀ issuer e, (⟨op, a⟩ : Σ op : ProviderOp, op.Answer) = ⟨.discoverAwait issuer, .error e⟩ →
    Lingers gap i v w.now

namespace ProviderService

variable (c : ProviderService) (gap : ℕ)

/-- The runs whose fetches, when they fail or are given up, do so no sooner than `gap` after
their start. -/
def lingering : Machine ProviderCall ProviderOp ProviderOp.Answer ProviderWorld
    (Except AuthError (Option IdentityClaims)) :=
  c.machine.restrict (FailsLate gap) (fun i v _ w => Lingers gap i v w.now) fun _ _ => True

/-! ## The invariant

The clock readings of fetches and snapshots, and who holds the lock. The gap is a parameter: with no
gap it is an invariant of all runs, with the refresh interval it bounds how often the issuer is
asked. -/

structure Inv (v : ProviderView) : Prop where
  fetched : v.world.state.value.fetchedAt ≤ v.world.now
  flight : ∀ i ∈ v.world.inFlight, v.world.holder = some i ∧ ∃ ev ∈ v.history, ev.task = i ∧ Starts ev
  nodup : v.world.inFlight.Nodup
  /-- A fetch that was started is still under the lock, ended late, or was stored. -/
  starts : ∀ ev ∈ v.history, Starts ev → v.world.holder = some ev.task
    ∨ ev.post.now.nanos + gap ≤ v.world.now.nanos ∨ ev.post.now ≤ v.world.state.value.fetchedAt
  spaced : ∀ ev past, Happened v.history ev past → Starts ev → ∀ ev' ∈ past, Starts ev' →
    ev'.post.now.nanos + gap ≤ ev.pre.now.nanos
  stored : ∀ ev past, Happened v.history ev past → ∀ state, ev.Did (.write state) () →
    FetchedBy c past ev.task state ∧ ev.pre.state.value.fetchedAt ≤ state.fetchedAt

/-- What a task may rely on: time does not run backwards, and while it holds the lock nobody else
touches the snapshot. -/
structure Rely (i : ℕ) (v v' : ProviderView) : Prop where
  now : v.world.now ≤ v'.world.now
  held : v.world.holder = some i → v'.world.holder = some i ∧ v'.world.state = v.world.state
    ∧ v'.world.inFlight = v.world.inFlight

theorem Rely.refl (i : ℕ) (v : ProviderView) : Rely i v v :=
  ⟨Nat.le_refl _, fun h => ⟨h, rfl, rfl⟩⟩

/-- What may be relied on over two stretches may be relied on over both. -/
theorem Rely.trans {i : ℕ} {v₁ v₂ v₃ : ProviderView} (h₁ : Rely i v₁ v₂) (h₂ : Rely i v₂ v₃) :
    Rely i v₁ v₃ := by
  refine ⟨Nat.le_trans h₁.now h₂.now, ?_⟩
  intro hheld
  obtain ⟨hheld₁, hstate₁, hflight₁⟩ := h₁.held hheld
  obtain ⟨hheld₂, hstate₂, hflight₂⟩ := h₂.held hheld₁
  exact ⟨hheld₂, hstate₂.trans hstate₁, hflight₂.trans hflight₁⟩

/-- While a task holds the lock the others have nothing to rely on but the clock. -/
theorem Rely.of_holder {i j : ℕ} {v v' : ProviderView} (hheld : v.world.holder = some i)
    (hnow : v.world.now ≤ v'.world.now) (hj : j ≠ i) : Rely j v v' := by
  refine ⟨hnow, ?_⟩
  intro hj'
  exact absurd (Option.some.inj (hj'.symm.trans hheld)) hj

def contract : Contract (c.lingering gap) where
  inv := c.Inv gap
  rely := Rely
  pre _ _ _ _ := True
  post _ _ _ _ := True

variable {c gap}

/-! ## One step

What an operation, the passing of time and a dropped call do to the invariant. -/

/-- An operation that starts nothing and stores nothing keeps the invariant if it keeps the
snapshot, and the fetches it lets out of the lock ended late or were stored. -/
theorem Inv.after {v : ProviderView} (hv : c.Inv gap v) {ev : ProviderEvent}
    (hstart : ¬ Starts ev) (hwrite : ∀ state, ¬ ev.Did (.write state) ())
    (hnow : ev.post.now = v.world.now) (hstate : ev.post.state = v.world.state)
    (hflight : ∀ i ∈ ev.post.inFlight, i ∈ v.world.inFlight ∧ ev.post.holder = some i)
    (hnodup : ev.post.inFlight.Nodup)
    (hheld : ∀ start ∈ v.history, Starts start → v.world.holder = some start.task →
      ev.post.holder = some start.task ∨ start.post.now.nanos + gap ≤ v.world.now.nanos
        ∨ start.post.now ≤ v.world.state.value.fetchedAt) :
    c.Inv gap (v.after ev) where
  fetched := by
    show ev.post.state.value.fetchedAt ≤ ev.post.now
    rw [hnow, hstate]
    exact hv.fetched
  flight := by
    intro i hi
    obtain ⟨hold, hholder⟩ := hflight i hi
    obtain ⟨_, start, hmem, htask, hs⟩ := hv.flight i hold
    exact ⟨hholder, start, List.mem_cons_of_mem _ hmem, htask, hs⟩
  nodup := hnodup
  starts := by
    intro start hmem hs
    show ev.post.holder = some start.task
      ∨ start.post.now.nanos + gap ≤ ev.post.now.nanos
      ∨ start.post.now ≤ ev.post.state.value.fetchedAt
    rw [hnow, hstate]
    rcases List.mem_cons.mp hmem with rfl | hold
    · exact absurd hs hstart
    · rcases hv.starts start hold hs with hholder | hrest
      · exact hheld start hold hs hholder
      · exact .inr hrest
  spaced := by
    intro ev' past hev' hs
    rcases happened_cons_iff.mp hev' with ⟨rfl, rfl⟩ | hold
    · exact absurd hs hstart
    · exact hv.spaced ev' past hold hs
  stored := by
    intro ev' past hev' state hdid
    rcases happened_cons_iff.mp hev' with ⟨rfl, rfl⟩ | hold
    · exact absurd hdid (hwrite state)
    · exact hv.stored ev' past hold state hdid

/-- At first nothing is in flight, and nothing has happened. -/
theorem inv_init {w : ProviderWorld} (hfetched : w.state.value.fetchedAt ≤ w.now)
    (hempty : w.inFlight = []) : c.Inv gap ⟨w, []⟩ where
  fetched := hfetched
  flight := by
    show ∀ i ∈ w.inFlight, _
    rw [hempty]
    simp
  nodup := by
    show w.inFlight.Nodup
    rw [hempty]
    exact List.nodup_nil
  starts := by simp
  spaced := by
    rintro ev past ⟨later, h⟩
    exact absurd h (by simp)
  stored := by
    rintro ev past ⟨later, h⟩
    exact absurd h (by simp)

/-- The passing of time keeps it: what is old enough stays so. -/
theorem Inv.elapse {v : ProviderView} (hv : c.Inv gap v) {now : Instant}
    (hle : v.world.now ≤ now) : c.Inv gap (v.withWorld { v.world with now := now }) where
  fetched := Nat.le_trans hv.fetched hle
  flight := hv.flight
  nodup := hv.nodup
  starts := by
    intro ev hmem hs
    rw [Instant.le_def] at hle
    show v.world.holder = some ev.task ∨ ev.post.now.nanos + gap ≤ now.nanos
      ∨ ev.post.now ≤ v.world.state.value.fetchedAt
    rcases hv.starts ev hmem hs with hheld | hlate | hstored
    · exact .inl hheld
    · exact .inr (.inl (by omega))
    · exact .inr (.inr hstored)
  spaced := hv.spaced
  stored := hv.stored

/-- A dropped call keeps the invariant: it lets go of the lock, and its fetch, if any, ends late. -/
theorem Inv.abandon {v : ProviderView} (hv : c.Inv gap v) {i : ℕ} {op : ProviderOp}
    {w : ProviderWorld} (hx : ProviderWorld.abandon i v.world op w)
    (hlate : Lingers gap i v w.now) : c.Inv gap (v.withWorld w) := by
  obtain ⟨_, rfl⟩ := hx
  refine ⟨hv.fetched, ?_, hv.nodup.erase i, ?_, hv.spaced, hv.stored⟩
  · intro j hj
    obtain ⟨hne, hmem⟩ := hv.nodup.mem_erase_iff.mp hj
    obtain ⟨hholder, hstart⟩ := hv.flight j hmem
    refine ⟨?_, hstart⟩
    show (if v.world.holder = some i then none else v.world.holder) = some j
    rw [hholder, if_neg (by simpa using hne)]
  · intro ev hmem hs
    rcases hv.starts ev hmem hs with hholder | hrest
    · by_cases hi : ev.task = i
      · exact .inr (.inl (hlate ev hmem hi hs))
      · left
        show (if v.world.holder = some i then none else v.world.holder) = some ev.task
        rw [hholder, if_neg (by simpa using hi)]
    · exact .inr hrest

/-- The others rely on nothing that a dropped call gives up. -/
theorem Inv.rely_abandon {v : ProviderView} (hv : c.Inv gap v) {i j : ℕ} (hij : j ≠ i)
    {op : ProviderOp} {w : ProviderWorld} (hx : ProviderWorld.abandon i v.world op w) :
    Rely j v (v.withWorld w) := by
  obtain ⟨_, rfl⟩ := hx
  refine ⟨Nat.le_refl _, ?_⟩
  intro hheld
  have hne : v.world.holder ≠ some i := by
    rw [hheld]
    simpa using hij
  have hfree : i ∉ v.world.inFlight := fun hmem => hne (hv.flight i hmem).1
  exact ⟨by rw [View.withWorld_world, if_neg hne]; exact hheld, rfl, List.erase_of_not_mem hfree⟩

/-! ## The rules

The contract's rule for an operation, with the interference spelled out for this invariant. -/

/-- The operations that leave the provider as it is. -/
def Passive : ProviderOp → Prop
  | .read | .instantNow | .idTokenClaims _ _ _ | .requestAsync _ => True
  | _ => False

theorem exec_of_passive {i : ℕ} {w w' : ProviderWorld} {op : ProviderOp} {a : op.Answer}
    (hp : Passive op) (hx : ProviderWorld.exec i w op a w') : w' = w := by
  cases op with
  | read => exact hx.2
  | instantNow => exact hx.2
  | idTokenClaims token client nonce => exact hx
  | requestAsync request => exact hx
  | _ => exact hp.elim

section Rules

variable {α : Type} {Q : ProviderView → α → Prop} {r : ProviderCall} {i : ℕ} {v : ProviderView}
  {op : ProviderOp} {k : op.Answer → ProviderProg α}

/-- **The rule for an operation.** Being dropped at it is always tolerated, so only its answer is
left to look at. -/
theorem sound_call
    (hk : ∀ v', View.Others i v v' → Rely i v v' → c.Inv gap v' → ∀ a w,
      ProviderWorld.exec i v'.world op a w →
      (∀ issuer e, (⟨op, a⟩ : Σ op : ProviderOp, op.Answer) = ⟨.discoverAwait issuer, .error e⟩ →
        Lingers gap i v' w.now) →
      c.Inv gap (v'.after ⟨i, r, op, a, v'.world, w⟩)
      ∧ (∀ j, j ≠ i → Rely j v' (v'.after ⟨i, r, op, a, v'.world, w⟩))
      ∧ (c.contract gap).Sound Q r i (v'.after ⟨i, r, op, a, v'.world, w⟩) (k a)) :
    (c.contract gap).Sound Q r i v (.call op k) := by
  intro v' hv'
  refine ⟨trivial, ?_, ?_⟩
  · intro a w hx
    obtain ⟨hinv, hrely, hs⟩ := hk v' hv'.others hv'.rely hv'.inv a w hx.1 hx.2
    exact ⟨⟨hinv, hrely⟩, hs⟩
  · intro w hx
    have hinv : c.Inv gap v' := hv'.inv
    exact ⟨hinv.abandon hx.1 hx.2, fun j hj => hinv.rely_abandon hj hx.1⟩

/-- **The rule for a passive operation**: only its answer matters. -/
theorem sound_passive (hp : Passive op)
    (hk : ∀ v', View.Others i v v' → Rely i v v' → c.Inv gap v' → ∀ a,
      ProviderWorld.exec i v'.world op a v'.world →
      (c.contract gap).Sound Q r i (v'.after ⟨i, r, op, a, v'.world, v'.world⟩) (k a)) :
    (c.contract gap).Sound Q r i v (.call op k) := by
  apply sound_call
  intro v' ho hr hv' a w hx _
  have hw : w = v'.world := exec_of_passive hp hx
  subst hw
  refine ⟨hv'.after ?_ ?_ rfl rfl ?_ hv'.nodup ?_, ?_, hk v' ho hr hv' a hx⟩
  · rintro ⟨issuer, hdid⟩
    cases hdid
    exact hp
  · intro state hdid
    cases hdid
    exact hp
  · intro j hj
    exact ⟨hj, (hv'.flight j hj).1⟩
  · intro start _ _ hheld
    exact .inl hheld
  · intro j _
    exact ⟨Nat.le_refl _, fun h => ⟨h, rfl, rfl⟩⟩

end Rules

/-! ## What a task knows on its way

Assertions along the program: before the lock, under it, while a fetch is out and after it. Each of
them survives what the others may do. -/

/-- Task `i` has started no fetch. -/
def Unstarted (i : ℕ) (v : ProviderView) : Prop := ∀ ev ∈ v.history, ev.task = i → ¬ Starts ev

/-- A task that has started no fetch has still not, while others move. -/
theorem Unstarted.others {i : ℕ} {v v' : ProviderView} (h : Unstarted i v)
    (ho : View.Others i v v') : Unstarted i v' :=
  fun ev hev hi => h ev (ho.own hev hi) hi

theorem Unstarted.after {i : ℕ} {v : ProviderView} (h : Unstarted i v) (ev : ProviderEvent)
    (hev : ¬ Starts ev) : Unstarted i (v.after ev) := by
  intro ev' hmem hi
  rcases List.mem_cons.mp hmem with rfl | hold
  · exact hev
  · exact h ev' hold hi

/-- Task `i` may let go of the lock: nothing of its own is in flight, and its fetch, if it
started one, ended late or was stored. -/
structure Settled (gap : ℕ) (i : ℕ) (v : ProviderView) : Prop where
  holder : v.world.holder = some i
  free : i ∉ v.world.inFlight
  closed : ∀ ev ∈ v.history, ev.task = i → Starts ev →
    ev.post.now.nanos + gap ≤ v.world.now.nanos ∨ ev.post.now ≤ v.world.state.value.fetchedAt

/-- A task that may let go of the lock still may, while others move. -/
theorem Settled.others {i : ℕ} {v v' : ProviderView} (h : Settled gap i v)
    (ho : View.Others i v v') (hr : Rely i v v') : Settled gap i v' := by
  obtain ⟨hheld, hstate, hflight⟩ := hr.held h.holder
  refine ⟨hheld, by rw [hflight]; exact h.free, ?_⟩
  intro ev hmem hi hs
  rw [hstate]
  have hnow : v.world.now.nanos ≤ v'.world.now.nanos := hr.now
  rcases h.closed ev (ho.own hmem hi) hi hs with hlate | hstored
  · left
    omega
  · exact .inr hstored

/-- A task that holds the lock and has started nothing may let go of it. -/
theorem settled_of_unstarted {i : ℕ} {v : ProviderView} (hv : c.Inv gap v)
    (hheld : v.world.holder = some i) (hun : Unstarted i v) : Settled gap i v := by
  refine ⟨hheld, ?_, ?_⟩
  · intro hmem
    obtain ⟨_, ev, hev, hi, hs⟩ := hv.flight i hmem
    exact hun ev hev hi hs
  · intro ev hev hi hs
    exact absurd hs (hun ev hev hi)

section Walk

variable {Q : ProviderView → Except AuthError Unit → Prop} {r : ProviderCall} {i : ℕ}
  {v : ProviderView}

/-- Letting go of the lock keeps the invariant, if nothing of the task's own is in flight. -/
theorem sound_leave (hQ : ∀ v res, Q v res) {res : Except AuthError Unit}
    (h : Settled gap i v) : (c.contract gap).Sound Q r i v (leave res) := by
  unfold leave
  apply sound_call
  intro v' ho hr hv' a w hx _
  have h' : Settled gap i v' := h.others ho hr
  have hw : w = { v'.world with holder := none } := hx
  subst hw
  -- nobody else has anything in flight while this task holds the lock
  have hempty : ∀ j, j ∉ v'.world.inFlight := by
    intro j hj
    have hji : some j = some i := (hv'.flight j hj).1.symm.trans h'.holder
    exact h'.free (Option.some.inj hji ▸ hj)
  refine ⟨hv'.after ?_ ?_ rfl rfl ?_ hv'.nodup ?_, ?_, fun v'' _ => hQ v'' res⟩
  · rintro ⟨issuer, hdid⟩
    cases hdid
  · intro state hdid
    cases hdid
  · intro j hj
    exact absurd hj (hempty j)
  · intro start hmem hs hheld
    have hi : start.task = i := Option.some.inj (hheld.symm.trans h'.holder)
    exact .inr (h'.closed start hmem hi hs)
  · exact fun j hj => .of_holder h'.holder (Nat.le_refl _) hj

/-- Task `i` holds the lock, and no fetch of its own started after `now`. -/
structure Under (i : ℕ) (now : Instant) (v : ProviderView) : Prop where
  holder : v.world.holder = some i
  own : ∀ ev ∈ v.history, ev.task = i → Starts ev → ev.post.now ≤ now
  past : now ≤ v.world.now

/-- A task that holds the lock keeps it while others move. -/
theorem Under.others {now : Instant} {v' : ProviderView} (h : Under i now v)
    (ho : View.Others i v v') (hr : Rely i v v') : Under i now v' :=
  ⟨(hr.held h.holder).1, fun ev hev hi => h.own ev (ho.own hev hi) hi, Nat.le_trans h.past hr.now⟩

/-- The successful end of a fetch: what it answered is stored, with the time of the reading after
it. -/
theorem sound_store (hQ : ∀ v res, Q v res) {metadata : ProviderMetadata} {now : Instant}
    (hu : Under i now v) (hfree : i ∉ v.world.inFlight)
    (hold : v.world.state.value.fetchedAt ≤ now)
    (hfetch : FetchedBy c v.history i (c.stateOf metadata now)) :
    (c.contract gap).Sound Q r i v
      (.call (.write (c.stateOf metadata now)) fun _ => leave (.ok ())) := by
  apply sound_call
  intro v' ho hr hv' a w hx _
  obtain ⟨hheld, hstate, hflight⟩ := hr.held hu.holder
  have hu' : Under i now v' := hu.others ho hr
  have hold' : v'.world.state.value.fetchedAt ≤ now := by
    rw [hstate]
    exact hold
  obtain ⟨fetch, hmem, hfacts⟩ := hfetch
  have hw : w = { v'.world with state := ⟨v'.world.state.ptr + 1, c.stateOf metadata now⟩ } := hx
  subst hw
  have hinv : c.Inv gap (v'.after ⟨i, r, .write (c.stateOf metadata now), a, v'.world,
      { v'.world with state := ⟨v'.world.state.ptr + 1, c.stateOf metadata now⟩ }⟩) := by
    refine ⟨hu'.past, ?_, hv'.nodup, ?_, ?_, ?_⟩
    · intro j hj
      obtain ⟨hholder, start, hs⟩ := hv'.flight j hj
      exact ⟨hholder, start, List.mem_cons_of_mem _ hs.1, hs.2⟩
    · intro start hmem hs
      rcases List.mem_cons.mp hmem with rfl | hin
      · obtain ⟨issuer, hdid⟩ := hs
        cases hdid
      · -- the new snapshot is at least as recent as the one it replaces
        rcases hv'.starts start hin hs with hholder | hlate | hstored
        · exact .inl hholder
        · exact .inr (.inl hlate)
        · exact .inr (.inr (Nat.le_trans hstored hold'))
    · intro ev past hev hs
      rcases happened_cons_iff.mp hev with ⟨rfl, rfl⟩ | hin
      · obtain ⟨issuer, hdid⟩ := hs
        cases hdid
      · exact hv'.spaced ev past hin hs
    · intro ev past hev state hdid
      rcases happened_cons_iff.mp hev with ⟨rfl, rfl⟩ | hin
      · cases hdid
        exact ⟨⟨fetch, ho.mem hmem, hfacts⟩, hold'⟩
      · exact hv'.stored ev past hin state hdid
  refine ⟨hinv, ?_, sound_leave hQ ⟨hheld, by rw [← hflight] at hfree; exact hfree, ?_⟩⟩
  · exact fun j hj => .of_holder hheld (Nat.le_refl _) hj
  · intro start hmem hi hs
    right
    show start.post.now ≤ now
    rcases List.mem_cons.mp hmem with rfl | hin
    · obtain ⟨issuer, hdid⟩ := hs
      cases hdid
    · exact hu'.own start hin hi hs

/-- The answer to a fetch, and what is made of it: a failure ends late, and a success is stored. -/
theorem sound_answer (hQ : ∀ v res, Q v res) {now : Instant} (hu : Under i now v) :
    (c.contract gap).Sound Q r i v
      (.call (.discoverAwait c.config.issuerUrl) fun answer => match answer with
        | .error e => leave (.error e.toAuthError)
        | .ok metadata => .call .instantNow fun now =>
            .call (.write (c.stateOf metadata now)) fun _ => leave (.ok ())) := by
  apply sound_call
  intro v' ho hr hv' answer w hx hlate
  have hu' : Under i now v' := hu.others ho hr
  have hw : w = { v'.world with inFlight := v'.world.inFlight.erase i } := hx
  subst hw
  have hfree : i ∉ v'.world.inFlight.erase i := hv'.nodup.not_mem_erase
  refine ⟨hv'.after ?_ ?_ rfl rfl ?_ (hv'.nodup.erase i) ?_, ?_, ?_⟩
  · rintro ⟨issuer, hdid⟩
    cases hdid
  · intro state hdid
    cases hdid
  · intro j hj
    have hmem : j ∈ v'.world.inFlight := List.mem_of_mem_erase hj
    exact ⟨hmem, (hv'.flight j hmem).1⟩
  · intro start _ _ hheld
    exact .inl hheld
  · exact fun j hj => .of_holder hu'.holder (Nat.le_refl _) hj
  · cases answer with
    | error e =>
      -- a failing answer: this run only has late ones
      refine sound_leave hQ ⟨hu'.holder, hfree, ?_⟩
      intro start hmem hi hs
      left
      rcases List.mem_cons.mp hmem with rfl | hin
      · obtain ⟨issuer, hdid⟩ := hs
        cases hdid
      · exact hlate _ e rfl start hin hi hs
    | ok metadata =>
      apply sound_passive (show Passive .instantNow from trivial)
      intro v'' ho' hr' hv'' t ht
      obtain ⟨hheld, hstate, hflight⟩ := hr'.held hu'.holder
      have ht' : t = v''.world.now := ht.1
      subst ht'
      have hnow : now ≤ v''.world.now := Nat.le_trans hu'.past hr'.now
      refine sound_store hQ ⟨hheld, ?_, Nat.le_refl _⟩ ?_ hv''.fetched ?_
      · intro start hmem hi hs
        rcases List.mem_cons.mp hmem with rfl | hin
        · obtain ⟨issuer, hdid⟩ := hs
          cases hdid
        · rcases List.mem_cons.mp (ho'.own hin hi) with rfl | hin'
          · obtain ⟨issuer, hdid⟩ := hs
            cases hdid
          · exact Nat.le_trans (hu'.own start hin' hi hs) hnow
      · show i ∉ v''.world.inFlight
        rw [hflight]
        exact hfree
      · exact ⟨_, List.mem_cons_of_mem _ (ho'.mem List.mem_cons_self), rfl, _, metadata, rfl, rfl⟩

/-- The fetch, once the snapshot under the lock is found to be old: no other fetch can have started
within the gap. -/
theorem sound_fetch (hgap : gap ≤ c.config.minRefreshInterval.nanos) (hQ : ∀ v res, Q v res)
    (hheld : v.world.holder = some i) (hun : Unstarted i v)
    (hold : v.world.state.value.fetchedAt.nanos + c.config.minRefreshInterval.nanos
      ≤ v.world.now.nanos) :
    (c.contract gap).Sound Q r i v c.fetch := by
  unfold fetch
  apply sound_call
  intro v' ho hr hv' a w hx _
  obtain ⟨hheld', hstate, hflight⟩ := hr.held hheld
  have hun' : Unstarted i v' := hun.others ho
  have hnow : v.world.now.nanos ≤ v'.world.now.nanos := hr.now
  have hfree : i ∉ v'.world.inFlight := (settled_of_unstarted hv' hheld' hun').free
  have hw : w = { v'.world with inFlight := i :: v'.world.inFlight } := hx
  subst hw
  have hinv : c.Inv gap (v'.after ⟨i, r, .discoverStart c.config.issuerUrl, a, v'.world,
      { v'.world with inFlight := i :: v'.world.inFlight }⟩) := by
    refine ⟨hv'.fetched, ?_, List.nodup_cons.mpr ⟨hfree, hv'.nodup⟩, ?_, ?_, ?_⟩
    · intro j hj
      rcases List.mem_cons.mp hj with rfl | hin
      · exact ⟨hheld', _, List.mem_cons_self, rfl, _, rfl⟩
      · obtain ⟨hholder, start, hs⟩ := hv'.flight j hin
        exact ⟨hholder, start, List.mem_cons_of_mem _ hs.1, hs.2⟩
    · intro start hmem hs
      rcases List.mem_cons.mp hmem with rfl | hin
      · exact .inl hheld'
      · exact hv'.starts start hin hs
    · intro ev past hev hs ev' hmem hs'
      rcases happened_cons_iff.mp hev with ⟨rfl, rfl⟩ | hin
      · -- every earlier fetch is out of the lock, so it ended late or was stored
        show ev'.post.now.nanos + gap ≤ v'.world.now.nanos
        rcases hv'.starts ev' hmem hs' with hholder | hlate | hstored
        · exact absurd hs' (hun' ev' hmem (Option.some.inj (hholder.symm.trans hheld')))
        · exact hlate
        · rw [hstate, Instant.le_def] at hstored
          omega
      · exact hv'.spaced ev past hin hs ev' hmem hs'
    · intro ev past hev state hdid
      rcases happened_cons_iff.mp hev with ⟨rfl, rfl⟩ | hin
      · cases hdid
      · exact hv'.stored ev past hin state hdid
  refine ⟨hinv, ?_, ?_⟩
  · exact fun j hj => .of_holder hheld' (Nat.le_refl _) hj
  · refine sound_answer hQ (show Under i v'.world.now _ from ⟨hheld', ?_, Nat.le_refl _⟩)
    intro start hmem hi hs
    rcases List.mem_cons.mp hmem with rfl | hin
    · exact Nat.le_refl _
    · exact absurd hs (hun' start hin hi)

/-- Under the lock the snapshot stays what it is until the task moves, so what it read there is the
snapshot it replaces. -/
theorem sound_locked (hgap : gap ≤ c.config.minRefreshInterval.nanos) (hQ : ∀ v res, Q v res)
    (hheld : v.world.holder = some i) (hun : Unstarted i v) (observed : Arc ProviderState) :
    (c.contract gap).Sound Q r i v (c.locked observed) := by
  unfold locked
  apply sound_passive (show Passive .read from trivial)
  intro v₁ ho₁ hr₁ hv₁ current hcurrent
  have hun₁ := (hun.others ho₁).after ⟨i, r, .read, current, v₁.world, v₁.world⟩
    (by rintro ⟨issuer, hdid⟩; cases hdid)
  obtain ⟨hheld₁, _, _⟩ := hr₁.held hheld
  have hfree₁ : i ∉ v₁.world.inFlight :=
    (settled_of_unstarted hv₁ hheld₁ (hun.others ho₁)).free
  by_cases hptr : observed.ptr ≠ current.ptr
  · rw [if_pos hptr]
    exact sound_leave hQ ⟨hheld₁, hfree₁, fun ev hev hi hs => absurd hs (hun₁ ev hev hi)⟩
  · rw [if_neg hptr]
    apply sound_passive (show Passive .instantNow from trivial)
    intro v₂ ho₂ hr₂ hv₂ now hnow
    have hun₂ := (hun₁.others ho₂).after ⟨i, r, .instantNow, now, v₂.world, v₂.world⟩
      (by rintro ⟨issuer, hdid⟩; cases hdid)
    obtain ⟨hheld₂, hstate₂, hflight₂⟩ := hr₂.held hheld₁
    by_cases hfresh : c.Fresh current.value now
    · rw [if_pos hfresh]
      refine sound_leave hQ ⟨hheld₂, ?_, fun ev hev hi hs => absurd hs (hun₂ ev hev hi)⟩
      show i ∉ v₂.world.inFlight
      rw [hflight₂]
      exact hfree₁
    · rw [if_neg hfresh]
      refine sound_fetch hgap hQ hheld₂ hun₂ ?_
      have hstate : v₂.world.state = current := hstate₂.trans hcurrent.1.symm
      have hnow' : now = v₂.world.now := hnow.1
      have hold : ¬ (now.since current.value.fetchedAt).nanos
          < c.config.minRefreshInterval.nanos := hfresh
      have hfetched := hv₂.fetched
      rw [Instant.since_nanos] at hold
      rw [hstate, Instant.le_def] at hfetched
      show v₂.world.state.value.fetchedAt.nanos + c.config.minRefreshInterval.nanos
        ≤ v₂.world.now.nanos
      rw [hstate]
      rw [hnow'] at hold
      omega

/-- **One `refresh` keeps its side**, whatever the others do: most of it is passive, and the rest is
under the lock. -/
theorem sound_refresh (hgap : gap ≤ c.config.minRefreshInterval.nanos) (hQ : ∀ v res, Q v res)
    (hun : Unstarted i v) : (c.contract gap).Sound Q r i v c.refresh := by
  unfold refresh
  apply sound_passive (show Passive .read from trivial)
  intro v₁ ho₁ _ _ observed _
  have hun₁ := (hun.others ho₁).after ⟨i, r, .read, observed, v₁.world, v₁.world⟩
    (by rintro ⟨issuer, hdid⟩; cases hdid)
  apply sound_passive (show Passive .instantNow from trivial)
  intro v₂ ho₂ _ _ now₂ _
  have hun₂ := (hun₁.others ho₂).after ⟨i, r, .instantNow, now₂, v₂.world, v₂.world⟩
    (by rintro ⟨issuer, hdid⟩; cases hdid)
  by_cases hfresh : c.Fresh observed.value now₂
  · rw [if_pos hfresh]
    exact fun v' _ => hQ v' _
  · rw [if_neg hfresh]
    apply sound_call
    intro v₃ ho₃ _ hv₃ a w hx _
    obtain ⟨hnone, rfl⟩ : v₃.world.holder = none ∧ w = { v₃.world with holder := some i } := hx
    have hun₃ := (hun₂.others ho₃).after
      ⟨i, r, .lock, a, v₃.world, { v₃.world with holder := some i }⟩
      (by rintro ⟨issuer, hdid⟩; cases hdid)
    refine ⟨hv₃.after ?_ ?_ rfl rfl ?_ hv₃.nodup ?_, ?_, sound_locked hgap hQ rfl hun₃ observed⟩
    · rintro ⟨issuer, hdid⟩
      cases hdid
    · intro state hdid
      cases hdid
    · intro j hj
      exact absurd ((hv₃.flight j hj).1.symm.trans hnone) (by simp)
    · intro start _ _ hheld
      exact absurd (hheld.symm.trans hnone) (by simp)
    · intro j _
      refine ⟨Nat.le_refl _, ?_⟩
      intro hheld
      exact absurd (hheld.symm.trans hnone) (by simp)

/-- A verification attempt starts no fetch. -/
theorem sound_attempt {β : Type} {P : ProviderView → β → Prop} {idToken : IdToken}
    {nonce : NonceCheck}
    {k : Except ClaimsVerificationError IdTokenClaims → ProviderProg β}
    (hk : ∀ v₁, (Unstarted i v → Unstarted i v₁) → ∀ a, (c.contract gap).Sound P r i v₁ (k a)) :
    (c.contract gap).Sound P r i v (.call .read fun state =>
      .call (.idTokenClaims idToken state.value.client (nonce.verifier c.lib)) k) := by
  apply sound_passive (show Passive .read from trivial)
  intro v₁ ho₁ _ _ state _
  apply sound_passive (show Passive (.idTokenClaims _ _ _) from trivial)
  intro v₂ ho₂ _ _ answer _
  refine hk _ (fun hun => ?_) answer
  have hun₁ := (hun.others ho₁).after ⟨i, r, .read, state, v₁.world, v₁.world⟩
    (by rintro ⟨issuer, hdid⟩; cases hdid)
  exact (hun₁.others ho₂).after _ (by rintro ⟨issuer, hdid⟩; cases hdid)

end Walk

/-! ## Every run

The rules put together, for both kinds of call. -/

/-- **Every run keeps the invariant**: each call is sound from where it starts, and nothing else
moves it. -/
theorem valid (hgap : gap ≤ c.config.minRefreshInterval.nanos) : (c.contract gap).Valid where
  refl := Rely.refl
  trans _ _ _ _ := Rely.trans
  init w hw := inv_init hw.1 hw.2.2
  env v w hv hw := by
    obtain ⟨hle, heq⟩ : v.world.now ≤ w.now ∧ w = { v.world with now := w.now } := hw.1
    have hinv : c.Inv gap v := hv
    rw [heq]
    exact ⟨hinv.elapse hle, fun i => ⟨hle, fun hheld => ⟨hheld, rfl, rfl⟩⟩⟩
  spawn call i v _ hfresh := by
    have hun : Unstarted i v := fun ev hev hi => absurd hi (hfresh ev hev)
    have hret : ∀ (v : ProviderView) (res : Except AuthError (Option IdentityClaims)),
        (c.contract gap).Sound ((c.contract gap).post call i) call i v (.ret res) :=
      fun _ _ _ _ => trivial
    show (c.contract gap).Sound ((c.contract gap).post call i) call i v (c.body call)
    rw [body_eq]
    cases call with
    | refresh => exact Contract.sound_bind Rely.refl (sound_refresh hgap (fun _ _ => hret _ _) hun)
    | verifyIdToken token nonce =>
      simp only
      cases c.lib.parseIdToken token with
      | error e => exact hret _ _
      | ok idToken =>
        refine sound_attempt fun v₁ hun₁ first => ?_
        cases first with
        | ok claims => exact hret _ _
        | error error =>
          by_cases hstale : (!isPossiblyStaleKeys error) = true
          · simp only [if_pos hstale]
            exact hret _ _
          · simp only [if_neg hstale]
            refine Contract.sound_bind Rely.refl (sound_refresh hgap ?_ (hun₁ hun))
            intro v₂ result
            cases result with
            | error e => exact hret _ _
            | ok u => exact sound_attempt fun v₃ _ second => hret _ _

end ProviderService

end AuthnKit
