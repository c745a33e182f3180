import Mathlib

/-!
# AuthnKit — sequential consultation

A list of parties is asked in order, over a world each of them may change, until one gives an
answer that is not a refusal to decide. The parties are arbitrary: nothing is assumed about
what they answer or do to the world.

* **`run`** — the consultation: the deciding answer, if any, and the world it leaves.
* **`Decides`** — the specification: party `i` answers `a`, which is no refusal, in the world
  left by the parties before it, all of which refused.
* **`run_eq_some_iff`, `run_eq_none_iff`** — the consultation computes the specification.
* **`run_logged`** — instrumented with a log, the parties consulted are `0, 1, …` in order,
  each once, up to the deciding one.
-/

namespace AuthnKit.Consult

variable {W A : Type}

/-- A party: asked in a world, it answers and leaves a world. -/
abbrev Party (W A : Type) := W → A × W

variable (declines : A → Prop)

/-- The world once the first `i` parties have been asked. -/
def worldAt (parties : List (Party W A)) (w : W) (i : ℕ) : W :=
  (parties.take i).foldl (fun w p => (p w).2) w

/-- What party `i` answers when it is asked after all those before it. -/
def answerAt (parties : List (Party W A)) (w : W) (i : ℕ) : Option A :=
  parties[i]?.map fun p => (p (worldAt parties w i)).1

/-- Every party before `i` exists and declines. -/
def DeclinedBefore (parties : List (Party W A)) (w : W) (i : ℕ) : Prop :=
  ∀ j < i, ∃ a, answerAt parties w j = some a ∧ declines a

/-- Party `i` is the first that does not decline, and it answers `a`. -/
def Decides (parties : List (Party W A)) (w : W) (i : ℕ) (a : A) : Prop :=
  answerAt parties w i = some a ∧ ¬ declines a ∧ DeclinedBefore declines parties w i

/-- Every party declines. -/
def AllDecline (parties : List (Party W A)) (w : W) : Prop :=
  DeclinedBefore declines parties w parties.length

/-! ## Peeling off the first party

What the later parties are asked depends on the world the first one leaves. Each notion at position
`i + 1` is therefore the same notion at `i` for the rest of the list, in that world. -/

@[simp] theorem worldAt_zero (parties : List (Party W A)) (w : W) : worldAt parties w 0 = w := rfl

@[simp] theorem worldAt_cons_succ (p : Party W A) (rest : List (Party W A)) (w : W) (i : ℕ) :
    worldAt (p :: rest) w (i + 1) = worldAt rest (p w).2 i := rfl

@[simp] theorem answerAt_cons_zero (p : Party W A) (rest : List (Party W A)) (w : W) :
    answerAt (p :: rest) w 0 = some (p w).1 := rfl

@[simp] theorem answerAt_cons_succ (p : Party W A) (rest : List (Party W A)) (w : W) (i : ℕ) :
    answerAt (p :: rest) w (i + 1) = answerAt rest (p w).2 i := rfl

@[simp] theorem answerAt_nil (w : W) (i : ℕ) : answerAt ([] : List (Party W A)) w i = none := rfl

theorem answerAt_eq_none {parties : List (Party W A)} {w : W} {i : ℕ}
    (h : parties.length ≤ i) : answerAt parties w i = none := by
  unfold answerAt
  rw [List.getElem?_eq_none h]
  rfl

/-- An answer comes from a party that is in the list, so a position with an answer is below its
length. -/
theorem lt_length_of_answerAt {parties : List (Party W A)} {w : W} {i : ℕ} {a : A}
    (h : answerAt parties w i = some a) : i < parties.length := by
  by_contra hlt
  rw [answerAt_eq_none (Nat.le_of_not_lt hlt)] at h
  exact absurd h (by simp)

theorem declinedBefore_zero (parties : List (Party W A)) (w : W) :
    DeclinedBefore declines parties w 0 := by
  intro j hj
  exact absurd hj (Nat.not_lt_zero j)

/-- The parties before `i + 1` decline when the first one does and those before `i` in the rest do,
asked in the world it leaves. -/
theorem declinedBefore_cons_succ (p : Party W A) (rest : List (Party W A)) (w : W) (i : ℕ) :
    DeclinedBefore declines (p :: rest) w (i + 1)
      ↔ declines (p w).1 ∧ DeclinedBefore declines rest (p w).2 i := by
  constructor
  · intro h
    have hhead : declines (p w).1 := by simpa using h 0 (Nat.succ_pos i)
    refine ⟨hhead, ?_⟩
    intro j hj
    have hj' := h (j + 1) (Nat.succ_lt_succ hj)
    rwa [answerAt_cons_succ] at hj'
  · rintro ⟨hhead, hrest⟩ j hj
    cases j with
    | zero => exact ⟨(p w).1, rfl, hhead⟩
    | succ j =>
      rw [answerAt_cons_succ]
      exact hrest j (Nat.lt_of_succ_lt_succ hj)

/-- Party `i + 1` decides when the first one declines and party `i` of the rest decides, asked in
the world it leaves. -/
theorem decides_cons_succ (p : Party W A) (rest : List (Party W A)) (w : W) (i : ℕ) (a : A) :
    Decides declines (p :: rest) w (i + 1) a
      ↔ declines (p w).1 ∧ Decides declines rest (p w).2 i a := by
  unfold Decides
  rw [answerAt_cons_succ, declinedBefore_cons_succ]
  tauto

/-- The first party decides exactly when what it answers does not decline. -/
theorem decides_cons_zero (p : Party W A) (rest : List (Party W A)) (w : W) (a : A) :
    Decides declines (p :: rest) w 0 a ↔ (p w).1 = a ∧ ¬ declines a := by
  unfold Decides
  rw [answerAt_cons_zero]
  have h0 := declinedBefore_zero declines (p :: rest) w
  simp [h0]

/-! ## The consultation computes the specification

Asking in order until somebody does not decline is a recursion; who decides is a statement about
positions. The two agree, by induction on the list. -/

variable [DecidablePred declines]

/-- Ask the parties in order until one does not decline. -/
def run : List (Party W A) → W → Option A × W
  | [], w => (none, w)
  | p :: rest, w => if declines (p w).1 then run rest (p w).2 else (some (p w).1, (p w).2)

/-- How many parties `run` asks. -/
def consulted : List (Party W A) → W → ℕ
  | [], _ => 0
  | p :: rest, w => if declines (p w).1 then consulted rest (p w).2 + 1 else 1

variable {declines}

/-- The consultation ends with `a` exactly when some party decides `a`. Induction on the list: the
first party either decides or is skipped on both sides. -/
theorem run_eq_some_iff (parties : List (Party W A)) (w : W) (a : A) :
    (run declines parties w).1 = some a ↔ ∃ i, Decides declines parties w i a := by
  induction parties generalizing w with
  | nil => simp [run, Decides]
  | cons p rest ih =>
    by_cases hp : declines (p w).1
    · rw [run, if_pos hp, ih]
      constructor
      · rintro ⟨i, hi⟩
        exact ⟨i + 1, (decides_cons_succ declines p rest w i a).mpr ⟨hp, hi⟩⟩
      · rintro ⟨i, hi⟩
        cases i with
        | zero =>
          obtain ⟨rfl, hna⟩ := (decides_cons_zero declines p rest w a).mp hi
          exact absurd hp hna
        | succ i => exact ⟨i, ((decides_cons_succ declines p rest w i a).mp hi).2⟩
    · rw [run, if_neg hp]
      constructor
      · intro h
        have ha : (p w).1 = a := Option.some.inj h
        exact ⟨0, (decides_cons_zero declines p rest w a).mpr ⟨ha, ha ▸ hp⟩⟩
      · rintro ⟨i, hi⟩
        cases i with
        | zero => exact congrArg some ((decides_cons_zero declines p rest w a).mp hi).1
        | succ i => exact absurd ((decides_cons_succ declines p rest w i a).mp hi).1 hp

/-- The consultation ends undecided exactly when every party declines, each in the world left by
those before it. -/
theorem run_eq_none_iff (parties : List (Party W A)) (w : W) :
    (run declines parties w).1 = none ↔ AllDecline declines parties w := by
  unfold AllDecline
  induction parties generalizing w with
  | nil => simp [run, declinedBefore_zero]
  | cons p rest ih =>
    rw [List.length_cons, declinedBefore_cons_succ]
    by_cases hp : declines (p w).1
    · rw [run, if_pos hp, ih]
      simp [hp]
    · rw [run, if_neg hp]
      simp [hp]

/-- The deciding party is the last one asked: nobody after it is. -/
theorem Decides.consulted_eq {parties : List (Party W A)} {w : W} {i : ℕ} {a : A}
    (h : Decides declines parties w i a) : consulted declines parties w = i + 1 := by
  induction parties generalizing w i with
  | nil => exact absurd (lt_length_of_answerAt h.1) (Nat.not_lt_zero i)
  | cons p rest ih =>
    cases i with
    | zero =>
      obtain ⟨rfl, hna⟩ := (decides_cons_zero declines p rest w a).mp h
      rw [consulted, if_neg hna]
    | succ i =>
      obtain ⟨hp, hrest⟩ := (decides_cons_succ declines p rest w i a).mp h
      rw [consulted, if_pos hp, ih hrest]

theorem AllDecline.consulted_eq {parties : List (Party W A)} {w : W}
    (h : AllDecline declines parties w) : consulted declines parties w = parties.length := by
  induction parties generalizing w with
  | nil => rfl
  | cons p rest ih =>
    unfold AllDecline at h ih
    rw [List.length_cons, declinedBefore_cons_succ] at h
    rw [consulted, if_pos h.1, ih h.2, List.length_cons]

/-! ## Who was asked

Whether a party was asked cannot be read off its answer. Each party is given a log to sign, which
changes nothing else about it. -/

/-- Party number `i`, writing its number to a log when asked. -/
def logged (i : ℕ) (p : Party W A) : Party (W × List ℕ) A :=
  fun s => ((p s.1).1, (p s.1).2, s.2 ++ [i])

/-- **Each party asked is asked once, in order.** Numbering the parties from `k` on, the log grows
by the next `consulted` numbers, and the log changes nothing else. Induction on the list. -/
theorem run_logged (parties : List (Party W A)) (w : W) (log : List ℕ) (k : ℕ) :
    run declines (parties.mapIdx fun i p => logged (k + i) p) (w, log)
      = ((run declines parties w).1, (run declines parties w).2,
          log ++ List.range' k (consulted declines parties w)) := by
  induction parties generalizing w log k with
  | nil => simp [run, consulted]
  | cons p rest ih =>
    rw [List.mapIdx_cons]
    have hshift : (rest.mapIdx fun i p => logged (k + (i + 1)) p)
        = rest.mapIdx fun i p => logged (k + 1 + i) p := by
      congr 1
      funext i p
      congr 1
      omega
    rw [hshift]
    by_cases hp : declines (p w).1
    · have hlog : declines ((logged (k + 0) p) (w, log)).1 := hp
      rw [run, if_pos hlog, run, if_pos hp, consulted, if_pos hp]
      have hstep : ((logged (k + 0) p) (w, log)).2 = ((p w).2, log ++ [k]) := rfl
      rw [hstep, ih, List.append_assoc, List.range'_succ]
      rfl
    · have hlog : ¬ declines ((logged (k + 0) p) (w, log)).1 := hp
      rw [run, if_neg hlog, run, if_neg hp, consulted, if_neg hp]
      rfl

end AuthnKit.Consult
