import AuthnKit.Foundation.Interleave

/-!
# AuthnKit — what a program does, given what it was told

A condition on a program that looks at the answers it has got so far: each operation it performs
must be justified by them, and so must what it returns. The condition is proved once, by walking
through the program, and then read off at any point of any behaviour.

* **`Prog.Justified`** — the condition; `past` is what the program has been answered already.
* **`Justified.op`**, **`Justified.result`** — what it says of a behaviour.
* **`Reachable.justified`** — an event of a run is justified by the earlier events of its task.
-/

namespace AuthnKit

namespace Prog

variable {Op : Type} {Ans : Op → Type} {α β : Type}

/-- After `past`, each operation the program performs satisfies `J` with everything answered before
it, and what it returns satisfies `Q` with everything answered. -/
inductive Justified (J : List (Σ op, Ans op) → Op → Prop) (Q : List (Σ op, Ans op) → α → Prop) :
    List (Σ op, Ans op) → Prog Op Ans α → Prop where
  | ret {past : List (Σ op, Ans op)} {a : α} (h : Q past a) : Justified J Q past (.ret a)
  | call {past : List (Σ op, Ans op)} {op : Op} {k : Ans op → Prog Op Ans α} (h : J past op)
      (hk : ∀ r, Justified J Q (past ++ [⟨op, r⟩]) (k r)) : Justified J Q past (.call op k)

namespace Justified

variable {J : List (Σ op, Ans op) → Op → Prop} {Q : List (Σ op, Ans op) → α → Prop}
  {past : List (Σ op, Ans op)} {p : Prog Op Ans α}

/-- Each operation of a behaviour is justified when it comes, by what has been answered before it.
-/
theorem op (h : Justified J Q past p) {tr : List (Σ op, Ans op)} {op : Op}
    {k : Ans op → Prog Op Ans α} (hl : Leads p tr (.call op k)) : J (past ++ tr) op := by
  generalize hq : Prog.call op k = q at hl
  induction hl generalizing past with
  | refl p =>
    subst hq
    cases h with
    | call hop _ => rwa [List.append_nil]
  | call _ ih =>
    cases h with
    | call _ hk =>
      have := ih (hk _) hq
      rwa [List.append_assoc] at this

/-- So is what it returns, by everything that has been answered on the way. -/
theorem result (h : Justified J Q past p) {tr : List (Σ op, Ans op)} {a : α}
    (hr : Returns p tr a) : Q (past ++ tr) a := by
  induction hr generalizing past with
  | ret a =>
    cases h with
    | ret h => rwa [List.append_nil]
  | call _ ih =>
    cases h with
    | call _ hk =>
      have := ih (hk _)
      rwa [List.append_assoc] at this

/-- Sequencing: the second program goes on where the first one ended, with what was answered there
still at its disposal. -/
theorem bind {R : List (Σ op, Ans op) → α → Prop} {Q : List (Σ op, Ans op) → β → Prop}
    {f : α → Prog Op Ans β} (h : Justified J R past p)
    (hf : ∀ past a, R past a → Justified J Q past (f a)) : Justified J Q past (p >>= f) := by
  induction h with
  | ret h => exact hf _ _ h
  | call hop _ ih => exact .call hop ih

/-- A weaker condition on the operations and on the result holds where a stronger one does. -/
theorem mono {J' : List (Σ op, Ans op) → Op → Prop} {Q' : List (Σ op, Ans op) → α → Prop}
    (hJ : ∀ past op, J past op → J' past op) (hQ : ∀ past a, Q past a → Q' past a)
    (h : Justified J Q past p) : Justified J' Q' past p := by
  induction h with
  | ret h => exact .ret (hQ _ _ h)
  | call hop _ ih => exact .call (hJ _ _ hop) ih

end Justified

end Prog

namespace Interleave

variable {Req Op : Type} {Ans : Op → Type} {W Res : Type} {M : Machine Req Op Ans W Res}
  {s : State Req Op Ans W Res} {J : Req → List (Σ op, Ans op) → Op → Prop}
  {Q : Req → List (Σ op, Ans op) → Res → Prop}

/-- What holds of the operation of an event and its answer holds of what the event did. -/
theorem Event.Did.elim {P : (op : Op) → Ans op → Prop} {e : Event Req Op Ans W} {op : Op}
    {a : Ans op} (h : e.Did op a) (hP : P e.op e.ans) : P op a := by
  obtain ⟨task, req, op', ans, pre, post⟩ := e
  cases h
  exact hP

/-- **Every event of a run is justified** by what its task had been answered before it. Judged on
programs alone, the property holds of all interleavings, since tasks follow their programs. -/
theorem Reachable.justified (h : Reachable M s)
    (hbody : ∀ r, Prog.Justified (J r) (Q r) [] (M.body r)) {e : Event Req Op Ans W}
    {past : List (Event Req Op Ans W)} (he : Happened s.view.history e past) :
    J e.req ((⟨e.pre, past⟩ : View Req Op Ans W).trace e.task) e.op := by
  obtain ⟨k, hleads⟩ := h.leads_before he
  exact (hbody e.req).op hleads

/-- What a task returns is justified by everything it was answered, in whatever order the others
moved. -/
theorem Reachable.justified_result (h : Reachable M s)
    (hbody : ∀ r, Prog.Justified (J r) (Q r) [] (M.body r)) {i : ℕ} {r : Req} {a : Res}
    (hi : s.Returned i r a) : Q r (s.view.trace i) a :=
  (hbody r).result (h.returns hi)

end Interleave

end AuthnKit
