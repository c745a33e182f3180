import Mathlib

/-!
# AuthnKit — resumption programs

Asynchronous code is modelled once and read in two ways. A `Prog Op Ans α` is a tree of
operations: it either returns, or performs one operation of a signature `Op` and continues
with the answer (`Ans op`). Everything between two operations is pure.

* **traces** — `Prog.Returns p tr a`: some environment answers the operations listed in `tr`
  and `p` then returns `a`. Every environment is covered, so a statement about all traces is
  a statement about every behaviour of whatever stands behind the operations. `Prog.Leads` is
  the same for a program that is still under way.
* **sequential runs** — `Prog.interpret` answers each operation from a state.
* **interleavings** — `AuthnKit.Foundation.Interleave` runs any number of programs over one
  shared state, one operation at a time.

Code that may fail is written in `ExceptT ε (Prog Op Ans)`; the `run_*` lemmas push
`ExceptT.run` through its constructs, so that a translated function unfolds to a `Prog` tree.
-/

namespace AuthnKit

/-- A program over the operations `Op`, whose answers are typed by `Ans`. -/
inductive Prog (Op : Type) (Ans : Op → Type) (α : Type) : Type
  | ret (a : α)
  | call (op : Op) (k : Ans op → Prog Op Ans α)

namespace Prog

variable {Op : Type} {Ans : Op → Type} {α β ε : Type}

/-- Sequencing: graft `f` onto every leaf. -/
def bind : Prog Op Ans α → (α → Prog Op Ans β) → Prog Op Ans β
  | ret a, f => f a
  | call op k, f => call op fun r => (k r).bind f

/-- The program that performs one operation and returns its answer. -/
def perform (op : Op) : Prog Op Ans (Ans op) := call op ret

/-- Programs that perform the same operation and go on alike, whatever it answers, are the same.
Under a binder, this is the step that lets two continuations be compared answer by answer. -/
theorem call_congr {op : Op} {k k' : Ans op → Prog Op Ans α} (h : ∀ r, k r = k' r) :
    call op k = call op k' :=
  congrArg (call op) (funext h)

instance : Monad (Prog Op Ans) where
  pure := ret
  bind := bind

@[simp] theorem pure_eq_ret (a : α) : (pure a : Prog Op Ans α) = ret a := rfl

@[simp] theorem ret_bind (a : α) (f : α → Prog Op Ans β) : ret a >>= f = f a := rfl

@[simp] theorem call_bind (op : Op) (k : Ans op → Prog Op Ans α) (f : α → Prog Op Ans β) :
    call op k >>= f = call op fun r => k r >>= f := rfl

@[simp] theorem perform_bind (op : Op) (f : Ans op → Prog Op Ans β) :
    perform op >>= f = call op f := rfl

/-- Returning what was computed adds nothing: the right unit law of sequencing, by induction on the
program, as every operation keeps its continuation. -/
theorem bind_ret (p : Prog Op Ans α) : p >>= ret = p := by
  induction p with
  | ret a => rfl
  | call op k ih => rw [call_bind]; exact call_congr ih

/-- Sequencing is associative, so a program that calls programs has one operation at its head
wherever the parentheses stand. -/
theorem bind_assoc {γ : Type} (p : Prog Op Ans α) (f : α → Prog Op Ans β)
    (g : β → Prog Op Ans γ) : p >>= f >>= g = p >>= fun a => f a >>= g := by
  induction p with
  | ret a => rfl
  | call op k ih => simp only [call_bind]; exact call_congr ih

instance : LawfulMonad (Prog Op Ans) :=
  LawfulMonad.mk' (Prog Op Ans) bind_ret (fun _ _ => rfl) bind_assoc

/-! ## Fallible programs

`ExceptT ε (Prog Op Ans)` is the shape of an `async fn` returning a `Result`: `?` is its bind,
`return Err(e)` its `throw`. The lemmas below push `run` through these two, so that what a fallible
function performs is read off as a plain program. -/

/-- A computation that cannot fail, followed by one that can: its value is handed on, and no error
case has to be looked at. -/
@[simp] theorem run_liftM_bind {m : Type → Type} [Monad m] [LawfulMonad m] (p : m α)
    (f : α → ExceptT ε m β) :
    ((liftM p : ExceptT ε m α) >>= f).run = p >>= fun a => (f a).run :=
  ExceptT.run_bind_lift p f

/-- A fallible computation given by its result, followed by `?`: the value is handed on, and an
error is returned at once, with nothing performed after it. -/
@[simp] theorem run_mk_bind {m : Type → Type} [Monad m] (p : m (Except ε α))
    (f : α → ExceptT ε m β) :
    ((ExceptT.mk p : ExceptT ε m α) >>= f).run
      = p >>= fun r => match r with
        | .ok a => (f a).run
        | .error e => pure (.error e) := by
  show p >>= ExceptT.bindCont f = _
  congr 1; funext r; cases r <;> rfl

/-- A pure result, mapped: a computation that performs nothing, followed by one that cannot fail, is
the mapped result, returned. -/
theorem run_mk_pure_bind_pure (x : Except ε α) (f : α → β) :
    ((ExceptT.mk (pure x) : ExceptT ε (Prog Op Ans) α) >>= fun a => pure (f a)).run
      = ret (x.map f) := by
  cases x <;> rfl

/-! ## Traces

What a program can do is the set of its traces: the operations it performs, each with the answer it
was given. `Returns` has the traces that end, `Leads` the beginnings of all of them. -/

/-- **All behaviours.** `p` returns `a` after its operations were performed and answered as
`tr` lists them, in that order. -/
inductive Returns : Prog Op Ans α → List (Σ op, Ans op) → α → Prop where
  | ret (a : α) : Returns (ret a) [] a
  | call {op : Op} {k : Ans op → Prog Op Ans α} {r : Ans op} {tr : List (Σ op, Ans op)} {a : α}
      (h : Returns (k r) tr a) : Returns (call op k) (⟨op, r⟩ :: tr) a

/-- A program that has returned performs nothing more, and gives exactly the value it returned. -/
@[simp] theorem returns_ret_iff {a b : α} {tr : List (Σ op, Ans op)} :
    Returns (ret a : Prog Op Ans α) tr b ↔ tr = [] ∧ b = a := by
  constructor
  · rintro ⟨⟩
    exact ⟨rfl, rfl⟩
  · rintro ⟨rfl, rfl⟩
    exact .ret _

/-- A program about to perform `op` returns exactly when, for some answer, its continuation does;
that operation, so answered, is what its trace begins with. -/
theorem returns_call_iff {op : Op} {k : Ans op → Prog Op Ans α} {tr : List (Σ op, Ans op)}
    {a : α} :
    Returns (call op k) tr a ↔ ∃ r rest, tr = ⟨op, r⟩ :: rest ∧ Returns (k r) rest a := by
  constructor
  · rintro (_ | ⟨h⟩)
    exact ⟨_, _, rfl, h⟩
  · rintro ⟨r, rest, rfl, h⟩
    exact .call h

/-- A program whose operations can all be answered has a behaviour, by induction on the program: no
program runs for ever, so only an operation nobody answers can keep it from returning. -/
theorem exists_returns [∀ op, Nonempty (Ans op)] (p : Prog Op Ans α) : ∃ tr a, Returns p tr a := by
  induction p with
  | ret a => exact ⟨[], a, .ret a⟩
  | call op k ih =>
    have hans : Nonempty (Ans op) := inferInstance
    obtain ⟨r⟩ := hans
    obtain ⟨tr, a, h⟩ := ih r
    exact ⟨⟨op, r⟩ :: tr, a, .call h⟩

/-- **The behaviours of a sequence** are those of its parts, one after the other: the trace is cut
where the first program returned, and the second goes on from its value. -/
theorem returns_bind_iff {p : Prog Op Ans α} {f : α → Prog Op Ans β} {tr : List (Σ op, Ans op)}
    {b : β} :
    Returns (p >>= f) tr b
      ↔ ∃ tr₁ a tr₂, tr = tr₁ ++ tr₂ ∧ Returns p tr₁ a ∧ Returns (f a) tr₂ b := by
  induction p generalizing tr with
  | ret a =>
    constructor
    · intro h
      exact ⟨[], a, tr, rfl, .ret a, h⟩
    · rintro ⟨tr₁, a', tr₂, rfl, h₁, h₂⟩
      obtain ⟨rfl, rfl⟩ := returns_ret_iff.mp h₁
      exact h₂
  | call op k ih =>
    constructor
    · intro h
      obtain ⟨r, rest, rfl, hrest⟩ := returns_call_iff.mp h
      obtain ⟨tr₁, a, tr₂, rfl, h₁, h₂⟩ := (ih r).mp hrest
      exact ⟨⟨op, r⟩ :: tr₁, a, tr₂, rfl, .call h₁, h₂⟩
    · rintro ⟨tr₁, a, tr₂, rfl, h₁, h₂⟩
      obtain ⟨r, rest, rfl, hrest⟩ := returns_call_iff.mp h₁
      exact .call ((ih r).mpr ⟨rest, a, tr₂, rfl, hrest, h₂⟩)

/-- What succeeds after `?` succeeded before it: if the whole computation returns a value, the first
part did, and the rest went on from there. The failing case of the first part ends in an error. -/
theorem returns_ok_bind {x : ExceptT ε (Prog Op Ans) α} {f : α → ExceptT ε (Prog Op Ans) β}
    {tr : List (Σ op, Ans op)} {b : β} (h : Returns (x >>= f).run tr (.ok b)) :
    ∃ tr₁ a tr₂, tr = tr₁ ++ tr₂ ∧ Returns x.run tr₁ (.ok a) ∧ Returns (f a).run tr₂ (.ok b) := by
  rw [ExceptT.run_bind] at h
  obtain ⟨tr₁, answer, tr₂, rfl, h₁, h₂⟩ := returns_bind_iff.mp h
  cases answer with
  | error e => cases (returns_ret_iff.mp h₂).2
  | ok a => exact ⟨tr₁, a, tr₂, rfl, h₁, h₂⟩

/-- **Part of a behaviour.** `p` has performed the operations in `tr`, answered as listed, and
`p'` is what is left to do. -/
inductive Leads : Prog Op Ans α → List (Σ op, Ans op) → Prog Op Ans α → Prop where
  | refl (p : Prog Op Ans α) : Leads p [] p
  | call {op : Op} {k : Ans op → Prog Op Ans α} {r : Ans op} {tr : List (Σ op, Ans op)}
      {p : Prog Op Ans α} (h : Leads (k r) tr p) : Leads (call op k) (⟨op, r⟩ :: tr) p

/-- A program that has returned leads nowhere else: nothing has been performed, and it is still
there. -/
theorem leads_ret_iff {a : α} {tr : List (Σ op, Ans op)} {p : Prog Op Ans α} :
    Leads (ret a) tr p ↔ tr = [] ∧ p = ret a := by
  constructor
  · intro h
    cases h
    exact ⟨rfl, rfl⟩
  · rintro ⟨rfl, rfl⟩
    exact .refl _

/-- A program about to perform `op` has performed nothing yet, or `op` and then what the
continuation of its answer did. The case split behind every statement about a run that is still
under way. -/
theorem leads_call_iff {op : Op} {k : Ans op → Prog Op Ans α} {tr : List (Σ op, Ans op)}
    {p : Prog Op Ans α} :
    Leads (call op k) tr p
      ↔ tr = [] ∧ p = call op k ∨ ∃ r rest, tr = ⟨op, r⟩ :: rest ∧ Leads (k r) rest p := by
  constructor
  · intro h
    cases h with
    | refl => exact .inl ⟨rfl, rfl⟩
    | call h => exact .inr ⟨_, _, rfl, h⟩
  · rintro (⟨rfl, rfl⟩ | ⟨r, rest, rfl, h⟩)
    · exact .refl _
    · exact .call h

/-- One more operation: where a behaviour has led to a program about to perform `op`, any answer `r`
leads on to the continuation of `r`. -/
theorem Leads.snoc {p : Prog Op Ans α} {tr : List (Σ op, Ans op)} {op : Op}
    {k : Ans op → Prog Op Ans α} (h : Leads p tr (.call op k)) (r : Ans op) :
    Leads p (tr ++ [⟨op, r⟩]) (k r) := by
  generalize hq : Prog.call op k = q at h
  induction h with
  | refl p =>
    subst hq
    exact .call (.refl _)
  | call _ ih => exact .call (ih hq)

/-- A behaviour that has led to a returned value is a trace of the program, with nothing of it left.
-/
theorem Leads.returns {p : Prog Op Ans α} {tr : List (Σ op, Ans op)} {a : α}
    (h : Leads p tr (.ret a)) : Returns p tr a := by
  generalize hq : Prog.ret a = q at h
  induction h with
  | refl p =>
    subst hq
    exact .ret a
  | call _ ih => exact .call (ih hq)

/-- A behaviour, cut in two at any point of its trace: the program the first part led to is the one
the second part leads from. -/
theorem Leads.split {p q : Prog Op Ans α} {tr₁ tr₂ : List (Σ op, Ans op)}
    (h : Leads p (tr₁ ++ tr₂) q) : ∃ mid, Leads p tr₁ mid ∧ Leads mid tr₂ q := by
  induction tr₁ generalizing p with
  | nil => exact ⟨p, .refl p, h⟩
  | cons x tr₁ ih =>
    cases h with
    | call h =>
      obtain ⟨mid, hmid, hrest⟩ := ih h
      exact ⟨mid, .call hmid, hrest⟩

/-- Part of a behaviour of a sequence: either the first program is still under way and the second
waits, or the first has returned and the rest of the trace is the second's. -/
theorem Leads.of_bind {p : Prog Op Ans α} {f : α → Prog Op Ans β} {tr : List (Σ op, Ans op)}
    {q : Prog Op Ans β} (h : Leads (p >>= f) tr q) :
    (∃ p', Leads p tr p' ∧ q = p' >>= f)
      ∨ ∃ tr₁ a tr₂, tr = tr₁ ++ tr₂ ∧ Returns p tr₁ a ∧ Leads (f a) tr₂ q := by
  induction p generalizing tr with
  | ret a => exact .inr ⟨[], a, tr, rfl, .ret a, h⟩
  | call op k ih =>
    rcases leads_call_iff.mp h with ⟨rfl, rfl⟩ | ⟨r, rest, rfl, hrest⟩
    · exact .inl ⟨_, .refl _, rfl⟩
    · rcases ih r hrest with ⟨p', hp', rfl⟩ | ⟨tr₁, a, tr₂, rfl, h₁, h₂⟩
      · exact .inl ⟨p', .call hp', rfl⟩
      · exact .inr ⟨⟨op, r⟩ :: tr₁, a, tr₂, rfl, .call h₁, h₂⟩

/-! ## Another signature

The operations of a component are some of those its environment has. A program is carried over by
renaming them, and its behaviours are the renamed ones, in both directions. -/

section Rename

variable {Op' : Type} {Ans' : Op' → Type}

/-- The same program, each of its operations performed under another name. -/
def rename (f : Op → Op') : Prog Op (fun op => Ans' (f op)) α → Prog Op' Ans' α
  | ret a => ret a
  | call op k => call (f op) fun r => (k r).rename f

/-- Renaming goes through sequencing, so a renamed function is renamed statement by statement. -/
theorem rename_bind (f : Op → Op') (p : Prog Op (fun op => Ans' (f op)) α)
    (g : α → Prog Op (fun op => Ans' (f op)) β) :
    (p >>= g).rename f = p.rename f >>= fun a => (g a).rename f := by
  induction p with
  | ret a => rfl
  | call op k ih => exact call_congr ih

/-- What was performed, under the new names. -/
def renameTrace (f : Op → Op') (tr : List (Σ op, Ans' (f op))) : List (Σ op, Ans' op) :=
  tr.map fun x => ⟨f x.1, x.2⟩

/-- What a program can do it can do under the new names, with the same answers and the same result.
-/
theorem Returns.rename (f : Op → Op') {p : Prog Op (fun op => Ans' (f op)) α} {tr : List (Σ op, Ans' (f op))}
    {a : α} (h : Returns p tr a) : Returns (p.rename f) (renameTrace f tr) a := by
  induction h with
  | ret a => exact .ret a
  | call _ ih => exact .call ih

/-- A renamed program does nothing new: each of its behaviours is a behaviour of the program itself,
under the new names. Induction on the program. -/
theorem returns_of_rename {f : Op → Op'} {p : Prog Op (fun op => Ans' (f op)) α} {tr : List (Σ op, Ans' op)}
    {a : α} (h : Returns (p.rename f) tr a) : ∃ tr', tr = renameTrace f tr' ∧ Returns p tr' a := by
  induction p generalizing tr with
  | ret b =>
    obtain ⟨rfl, rfl⟩ := returns_ret_iff.mp h
    exact ⟨[], rfl, .ret _⟩
  | call op k ih =>
    obtain ⟨r, rest, rfl, hrest⟩ := returns_call_iff.mp h
    obtain ⟨tr', rfl, h'⟩ := ih r hrest
    exact ⟨⟨op, r⟩ :: tr', rfl, .call h'⟩

/-- The same for a behaviour under way: what is left of a renamed program is what is left of the
program, renamed. -/
theorem leads_of_rename {f : Op → Op'} {p : Prog Op (fun op => Ans' (f op)) α} {tr : List (Σ op, Ans' op)}
    {q : Prog Op' Ans' α} (h : Leads (p.rename f) tr q) :
    ∃ tr' p', tr = renameTrace f tr' ∧ Leads p tr' p' ∧ q = p'.rename f := by
  induction p generalizing tr with
  | ret b =>
    obtain ⟨rfl, rfl⟩ := leads_ret_iff.mp h
    exact ⟨[], ret b, rfl, .refl _, rfl⟩
  | call op k ih =>
    rcases leads_call_iff.mp h with ⟨rfl, rfl⟩ | ⟨r, rest, rfl, hrest⟩
    · exact ⟨[], call op k, rfl, .refl _, rfl⟩
    · obtain ⟨tr', p', rfl, h', rfl⟩ := ih r hrest
      exact ⟨⟨op, r⟩ :: tr', p', rfl, .call h', rfl⟩

end Rename

/-! ## What comes last

Some operations are the last thing a program does, such as giving a lock back. Saying so once, by
recursion on the program, spares every run that question. -/

/-- However it is answered, the program returns right after an operation that satisfies `P`. -/
inductive Last (P : Op → Prop) : Prog Op Ans α → Prop where
  | ret (a : α) : Last P (ret a)
  | call {op : Op} {k : Ans op → Prog Op Ans α} (hend : P op → ∀ r, ∃ a, k r = .ret a)
      (hk : ∀ r, Last P (k r)) : Last P (call op k)

/-- Nothing follows an operation that comes last: wherever it stands in what has been performed, the
trace ends with it. Induction on what the program has done. -/
theorem Last.leads {P : Op → Prop} {p q : Prog Op Ans α} {before after : List (Σ op, Ans op)}
    {x : Σ op, Ans op} (h : Last P p) (hl : Leads p (before ++ x :: after) q) (hx : P x.1) :
    after = [] := by
  induction before generalizing p with
  | nil =>
    cases hl with
    | call hl =>
      cases h with
      | call hend _ =>
        obtain ⟨a, ha⟩ := hend hx _
        rw [ha] at hl
        exact (leads_ret_iff.mp hl).1
  | cons y before ih =>
    cases hl with
    | call hl =>
      cases h with
      | call _ hk => exact ih (hk _) hl

/-! ## What is returned

A property of the result that holds whatever is answered needs no trace at all; it composes along
sequencing. -/

/-- Whatever is answered, the program returns something that satisfies `Q`. -/
inductive Ends (Q : α → Prop) : Prog Op Ans α → Prop where
  | ret {a : α} (h : Q a) : Ends Q (ret a)
  | call {op : Op} {k : Ans op → Prog Op Ans α} (h : ∀ r, Ends Q (k r)) : Ends Q (call op k)

/-- Whatever behaviour the program went through, what it returned satisfies `Q`. -/
theorem Ends.of_returns {Q : α → Prop} {p : Prog Op Ans α} {tr : List (Σ op, Ans op)} {a : α}
    (h : Ends Q p) (hr : Returns p tr a) : Q a := by
  induction hr with
  | ret a =>
    cases h with
    | ret h => exact h
  | call _ ih =>
    cases h with
    | call h => exact ih (h _)

/-- The sequencing rule: where the first program returns something that satisfies `R`, the second
need only be looked at from there. -/
theorem Ends.bind {R : α → Prop} {Q : β → Prop} {p : Prog Op Ans α} {f : α → Prog Op Ans β}
    (h : Ends R p) (hf : ∀ a, R a → Ends Q (f a)) : Ends Q (p >>= f) := by
  induction h with
  | ret h => exact hf _ h
  | call _ ih => exact .call ih

/-! ## Sequential execution

With nobody else around, each operation is answered by a function of one state. This is how a
component that is called by one caller at a time is run. -/

section Interpret

variable {σ : Type}

/-- Run against a handler that answers each operation from a state, with nothing else going
on. -/
def interpret (handle : (op : Op) → σ → Ans op × σ) : Prog Op Ans α → σ → α × σ
  | ret a, s => (a, s)
  | call op k, s => (k (handle op s).1).interpret handle (handle op s).2

variable {handle : (op : Op) → σ → Ans op × σ}

@[simp] theorem interpret_ret (a : α) (s : σ) : (ret a).interpret handle s = (a, s) := rfl

@[simp] theorem interpret_call (op : Op) (k : Ans op → Prog Op Ans α) (s : σ) :
    (call op k).interpret handle s = (k (handle op s).1).interpret handle (handle op s).2 := rfl

/-- Running a sequence is running its parts one after the other, the second from the state the first
has left. -/
theorem interpret_bind (p : Prog Op Ans α) (f : α → Prog Op Ans β) (s : σ) :
    (p >>= f).interpret handle s
      = (f (p.interpret handle s).1).interpret handle (p.interpret handle s).2 := by
  induction p generalizing s with
  | ret a => rfl
  | call op k ih => exact ih _ _

end Interpret

/-! ## How often

A bound on how often a program performs a kind of operation, whatever it is answered: the static
counterpart of counting in a trace. -/

/-- However it is answered, the program performs at most `n` operations that satisfy `P`. -/
inductive AtMost (P : Op → Prop) : ℕ → Prog Op Ans α → Prop where
  | ret (n : ℕ) (a : α) : AtMost P n (ret a)
  | skip {n : ℕ} {op : Op} {k : Ans op → Prog Op Ans α} (hop : ¬ P op)
      (hk : ∀ r, AtMost P n (k r)) : AtMost P n (call op k)
  | spend {n : ℕ} {op : Op} {k : Ans op → Prog Op Ans α} (hk : ∀ r, AtMost P n (k r)) :
      AtMost P (n + 1) (call op k)

variable {P : Op → Prop}

/-- A bound may be loosened by one, so that the branches of a program can be given a common one. -/
theorem AtMost.succ {n : ℕ} {p : Prog Op Ans α} (h : AtMost P n p) : AtMost P (n + 1) p := by
  induction h with
  | ret n a => exact .ret _ a
  | skip hop _ ih => exact .skip hop ih
  | spend _ ih => exact .spend ih

/-- Bounds add up along sequencing: what the first program performs, and then what the second does,
from whichever value. -/
theorem AtMost.bind {n m : ℕ} {p : Prog Op Ans α} {f : α → Prog Op Ans β} (h : AtMost P n p)
    (hf : ∀ a, AtMost P m (f a)) : AtMost P (m + n) (p >>= f) := by
  induction h with
  | ret n a =>
    induction n with
    | zero => exact hf a
    | succ n ih => exact ih.succ
  | skip hop _ ih => exact .skip hop ih
  | spend _ ih => exact .spend ih

/-- Where none is left, none has been performed since and none comes next. This is the bound's
meaning for a program of which a part has been run. -/
theorem AtMost.none {p q : Prog Op Ans α} {tr : List (Σ op, Ans op)} (h : AtMost P 0 p)
    (hl : Leads p tr q) : (∀ x ∈ tr, ¬ P x.1) ∧ AtMost P 0 q := by
  induction hl with
  | refl p => exact ⟨by simp, h⟩
  | call _ ih =>
    cases h with
    | skip hop hk =>
      obtain ⟨hrest, hq⟩ := ih (hk _)
      refine ⟨?_, hq⟩
      intro x hx
      rcases List.mem_cons.mp hx with rfl | hx'
      · exact hop
      · exact hrest x hx'

/-- **Where there is at most one, two are the same.** Two operations of this kind in one behaviour
are one and the same entry of its trace, with one answer. Induction on the behaviour, with
`AtMost.none` once the operation has been met. -/
theorem AtMost.unique {p q : Prog Op Ans α} {tr : List (Σ op, Ans op)} (h : AtMost P 1 p)
    (hl : Leads p tr q) {x y : Σ op, Ans op} (hx : x ∈ tr) (hy : y ∈ tr) (hPx : P x.1)
    (hPy : P y.1) : x = y := by
  induction hl with
  | refl p => exact absurd hx (by simp)
  | call hrest ih =>
    cases h with
    | skip hop hk =>
      have hx' := (List.mem_cons.mp hx).resolve_left (by rintro rfl; exact hop hPx)
      have hy' := (List.mem_cons.mp hy).resolve_left (by rintro rfl; exact hop hPy)
      exact ih (hk _) hx' hy'
    | spend hk =>
      -- spent here, so nowhere after
      have hnone := ((hk _).none hrest).1
      have hx' := (List.mem_cons.mp hx).resolve_right fun hmem => hnone x hmem hPx
      have hy' := (List.mem_cons.mp hy).resolve_right fun hmem => hnone y hmem hPy
      rw [hx', hy']

end Prog

end AuthnKit
