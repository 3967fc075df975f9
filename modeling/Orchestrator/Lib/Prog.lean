/-
# Programs over atomic calls

A program is a tree of atomic calls: it either returns (a value or an error) or issues
a call and continues with the answer.  The same program has two meanings, and both are
used: run from start to end without interruption it is a function of the shared state
(`Prog.run`); cut at its calls it is one thread of a concurrent system, whose steps may
be interleaved with those of other threads.

This file has the programs, their sequential meaning and the rules by which a property
of a sequential run is established: one rule for each way to build a program.  The
judgement `Prog.Sat` says two things of a run at once, that every call it makes is made in
a state in which a guard allows it, and that the result and the final state satisfy a
postcondition.
-/
import Mathlib.Data.List.Forall2
import Mathlib.Logic.Relation

namespace Orchestrator.Lib

/-- Programs with calls `c : C` answered in `Res c`, that return an `α` or an `ε`. -/
inductive Prog {C : Type} (Res : C → Type) (ε α : Type) : Type
  /-- The program is over. -/
  | ret (r : Except ε α)
  /-- Issue the call `c`, and continue with its answer. -/
  | call (c : C) (k : Res c → Prog Res ε α)

namespace Prog

variable {C : Type} {Res : C → Type} {ε α β γ : Type}

/-- Sequencing; an error ends the program. -/
def bind (p : Prog Res ε α) (f : α → Prog Res ε β) : Prog Res ε β :=
  match p with
  | ret (.ok a) => f a
  | ret (.error e) => ret (.error e)
  | call c k => call c fun r => (k r).bind f

instance : Monad (Prog Res ε) where
  pure a := ret (.ok a)
  bind := bind

/-- The program has returned. -/
def returned : Prog Res ε α → Bool
  | ret _ => true
  | call _ _ => false

/-- End the program with an error. -/
def fail (e : ε) : Prog Res ε α := ret (.error e)

/-- Issue one call and return its answer. -/
def issue (c : C) : Prog Res ε (Res c) := call c pure

/-- Run a program and return its result, error or not, as a value. -/
def attempt (p : Prog Res ε α) : Prog Res ε (Except ε α) :=
  match p with
  | ret r => ret (.ok r)
  | call c k => call c fun r => (k r).attempt

/-- Run a program and drop its result, error or not. -/
def ignore (p : Prog Res ε α) : Prog Res ε Unit := p.attempt >>= fun _ => pure ()

/-- Run a program only if a condition holds. -/
def onlyIf (c : Prop) [Decidable c] (p : Prog Res ε Unit) : Prog Res ε Unit :=
  if c then p else pure ()

/-- Run the body on the elements of a list in order, stopping at the first error. -/
def forEach (l : List β) (f : β → Prog Res ε Unit) : Prog Res ε Unit :=
  match l with
  | [] => pure ()
  | x :: xs => f x >>= fun _ => forEach xs f

/-- Run the body on the elements of a list in order and collect the results. -/
def mapEach (l : List β) (f : β → Prog Res ε γ) : Prog Res ε (List γ) :=
  match l with
  | [] => pure []
  | x :: xs => f x >>= fun y => mapEach xs f >>= fun ys => pure (y :: ys)

@[simp] lemma pure_bind' (a : α) (f : α → Prog Res ε β) : (pure a : Prog Res ε α) >>= f = f a := rfl

@[simp] lemma call_bind (c : C) (k : Res c → Prog Res ε α) (f : α → Prog Res ε β) :
    (call c k : Prog Res ε α) >>= f = call c fun r => k r >>= f := rfl

@[simp] lemma fail_bind (e : ε) (f : α → Prog Res ε β) : (fail e : Prog Res ε α) >>= f = fail e := rfl

lemma bind_assoc (p : Prog Res ε α) (f : α → Prog Res ε β) (g : β → Prog Res ε γ) :
    p >>= f >>= g = p >>= fun a => f a >>= g := by
  induction p with
  | ret r => cases r <;> rfl
  | call c k ih => exact congrArg (call c) (funext fun r => ih r)

@[simp] lemma forEach_nil (f : β → Prog Res ε Unit) : forEach [] f = pure () := rfl

@[simp] lemma forEach_cons (x : β) (xs : List β) (f : β → Prog Res ε Unit) :
    forEach (x :: xs) f = f x >>= fun _ => forEach xs f := rfl

/-- A loop whose body does nothing for some elements runs over the others. -/
lemma forEach_ite (c : β → Prop) [DecidablePred c] (f : β → Prog Res ε Unit) (l : List β) :
    forEach l (fun x => if c x then f x else pure ()) = forEach (l.filter fun x => c x) f := by
  induction l with
  | nil => rfl
  | cons x xs ih =>
    rw [forEach_cons, ih, List.filter_cons]
    by_cases hx : c x
    · simp [hx]
    · simp [hx]

/-! ### Properties that pass through sequences -/

/-- A property of programs that a sequence has if its parts have it. -/
structure Sequential (Φ : ∀ α : Type, Prog Res ε α → Prop) : Prop where
  pure : ∀ {α : Type} (a : α), Φ α (Pure.pure a)
  bind : ∀ {α β : Type} {p : Prog Res ε α} {f : α → Prog Res ε β}, Φ α p → (∀ a, Φ β (f a)) →
    Φ β (p >>= f)

/-- The property also passes over errors. -/
structure Modality (Φ : ∀ α : Type, Prog Res ε α → Prop) : Prop extends Sequential Φ where
  fail : ∀ {α : Type} (e : ε), Φ α (ret (.error e))
  attempt : ∀ {α : Type} {p : Prog Res ε α}, Φ α p → Φ (Except ε α) p.attempt

section

variable {Φ : ∀ α : Type, Prog Res ε α → Prop}

lemma Sequential.forEach (h : Sequential Φ) {l : List β} {f : β → Prog Res ε Unit}
    (hf : ∀ x ∈ l, Φ Unit (f x)) : Φ Unit (Prog.forEach l f) := by
  induction l with
  | nil => exact h.pure ()
  | cons x xs ih => exact h.bind (hf x (by simp)) fun _ => ih fun y hy => hf y (by simp [hy])

lemma Sequential.mapEach (h : Sequential Φ) {l : List β} {f : β → Prog Res ε γ}
    (hf : ∀ x ∈ l, Φ γ (f x)) : Φ (List γ) (Prog.mapEach l f) := by
  induction l with
  | nil => exact h.pure []
  | cons x xs ih =>
    exact h.bind (hf x (by simp)) fun _ => h.bind (ih fun y hy => hf y (by simp [hy])) fun _ =>
      h.pure _

lemma Modality.ignore (h : Modality Φ) {p : Prog Res ε α} (hp : Φ α p) : Φ Unit p.ignore :=
  h.bind (h.attempt hp) fun _ => h.pure ()

end

/-! ### The sequential meaning -/

variable {σ : Type} (exec : (c : C) → σ → Res c × σ)

/-- Run a program from start to end. -/
def run : Prog Res ε α → σ → Except ε α × σ
  | ret r, s => (r, s)
  | call c k, s => run (k (exec c s).1) (exec c s).2

@[simp] lemma run_pure (a : α) (s : σ) : (pure a : Prog Res ε α).run exec s = (.ok a, s) := rfl

@[simp] lemma run_fail (e : ε) (s : σ) : (fail e : Prog Res ε α).run exec s = (.error e, s) := rfl

@[simp] lemma run_ret (r : Except ε α) (s : σ) : (ret r : Prog Res ε α).run exec s = (r, s) := rfl

@[simp] lemma run_call (c : C) (k : Res c → Prog Res ε α) (s : σ) :
    (call c k).run exec s = (k (exec c s).1).run exec (exec c s).2 := rfl

@[simp] lemma run_issue (c : C) (s : σ) :
    (issue c : Prog Res ε (Res c)).run exec s = (.ok (exec c s).1, (exec c s).2) := rfl

lemma run_bind (p : Prog Res ε α) (f : α → Prog Res ε β) (s : σ) :
    (p >>= f).run exec s =
      match p.run exec s with
      | (.ok a, s') => (f a).run exec s'
      | (.error e, s') => (.error e, s') := by
  induction p generalizing s with
  | ret r => cases r <;> rfl
  | call c k ih => exact ih (exec c s).1 (exec c s).2

lemma run_bind_ok {p : Prog Res ε α} {f : α → Prog Res ε β} {s s' : σ} {a : α}
    (h : p.run exec s = (.ok a, s')) : (p >>= f).run exec s = (f a).run exec s' := by
  rw [run_bind, h]

@[simp] lemma run_attempt (p : Prog Res ε α) (s : σ) :
    p.attempt.run exec s = (.ok (p.run exec s).1, (p.run exec s).2) := by
  induction p generalizing s with
  | ret r => rfl
  | call c k ih => exact ih (exec c s).1 (exec c s).2

@[simp] lemma run_ignore (p : Prog Res ε α) (s : σ) :
    p.ignore.run exec s = (.ok (), (p.run exec s).2) := by
  rw [ignore, run_bind, run_attempt]
  rfl

/-- The state in which a run ends. -/
def final (p : Prog Res ε α) (s : σ) : σ := (p.run exec s).2

/-- The result of a run. -/
def result (p : Prog Res ε α) (s : σ) : Except ε α := (p.run exec s).1

/-- The calls of a run, each with the state in which it is made. -/
def calls : Prog Res ε α → σ → List (C × σ)
  | ret _, _ => []
  | call c k, s => (c, s) :: calls (k (exec c s).1) (exec c s).2

lemma result_bind (p : Prog Res ε α) (f : α → Prog Res ε β) (s : σ) :
    (p >>= f).result exec s = match p.result exec s with
      | .ok a => (f a).result exec (p.final exec s)
      | .error e => .error e := by
  induction p generalizing s with
  | ret r => cases r <;> rfl
  | call c k ih => exact ih (exec c s).1 (exec c s).2

lemma calls_bind (p : Prog Res ε α) (f : α → Prog Res ε β) (s : σ) :
    (p >>= f).calls exec s = p.calls exec s ++ match p.result exec s with
      | .ok a => (f a).calls exec (p.final exec s)
      | .error _ => [] := by
  induction p generalizing s with
  | ret r => cases r <;> rfl
  | call c k ih => exact congrArg ((c, s) :: ·) (ih (exec c s).1 (exec c s).2)

lemma final_ignore_then (p : Prog Res ε α) (b : β) (s : σ) :
    (p.ignore >>= fun _ => (pure b : Prog Res ε β)).final exec s = p.final exec s := by
  rw [final, run_bind_ok exec (run_ignore exec p s)]
  rfl

/-! ### Programs with calls of one kind -/

/-- Every call that the program can make is one that `P` allows, and whatever the answers
are, its result satisfies `R`. -/
def Only (P : C → Prop) : Prog Res ε α → (Except ε α → Prop) → Prop
  | ret r, R => R r
  | call c k, R => P c ∧ ∀ a, Only P (k a) R

namespace Only

variable {P : C → Prop} {R : Except ε α → Prop}

variable {p : Prog Res ε α}

lemma mono {R' : Except ε α → Prop} (h : Only P p R) (hR : ∀ r, R r → R' r) :
    Only P p R' := by
  induction p with
  | ret r => exact hR r h
  | call c k ih => exact ⟨h.1, fun a => ih a (h.2 a)⟩

lemma weaken {P' : C → Prop} (hP : ∀ c, P c → P' c) (h : Only P p R) :
    Only P' p R := by
  induction p with
  | ret r => exact h
  | call c k ih => exact ⟨hP c h.1, fun a => ih a (h.2 a)⟩

lemma bind {f : α → Prog Res ε β} {R' : Except ε β → Prop} (hp : Only P p R)
    (hok : ∀ a, R (.ok a) → Only P (f a) R') (herr : ∀ e, R (.error e) → R' (.error e)) :
    Only P (p >>= f) R' := by
  induction p with
  | ret r =>
    cases r with
    | ok a => exact hok a hp
    | error e => exact herr e hp
  | call c k ih => exact ⟨hp.1, fun a => ih a (hp.2 a)⟩

lemma attempt {R' : Except ε (Except ε α) → Prop}
    (h : Only P p fun r => R' (.ok r)) : Only P p.attempt R' := by
  induction p with
  | ret r => exact h
  | call c k ih => exact ⟨h.1, fun a => ih a (h.2 a)⟩

/-- Nothing is asked. -/
lemma any (p : Prog Res ε α) : Only (fun _ => True) p fun _ => True := by
  induction p with
  | ret r => trivial
  | call c k ih => exact ⟨trivial, ih⟩

/-! Where the result does not matter. -/

lemma seq {f : α → Prog Res ε β} (hp : Only P p fun _ => True)
    (hf : ∀ a, Only P (f a) fun _ => True) : Only P (p >>= f) fun _ => True :=
  hp.bind (fun a _ => hf a) fun _ _ => trivial

end Only

/-- Every call of the program is one that `P` allows, and whatever the answers are it does not
fail. -/
abbrev Succeeds (P : C → Prop) (p : Prog Res ε α) : Prop := p.Only P fun r => ∃ a, r = .ok a

namespace Succeeds

variable {P : C → Prop}

lemma pure (a : α) : Succeeds P (Pure.pure a : Prog Res ε α) := ⟨a, rfl⟩

lemma issue {c : C} (hc : P c) : Succeeds P (Prog.issue c : Prog Res ε (Res c)) :=
  ⟨hc, fun a => ⟨a, rfl⟩⟩

variable {p : Prog Res ε α}

lemma bind {f : α → Prog Res ε β} (hp : Succeeds P p)
    (hf : ∀ a, Succeeds P (f a)) : Succeeds P (p >>= f) :=
  Only.bind hp (fun a _ => hf a) fun _ ⟨_, h⟩ => by cases h

lemma attempt (hp : p.Only P fun _ => True) : Succeeds P p.attempt :=
  Only.attempt (hp.mono fun r _ => ⟨r, rfl⟩)

lemma ignore (hp : p.Only P fun _ => True) : Succeeds P p.ignore :=
  bind (attempt hp) fun _ => pure ()

lemma ite {c : Prop} [Decidable c] {q : Prog Res ε α} (hp : c → Succeeds P p)
    (hq : ¬ c → Succeeds P q) : Succeeds P (if c then p else q) := by
  split
  · exact hp ‹_›
  · exact hq ‹_›

lemma sequential (P : C → Prop) : Sequential fun _ (p : Prog Res ε _) => Succeeds P p :=
  ⟨pure, bind⟩

lemma forEach {l : List β} {f : β → Prog Res ε Unit} (hf : ∀ x ∈ l, Succeeds P (f x)) :
    Succeeds P (Prog.forEach l f) := (sequential P).forEach hf

lemma mapEach {l : List β} {f : β → Prog Res ε γ} (hf : ∀ x ∈ l, Succeeds P (f x)) :
    Succeeds P (Prog.mapEach l f) := (sequential P).mapEach hf

end Succeeds

/-! ### Properties of a sequential run -/

variable (G : C → σ → Prop)

/-- Every call of the run of `p` from `s` is made in a state that the guard `G` allows, and
the run ends with a result and a state that satisfy `Q`. -/
def Sat : Prog Res ε α → σ → (Except ε α → σ → Prop) → Prop
  | ret r, s, Q => Q r s
  | call c k, s, Q => G c s ∧ Sat (k (exec c s).1) (exec c s).2 Q

namespace Sat

variable {exec G} {s : σ} {Q : Except ε α → σ → Prop} {p : Prog Res ε α}

/-- What `Sat` says of the end of the run. -/
lemma run (h : Sat exec G p s Q) :
    Q (p.result exec s) (p.final exec s) := by
  induction p generalizing s with
  | ret r => exact h
  | call c k ih => exact ih _ h.2

/-- What `Sat` says of the calls of the run. -/
lemma calls (h : Sat exec G p s Q) :
    ∀ x ∈ p.calls exec s, G x.1 x.2 := by
  induction p generalizing s with
  | ret r => simp [Prog.calls]
  | call c k ih =>
    intro x hx
    rcases List.mem_cons.mp hx with rfl | hx
    · exact h.1
    · exact ih _ h.2 x hx

lemma mono {Q' : Except ε α → σ → Prop} (h : Sat exec G p s Q)
    (hQ : ∀ r s', Q r s' → Q' r s') : Sat exec G p s Q' := by
  induction p generalizing s with
  | ret r => exact hQ r s h
  | call c k ih => exact ⟨h.1, ih _ h.2⟩

/-- A run that satisfies `Q` satisfies it with its own result and final state. -/
lemma self (h : Sat exec G p s Q) :
    Sat exec G p s fun r s' => r = p.result exec s ∧ s' = p.final exec s ∧ Q r s' := by
  induction p generalizing s with
  | ret r => exact ⟨rfl, rfl, h⟩
  | call c k ih => exact ⟨h.1, ih _ h.2⟩

/-- A property that every guarded call keeps holds at every call of the run and at its
end. -/
lemma keep {I : σ → Prop} (hI : ∀ c s, G c s → I s → I (exec c s).2)
    (h : Sat exec G p s Q) (h0 : I s) :
    Sat exec (fun c s => G c s ∧ I s) p s fun r s' => Q r s' ∧ I s' := by
  induction p generalizing s with
  | ret r => exact ⟨h, h0⟩
  | call c k ih => exact ⟨⟨h.1, h0⟩, ih _ h.2 (hI c s h.1 h0)⟩

/-- A program whose calls are allowed and keep a property of the state. -/
lemma of_only {P : C → Prop} {I : σ → Prop} {R : Except ε α → Prop}
    (hP : ∀ c s, P c → I s → G c s ∧ I (exec c s).2) (hp : p.Only P R) (h0 : I s) :
    Sat exec G p s fun r s' => R r ∧ I s' := by
  induction p generalizing s with
  | ret r => exact ⟨hp, h0⟩
  | call c k ih => exact ⟨(hP c s hp.1 h0).1, ih _ (hp.2 _) (hP c s hp.1 h0).2⟩

/-- The frame rule: a property that the calls of the program keep. -/
lemma frame {P : C → Prop} {I : σ → Prop} {R : Except ε α → Prop}
    (hP : ∀ c s, P c → I s → I (exec c s).2) (hp : p.Only P R) (h : Sat exec G p s Q) (h0 : I s) :
    Sat exec G p s fun r s' => Q r s' ∧ I s' := by
  induction p generalizing s with
  | ret r => exact ⟨h, h0⟩
  | call c k ih => exact ⟨h.1, ih _ (hp.2 _) h.2 (hP c s hp.1 h0)⟩

lemma weaken {G' : C → σ → Prop} (hG : ∀ c s, G c s → G' c s)
    (h : Sat exec G p s Q) : Sat exec G' p s Q := by
  induction p generalizing s with
  | ret r => exact h
  | call c k ih => exact ⟨hG c s h.1, ih _ h.2⟩

/-- Sequencing: the intermediate condition `R` is what the first part establishes. -/
lemma bind {f : α → Prog Res ε β} {R : Except ε α → σ → Prop}
    {Q : Except ε β → σ → Prop} (hp : Sat exec G p s R)
    (hok : ∀ a s', R (.ok a) s' → Sat exec G (f a) s' Q)
    (herr : ∀ e s', R (.error e) s' → Q (.error e) s') : Sat exec G (p >>= f) s Q := by
  induction p generalizing s with
  | ret r =>
    cases r with
    | ok a => exact hok a s hp
    | error e => exact herr e s hp
  | call c k ih => exact ⟨hp.1, ih _ hp.2⟩

/-- Sequencing after a part that does not fail. -/
lemma bind_ok {f : α → Prog Res ε β} {R : α → σ → Prop}
    {Q : Except ε β → σ → Prop} (hp : Sat exec G p s fun r s' => ∃ a, r = .ok a ∧ R a s')
    (hok : ∀ a s', R a s' → Sat exec G (f a) s' Q) : Sat exec G (p >>= f) s Q := by
  refine hp.bind ?_ ?_
  · rintro a s' ⟨a', ha, hR⟩
    cases ha
    exact hok a s' hR
  · rintro e s' ⟨a', ha, -⟩
    cases ha

lemma attempt {Q : Except ε (Except ε α) → σ → Prop}
    (h : Sat exec G p s fun r s' => Q (.ok r) s') : Sat exec G p.attempt s Q := by
  induction p generalizing s with
  | ret r => exact h
  | call c k ih => exact ⟨h.1, ih _ h.2⟩

/-- Sequencing after a part whose outcome is passed on. -/
lemma attempt_bind {f : Except ε α → Prog Res ε β}
    {R : Except ε α → σ → Prop} {Q : Except ε β → σ → Prop} (hp : Sat exec G p s R)
    (hf : ∀ r s', R r s' → Sat exec G (f r) s' Q) : Sat exec G (p.attempt >>= f) s Q :=
  bind_ok (R := R) (attempt (hp.mono fun r _ h => ⟨r, rfl, h⟩)) hf

lemma ignore {Q : Except ε Unit → σ → Prop}
    (h : Sat exec G p s fun _ s' => Q (.ok ()) s') : Sat exec G p.ignore s Q := by
  refine bind_ok (R := fun _ s' => Q (.ok ()) s') (attempt ?_) ?_
  · exact h.mono fun r s' hQ => ⟨r, rfl, hQ⟩
  · intro _ s' hQ
    exact hQ

/-- A loop: `I l s` is what holds before the elements of `l` are still to be visited. -/
lemma forEach {f : β → Prog Res ε Unit} {I : List β → σ → Prop} {Q : Except ε Unit → σ → Prop}
    (hstep : ∀ x xs s, I (x :: xs) s →
      Sat exec G (f x) s fun r s' => match r with
        | .ok _ => I xs s'
        | .error e => Q (.error e) s')
    (hdone : ∀ s, I [] s → Q (.ok ()) s) (l : List β) (h : I l s) :
    Sat exec G (Prog.forEach l f) s Q := by
  induction l generalizing s with
  | nil => exact hdone s h
  | cons x xs ih =>
    refine (hstep x xs s h).bind ?_ ?_
    · intro _ s' hI
      exact ih hI
    · intro e s' hQ
      exact hQ

lemma onlyIf {c : Prop} [Decidable c] {p : Prog Res ε Unit} {Q : Except ε Unit → σ → Prop}
    (ht : c → Sat exec G p s Q) (hf : ¬ c → Q (.ok ()) s) :
    Sat exec G (Prog.onlyIf c p) s Q := by
  unfold Prog.onlyIf
  split
  · next h => exact ht h
  · next h => exact hf h

/-- A collecting loop whose body keeps `I`. -/
lemma mapEach {f : β → Prog Res ε γ} {I : σ → Prop} {P : γ → Prop} (l : List β)
    (hstep : ∀ x ∈ l, ∀ s, I s → Sat exec G (f x) s fun r s' => I s' ∧ ∀ y, r = .ok y → P y)
    (h : I s) :
    Sat exec G (Prog.mapEach l f) s fun r s' => I s' ∧ ∀ ys, r = .ok ys → ∀ y ∈ ys, P y := by
  induction l generalizing s with
  | nil => exact ⟨h, by rintro _ ⟨⟩; simp⟩
  | cons x xs ih =>
    refine (hstep x (by simp) s h).bind ?_ ?_
    · rintro y s' ⟨hI, hy⟩
      refine (ih (fun z hz => hstep z (by simp [hz])) hI).bind ?_ ?_
      · rintro ys s'' ⟨hI', hys⟩
        refine ⟨hI', ?_⟩
        rintro _ ⟨⟩
        intro z hz
        rcases List.mem_cons.mp hz with rfl | hz
        · exact hy z rfl
        · exact hys ys rfl z hz
      · rintro e s'' ⟨hI', -⟩
        exact ⟨hI', by rintro _ ⟨⟩⟩
    · rintro e s' ⟨hI, -⟩
      exact ⟨hI, by rintro _ ⟨⟩⟩

/-- A collecting loop whose body leaves the state alone. -/
lemma mapEach_const {f : β → Prog Res ε γ} {g : β → γ} (l : List β)
    (hf : ∀ x ∈ l, Sat exec G (f x) s fun r s' => r = .ok (g x) ∧ s' = s) :
    Sat exec G (Prog.mapEach l f) s fun r s' => r = .ok (l.map g) ∧ s' = s := by
  induction l with
  | nil => exact ⟨rfl, rfl⟩
  | cons x xs ih =>
    refine (hf x (by simp)).bind ?_ ?_
    · rintro _ _ ⟨⟨⟩, rfl⟩
      refine (ih fun y hy => hf y (by simp [hy])).bind ?_ ?_
      · rintro _ _ ⟨⟨⟩, rfl⟩
        exact ⟨rfl, rfl⟩
      · rintro _ _ ⟨⟨⟩, -⟩
    · rintro _ _ ⟨⟨⟩, -⟩

/-! A relation between the start and the end of a run composes if it is transitive. -/

section Relational

variable {T : σ → σ → Prop} [Std.Refl T] [IsTrans σ T] {l : List β}

omit [Std.Refl T] in
lemma bind_rel {p : Prog Res ε α} {f : α → Prog Res ε β}
    (hp : Sat exec G p s fun _ s' => T s s')
    (hf : ∀ a s', T s s' → Sat exec G (f a) s' fun _ s'' => T s' s'') :
    Sat exec G (p >>= f) s fun _ s' => T s s' := by
  refine hp.bind ?_ ?_
  · intro a s' h
    exact (hf a s' h).mono fun _ s'' h' => IsTrans.trans s s' s'' h h'
  · intro e s' h
    exact h

lemma forEach_rel {f : β → Prog Res ε Unit}
    (hf : ∀ x ∈ l, ∀ s', T s s' → Sat exec G (f x) s' fun _ s'' => T s' s'') :
    Sat exec G (Prog.forEach l f) s fun _ s' => T s s' := by
  induction l generalizing s with
  | nil => exact Std.Refl.refl s
  | cons x xs ih =>
    refine bind_rel (hf x (by simp) s (Std.Refl.refl s)) ?_
    intro _ s' h
    refine ih ?_
    intro y hy s'' h'
    exact hf y (by simp [hy]) s'' (IsTrans.trans s s' s'' h h')

/-- A collecting loop whose body relates what it returns to the element it is run for. -/
lemma mapEach_forall₂ {f : β → Prog Res ε γ} {R : σ → β → γ → Prop}
    (hmono : ∀ s s' x y, T s s' → R s x y → R s' x y)
    (hf : ∀ x ∈ l, ∀ s', T s s' → Sat exec G (f x) s' fun r s'' =>
      ∃ y, r = .ok y ∧ T s' s'' ∧ R s'' x y) :
    Sat exec G (Prog.mapEach l f) s fun r s' =>
      ∃ ys, r = .ok ys ∧ T s s' ∧ List.Forall₂ (R s') l ys := by
  induction l generalizing s with
  | nil => exact ⟨[], rfl, Std.Refl.refl s, .nil⟩
  | cons x xs ih =>
    refine (hf x (by simp) s (Std.Refl.refl s)).bind_ok ?_
    rintro y s₁ ⟨h₁, hy⟩
    refine (ih fun z hz s' h' => hf z (by simp [hz]) s' (IsTrans.trans s s₁ s' h₁ h')).bind_ok ?_
    rintro ys s₂ ⟨h₂, hys⟩
    exact ⟨y :: ys, rfl, IsTrans.trans s s₁ s₂ h₁ h₂, .cons (hmono s₁ s₂ x y h₂ hy) hys⟩

end Relational

end Sat

end Prog

end Orchestrator.Lib
