/-
# Protocols of a thread

What a thread has seen so far determines which calls it may make next and which answers it
can count on.  `Follows π p l Q` says that the program `p`, started by a thread with the view
`l`, follows the protocol `π`, and ends with a result and a view that satisfy `Q`.  Nothing
is said about the shared state: the judgement is about one program, and is the same whether
the program runs alone (`Follows.run`) or as a thread among others (`Protocol.run_follows`).
`Comes π T p l` says that the program, whatever it is answered, comes to a point where it goes on
with a program of `T`.
-/
import Mathlib.Logic.Function.Basic
import Orchestrator.Lib.Interleave

namespace Orchestrator.Lib

variable {C : Type} {Res : C → Type} {ε α β γ L S : Type}

/-- The view of a thread, the calls that it may make, and the answers that it can count on. -/
structure Protocol (Res : C → Type) (L : Type) where
  /-- The view after a call and its answer. -/
  note : (c : C) → Res c → L → L
  allows : L → C → Prop
  answers : L → (c : C) → Res c → Prop

namespace Protocol

variable (π : Protocol Res L)

/-- The program follows the protocol from the view `l` on, and ends as `Q` says. -/
def Follows : Prog Res ε α → L → (Except ε α → L → Prop) → Prop
  | .ret r, l, Q => Q r l
  | .call c k, l, Q => π.allows l c ∧ ∀ a, π.answers l c a → Follows (k a) (π.note c a l) Q

variable {π} {l : L}

namespace Follows

variable {p : Prog Res ε α} {I : L → Prop}

lemma mono {Q Q' : Except ε α → L → Prop} (h : π.Follows p l Q)
    (hQ : ∀ r l, Q r l → Q' r l) : π.Follows p l Q' := by
  induction p generalizing l with
  | ret r => exact hQ r l h
  | call c k ih => exact ⟨h.1, fun a ha => ih a (h.2 a ha)⟩

lemma bind {f : α → Prog Res ε β} {R : Except ε α → L → Prop}
    {Q : Except ε β → L → Prop} (hp : π.Follows p l R)
    (hok : ∀ a l, R (.ok a) l → π.Follows (f a) l Q)
    (herr : ∀ e l, R (.error e) l → Q (.error e) l) : π.Follows (p >>= f) l Q := by
  induction p generalizing l with
  | ret r =>
    cases r with
    | ok a => exact hok a l hp
    | error e => exact herr e l hp
  | call c k ih => exact ⟨hp.1, fun a ha => ih a (hp.2 a ha)⟩

lemma attempt {Q : Except ε (Except ε α) → L → Prop}
    (h : π.Follows p l fun r l => Q (.ok r) l) : π.Follows p.attempt l Q := by
  induction p generalizing l with
  | ret r => exact h
  | call c k ih => exact ⟨h.1, fun a ha => ih a (h.2 a ha)⟩

lemma attempt_bind {f : Except ε α → Prog Res ε β}
    {R : Except ε α → L → Prop} {Q : Except ε β → L → Prop} (hp : π.Follows p l R)
    (hf : ∀ r l, R r l → π.Follows (f r) l Q) : π.Follows (p.attempt >>= f) l Q := by
  induction p generalizing l with
  | ret r => exact hf r l hp
  | call c k ih => exact ⟨hp.1, fun a ha => ih a (hp.2 a ha)⟩

lemma ignore {Q : Except ε Unit → L → Prop}
    (h : π.Follows p l fun _ l => Q (.ok ()) l) : π.Follows p.ignore l Q :=
  attempt_bind h fun _ _ h => h

/-- A loop with an invariant whose body does not fail. -/
lemma forEach_ok {f : β → Prog Res ε Unit} {xs : List β}
    (hf : ∀ x ∈ xs, ∀ l, I l → π.Follows (f x) l fun r l => ∃ a, r = .ok a ∧ I l) (h : I l) :
    π.Follows (Prog.forEach xs f) l fun r l => ∃ a, r = .ok a ∧ I l := by
  induction xs generalizing l with
  | nil => exact ⟨(), rfl, h⟩
  | cons x xs ih =>
    refine (hf x List.mem_cons_self l h).bind ?_ fun e _ ⟨_, he, _⟩ => by cases he
    exact fun _ l ⟨_, _, hl⟩ => ih (fun y hy => hf y (List.mem_cons_of_mem _ hy)) hl

/-- A program all of whose calls the protocol allows as long as `I` holds of the view, which
they keep. -/
lemma of_only {P : C → Prop}
    (hP : ∀ c l, P c → I l → π.allows l c ∧ ∀ a, π.answers l c a → I (π.note c a l))
    {R : Except ε α → Prop} (hp : p.Only P R) (h : I l) :
    π.Follows p l fun r l => R r ∧ I l := by
  induction p generalizing l with
  | ret r => exact ⟨hp, h⟩
  | call c k ih =>
    obtain ⟨hallow, hkeep⟩ := hP c l hp.1 h
    exact ⟨hallow, fun a ha => ih a (hp.2 a) (hkeep a ha)⟩

/-- A program that runs alone.  `I` connects the view with the state. -/
lemma run {σ : Type} {exec : (c : C) → σ → Res c × σ} {I : L → σ → Prop}
    (hI : ∀ c l s, I l s → π.allows l c →
      π.answers l c (exec c s).1 ∧ I (π.note c (exec c s).1 l) (exec c s).2)
    {Q : Except ε α → L → Prop} {s : σ} (hp : π.Follows p l Q) (h : I l s) :
    ∃ l', Q (p.result exec s) l' ∧ I l' (p.final exec s) := by
  induction p generalizing l s with
  | ret r => exact ⟨l, hp, h⟩
  | call c k ih =>
    obtain ⟨ha, hI'⟩ := hI c l s h hp.1
    exact ih _ (hp.2 _ ha) hI'

end Follows

/-- Started with a view that satisfies `I`, the program follows the protocol and ends with such a
view. -/
abbrev Keeps (π : Protocol Res L) (I : L → Prop) (p : Prog Res ε α) : Prop :=
  ∀ l, I l → π.Follows p l fun _ l => I l

namespace Keeps

variable {p : Prog Res ε α} {I : L → Prop}

lemma ret (r : Except ε α) : π.Keeps I (Prog.ret r : Prog Res ε α) := fun _ h => h

lemma bind {f : α → Prog Res ε β} (hp : π.Keeps I p) (hf : ∀ a, π.Keeps I (f a)) :
    π.Keeps I (p >>= f) := fun l h => (hp l h).bind (fun a l h => hf a l h) fun _ _ h => h

lemma attempt_bind {f : Except ε α → Prog Res ε β} (hp : π.Keeps I p)
    (hf : ∀ r, π.Keeps I (f r)) : π.Keeps I (p.attempt >>= f) :=
  fun l h => (hp l h).attempt_bind fun r l h => hf r l h

lemma modality (π : Protocol Res L) (I : L → Prop) :
    Prog.Modality fun _ (p : Prog Res ε _) => π.Keeps I p where
  pure _ := ret _
  bind := bind
  fail _ := ret _
  attempt hp l h := (hp l h).attempt

lemma ignore (hp : π.Keeps I p) : π.Keeps I p.ignore := (modality π I).ignore hp

lemma forEach {l : List β} {f : β → Prog Res ε Unit} (hf : ∀ x ∈ l, π.Keeps I (f x)) :
    π.Keeps I (Prog.forEach l f) := (modality π I).forEach hf

lemma onlyIf {c : Prop} [Decidable c] {p : Prog Res ε Unit} (hp : π.Keeps I p) :
    π.Keeps I (Prog.onlyIf c p) := by
  unfold Prog.onlyIf
  split
  · exact hp
  · exact ret _

end Keeps

end Protocol

/-! ### What a program comes to -/

/-- The program goes on with one of the programs of `T`, and then with what it makes of the
result. -/
def Prog.Enters (T : Prog Res ε γ → Prop) (p : Prog Res ε α) : Prop :=
  ∃ q, T q ∧ ∃ k : Except ε γ → Prog Res ε α, p = q.attempt >>= k

namespace Prog.Enters

variable {T : Prog Res ε γ → Prop}

lemma self {q : Prog Res ε γ} (h : T q) : Enters T q := by
  refine ⟨q, h, .ret, ?_⟩
  clear h
  induction q with
  | ret r => rfl
  | call c k ih => exact congrArg (call c) (funext fun a => ih a)

lemma bind {p : Prog Res ε α} (h : Enters T p) (f : α → Prog Res ε β) : Enters T (p >>= f) := by
  obtain ⟨q, hq, k, rfl⟩ := h
  exact ⟨q, hq, fun r => k r >>= f, bind_assoc _ _ _⟩

lemma attempt {p : Prog Res ε α} (h : Enters T p) : Enters T p.attempt := by
  obtain ⟨q, hq, k, rfl⟩ := h
  refine ⟨q, hq, fun r => (k r).attempt, ?_⟩
  clear hq
  induction q with
  | ret r => rfl
  | call c k' ih => exact congrArg (call c) (funext fun a => ih a)

end Prog.Enters

/-- Whatever the answers are, as long as the protocol allows for them, the program comes to one
of the programs of `T`. -/
inductive Protocol.Comes (π : Protocol Res L) (T : Prog Res ε γ → Prop) :
    Prog Res ε α → L → Prop
  | here {p : Prog Res ε α} {l : L} (h : Prog.Enters T p) : Comes π T p l
  | call {c : C} {k : Res c → Prog Res ε α} {l : L}
      (h : ∀ a, π.answers l c a → Comes π T (k a) (π.note c a l)) : Comes π T (.call c k) l

namespace Protocol.Comes

variable {π : Protocol Res L} {T : Prog Res ε γ → Prop} {l : L} {p : Prog Res ε α}

lemma bind_left (h : π.Comes T p l) (f : α → Prog Res ε β) :
    π.Comes T (p >>= f) l := by
  induction h with
  | here h => exact .here (h.bind f)
  | call _ ih => exact .call ih

lemma attempt (h : π.Comes T p l) : π.Comes T p.attempt l := by
  induction h with
  | here h => exact .here h.attempt
  | call _ ih => exact .call ih

lemma ignore (h : π.Comes T p l) : π.Comes T p.ignore l := h.attempt.bind_left _

/-- What comes after a program that does not fail. -/
lemma bind_right {f : α → Prog Res ε β} {R : α → L → Prop}
    (hp : π.Follows p l fun r l => ∃ a, r = .ok a ∧ R a l)
    (hf : ∀ a l, R a l → π.Comes T (f a) l) : π.Comes T (p >>= f) l := by
  induction p generalizing l with
  | ret r =>
    obtain ⟨a, rfl, ha⟩ := hp
    exact hf a l ha
  | call c k ih => exact .call fun a ha => ih a (hp.2 a ha)

/-- A loop comes to what its body comes to on one element, if its body does not fail. -/
lemma forEach {f : β → Prog Res ε Unit} {I : L → Prop} {xs : List β}
    (hf : ∀ x ∈ xs, ∀ l, I l → π.Follows (f x) l fun r l => ∃ a, r = .ok a ∧ I l)
    {x : β} (hx : x ∈ xs) (hcomes : ∀ l, I l → π.Comes T (f x) l) (h : I l) :
    π.Comes T (Prog.forEach xs f) l := by
  induction xs generalizing l with
  | nil => cases hx
  | cons y ys ih =>
    rcases List.mem_cons.mp hx with rfl | hx
    · exact (hcomes l h).bind_left _
    · exact bind_right (R := fun _ l => I l) (hf y List.mem_cons_self l h) fun _ l hl =>
        ih (fun z hz => hf z (List.mem_cons_of_mem _ hz)) hx hl

end Protocol.Comes

namespace Protocol

/-! ### Threads -/

/-- A shared state, and the view of each thread. -/
structure Viewed (S L : Type) where
  base : S
  view : ℕ → L

/-- The machine, with the views of the threads noted. -/
def watch (π : ℕ → Protocol Res L) (M : Machine Res S) : Machine Res (Viewed S L) where
  exec i c s := ((M.exec i c s.base).1,
    { base := (M.exec i c s.base).2
      view := fun j => if j = i then (π i).note c (M.exec i c s.base).1 (s.view i) else s.view j })
  enabled i c s := M.enabled i c s.base

/-- The threads of a pool follow their protocols, and `I` holds of the state that they share. -/
structure Followed (π : ℕ → Protocol Res L) (I : Viewed S L → Prop)
    (Q : ℕ → Except ε α → L → Prop) (p : Pool Res ε α (Viewed S L)) : Prop where
  inv : I p.shared
  follows : ∀ i, (π i).Follows (p.threads i) (p.shared.view i) (Q i)

variable {π : ℕ → Protocol Res L} {M : Machine Res S} {I : Viewed S L → Prop}
  {Q : ℕ → Except ε α → L → Prop} {cond : ℕ → C → Viewed S L → Prop}
  {p p' : Pool Res ε α (Viewed S L)}

/-- In every run whose calls meet the condition, the threads follow their protocols and the
invariant holds, if every call that a protocol allows keeps it and is answered as the protocol
says. -/
theorem run_follows
    (hstep : ∀ i c s, I s → M.enabled i c s.base = true → cond i c s →
      (π i).allows (s.view i) c →
        (π i).answers (s.view i) c (M.exec i c s.base).1 ∧ I ((watch π M).exec i c s).2)
    (h : Followed π I Q p) (hrun : Runs (watch π M).step (Pool.Next cond) p p') :
    Followed π I Q p' := by
  refine hrun.invariant h fun i q hq hc => ?_
  rcases (watch π M).step_cases i q with hst | ⟨c, k, hcall, he, hs, hi, hj⟩
  · rwa [hst]
  have hfollow := hq.follows i
  rw [hcall] at hfollow
  rw [Pool.Next, hcall] at hc
  obtain ⟨ha, hI⟩ := hstep i c q.shared hq.inv he hc hfollow.1
  refine ⟨hs ▸ hI, fun j => ?_⟩
  by_cases hji : j = i
  · subst hji
    rw [hi, hs]
    have hview : ((watch π M).exec j c q.shared).2.view j =
        (π j).note c (M.exec j c q.shared.base).1 (q.shared.view j) := if_pos rfl
    rw [hview]
    exact hfollow.2 _ ha
  · rw [hj j hji, hs]
    have hview : ((watch π M).exec i c q.shared).2.view j = q.shared.view j := if_neg hji
    rw [hview]
    exact hq.follows j

/-- The threads of a pool follow a protocol, with views that `J` connects with the state that they
share.  The machine itself does not note the views. -/
def Abide (ρ : Protocol Res L) (J : S → (ℕ → L) → Prop) (Q : ℕ → Except ε α → L → Prop)
    (p : Pool Res ε α S) : Prop :=
  ∃ view : ℕ → L, J p.shared view ∧ ∀ i, ρ.Follows (p.threads i) (view i) (Q i)

/-- In every run whose calls meet the condition, the threads go on to abide by the protocol. -/
theorem run_abide {ρ : Protocol Res L} {J : S → (ℕ → L) → Prop} {K : ℕ → C → S → Prop}
    {q q' : Pool Res ε α S}
    (hstep : ∀ i c s view, J s view → M.enabled i c s = true → K i c s → ρ.allows (view i) c →
      ρ.answers (view i) c (M.exec i c s).1 ∧
        J (M.exec i c s).2 (Function.update view i (ρ.note c (M.exec i c s).1 (view i))))
    (h : Abide ρ J Q q) (hrun : Runs M.step (Pool.Next K) q q') : Abide ρ J Q q' := by
  refine hrun.invariant h fun i q hq hc => ?_
  rcases M.step_cases i q with hst | ⟨c, k, hcall, he, hs, hi, hj⟩
  · rwa [hst]
  obtain ⟨view, hJ, hfollow⟩ := hq
  have hown := hfollow i
  rw [hcall] at hown
  rw [Pool.Next, hcall] at hc
  obtain ⟨ha, hJ'⟩ := hstep i c q.shared view hJ he hc hown.1
  refine ⟨_, hs ▸ hJ', fun j => ?_⟩
  by_cases hji : j = i
  · subst hji
    rw [hi, Function.update_self]
    exact hown.2 _ ha
  · rw [hj j hji, Function.update_of_ne hji]
    exact hfollow j

/-- What is known of a thread that is over. -/
lemma Followed.result (h : Followed π I Q p) {j : ℕ} {r : Except ε α}
    (hj : p.threads j = .ret r) : Q j r (p.shared.view j) := by
  have hfollow := h.follows j
  rwa [hj] at hfollow

end Protocol

end Orchestrator.Lib
