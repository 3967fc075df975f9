/-
# Leadership terms

A run of acquisitions and releases by any set of controllers, with the leases that were
granted along it.  A term identifies its leader as long as the lease record is never deleted:
a takeover then raises the term that the record carries.  A release deletes the record, and
with it the term, so that the next controller starts again at term one.
-/
import Orchestrator.Service.Leadership
import Orchestrator.System

namespace Orchestrator

open Lib

/-! ### Runs -/

/-- The calls that controllers make. -/
inductive LeaseCall
  | acquire (controllerID : String) (leaseDuration : ℤ)
  | release (controllerID : String)

/-- The shared state, and the leases granted so far, the oldest first. -/
structure Election where
  world : World
  granted : List ControllerLease

/-- The lease that an acquisition was granted. -/
def grantedLease : Except Err (Bool × ControllerLease) → Option ControllerLease
  | .ok (true, lease) => some lease
  | _ => none

def Election.step (env : Env) (c : LeaseCall) (s : Election) : Election :=
  match c with
  | .acquire controllerID leaseDuration =>
    let p := tryAcquireControllerLeadership controllerID leaseDuration
    { world := p.final (exec env) s.world
      granted := s.granted ++ (grantedLease (p.result (exec env) s.world)).toList }
  | .release controllerID =>
    { s with world := (releaseControllerLeadership controllerID).final (exec env) s.world }

/-- Nothing has been granted yet. -/
def Election.start (w : World) : Election := { world := w, granted := [] }

/-- The stored lease. -/
def World.lease (w : World) : Option ControllerLease := (w.store .lease).get keyControllerLease

/-- The terms of the granted leases never decrease, and two leases of one term have one
leader. -/
structure TermsIdentify (granted : List ControllerLease) : Prop where
  monotone : granted.Pairwise fun a b => a.term ≤ b.term
  unique : ∀ a ∈ granted, ∀ b ∈ granted, a.term = b.term → a.leaderID = b.leaderID

/-- The stored lease is not released by its leader, and its term can be raised. -/
def LeaseCall.Safe : LeaseCall → Election → Prop
  | .acquire controllerID _, s =>
    ∀ lease ∈ s.world.lease, lease.leaderID ≠ controllerID → lease.term < Int64.maxValue
  | .release controllerID, s => ∀ lease ∈ s.world.lease, lease.leaderID ≠ controllerID

instance LeaseCall.decidableSafe : ∀ (c : LeaseCall) (s : Election), Decidable (c.Safe s)
  | .acquire _ _, s => inferInstanceAs (Decidable (∀ lease ∈ s.world.lease, _))
  | .release _, s => inferInstanceAs (Decidable (∀ lease ∈ s.world.lease, _))

/-! ### What one call does -/

variable {env : Env}

/-- The lease that the next acquisition starts from. -/
def World.leaseOrZero (w : World) : ControllerLease := w.lease.getD {}

lemma World.leaseOrZero_of_some {w : World} {lease : ControllerLease} (h : w.lease = some lease) :
    w.leaseOrZero = lease := by
  rw [leaseOrZero, h]
  rfl

lemma World.leaseOrZero_of_none {w : World} (h : w.lease = none) : w.leaseOrZero = {} := by
  rw [leaseOrZero, h]
  rfl

/-- An acquisition either leaves the stored lease as it is and is refused, or replaces it by
the lease that it is granted. -/
inductive Acquired (controllerID : String) (w w' : World) : Option ControllerLease → Prop
  | refused (h : w'.lease = w.lease) : Acquired controllerID w w' none
  | granted (leaseDuration : ℤ) (now updatedAt : Time)
      (h : w'.lease = some { w.leaseOrZero.next controllerID leaseDuration now with
        updatedAt := updatedAt }) :
      Acquired controllerID w w' (some (w.leaseOrZero.next controllerID leaseDuration now))

lemma lease_put (lease : ControllerLease) (w : World) :
    (w.write (w.store.put .lease lease)).2.lease = some lease := by
  change Table.get (w.store.put .lease lease .lease) keyControllerLease = some lease
  rw [Store.put_self]
  exact Table.get_put_self (w.store .lease) lease

lemma upsertControllerLease_holds (lease : ControllerLease) (w : World) :
    Returns env Rules.any (StateStore.upsertControllerLease lease) w fun _ w' =>
      ∃ updatedAt, w'.lease = some { lease with updatedAt := updatedAt } := by
  unfold StateStore.upsertControllerLease orNow
  split
  · exact ⟨trivial, trivial, (), rfl, _, lease_put _ _⟩
  · exact ⟨trivial, (), rfl, lease.updatedAt, lease_put _ _⟩

lemma grantLease_holds {controllerID : String} {w w₁ : World} (hw₁ : w₁.lease = w.lease)
    (leaseDuration : ℤ) (now : Time) :
    Holds env Rules.any (grantLease w.leaseOrZero controllerID leaseDuration now) w₁ fun r w' =>
      Acquired controllerID w w' (grantedLease r) := by
  unfold grantLease
  split
  · refine (upsertControllerLease_holds _ w₁).bind ?_
    rintro _ w' ⟨updatedAt, hw'⟩
    exact .granted leaseDuration now updatedAt hw'
  · next hno =>
    have hne : w.leaseOrZero.leaderID ≠ controllerID := fun h => hno (.inr (.inr h))
    rw [decide_eq_false hne]
    exact .refused hw₁

lemma tryAcquireControllerLeadership_holds (env : Env) (controllerID : String)
    (leaseDuration : ℤ) (w : World) :
    Holds env Rules.any (tryAcquireControllerLeadership controllerID leaseDuration) w fun r w' =>
      Acquired controllerID w w' (grantedLease r) := by
  unfold tryAcquireControllerLeadership
  split
  · exact .refused rfl
  · have hnow : (exec env .now w).2.lease = w.lease := rfl
    refine ⟨trivial, find_attempt_bind ?_ ?_⟩
    · intro lease hl
      rw [foundLease, ← w.leaseOrZero_of_some hl]
      exact grantLease_holds hnow _ _
    · intro hl
      rw [foundLease, ← w.leaseOrZero_of_none hl]
      exact grantLease_holds hnow _ _

lemma releaseControllerLeadership_holds (env : Env) {controllerID : String} {w : World}
    (hheld : ∀ lease ∈ w.lease, lease.leaderID ≠ controllerID) :
    Holds env Rules.any (releaseControllerLeadership controllerID) w fun _ w' => w' = w := by
  refine find_attempt_bind ?_ fun _ => rfl
  intro lease hl
  dsimp only
  rw [if_pos (hheld lease hl)]
  rfl

/-! ### The terms -/

/-- The stored lease carries the last term: what was granted before has a smaller term, or
the same term and the same leader. -/
structure Leading (s : Election) : Prop where
  terms : TermsIdentify s.granted
  stored : ∀ g ∈ s.granted, ∃ lease, s.world.lease = some lease ∧
    (g.term < lease.term ∨ g.term = lease.term ∧ g.leaderID = lease.leaderID)

lemma ControllerLease.next_term_of_ne {lease : ControllerLease} {controllerID : String}
    (h : lease.leaderID ≠ controllerID) (d : ℤ) (now : Time) :
    (lease.next controllerID d now).term = lease.term + 1 := if_pos h

lemma ControllerLease.next_term_of_eq {lease : ControllerLease} {controllerID : String}
    (h : lease.leaderID = controllerID) (d : ℤ) (now : Time) :
    (lease.next controllerID d now).term = lease.term := if_neg (not_not.mpr h)

/-- A term that is not the last one can be raised. -/
lemma Int64.lt_add_one_of_lt_max {a : Int64} (h : a < Int64.maxValue) : a < a + 1 := by
  rw [Int64.lt_iff_toInt_lt] at h ⊢
  have hmax : Int64.maxValue.toInt = 2 ^ 63 - 1 := by decide
  have hlow := a.le_toInt
  have hsum : (a + 1).toInt = a.toInt + 1 := by
    rw [Int64.toInt_add]
    exact Int.bmod_eq_of_le (by simp; omega) (by simp; omega)
  omega

/-- A new lease has a larger term than every lease granted before, or its term and
leader. -/
lemma Leading.next {s : Election} {controllerID : String} {d : ℤ} (hs : Leading s)
    (hsafe : (LeaseCall.acquire controllerID d).Safe s) (d' : ℤ) (now : Time) :
    ∀ g ∈ s.granted, g.term < (s.world.leaseOrZero.next controllerID d' now).term ∨
      g.term = (s.world.leaseOrZero.next controllerID d' now).term ∧ g.leaderID = controllerID := by
  intro g hg
  obtain ⟨lease, hl, hterm⟩ := hs.stored g hg
  rw [World.leaseOrZero_of_some hl]
  by_cases hid : lease.leaderID = controllerID
  · rw [ControllerLease.next_term_of_eq hid, ← hid]
    exact hterm
  · have hlt := Int64.lt_add_one_of_lt_max (hsafe lease hl hid)
    rw [ControllerLease.next_term_of_ne hid]
    rcases hterm with hterm | ⟨hterm, -⟩
    · exact .inl (Int64.lt_trans hterm hlt)
    · exact .inl (hterm ▸ hlt)

lemma TermsIdentify.append {granted : List ControllerLease} {lease : ControllerLease}
    (h : TermsIdentify granted)
    (hlease : ∀ g ∈ granted, g.term < lease.term ∨
      g.term = lease.term ∧ g.leaderID = lease.leaderID) :
    TermsIdentify (granted ++ [lease]) where
  monotone := by
    rw [List.pairwise_append]
    refine ⟨h.monotone, List.pairwise_singleton _ _, ?_⟩
    intro g hg b hb
    obtain rfl := List.mem_singleton.mp hb
    rcases hlease g hg with hlt | ⟨heq, -⟩
    · exact Int64.le_of_lt hlt
    · exact Int64.le_of_eq heq
  unique := by
    -- a lease of the term of the new one was granted to the same controller
    have hnew : ∀ g ∈ granted, g.term = lease.term → g.leaderID = lease.leaderID := by
      intro g hg heq
      rcases hlease g hg with hlt | ⟨-, hid⟩
      · exact (Int64.lt_irrefl (heq ▸ hlt)).elim
      · exact hid
    intro a ha b hb hab
    rw [List.mem_append, List.mem_singleton] at ha hb
    rcases ha with ha | rfl <;> rcases hb with hb | rfl
    · exact h.unique a ha b hb hab
    · exact hnew a ha hab
    · exact (hnew b hb hab.symm).symm
    · rfl

lemma Leading.acquire {s : Election} {controllerID : String} {d : ℤ} (hs : Leading s)
    (hsafe : (LeaseCall.acquire controllerID d).Safe s) :
    Leading (s.step env (.acquire controllerID d)) := by
  have hrun := (tryAcquireControllerLeadership_holds env controllerID d s.world).run
  rw [Election.step]
  generalize grantedLease _ = granted at hrun ⊢
  generalize Prog.final _ _ _ = w' at hrun ⊢
  cases hrun with
  | refused h =>
    rw [Option.toList_none, List.append_nil]
    exact ⟨hs.terms, by simpa [h] using hs.stored⟩
  | granted d' now updatedAt h =>
    have hnext := hs.next hsafe d' now
    refine ⟨hs.terms.append hnext, ?_⟩
    intro g hg
    refine ⟨_, h, ?_⟩
    rcases List.mem_append.mp hg with hg | hg
    · exact hnext g hg
    · rw [List.mem_singleton.mp hg]
      exact .inr ⟨rfl, rfl⟩

lemma Leading.step {s : Election} {c : LeaseCall} (hs : Leading s) (hsafe : c.Safe s) :
    Leading (s.step env c) := by
  cases c with
  | acquire controllerID d => exact hs.acquire hsafe
  | release controllerID =>
    have hrun := (releaseControllerLeadership_holds env hsafe).run
    rw [Election.step, hrun]
    exact hs

/-- **Leadership terms identify leaders** along every run in which no controller releases the
lease it holds, from any stored lease. -/
theorem leadership_terms_identify (env : Env) (w : World) {s : Election}
    (h : Runs (Election.step env) LeaseCall.Safe (Election.start w) s) :
    TermsIdentify s.granted := by
  have hlead : Leading s := h.invariant ⟨⟨.nil, by simp [Election.start]⟩, by simp [Election.start]⟩
    fun c s hs hc => hs.step hc
  exact hlead.terms

/-- One controller acquires and renews, a second is refused while the lease lasts and takes
over once it has run out. -/
def takeoverCalls : List LeaseCall :=
  [.acquire "a" 1, .acquire "a" 1, .acquire "b" 1, .acquire "b" 1]

theorem leadership_terms_identify_takeover :
    let s := after (Election.step steadyEnv) takeoverCalls (.start ⟨Store.empty, 0⟩)
    (s.granted.map fun g => (g.leaderID, g.term)) = [("a", 1), ("a", 1), ("b", 2)] ∧
      TermsIdentify s.granted :=
  ⟨by decide +kernel,
    leadership_terms_identify steadyEnv ⟨Store.empty, 0⟩ (.of_list _ (by decide +kernel))⟩

/-- The second controller releases the lease it took over, and a third one acquires it. -/
def releaseCalls : List LeaseCall := takeoverCalls ++ [.release "b", .acquire "c" 1]

/-- A release makes the terms start again. -/
theorem release_repeats_term :
    let s := after (Election.step steadyEnv) releaseCalls (.start ⟨Store.empty, 0⟩)
    (s.granted.map fun g => (g.leaderID, g.term)) = [("a", 1), ("a", 1), ("b", 2), ("c", 1)] ∧
      (¬ s.granted.Pairwise fun a b => a.term ≤ b.term) ∧
      ¬ ∀ a ∈ s.granted, ∀ b ∈ s.granted, a.term = b.term → a.leaderID = b.leaderID := by
  decide +kernel

end Orchestrator
