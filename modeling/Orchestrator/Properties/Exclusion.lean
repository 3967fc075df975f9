/-
# Mutual exclusion of the leaders

Controllers acquire and release the lease concurrently, each lookup and each write of the
lease record being one step.  The check and the write of an acquisition are two steps, so two
controllers that find no lease are both granted one.  If every write finds the record that its
controller has read, and no renewal shortens a lease, then no two controllers hold an
unexpired grant at the same time: the stored lease belongs to the controller that holds one,
and lasts at least as long.
-/
import Orchestrator.Lib.Sessions
import Orchestrator.Properties.Leadership

namespace Orchestrator

open Lib

/-! ### Controllers -/

/-- The calls of a controller. -/
inductive LeaseOp
  | acquire (leaseDuration : ℤ)
  | release

/-- What a controller has noted. -/
structure LeaseView where
  /-- The time that the present call has read. -/
  now : Option Time := none
  /-- The stored lease, as the present call has read it. -/
  read : Option (Option ControllerLease) := none
  /-- The lease that the present call has stored. -/
  pending : Option ControllerLease := none
  /-- The leases that were granted and have not been released. -/
  grants : List ControllerLease := []

namespace LeaseView

def note : (c : Call) → c.Res → LeaseView → LeaseView
  | .now, t, l => { l with now := some (l.now.getD t) }
  | .get .lease _, a, l => { l with read := some a }
  | .put .lease v, _, l => { l with pending := some v }
  | .del .lease _, _, l => { l with pending := none, grants := [] }
  | _, _, l => l

/-- A grant is noted when the call returns; a release ends all grants. -/
def finish : LeaseOp → Except Err (Bool × ControllerLease) → LeaseView → LeaseView
  | .acquire _, r, l => { grants := (grantedLease r).toList ++ l.grants }
  | .release, _, _ => {}

/-- The grants, with the one that has not been returned yet. -/
def claims (l : LeaseView) : List ControllerLease := l.pending.toList ++ l.grants

end LeaseView

/-- The controllers with the given ids, over one store and one clock.  Time can pass between
any two calls. -/
def controllers (env : Env) (id : ℕ → String) :
    Behaviour Call.Res Err (Bool × ControllerLease) LeaseOp LeaseView World Unit where
  program i
    | .acquire leaseDuration => tryAcquireControllerLeadership (id i) leaseDuration
    | .release => releaseControllerLeadership (id i) >>= fun _ => pure (false, {})
  exec _ := exec env
  note := LeaseView.note
  finish := LeaseView.finish
  outside _ w := { w with tick := w.tick + 1 }

/-- The states of the controllers. -/
abbrev Controllers := Sessions Call.Res Err (Bool × ControllerLease) LeaseOp LeaseView World

/-- The controller has been granted a lease that it has not released and that has not
expired. -/
def HoldsGrant (env : Env) (s : Controllers) (i : ℕ) : Prop :=
  ∃ g ∈ (s.views i).grants, env.clock s.shared.tick ≤ g.expiresAt

/-- A write finds the lease that the controller has read, and does not shorten its own. -/
def Unraced (_ : ℕ) : Call → World → LeaseView → Prop
  | .put .lease v, w, l => l.read = some w.lease ∧
      ∀ s ∈ w.lease, s.leaderID = v.leaderID → s.expiresAt ≤ v.expiresAt
  | .del .lease _, w, l => l.read = some w.lease
  | _, _, _ => True

/-! ### The protocol of a call -/

/-- The calls of the controller `me`. -/
def LeaseView.Allows (me : String) (l : LeaseView) : Call → Prop
  | .now => True
  | .get .lease k => k = keyControllerLease
  | .put .lease v => blank me = false ∧ v.leaderID = me ∧
      ∃ t r, l.now = some t ∧ l.read = some r ∧ (r.getD {}).grantable me t
  | .del .lease k => k = keyControllerLease ∧ ∃ r, l.read = some (some r) ∧ r.leaderID = me
  | _ => False

def leaseProtocol (me : String) : Protocol Call.Res LeaseView where
  note := LeaseView.note
  allows := LeaseView.Allows me
  answers _ _ _ := True

/-- Nothing is left of the last call. -/
def LeaseView.Fresh (l : LeaseView) : Prop := l.now = none ∧ l.read = none ∧ l.pending = none

/-- A lease that is returned as granted has been stored. -/
def LeaseOp.Returned : LeaseOp → Except Err (Bool × ControllerLease) → LeaseView → Prop
  | .acquire _, r, l => ∀ g, grantedLease r = some g →
      ∃ v, l.pending = some v ∧ v.expiresAt = g.expiresAt
  | .release, _, _ => True

variable {env : Env} {id : ℕ → String} {me : String} {l : LeaseView}

/-- The new lease is stored and returned. -/
lemma storeLease_follows {v g : ControllerLease} (hallow : l.Allows me (.put .lease v))
    (hv : v.expiresAt = g.expiresAt) (d : ℤ) :
    (leaseProtocol me).Follows (StateStore.store .lease v >>= fun _ => pure (true, g)) l
      (LeaseOp.acquire d).Returned := by
  refine ⟨hallow, fun _ _ g' hg' => ⟨v, rfl, ?_⟩⟩
  rw [hv, ← Option.some.inj hg']

lemma grantLease_follows {r : Option ControllerLease} {now : Time} (hme : blank me = false)
    (hread : l.read = some r) (hnow : l.now = some now) (d d' : ℤ) :
    (leaseProtocol me).Follows (grantLease (r.getD {}) me d now) l
      (LeaseOp.acquire d').Returned := by
  unfold grantLease
  split
  · next hgrant =>
    unfold StateStore.upsertControllerLease orNow
    dsimp only
    split
    · refine ⟨trivial, fun t _ => ?_⟩
      refine storeLease_follows (v := { (r.getD {}).next me d now with updatedAt := t })
        (g := (r.getD {}).next me d now) (l := LeaseView.note .now t l)
        ⟨hme, rfl, now, r, ?_, hread, hgrant⟩ rfl d'
      simp only [LeaseView.note, hnow, Option.getD_some]
    · exact storeLease_follows (g := (r.getD {}).next me d now)
        ⟨hme, rfl, now, r, hnow, hread, hgrant⟩ rfl d'
  · next hno =>
    have hne : (r.getD {}).leaderID ≠ me := fun h => hno (.inr (.inr h))
    intro g hg
    rw [decide_eq_false hne] at hg
    cases hg

lemma acquire_follows (hl : l.Fresh) (d : ℤ) :
    (leaseProtocol me).Follows (tryAcquireControllerLeadership me d) l
      (LeaseOp.acquire d).Returned := by
  unfold tryAcquireControllerLeadership
  split
  · rintro _ ⟨⟩
  · next hme =>
    have hme : blank me = false := by simpa using hme
    refine ⟨trivial, fun now _ => ⟨rfl, fun found _ => ?_⟩⟩
    have hnow : l.now = none := hl.1
    cases found with
    | none =>
      refine grantLease_follows (r := none) hme rfl ?_ _ d
      simp only [leaseProtocol, LeaseView.note, hnow, Option.getD_none]
    | some lease =>
      refine grantLease_follows (r := some lease) hme rfl ?_ _ d
      simp only [leaseProtocol, LeaseView.note, hnow, Option.getD_none]

lemma release_follows :
    (leaseProtocol me).Follows
      (releaseControllerLeadership me >>= fun _ => pure (false, ({} : ControllerLease))) l
      LeaseOp.release.Returned := by
  refine ⟨rfl, fun found _ => ?_⟩
  cases found with
  | none => trivial
  | some lease =>
    change (leaseProtocol me).Follows ((if lease.leaderID ≠ me then pure ()
      else StateStore.deleteControllerLease) >>= fun _ => pure (false, ({} : ControllerLease))) _ _
    split
    · trivial
    · next h => exact ⟨⟨rfl, lease, rfl, not_not.mp h⟩, fun _ _ => trivial⟩

/-! ### The stored lease backs the grants -/

/-- Every grant that has not expired is backed by the stored lease, which belongs to the same
controller and lasts at least as long. -/
structure Backed (env : Env) (id : ℕ → String) (w : World) (v : ℕ → LeaseView) : Prop where
  times : ∀ i t, (v i).now = some t → t ≤ env.clock w.tick
  backed : ∀ i, ∀ g ∈ (v i).claims, blank (id i) = false ∧
    (env.clock w.tick ≤ g.expiresAt →
      ∃ s, w.lease = some s ∧ s.leaderID = id i ∧ g.expiresAt ≤ s.expiresAt)

variable {w w' : World} {v : ℕ → LeaseView} {i j : ℕ}

/-- Time passes, and the views get no new claims. -/
lemma Backed.later {v' : ℕ → LeaseView} (h : Backed env id w v) (hclock : Monotone env.clock)
    (htick : w.tick ≤ w'.tick) (hlease : w'.lease = w.lease)
    (htimes : ∀ i t, (v' i).now = some t → (v i).now = some t ∨ t = env.clock w.tick)
    (hclaims : ∀ i, ∀ g ∈ (v' i).claims, ∃ g' ∈ (v i).claims, g'.expiresAt = g.expiresAt) :
    Backed env id w' v' := by
  have hle : env.clock w.tick ≤ env.clock w'.tick := hclock htick
  refine ⟨fun i t ht => ?_, fun i g hg => ?_⟩
  · rcases htimes i t ht with ht | rfl
    · exact (h.times i t ht).trans hle
    · exact hle
  · obtain ⟨g', hg', hexp⟩ := hclaims i g hg
    obtain ⟨hblank, hback⟩ := h.backed i g' hg'
    refine ⟨hblank, fun hnow => ?_⟩
    rw [← hexp] at hnow ⊢
    obtain ⟨s, hs, hid, hle'⟩ := hback (hle.trans hnow)
    exact ⟨s, hlease.trans hs, hid, hle'⟩

/-- Nobody else holds an unexpired claim when a controller may take the lease over. -/
lemma Backed.alone (h : Backed env id w v) (hid : Function.Injective id) {t : Time}
    (ht : t ≤ env.clock w.tick) (hgrant : w.leaseOrZero.grantable (id i) t) (hji : j ≠ i) :
    ∀ g ∈ (v j).claims, ¬ env.clock w.tick ≤ g.expiresAt := by
  intro g hg hnow
  obtain ⟨hblank, hback⟩ := h.backed j g hg
  obtain ⟨s, hs, hleader, hle⟩ := hback hnow
  rw [World.leaseOrZero_of_some hs] at hgrant
  rcases hgrant with hb | hexp | hown
  · rw [hleader, hblank] at hb
    cases hb
  · exact absurd (lt_of_le_of_lt (hnow.trans hle) hexp) (not_lt.mpr ht)
  · exact hji (hid (hleader.symm.trans hown))

/-- One view changes: its own times and claims are to be checked, and what the others rely on. -/
lemma Backed.of_update {l : LeaseView} (htimes : ∀ t, l.now = some t → t ≤ env.clock w'.tick)
    (hown : ∀ g ∈ l.claims, blank (id i) = false ∧ (env.clock w'.tick ≤ g.expiresAt →
      ∃ s, w'.lease = some s ∧ s.leaderID = id i ∧ g.expiresAt ≤ s.expiresAt))
    (htimes' : ∀ j ≠ i, ∀ t, (v j).now = some t → t ≤ env.clock w'.tick)
    (hothers : ∀ j ≠ i, ∀ g ∈ (v j).claims, blank (id j) = false ∧
      (env.clock w'.tick ≤ g.expiresAt →
        ∃ s, w'.lease = some s ∧ s.leaderID = id j ∧ g.expiresAt ≤ s.expiresAt)) :
    Backed env id w' (Function.update v i l) where
  times := (Function.forall_update_iff v fun _ l => ∀ t, l.now = some t → t ≤ _).mpr
    ⟨htimes, htimes'⟩
  backed := (Function.forall_update_iff v fun j l => ∀ g ∈ l.claims, blank (id j) = false ∧
    (env.clock w'.tick ≤ g.expiresAt →
      ∃ s, w'.lease = some s ∧ s.leaderID = id j ∧ g.expiresAt ≤ s.expiresAt)).mpr
    ⟨hown, hothers⟩

/-- **One call** keeps the grants backed. -/
lemma Backed.step (h : Backed env id w v) (hid : Function.Injective id)
    (hclock : Monotone env.clock) {c : Call} (hc : Unraced i c w (v i))
    (hallow : (v i).Allows (id i) c) :
    Backed env id (exec env c w).2
      (Function.update v i (LeaseView.note c (exec env c w).1 (v i))) := by
  -- the calls that do not write
  have hquiet : w.tick ≤ (exec env c w).2.tick → (exec env c w).2.lease = w.lease →
      (∀ t, (LeaseView.note c (exec env c w).1 (v i)).now = some t →
        (v i).now = some t ∨ t = env.clock w.tick) →
      (LeaseView.note c (exec env c w).1 (v i)).claims = (v i).claims →
      Backed env id (exec env c w).2
        (Function.update v i (LeaseView.note c (exec env c w).1 (v i))) := by
    intro htick hlease htime hclaim
    refine h.later hclock htick hlease ?_ ?_
    · exact (Function.forall_update_iff v fun j l => ∀ t, l.now = some t →
        (v j).now = some t ∨ t = env.clock w.tick).mpr ⟨htime, fun j _ t ht => .inl ht⟩
    · exact (Function.forall_update_iff v fun j l => ∀ g ∈ l.claims,
        ∃ g' ∈ (v j).claims, g'.expiresAt = g.expiresAt).mpr
          ⟨fun g hg => ⟨g, hclaim ▸ hg, rfl⟩, fun j _ g hg => ⟨g, hg, rfl⟩⟩
  cases c with
  | now =>
    refine hquiet (Nat.le_succ _) rfl (fun t ht => ?_) rfl
    have ht' : (v i).now.getD (env.clock w.tick) = t := Option.some.inj ht
    cases hnow : (v i).now with
    | none => exact .inr (by rw [← ht', hnow]; rfl)
    | some t₀ => exact .inl (by rw [← ht', hnow]; rfl)
  | get t k =>
    cases t with
    | lease => exact hquiet le_rfl rfl (fun t ht => .inl ht) rfl
    | _ => exact hallow.elim
  | put t new =>
    cases t with
    | lease =>
      obtain ⟨hme, hleader, t, r, hnow, hread, hgrant⟩ := hallow
      obtain ⟨hfound, hlonger⟩ := hc
      obtain rfl : r = w.lease := Option.some.inj (hread.symm.trans hfound)
      have hlease : (exec env (.put .lease new) w).2.lease = some new := lease_put new w
      refine .of_update (h.times i) (fun g hg => ?_) (fun j _ => h.times j) fun j hji g hg => ?_
      · refine ⟨hme, fun hlate => ⟨new, hlease, hleader, ?_⟩⟩
        rcases List.mem_cons.mp hg with rfl | hg
        · exact le_rfl
        · -- an older grant is backed by the lease that is renewed
          obtain ⟨s, hs, hsid, hle⟩ := (h.backed i g (List.mem_append_right _ hg)).2 hlate
          exact hle.trans (hlonger s hs (hsid.trans hleader.symm))
      · refine ⟨(h.backed j g hg).1, fun hlate => ?_⟩
        exact absurd hlate (h.alone hid (h.times i t hnow) hgrant hji g hg)
    | _ => exact hallow.elim
  | del t k =>
    cases t with
    | lease =>
      obtain ⟨rfl, r, hread, hleader⟩ := hallow
      have hstored : w.lease = some r := (Option.some.inj (hread.symm.trans hc)).symm
      have hgrant : w.leaseOrZero.grantable (id i) (env.clock w.tick) := by
        rw [World.leaseOrZero_of_some hstored]
        exact .inr (.inr hleader)
      refine .of_update (h.times i) (fun g hg => absurd hg List.not_mem_nil)
        (fun j _ => h.times j) fun j hji g hg => ⟨(h.backed j g hg).1, fun hlate => ?_⟩
      exact absurd hlate (h.alone hid le_rfl hgrant hji g hg)
    | _ => exact hallow.elim
  | _ => exact hallow.elim

/-- A return turns the lease that was stored into a grant. -/
lemma Backed.finish (h : Backed env id w v) {op : LeaseOp}
    {r : Except Err (Bool × ControllerLease)} (hr : op.Returned r (v i)) :
    Backed env id w (Function.update v i (LeaseView.finish op r (v i))) := by
  have hfinish : (LeaseView.finish op r (v i)).now = none ∧
      ∀ g ∈ (LeaseView.finish op r (v i)).claims, ∃ g' ∈ (v i).claims, g'.expiresAt = g.expiresAt := by
    cases op with
    | acquire d =>
      refine ⟨rfl, fun g hg => ?_⟩
      change g ∈ (grantedLease r).toList ++ (v i).grants at hg
      rcases List.mem_append.mp hg with hg | hg
      · obtain ⟨new, hnew, hexp⟩ := hr g (Option.mem_toList.mp hg)
        exact ⟨new, List.mem_append_left _ (Option.mem_toList.mpr hnew), hexp⟩
      · exact ⟨g, List.mem_append_right _ hg, rfl⟩
    | release => exact ⟨rfl, fun g hg => absurd hg List.not_mem_nil⟩
  refine .of_update (fun t ht => ?_) (fun g hg => ?_) (fun j _ => h.times j) fun j _ => h.backed j
  · rw [hfinish.1] at ht
    cases ht
  · obtain ⟨g', hg', hexp⟩ := hfinish.2 g hg
    rw [← hexp]
    exact h.backed i g' hg'

/-- **Mutual exclusion.**  In every run in which each write of the lease finds the record that
its controller has read, and no renewal shortens the lease, at most one controller holds a
grant. -/
theorem leader_exclusion (hid : Function.Injective id) (hclock : Monotone env.clock)
    {s : Controllers}
    (hrun : Runs (Sessions.step (controllers env id)) (fun e s => s.Next Unraced e)
      (Sessions.start w {}) s)
    (hi : HoldsGrant env s i) (hj : HoldsGrant env s j) : i = j := by
  have hup : Sessions.Upheld (fun i _ => leaseProtocol (id i)) (Backed env id)
      (fun _ l => l.Fresh) (fun _ op => op.Returned) s := by
    refine Sessions.run_upheld (fun _ _ => rfl) ?_ ?_ ?_ ?_ ⟨⟨?_, ?_⟩, ?_, ?_⟩ hrun
    · intro i op l hl
      cases op with
      | acquire d => exact acquire_follows hl d
      | release => exact release_follows
    · exact fun i op c w v h hc hallow => ⟨trivial, h.step hid hclock hc hallow⟩
    · intro i op r w v h hr
      refine ⟨?_, h.finish hr⟩
      cases op <;> exact ⟨rfl, rfl, rfl⟩
    · intro _ w v h
      exact h.later hclock (Nat.le_succ _) rfl (fun _ _ ht => .inl ht) fun _ g hg => ⟨g, hg, rfl⟩
    · rintro _ _ ⟨⟩
    · exact fun _ g hg => absurd hg List.not_mem_nil
    · rintro _ _ _ ⟨⟩
    · exact fun _ _ => ⟨rfl, rfl, rfl⟩
  obtain ⟨g, hg, hlate⟩ := hi
  obtain ⟨g', hg', hlate'⟩ := hj
  obtain ⟨s₁, hs₁, hid₁, -⟩ := (hup.inv.backed i g (List.mem_append_right _ hg)).2 hlate
  obtain ⟨s₂, hs₂, hid₂, -⟩ := (hup.inv.backed j g' (List.mem_append_right _ hg')).2 hlate'
  obtain rfl : s₁ = s₂ := Option.some.inj (hs₁.symm.trans hs₂)
  exact hid (hid₁.symm.trans hid₂)

instance Unraced.decidable (i : ℕ) (c : Call) (w : World) (l : LeaseView) :
    Decidable (Unraced i c w l) := by
  unfold Unraced
  split <;> infer_instance

instance HoldsGrant.decidable (s : Controllers) (i : ℕ) : Decidable (HoldsGrant env s i) :=
  inferInstanceAs (Decidable (∃ g ∈ (s.views i).grants, env.clock s.shared.tick ≤ g.expiresAt))

/-- Ids for any number of controllers. -/
def stroke (i : ℕ) : String := String.ofList (List.replicate (i + 1) 'c')

lemma stroke_injective : Function.Injective stroke := by
  intro i j h
  have hlist := congrArg (fun s => s.toList.length) h
  simpa [stroke] using hlist

/-- The controllers after the given events, on an empty store. -/
def electing (events : List (SessionEvent LeaseOp Unit)) : Controllers :=
  after (Sessions.step (controllers steadyEnv stroke)) events (Sessions.start ⟨Store.empty, 0⟩ {})

/-- The second controller calls while the first one holds the lease. -/
def waiting : List (SessionEvent LeaseOp Unit) :=
  [.invoke 0 (.acquire 1000), .move 0, .move 0, .invoke 1 (.acquire 1000), .move 0, .move 1,
    .move 0, .outside (), .move 1, .move 1]

theorem leader_exclusion_waiting : HoldsGrant steadyEnv (electing waiting) 0 ∧
    ¬ HoldsGrant steadyEnv (electing waiting) 1 := by
  have hclock : Monotone steadyEnv.clock := fun a b h => by
    change (1700000000000000000 + a : ℤ) ≤ 1700000000000000000 + b
    omega
  have hrun : Runs (Sessions.step (controllers steadyEnv stroke)) (fun e s => s.Next Unraced e)
      (Sessions.start ⟨Store.empty, 0⟩ {}) (electing waiting) := .of_list _ (by decide +kernel)
  have hfirst : HoldsGrant steadyEnv (electing waiting) 0 := by decide +kernel
  refine ⟨hfirst, fun hsecond => ?_⟩
  have := leader_exclusion stroke_injective hclock hrun hfirst hsecond
  cases this

/-- Both controllers look the lease up before either stores one. -/
def racing : List (SessionEvent LeaseOp Unit) :=
  [.invoke 0 (.acquire 1000), .invoke 1 (.acquire 1000), .move 0, .move 0, .move 1, .move 1,
    .move 0, .move 0, .move 1, .move 1]

/-- Both controllers hold a grant. -/
theorem leaders_overlap : HoldsGrant steadyEnv (electing racing) 0 ∧
    HoldsGrant steadyEnv (electing racing) 1 := by
  decide +kernel

end Orchestrator
