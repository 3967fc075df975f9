/-
# Coverage of the shards

Managers share one store, each with its own shard.  A tick reconciles only if it gets the
controller lease, and the lease is one for all managers, so the shards of the managers on standby
are left alone: as long as one manager keeps the lease, only its shard is reconciled.  If every
lookup of the lease by a tick finds none that keeps the manager from taking it, the ticks of all
managers pass every deployment to its reconciliation, and the cluster-wide passes run.

The ticks are interleaved with each other and with everything else that uses the store, call by
call.
-/
import Orchestrator.Lib.Sessions
import Orchestrator.Logic.Services
import Orchestrator.Properties.Leadership
import Orchestrator.System

namespace Orchestrator

open Lib

/-! ### Managers at work -/

/-- What a manager has noted during an operation. -/
structure ManagerView where
  /-- The time that it has read last. -/
  now : Option Time := none
  /-- The ids of the services that it has listed. -/
  services : List String := []

def ManagerView.note : (c : Call) → c.Res → ManagerView → ManagerView
  | .now, t, l => { l with now := some t }
  | .list .service _, a, l => { l with services := a.map Service.id }
  | _, _, l => l

inductive ManagerOp
  | tick
  | stop

/-- The call is not the deletion of a service, which the store has no method for. -/
def Call.keepsServices : Call → Bool
  | .del .service _ => false
  | _ => true

/-- Managers over one store.  Everything else that uses the store may make calls at any time. -/
def managers (env : Env) (o : Config) (m : ℕ → Manager) :
    Behaviour Call.Res Err Unit ManagerOp ManagerView World
      {c : Call // c.keepsServices = true} where
  program i
    | .tick => (m i).tick o
    | .stop => (m i).stop
  exec _ := exec env
  note := ManagerView.note
  finish _ _ _ := {}
  outside c w := (exec env c.1 w).2

/-- The states of the managers. -/
abbrev Managers := Sessions Call.Res Err Unit ManagerOp ManagerView World

/-- What happens to them. -/
abbrev ManagerEvent := SessionEvent ManagerOp {c : Call // c.keepsServices = true}

/-- A lookup of the lease, at the time that the manager has read before, finds none that keeps the
manager from taking it. -/
def LeaseFree (m : ℕ → Manager) (i : ℕ) : Call → World → ManagerView → Prop
  | .get .lease _, w, l => ∀ lease ∈ w.lease, ∀ t ∈ l.now, lease.grantable (m i).controllerID t
  | _, _, _ => True

/-- The deployment is passed to its reconciliation. -/
def ReconcilesDeployment (o : Config) (id : String) (p : M Unit) : Prop :=
  p = reconcileDeployment o id ∨ p = reconcileDeletion id

/-- The passes over the whole cluster. -/
def clusterPasses (o : Config) : List (M Unit) :=
  [reconcileAutoscaling o, evaluateWorkloadHealth, reconcileAllServiceEndpoints,
    reconcilePVCBindings, reconcileJobsAndCron o]

/-! ### Passes that do not fail -/

section Succeeds

variable {P : Call → Prop} {α β : Type}

lemma succeeds_ask_bind {c : Call} {f : c.Res → M β} (hc : P c)
    (hf : ∀ a, Prog.Succeeds P (f a)) : Prog.Succeeds P (ask c >>= f) :=
  Prog.Succeeds.bind (.issue hc) hf

lemma succeeds_orNow (hnow : P .now) (t : Time) : Prog.Succeeds P (orNow t) :=
  .ite (fun _ => .issue hnow) fun _ => .pure t

lemma succeeds_fill (hnow : P .now) {f : List ServiceEndpoint → M Unit}
    (hf : ∀ l, Prog.Succeeds P (f l)) (endpoints : List ServiceEndpoint) :
    Prog.Succeeds P (StateStore.replaceServiceEndpoints.fill endpoints f) := by
  induction endpoints generalizing f with
  | nil => exact hf []
  | cons e es ih => exact (succeeds_orNow hnow _).bind fun t => ih fun rest => hf _

lemma succeeds_reconcileListed (o : Config) (dep : Deployment) :
    Prog.Succeeds (fun _ => True) (reconcileListed o dep) :=
  .ite (fun _ => .ignore (.any _)) fun _ => .ignore (.any _)

lemma succeeds_reconcileAutoscaling (o : Config) :
    Prog.Succeeds (fun _ => True) (reconcileAutoscaling o) := by
  refine succeeds_ask_bind trivial fun policies => succeeds_ask_bind trivial fun now =>
    .forEach fun p _ => .bind (.attempt (.any _)) fun found => ?_
  cases found with
  | error e => exact .pure ()
  | ok dep =>
    refine .bind (succeeds_ask_bind trivial fun _ => .pure _) fun samples =>
      .ite (fun _ => .pure ()) fun _ => .bind (.issue trivial) fun _ => ?_
    exact (succeeds_orNow trivial _).bind fun _ => .issue trivial

lemma succeeds_evaluateWorkloadHealth :
    Prog.Succeeds (fun _ => True) evaluateWorkloadHealth := by
  refine succeeds_ask_bind trivial fun workloads => succeeds_ask_bind trivial fun deployments =>
    succeeds_ask_bind trivial fun now => .forEach fun v _ => ?_
  split
  · exact .pure ()
  · refine .bind (succeeds_ask_bind trivial fun _ => .issue trivial) fun _ =>
      .ite (fun _ => .pure ()) fun _ => .bind (succeeds_ask_bind trivial fun _ => .pure _) fun _ =>
      .ite (fun _ => .pure ()) fun _ => .ignore (.any _)

lemma succeeds_reconcilePVCBindings : Prog.Succeeds (fun _ => True) reconcilePVCBindings := by
  refine succeeds_ask_bind trivial fun pvs => succeeds_ask_bind trivial fun first =>
    succeeds_ask_bind trivial fun namespaces => .bind (.mapEach fun _ _ => .issue trivial)
    fun rest => .forEach fun pvc _ => .ite (fun _ => .pure ()) fun _ => ?_
  split
  · exact .pure ()
  · refine .bind ?_ fun _ => ?_
    · exact (succeeds_orNow trivial _).bind fun _ => succeeds_ask_bind trivial fun _ =>
        .issue trivial
    · exact (succeeds_orNow trivial _).bind fun _ => succeeds_ask_bind trivial fun _ =>
        .issue trivial

lemma belongsToShard_eq {n : ℤ} (hn : shardModulus n ≠ 0) (id : String) (i : ℤ) :
    belongsToShard id i n =
      pure (decide (((fnv32a id).toNat % shardModulus n : ℕ) = i)) := if_neg hn

lemma succeeds_reconcileIfOwned (o : Config) {n : ℤ} (hn : shardModulus n ≠ 0) (i : ℤ)
    (dep : Deployment) : Prog.Succeeds (fun _ => True) (reconcileIfOwned o i n dep) := by
  unfold reconcileIfOwned
  rw [belongsToShard_eq hn]
  exact .ite (fun _ => succeeds_reconcileListed o dep) fun _ => .pure ()

end Succeeds

/-! ### What a tick comes to -/

/-- What a tick can count on: the lease is free, the deployment is stored, and the services that
it has listed are found. -/
def shardProtocol (m : Manager) (d : Option String) : Protocol Call.Res ManagerView where
  note := ManagerView.note
  allows _ _ := True
  answers
    | l, .get .lease _, a => ∀ lease ∈ a, ∀ t ∈ l.now, lease.grantable m.controllerID t
    | _, .list .deployment pfx, a => pfx = "" → ∀ id ∈ d, ∃ dep ∈ a, dep.id = id
    | l, .get .service k, a => k ∈ l.services → a.isSome
    | _, _, _ => True

section Tick

variable {m : Manager} {o : Config} {d : Option String} {l : ManagerView} {γ : Type}
  {T : M γ → Prop} {α : Type}

lemma follows_of_succeeds {p : M α} (h : Prog.Succeeds (fun _ => True) p) :
    (shardProtocol m d).Follows p l fun r _ => ∃ a, r = .ok a ∧ True :=
  (Protocol.Follows.of_only (I := fun _ => True) (fun _ _ _ _ => ⟨trivial, fun _ _ => trivial⟩) h
    trivial).mono fun _ _ ⟨⟨a, ha⟩, _⟩ => ⟨a, ha, trivial⟩

/-- What comes after a program that does not fail. -/
lemma comes_after {p : M α} {β : Type} {f : α → M β} (h : Prog.Succeeds (fun _ => True) p)
    (hf : ∀ a l, (shardProtocol m d).Comes T (f a) l) :
    (shardProtocol m d).Comes T (p >>= f) l :=
  .bind_right (R := fun _ _ => True) (follows_of_succeeds h) fun a l _ => hf a l

lemma follows_tryAcquire (hid : blank m.controllerID = false) :
    (shardProtocol m d).Follows (tryAcquireControllerLeadership m.controllerID m.lease) l
      fun r _ => ∃ lease, r = .ok (true, lease) := by
  unfold tryAcquireControllerLeadership
  rw [if_neg (by simp [hid])]
  refine ⟨trivial, fun now _ => ⟨trivial, fun a ha => ?_⟩⟩
  have hgrant : ∀ lease : ControllerLease, lease.grantable m.controllerID now →
      ∀ duration l, (shardProtocol m d).Follows (grantLease lease m.controllerID duration now) l
        fun r _ => ∃ lease, r = .ok (true, lease) := by
    intro lease hfree duration l
    rw [grantLease, if_pos hfree]
    refine Protocol.Follows.bind (follows_of_succeeds ?_) (fun _ _ _ => ⟨_, rfl⟩)
      fun _ _ ⟨_, he, _⟩ => by cases he
    exact (succeeds_orNow trivial _).bind fun _ => .issue trivial
  cases a with
  | none => exact hgrant {} (.inl (by decide)) _ _
  | some lease => exact hgrant lease (ha lease rfl now rfl) _ _

/-- A tick that finds the lease free comes to what the reconciliation of its shard comes to. -/
lemma comes_tick (hid : blank m.controllerID = false)
    (h : ∀ l, (shardProtocol m d).Comes T (reconcileShard o m.shardIndex m.shardTotal) l) :
    (shardProtocol m d).Comes T (m.tick o) l := by
  refine .bind_right (R := fun r _ => ∃ lease, r = .ok (true, lease)) ?_ ?_
  · exact .attempt ((follows_tryAcquire hid).mono fun r l h => ⟨r, rfl, h⟩)
  · rintro _ l ⟨lease, rfl⟩
    exact (h l).ignore

/-- A loop over the listed deployments comes to the one that is stored. -/
lemma comes_listed {id : String} {body : Deployment → M Unit}
    (hbody : ∀ dep, Prog.Succeeds (fun _ => True) (body dep))
    (hd : ∀ dep : Deployment, dep.id = id → Prog.Enters (ReconcilesDeployment o id) (body dep))
    {rest : Unit → M Unit} :
    (shardProtocol m (some id)).Comes (ReconcilesDeployment o id)
      (StateStore.listDeployments >>= fun deps => Prog.forEach deps body >>= rest) l := by
  refine .call fun deps hdeps => ?_
  obtain ⟨dep, hmem, hdep⟩ := hdeps rfl id rfl
  refine Protocol.Comes.bind_left (.forEach (I := fun _ => True) ?_ hmem ?_ trivial) _
  · exact fun x _ l _ => (follows_of_succeeds (hbody x)).mono fun _ _ h => h
  · exact fun l _ => .here (hd dep hdep)

lemma enters_reconcileListed {dep : Deployment} {id : String} (h : dep.id = id) :
    Prog.Enters (ReconcilesDeployment o id) (reconcileListed o dep) := by
  unfold reconcileListed
  subst h
  split
  · exact (Prog.Enters.self (Or.inr rfl)).attempt.bind _
  · exact (Prog.Enters.self (Or.inl rfl)).attempt.bind _

/-- The reconciliation of a shard comes to the deployments of the shard. -/
lemma comes_deployment {i n : ℤ} {id : String} (hn : shardModulus n ≠ 0)
    (hi : ((fnv32a id).toNat % shardModulus n : ℕ) = i) :
    (shardProtocol m (some id)).Comes (ReconcilesDeployment o id) (reconcileShard o i n) l := by
  unfold reconcileShard
  by_cases hsingle : n ≤ 1
  · rw [if_pos hsingle]
    exact comes_listed (succeeds_reconcileListed o) fun _ => enters_reconcileListed
  · rw [if_neg hsingle]
    refine comes_listed (fun dep => succeeds_reconcileIfOwned o hn i dep) fun dep hdep => ?_
    unfold reconcileIfOwned
    rw [belongsToShard_eq hn, hdep, decide_eq_true hi]
    exact enters_reconcileListed hdep

/-- The listed services are all found. -/
lemma follows_endpoints :
    (shardProtocol m d).Follows reconcileAllServiceEndpoints l fun r _ => ∃ a, r = .ok a ∧ True := by
  refine ⟨trivial, fun services _ => ?_⟩
  have hbody : ∀ svc ∈ services, ∀ l, l.services = services.map Service.id →
      (shardProtocol m d).Follows (reconcileServiceEndpoints svc.id) l fun r l =>
        ∃ a, r = .ok a ∧ l.services = services.map Service.id := by
    intro svc hsvc l hl
    refine ⟨trivial, fun found hfound => ?_⟩
    obtain ⟨svc', rfl⟩ := Option.isSome_iff_exists.mp
      (hfound (hl ▸ List.mem_map_of_mem hsvc))
    -- the rest lists no services, so what is noted of them stays
    let P : Call → Prop := fun c => ∀ pfx, c ≠ .list .service pfx
    have hP : ∀ c l, P c → l.services = services.map Service.id →
        (shardProtocol m d).allows l c ∧ ∀ a, (shardProtocol m d).answers l c a →
          ((shardProtocol m d).note c a l).services = services.map Service.id := by
      intro c l hc hl
      refine ⟨trivial, fun a _ => ?_⟩
      change (ManagerView.note c a l).services = _
      unfold ManagerView.note
      split
      · exact hl
      · exact absurd rfl (hc _)
      · exact hl
    have hnow : P .now := by rintro _ ⟨⟩
    refine (Protocol.Follows.of_only (P := P) (R := fun r => ∃ a, r = .ok a) hP ?_ hl).mono
      fun _ _ ⟨⟨a, ha⟩, hl⟩ => ⟨a, ha, hl⟩
    refine succeeds_ask_bind (by rintro _ ⟨⟩) fun deployments =>
      succeeds_ask_bind (by rintro _ ⟨⟩) fun workloads =>
      succeeds_ask_bind (by rintro _ ⟨⟩) fun nodes => succeeds_ask_bind hnow fun now =>
      .bind (.mapEach fun x _ => .bind ?_ fun _ => .pure _) fun endpoints => ?_
    · exact .ite (fun _ => succeeds_ask_bind hnow fun _ => .pure _) fun _ => .pure _
    · exact succeeds_fill hnow (fun _ => .issue (by rintro _ ⟨⟩)) endpoints
  exact (Protocol.Follows.forEach_ok hbody rfl).mono fun _ _ ⟨a, ha, _⟩ => ⟨a, ha, trivial⟩

lemma comes_clusterWide {pass : M Unit} (hpass : pass ∈ clusterPasses o) :
    (shardProtocol m d).Comes (· = pass) (reconcileClusterWide o) l := by
  have hhere : ∀ {p : M Unit} {f : Unit → M Unit} {l : ManagerView}, p = pass →
      (shardProtocol m d).Comes (· = pass) (p >>= f) l :=
    fun h => .here ((Prog.Enters.self (T := (· = pass)) h).bind _)
  simp only [clusterPasses, List.mem_cons, List.not_mem_nil, or_false] at hpass
  unfold reconcileClusterWide
  rcases hpass with h | h | h | h | h
  · exact hhere h.symm
  · exact comes_after (succeeds_reconcileAutoscaling o) fun _ _ => hhere h.symm
  · exact comes_after (succeeds_reconcileAutoscaling o) fun _ _ =>
      comes_after succeeds_evaluateWorkloadHealth fun _ _ => hhere h.symm
  · exact comes_after (succeeds_reconcileAutoscaling o) fun _ _ =>
      comes_after succeeds_evaluateWorkloadHealth fun _ _ =>
      .bind_right (R := fun _ _ => True) follows_endpoints fun _ _ _ => hhere h.symm
  · exact comes_after (succeeds_reconcileAutoscaling o) fun _ _ =>
      comes_after succeeds_evaluateWorkloadHealth fun _ _ =>
      .bind_right (R := fun _ _ => True) follows_endpoints fun _ _ _ =>
      comes_after succeeds_reconcilePVCBindings fun _ _ => .here (.self h.symm)

/-- In a pass over everything, errors of the stages are ignored. -/
lemma comes_reconcileAll {pass : M Unit} (hpass : pass ∈ clusterPasses o) :
    (shardProtocol m d).Comes (· = pass) (reconcileAll o) l := by
  have hhere : ∀ {p : M Unit} {f : Unit → M Unit} {l : ManagerView}, p = pass →
      (shardProtocol m d).Comes (· = pass) (p.ignore >>= f) l :=
    fun h => .here (((Prog.Enters.self (T := (· = pass)) h).attempt.bind _).bind _)
  have hpast : ∀ {p : M Unit} {f : Unit → M Unit} {l : ManagerView},
      (∀ l, (shardProtocol m d).Comes (· = pass) (f ()) l) →
      (shardProtocol m d).Comes (· = pass) (p.ignore >>= f) l :=
    fun h => comes_after (.ignore (.any _)) fun _ l => h l
  refine comes_after (p := StateStore.listDeployments) (.issue trivial) fun deps _ =>
    comes_after (.forEach fun dep _ => succeeds_reconcileListed o dep) fun _ _ => ?_
  simp only [clusterPasses, List.mem_cons, List.not_mem_nil, or_false] at hpass
  rcases hpass with h | h | h | h | h
  · exact hhere h.symm
  · exact hpast fun _ => hhere h.symm
  · exact hpast fun _ => hpast fun _ => hhere h.symm
  · exact hpast fun _ => hpast fun _ => hpast fun _ => hhere h.symm
  · exact hpast fun _ => hpast fun _ => hpast fun _ => hpast fun _ => hhere h.symm

/-- The reconciliation of the first shard comes to the passes over the whole cluster. -/
lemma comes_pass {n : ℤ} (hn : shardModulus n ≠ 0) {pass : M Unit}
    (hpass : pass ∈ clusterPasses o) :
    (shardProtocol m d).Comes (· = pass) (reconcileShard o 0 n) l := by
  unfold reconcileShard
  by_cases hsingle : n ≤ 1
  · rw [if_pos hsingle]
    exact comes_reconcileAll hpass
  · rw [if_neg hsingle]
    refine comes_after (p := StateStore.listDeployments) (.issue trivial) fun deps _ =>
      comes_after (.forEach fun dep _ => succeeds_reconcileIfOwned o hn 0 dep) fun _ _ => ?_
    exact (comes_clusterWide hpass).bind_left _

end Tick

/-! ### Services stay -/

/-- The services that the managers have listed are stored. -/
def ServicesKnown (w : World) (v : ℕ → ManagerView) : Prop :=
  ∀ i, ∀ id ∈ (v i).services, ((w.store .service).get id).isSome

lemma service_stays (env : Env) {c : Call} (hc : c.keepsServices = true) {w : World} {id : String}
    (h : ((w.store .service).get id).isSome) :
    (((exec env c w).2.store .service).get id).isSome := by
  refine exec_stays nofun nofun h ?_ fun _ hid => by rw [hid]; rfl
  rintro rfl
  cases hc

/-- A manager may make every call that keeps the services. -/
def serviceProtocol : Protocol Call.Res ManagerView where
  note := ManagerView.note
  allows _ c := c.keepsServices = true
  answers _ _ _ := True

lemma keepsServices_of_working {c : Call} (h : c.working = true) : c.keepsServices = true := by
  cases c with
  | del t k => rcases of_decide_eq_true h with rfl | rfl | rfl <;> rfl
  | _ => rfl

lemma follows_program (env : Env) (o : Config) (m : ℕ → Manager) (i : ℕ) (op : ManagerOp)
    (l : ManagerView) :
    serviceProtocol.Follows ((managers env o m).program i op) l fun _ _ => True := by
  have honly : ((managers env o m).program i op).Only (fun c => c.keepsServices = true)
      fun _ => True := by
    cases op with
    | tick =>
      exact ((coversApi_free fun _ => keepsServices_of_working).toCoversPass.tick (fun _ => rfl)
        (m i)).only
    | stop =>
      refine Makes.ignore (.attempt_bind ⟨rfl, fun a => ?_⟩ fun found => ?_)
      · cases a <;> trivial
      · cases found with
        | error e => trivial
        | ok lease =>
          change Prog.Only _ (if _ then _ else _) _
          split
          · trivial
          · exact ⟨rfl, fun _ => trivial⟩
  exact (Protocol.Follows.of_only (I := fun _ => True) (fun c _ hc _ => ⟨hc, fun _ _ => trivial⟩)
    honly trivial).mono fun _ _ _ => trivial

lemma ServicesKnown.call {env : Env} {w : World} {v : ℕ → ManagerView} (h : ServicesKnown w v)
    (i : ℕ) {c : Call} (hc : c.keepsServices = true) :
    ServicesKnown (exec env c w).2
      (Function.update v i (ManagerView.note c (exec env c w).1 (v i))) := by
  intro j id hid
  by_cases hj : j = i
  · subst hj
    rw [Function.update_self] at hid
    unfold ManagerView.note at hid
    split at hid
    · exact service_stays env hc (h j id hid)
    · obtain ⟨svc, hsvc, rfl⟩ := List.mem_map.mp hid
      exact Option.isSome_iff_exists.mpr ⟨svc, Table.get_of_mem (Store.mem_list hsvc)⟩
    · exact service_stays env hc (h j id hid)
  · rw [Function.update_of_ne hj] at hid
    exact service_stays env hc (h j id hid)

/-- Whatever happens, the managers know only services that are stored. -/
lemma servicesKnown_run {env : Env} {o : Config} {m : ℕ → Manager} {w : World} {s : Managers}
    (hrun : Runs (Sessions.step (managers env o m)) (fun _ _ => True) (Sessions.start w {}) s) :
    ServicesKnown s.shared s.views := by
  have hup : Sessions.Upheld (fun _ _ => serviceProtocol) ServicesKnown (fun _ _ => True)
      (fun _ _ _ _ => True) s := by
    refine Sessions.run_upheld (fun _ _ => rfl) ?_ ?_ ?_ ?_ ⟨?_, ?_, ?_⟩
      (hrun.mono fun e s _ => s.next_true e)
    · exact fun i op l _ => follows_program env o m i op l
    · exact fun i op c w v h _ hc => ⟨trivial, h.call i hc⟩
    · intro i op r w v h _
      refine ⟨trivial, fun j id hid => ?_⟩
      by_cases hj : j = i
      · subst hj
        rw [Function.update_self] at hid
        cases hid
      · rw [Function.update_of_ne hj] at hid
        exact h j id hid
    · exact fun c w v h i id hid => service_stays env c.2 (h i id hid)
    · exact fun i id hid => absurd hid List.not_mem_nil
    · rintro _ _ _ ⟨⟩
    · exact fun _ _ => trivial
  exact hup.inv

/-! ### Coverage -/

/-- The managers with the given ids and leases, one for each shard. -/
def shardManagers (n : ℕ) (id : ℕ → String) (lease : ℕ → ℤ) (i : ℕ) : Manager :=
  newManager (id i) i n (lease i)

/-- The managers after the given events, all of them idle at the start. -/
def managersAfter (env : Env) (o : Config) (m : ℕ → Manager) (w : World)
    (events : List ManagerEvent) : Managers :=
  after (Sessions.step (managers env o m)) events (Sessions.start w {})

/-- The deployment is stored all the time. -/
def StoredThroughout (env : Env) (o : Config) (m : ℕ → Manager) (es : List ManagerEvent)
    (s : Managers) (d : String) : Prop :=
  ∀ es₁ es₂, es = es₁ ++ es₂ →
    ((after (Sessions.step (managers env o m)) es₁ s).shared.store .deployment).get d ≠ none

section Coverage

variable {env : Env} {o : Config} {m : ℕ → Manager}

/-- The calls of a tick are answered as it can count on. -/
lemma shard_answers {s : Managers} {i : ℕ} {d : Option String}
    (hfree : s.Next (LeaseFree m) (.move i : ManagerEvent)) (hknown : ServicesKnown s.shared s.views)
    (hd : ∀ id ∈ d, (s.shared.store .deployment).get id ≠ none) {op : ManagerOp} {c : Call}
    {k : c.Res → M Unit} (hi : (s.processes i).running = some (op, .call c k)) :
    (shardProtocol (m i) d).answers (s.views i) c (exec env c s.shared).1 := by
  rw [Sessions.Next, hi] at hfree
  cases c with
  | get t key =>
    cases t with
    | lease =>
      intro lease hlease t ht
      obtain rfl : keyControllerLease = key := Table.key_of_get hlease
      exact hfree lease hlease t ht
    | service => exact hknown i key
    | _ => trivial
  | list t pfx =>
    cases t with
    | deployment =>
      rintro rfl id hid
      obtain ⟨dep, hdep⟩ := Option.ne_none_iff_exists'.mp (hd id hid)
      exact ⟨dep, Table.mem_of_get hdep, Table.key_of_get hdep⟩
    | _ => trivial
  | _ => trivial

/-- What a tick comes to is reached when the manager has ticked. -/
lemma reaches_of_tick {T : M Unit → Prop} {before es : List ManagerEvent} {w : World} {i : ℕ}
    {d : Option String}
    (hfree : Admissible (Sessions.step (managers env o m)) (fun e s => s.Next (LeaseFree m) e) es
      (managersAfter env o m w before))
    (hd : ∀ id ∈ d, StoredThroughout env o m es
      (managersAfter env o m w before) id)
    (htick : Sessions.Performs (managers env o m) i .tick es
      (managersAfter env o m w before))
    (hcomes : ∀ l, (shardProtocol (m i) d).Comes T ((m i).tick o) l) :
    Sessions.Reaches (managers env o m) T i es
      (managersAfter env o m w before) := by
  have hes := hfree.and (J := fun s : Managers => ServicesKnown s.shared s.views ∧
    ∀ id ∈ d, (s.shared.store .deployment).get id ≠ none) fun es₁ es₂ he => ?_
  · exact htick.reaches (π := shardProtocol (m i) d) rfl
      (fun s op c k hok hi => shard_answers hok.1 hok.2.1 hok.2.2 hi) hes hcomes
  · refine ⟨?_, fun id hid => hd id hid es₁ es₂ he⟩
    rw [managersAfter, ← after_append]
    exact servicesKnown_run (Runs.of_list _ (admissible_of_forall (fun _ _ _ => trivial) _))

end Coverage

/-- **Coverage.**  If every lookup of the lease by a tick finds it free, then in an interval in
which each manager ticks, every deployment that is stored throughout is passed to its
reconciliation by a manager, and so is the cluster to each pass over it. -/
theorem shards_cover (env : Env) (o : Config) (n : ℕ) (hn : 1 ≤ n) (id : ℕ → String)
    (lease : ℕ → ℤ) (w : World) (before es : List ManagerEvent)
    (hmodulus : shardModulus n ≠ 0) (hids : ∀ i < n, blank (id i) = false)
    (hfree : Admissible (Sessions.step (managers env o (shardManagers n id lease)))
      (fun e s => s.Next (LeaseFree (shardManagers n id lease)) e) es
      (managersAfter env o (shardManagers n id lease) w before))
    (hticks : ∀ i < n, Sessions.Performs (managers env o (shardManagers n id lease)) i .tick es
      (managersAfter env o (shardManagers n id lease) w before)) :
    (∀ d, StoredThroughout env o (shardManagers n id lease) es
        (managersAfter env o (shardManagers n id lease) w before) d →
      ∃ i < n, Sessions.Reaches (managers env o (shardManagers n id lease))
        (ReconcilesDeployment o d) i es
        (managersAfter env o (shardManagers n id lease) w before)) ∧
    ∀ pass ∈ clusterPasses o, ∃ i < n,
      Sessions.Reaches (managers env o (shardManagers n id lease)) (· = pass) i es
        (managersAfter env o (shardManagers n id lease) w before) := by
  have hmanager : ∀ i < n, (shardManagers n id lease i).shardIndex = i ∧
      (shardManagers n id lease i).shardTotal = n := fun i hi =>
    newManager_shard (by omega) (by omega)
  have hid : ∀ i < n, blank (shardManagers n id lease i).controllerID = false := hids
  constructor
  · intro d hd
    -- the manager of the shard that the id hashes to
    obtain ⟨i, hi, hshard⟩ : ∃ i < n, (fnv32a d).toNat % shardModulus n = i := by
      refine ⟨_, ?_, rfl⟩
      calc (fnv32a d).toNat % shardModulus n < shardModulus n :=
            Nat.mod_lt _ (Nat.pos_of_ne_zero hmodulus)
        _ ≤ n := by
            unfold shardModulus
            omega
    refine ⟨i, hi, reaches_of_tick (d := some d) hfree ?_ (hticks i hi) fun l =>
      comes_tick (hid i hi) fun l => ?_⟩
    · rintro _ ⟨⟩
      exact hd
    · rw [(hmanager i hi).1, (hmanager i hi).2]
      exact comes_deployment hmodulus (by exact_mod_cast hshard)
  · intro pass hpass
    refine ⟨0, hn, reaches_of_tick (d := none) hfree (by rintro _ ⟨⟩) (hticks 0 hn) fun l =>
      comes_tick (hid 0 hn) fun l => ?_⟩
    rw [(hmanager 0 hn).1, (hmanager 0 hn).2]
    exact comes_pass hmodulus hpass

/-! ### Two managers -/

/-- Two managers that ask for leases of ten seconds. -/
def twoManagers : ℕ → Manager :=
  shardManagers 2 (fun i => if i = 0 then "a" else "b") fun _ => 10000000000

/-- A store with one deployment, which is one for the second manager. -/
def webWorld : World where
  store := Store.empty.put .deployment { id := "web", spec := webSpec, currentRevision := 1 }
  tick := 0

/-- A manager runs an operation to its end, which takes at most fifty calls. -/
def performing (i : ℕ) (op : ManagerOp) : List ManagerEvent :=
  .invoke i op :: List.replicate 50 (.move i)

/-- The first manager gives the lease up before the second one ticks. -/
def handingOver : List ManagerEvent := performing 0 .tick ++ performing 0 .stop ++ performing 1 .tick

/-- Both managers tick, within a lease. -/
def standingBy : List ManagerEvent := performing 0 .tick ++ performing 1 .tick

instance LeaseFree.decidable (m : ℕ → Manager) (i : ℕ) (c : Call) (w : World) (l : ManagerView) :
    Decidable (LeaseFree m i c w l) := by
  unfold LeaseFree
  split <;> infer_instance

/-- The states of two managers. -/
abbrev twoAfter (events : List ManagerEvent) : Managers :=
  managersAfter steadyEnv plainConfig twoManagers webWorld events

lemma performs_of_idle (es₁ es₃ : List ManagerEvent) {i : ℕ} {op : ManagerOp}
    (h : ((twoAfter es₁).processes i).running.isNone = true)
    (h' : ((twoAfter (es₁ ++ performing i op)).processes i).running.isNone = true) :
    Sessions.Performs (managers steadyEnv plainConfig twoManagers) i op
      (es₁ ++ (performing i op ++ es₃)) (twoAfter []) :=
  ⟨es₁, List.replicate 50 (.move i), es₃, rfl, Option.isNone_iff_eq_none.mp h,
    Option.isNone_iff_eq_none.mp h'⟩

lemma storedThroughout_of_take {es : List ManagerEvent} {d : String}
    (h : ∀ k < es.length + 1,
      (((twoAfter (es.take k)).shared.store .deployment).get d).isSome = true) :
    StoredThroughout steadyEnv plainConfig twoManagers es (twoAfter []) d := by
  rintro es₁ es₂ rfl hnone
  have := h es₁.length (by rw [List.length_append]; omega)
  rw [List.take_left] at this
  change (((twoAfter es₁).shared.store .deployment).get d) = none at hnone
  rw [hnone] at this
  cases this

theorem shards_cover_handing_over : ∃ i < 2,
    Sessions.Reaches (managers steadyEnv plainConfig twoManagers)
      (ReconcilesDeployment plainConfig "web") i handingOver (twoAfter []) := by
  refine (shards_cover steadyEnv plainConfig 2 (by decide) _ _ webWorld [] handingOver (by decide)
    (by decide) (by decide +kernel) (fun i hi => ?_)).1 "web" (storedThroughout_of_take ?_)
  · match i with
    | 0 =>
      exact performs_of_idle [] (performing 0 .stop ++ performing 1 .tick) rfl (by decide +kernel)
    | 1 =>
      exact performs_of_idle (performing 0 .tick ++ performing 0 .stop) [] (by decide +kernel)
        (by decide +kernel)
  · decide +kernel

/-- The next call of a manager is to take the mutex. -/
def aboutToLock (s : Managers) (i : ℕ) : Bool :=
  match (s.processes i).running with
  | some (_, .call .lock _) => true
  | _ => false

/-- Both reconciliations of a deployment start with the mutex. -/
lemma aboutToLock_of_enters {s : Managers} {i : ℕ} {op : ManagerOp} {p : M Unit} {o : Config}
    {d : String} (hi : (s.processes i).running = some (op, p))
    (h : p.Enters (ReconcilesDeployment o d)) : aboutToLock s i = true := by
  obtain ⟨q, hq, k, rfl⟩ := h
  rw [aboutToLock, hi]
  rcases hq with rfl | rfl
  · rfl
  · rfl

/-- While the first manager has the lease, the second one leaves its shard alone. -/
theorem shard_left_alone :
    (∀ i < 2, Sessions.Performs (managers steadyEnv plainConfig twoManagers) i .tick standingBy
        (twoAfter [])) ∧
      StoredThroughout steadyEnv plainConfig twoManagers standingBy (twoAfter []) "web" ∧
      ∀ i < 2, ¬ Sessions.Reaches (managers steadyEnv plainConfig twoManagers)
        (ReconcilesDeployment plainConfig "web") i standingBy (twoAfter []) := by
  refine ⟨fun i hi => ?_, storedThroughout_of_take (by decide +kernel), ?_⟩
  · match i with
    | 0 => exact performs_of_idle [] (performing 1 .tick) rfl (by decide +kernel)
    | 1 => exact performs_of_idle (performing 0 .tick) [] (by decide +kernel) (by decide +kernel)
  · rintro i hi ⟨es₁, es₂, he, op, p, hrun, henters⟩
    have hlock := aboutToLock_of_enters hrun henters
    have hnever : ∀ i < 2, ∀ k < standingBy.length + 1,
        aboutToLock (twoAfter (standingBy.take k)) i = false := by decide +kernel
    have htake : standingBy.take es₁.length = es₁ := by rw [he, List.take_left]
    have := hnever i hi es₁.length (by rw [he, List.length_append]; omega)
    rw [htake] at this
    exact absurd (this.symm.trans hlock) (by decide)

end Orchestrator
