/-
# Operations are chains of actions

Every operation of the API and every stage of the controller, run without interruption, is
a chain of actions and obeys the rules of the control plane (`Steers`).  Registration,
heartbeats and status reports, which the workers cause, are described by relations of
their own.
-/
import Mathlib
import Orchestrator.Logic.Actions
import Orchestrator.Logic.Calls

namespace Orchestrator

open Lib

variable {env : Env} {S : Resource → Prop} {R : String → Prop} {o : Config} {w w' w₁ : World}
  {d : Deployment} {α β : Type} {id : String} {d' : Deployment} {spec : DeploymentSpec} {now : Time}
  {job : Job}

/-- The run of `p` obeys the rules and is a chain of actions. -/
abbrev Steers (env : Env) (S : Resource → Prop) (R : String → Prop) (p : M α) (w : World) : Prop :=
  Holds env (planeRules S R) p w fun _ w' => Chain env S w w'

namespace Steers

variable {p : M α}

lemma stop (r : Except Err α) : Steers env S R (.ret r) w := Relation.ReflTransGen.refl

lemma bind {f : α → M β} (hp : Steers env S R p w)
    (hf : ∀ a w', Steers env S R (f a) w') : Steers env S R (p >>= f) w :=
  Prog.Sat.bind_rel hp fun a w' _ => hf a w'

lemma forEach {l : List β} {f : β → M Unit} (hf : ∀ x ∈ l, ∀ w', Steers env S R (f x) w') :
    Steers env S R (Prog.forEach l f) w :=
  Prog.Sat.forEach_rel fun x hx w' _ => hf x hx w'

lemma ignore (hp : Steers env S R p w) : Steers env S R p.ignore w :=
  Prog.Sat.ignore hp

lemma modality (S : Resource → Prop) (R : String → Prop) :
    Prog.Modality fun _ p => ∀ w, Steers env S R p w where
  pure _ _ := stop _
  bind hp hf w := bind (hp w) hf
  fail _ _ := stop _
  attempt hp w := Prog.Sat.attempt (hp w)

lemma of_quiet (h : Returns env (planeRules S R) p w fun _ w' => Quiet w w') :
    Steers env S R p w :=
  Prog.Sat.mono h fun _ _ ⟨_, _, hq⟩ => hq.chain

lemma of_reads {Q : Except Err α → Prop} (h : Reads p Q) : Steers env S R p w :=
  (h.quiet w).mono fun _ _ hr => hr.2.chain

lemma after (h : Chain env S w w₁) (hp : Steers env S R p w₁) :
    Holds env (planeRules S R) p w₁ fun _ w' => Chain env S w w' :=
  hp.mono fun _ _ h' => h.trans h'

/-- One reading. -/
lemma ask_bind {c : Call} (hc : c.reads = true) {f : c.Res → M β}
    (hf : ∀ a w', Quiet w w' → Steers env S R (f a) w') : Steers env S R (ask c >>= f) w :=
  reads_bind hc fun a w' hq => after hq.chain (hf a w' hq)

/-- A part that only reads. -/
lemma quiet_bind {f : α → M β} {Q : Except Err α → Prop} (hp : Reads p Q)
    (hf : ∀ a w', Quiet w w' → Steers env S R (f a) w') : Steers env S R (p >>= f) w :=
  (hp.quiet w).bind (fun a w' h => after h.2.chain (hf a w' h.2)) fun _ _ h => h.2.chain

lemma timeNow_bind {f : Time → M β} (hf : ∀ t w', Quiet w w' → Steers env S R (f t) w') :
    Steers env S R (timeNow >>= f) w := ask_bind (c := .now) rfl hf

lemma orNow_bind (t : Time) {f : Time → M β} (hf : ∀ t w', Steers env S R (f t) w') :
    Steers env S R (orNow t >>= f) w := bind (of_quiet (orNow_returns t w)) hf

lemma store {t : Tbl} {v : t.Val} (ht : t.core = false) (hG : Guard (planeRules S R) (.put t v) w) :
    Steers env S R (StateStore.store t v) w := of_quiet (store_quiet ht hG)

end Steers

/-! ### Quiet operations -/

/-- The call may be made in any state, and is quiet. -/
def Call.Unnoticed (env : Env) (S : Resource → Prop) (R : String → Prop) (c : Call) : Prop :=
  ∀ w, Guard (planeRules S R) c w ∧ Quiet w (exec env c w).2

instance : HasReads (Call.Unnoticed env S R) where
  reads _ hc w := ⟨guard_reads hc w, Quiet.of_store (exec_reads env hc w).1 (exec_reads env hc w).2⟩

lemma Call.unnoticed_put {t : Tbl} {v : t.Val} (ht : t.core = false)
    (hG : ∀ w, Guard (planeRules S R) (.put t v) w) : Call.Unnoticed env S R (.put t v) :=
  fun w => ⟨hG w, quiet_put v ht w⟩

/-- A program of such calls. -/
lemma Steers.of_makes {p : M α} (h : Makes (Call.Unnoticed env S R) p) : Steers env S R p w :=
  (Prog.Sat.of_only (I := fun w' => Chain env S w w')
    (fun _ w' hc hw' => ⟨(hc w').1, hw'.trans (hc w').2.chain⟩) h .refl).mono fun _ _ h => h.2

lemma steers_ensureNamespaceExists (ns : String) : Steers env S R (ensureNamespaceExists ns) w :=
  .of_makes (makes_ensureNamespaceExists (fun _ => Call.unnoticed_put rfl fun _ => trivial) ns)

lemma steers_admitSpec (spec : DeploymentSpec) : Steers env S R (admitSpec spec) w :=
  .of_makes (makes_admitSpec (fun _ => Call.unnoticed_put rfl fun _ => trivial) spec)

lemma steers_reconcileAllServiceEndpoints : Steers env S R reconcileAllServiceEndpoints w :=
  .of_makes (makes_reconcileAllServiceEndpoints fun id eps w =>
    ⟨trivial, quiet_replaceServiceEndpoints env id eps w⟩)

lemma steers_reconcilePVCBindings : Steers env S R reconcilePVCBindings w :=
  .of_makes (makes_reconcilePVCBindings (fun _ => Call.unnoticed_put rfl fun _ => trivial)
    fun _ _ => Call.unnoticed_put rfl fun _ => trivial)

/-! ### Deployments -/

/-- A pass over a deployment that is not being deleted. -/
lemma reconcileDeployment_chain
    (hlive : ∀ d, w.deps.get id = some d → d.deletionTimestamp = none) :
    Holds env (planeRules S R) (reconcileDeployment o id) w fun _ w' => Chain env S w w' ∧
      (w'.deps = w.deps ∨ ∃ d d', w.deps.get id = some d ∧ PassRecord d d' ∧
        w'.deps = w.deps.put d') := by
  refine Prog.Sat.mono (reconcileDeployment_holds ?_) ?_
  · intro d hd
    exact allows_prepared (Table.mem_of_get hd) (hlive d hd)
  · rintro r w' (⟨-, -, rfl⟩ | ⟨d, hd, -, h⟩)
    · exact ⟨.refl, Or.inl rfl⟩
    · have hmem := Table.mem_of_get hd
      obtain ⟨w₁, d', hc, hdeps, hrec, he⟩ := h.chain hmem (hlive d hd)
      refine ⟨hc.tail (.dep d d' (by rwa [hdeps]) hrec.depChange he), Or.inr ⟨d, d', hd, hrec, ?_⟩⟩
      rw [he.deps, hdeps]

lemma reconcileDeletion_chain :
    Holds env (planeRules S R) (reconcileDeletion id) w fun _ w' => Chain env S w w' ∧
      (w'.deps = w.deps ∨ ∃ d, w.deps.get id = some d ∧ (w'.deps = w.deps.del d.id ∨
        ∃ d', d'.core = d.core.viaJSON ∧ w'.deps = w.deps.put d')) := by
  refine Prog.Sat.mono (reconcileDeletion_holds id w) ?_
  rintro r w' (⟨-, -, rfl⟩ | ⟨d, hd, -, h⟩)
  · exact ⟨.refl, Or.inl rfl⟩
  · obtain ⟨hc, hdeps | hdeps⟩ := DeletionStep.chain (Table.mem_of_get hd) h
    · exact ⟨hc, Or.inl hdeps⟩
    · exact ⟨hc, Or.inr ⟨d, hd, hdeps⟩⟩

/-- A looked-up record is written back with a change. -/
lemma steers_write (hd : d ∈ w.deps.rows) (h : DepChange S d d'.viaJSON) :
    Steers env S R (StateStore.updateDeployment d') w := by
  refine Prog.Sat.mono (updateDeployment_returns d' w) ?_
  rintro _ w' ⟨_, -, he⟩
  exact .single (.dep d _ hd h he)

/-- A lookup of a deployment. -/
lemma steers_lookup {f : Deployment → M β}
    (hf : ∀ d, d ∈ w.deps.rows → d.id = id → Steers env S R (f d) w) :
    Steers env S R (StateStore.getDeployment id >>= f) w := by
  refine find_bind ?_ ?_
  · intro d hd
    exact hf d (Table.mem_of_get hd) (Table.key_of_get hd)
  · intro _
    exact .refl

lemma steers_deleteDeployment (id : String) : Steers env S R (deleteDeployment id) w := by
  refine withLock_holds (steers_lookup ?_)
  intro d hd _
  refine .timeNow_bind fun now w₁ hq => ?_
  rw [← hq.deps] at hd
  exact steers_write hd (.mark now rfl)

/-- An update writes the specification and the history that `Deployment.updatedTo` says. -/
lemma updateDeployment_outcome {P : Rules} (id : String) (next : DeploymentSpec) :
    Holds env P (updateDeployment id next) w fun _ w' =>
      (w.deps.get id = none ∧ w' = w) ∨
      ∃ d now, w.deps.get id = some d ∧ WroteBack (d.updatedTo next now).core w w' := by
  refine withLock_holds (find_bind ?_ fun hnone => Or.inl ⟨hnone, rfl⟩)
  intro d hd
  refine stamp_bind fun t₁ w₁ q₁ => stamp_bind fun t₂ w₂ q₂ => stamp_bind fun t₃ w₃ q₃ => ?_
  have happend : ∀ e : Deployment, e.core = { d with spec := next.inherit d.spec }.core →
      Returns env P (if decide (d.spec ≠ next.inherit d.spec) then appendRevisionNow e
        else pure e) w₃ fun d' w₄ => Quiet w₃ w₄ ∧ ∃ now, d'.core = (d.updatedTo next now).core := by
    intro e he
    obtain ⟨hid, hspec, hcur, hhist, hdel⟩ := DepCore.mk.inj he
    split
    · next hch =>
      rw [decide_eq_true_eq] at hch
      refine stamp_bind fun now w₄ q₄ => returns_pure ⟨q₄, now, ?_⟩
      rw [Deployment.updatedTo, if_pos hch]
      simp [Deployment.core, Deployment.appendRevision, hid, hspec, hcur, hhist, hdel]
    · next hch =>
      rw [decide_eq_true_eq] at hch
      refine returns_pure ⟨Quiet.refl w₃, 0, ?_⟩
      rw [Deployment.updatedTo, if_neg hch, he]
  refine Returns.bind (happend _ ?_) ?_
  · rfl
  rintro d' w₄ ⟨q₄, now, hd'⟩
  refine stamp_bind fun t₅ w₅ q₅ => (updateDeployment_returns _ w₅).bind fun _ w₆ he => ?_
  have hq : Quiet w w₅ := (((q₁.trans q₂).trans q₃).trans q₄).trans q₅
  rw [hq.nodes, hq.deps, hq.workloads, hq.queue] at he
  refine Or.inr ⟨d, now, hd, _, ?_, hq.eff he⟩
  rw [core_viaJSON, ← hd']
  rfl

lemma steers_updateDeployment {next : DeploymentSpec} (hS : S next.resources) (id : String) :
    Steers env S R (updateDeployment id next) w := by
  refine (updateDeployment_outcome id next).mono ?_
  rintro r w' (⟨-, rfl⟩ | ⟨d, now, hd, d', hd', he⟩)
  · exact .refl
  · exact .single (.dep d d' (Table.mem_of_get hd) (.update next now hS hd') he)

/-- A rollback to a revision that is not recorded changes nothing. -/
lemma rollbackDeployment_outcome {P : Rules} (id : String) (rev : ℤ) :
    Holds env P (rollbackDeployment id rev) w fun r w' =>
      (w' = w ∧ ∀ d, w.deps.get id = some d →
        d.revision? (if rev ≤ 0 then d.currentRevision - 1 else rev) = none) ∨
      ∃ d target now, w.deps.get id = some d ∧
        d.revision? (if rev ≤ 0 then d.currentRevision - 1 else rev) = some target ∧
        WroteBack (d.rollbackTo target now).core w w' ∧ ∃ x, r = .ok x := by
  refine withLock_holds (find_bind ?_ ?_)
  · intro d hd
    have hsome : ∀ e, w.deps.get id = some e → e = d := fun e he => Option.some.inj (he.symm.trans hd)
    split
    · next hnil =>
      refine Or.inl ⟨rfl, fun e he => ?_⟩
      rw [hsome e he, Deployment.revision?, hnil]
      rfl
    · dsimp only
      split
      · next hnone =>
        exact Or.inl ⟨rfl, fun e he => hsome e he ▸ hnone⟩
      · next target ht =>
        refine stamp_bind fun t₁ w₁ q₁ => stamp_bind fun t₂ w₂ q₂ => stamp_bind fun t₃ w₃ q₃ =>
          stamp_bind fun t₄ w₄ q₄ => stamp_bind fun t₅ w₅ q₅ => ?_
        have hq : Quiet w w₅ := (((q₁.trans q₂).trans q₃).trans q₄).trans q₅
        refine (updateDeployment_returns _ w₅).bind ?_
        intro _ w₆ he
        rw [hq.nodes, hq.deps, hq.workloads, hq.queue] at he
        exact Or.inr ⟨d, target, t₁, hd, ht, ⟨_, rfl, hq.eff he⟩, _, rfl⟩
  · intro hnone
    exact Or.inl ⟨rfl, fun e he => by cases hnone.symm.trans he⟩

lemma rollbackDeployment_holds (id : String) (rev : ℤ) :
    Holds env (planeRules S R) (rollbackDeployment id rev) w fun r w' => Chain env S w w' ∧
      w'.workloads = w.workloads ∧ ∀ e, r = .error e → Quiet w w' := by
  refine (rollbackDeployment_outcome id rev).mono ?_
  rintro r w' (⟨rfl, -⟩ | ⟨d, target, now, hd, ht, ⟨d', hd', he⟩, x, rfl⟩)
  · exact ⟨.refl, rfl, fun _ _ => Quiet.refl w'⟩
  · refine ⟨.single (.dep d d' (Table.mem_of_get hd)
      (.rollback d (Or.inl rfl) _ target now ht hd') he), he.workloads, ?_⟩
    rintro e ⟨⟩

/-! ### `CreateDeployment` -/

lemma admitted_normalized (spec : DeploymentSpec) : spec.admitted.normalized = spec.admitted := by
  simp [DeploymentSpec.admitted, DeploymentSpec.normalized, normalizeRolloutSpec_idem]

/-- A pass over a deployment that was just created writes back the core it found. -/
lemma PassRecord.of_new
    (h : PassRecord (newDeployment id spec.admitted now).viaJSON d') :
    d'.core = (newDeployment id spec.admitted now).core.viaJSON := by
  rcases h with h | ⟨target, t, ht, -⟩
  · rw [h]
    have hspec : spec.admitted.viaJSON.normalized = spec.admitted.viaJSON := by
      conv_rhs => rw [← admitted_normalized]
      rfl
    simp [Deployment.core, Deployment.prepared, Deployment.viaJSON, DepCore.viaJSON, newDeployment,
      hspec]
  · -- there is no revision before the first one
    simp [Deployment.revision?, Deployment.prepared, Deployment.viaJSON, newDeployment,
      DeploymentRevision.viaJSON] at ht

lemma keepsCore_createdStatus (d : Deployment) : KeepsCore d.core (createdStatus d) :=
  .timeNow fun _ => .timeNow fun _ => .timeNow fun _ => .pure rfl

lemma DepCore.viaJSON_viaJSON (c : DepCore) : c.viaJSON.viaJSON = c.viaJSON := by
  simp [DepCore.viaJSON]

lemma createDeployment_store (d : Deployment) (w : World) :
    Holds env (planeRules S R) (StateStore.createDeployment d) w fun r w' =>
      (w.deps.get d.id ≠ none ∧ w' = w ∧ ∃ e, r = .error e) ∨ (w.deps.get d.id = none ∧ r = .ok () ∧
        Eff w w' w.nodes (w.deps.put d.viaJSON) w.workloads w.queue) := by
  refine ⟨trivial, ?_⟩
  cases h : w.deps.get d.id with
  | some d' =>
    have he : (exec env (.get .deployment d.id) w).1 = some d' := h
    rw [he]
    exact Or.inl ⟨nofun, rfl, _, rfl⟩
  | none =>
    have he : (exec env (.get .deployment d.id) w).1 = none := h
    rw [he]
    refine Prog.Sat.mono (store_deployment d w) ?_
    rintro _ w' ⟨_, rfl, he⟩
    exact Or.inr ⟨rfl, rfl, he⟩

/-- The first pass over a new deployment, and the write-back of the record as it was made. -/
lemma steers_firstPass
    (h : w.deps.get id = some (newDeployment id spec.admitted now).viaJSON) :
    Steers env S R (do
      reconcileDeployment o id
      let dep ← createdStatus (newDeployment id spec.admitted now)
      (StateStore.updateDeployment dep).ignore
      pure dep) w := by
  refine Prog.Sat.bind (reconcileDeployment_chain ?_) ?_ fun _ _ h => h.1
  · intro d hd
    obtain rfl := Option.some.inj (h.symm.trans hd)
    rfl
  rintro _ w₁ ⟨hc, hdeps⟩
  refine (Drafts.returns (keepsCore_createdStatus _) w₁).bind ?_
  rintro dep w₂ ⟨hcore, hq⟩
  refine Steers.after (hc.trans hq.chain) (.bind (.ignore ?_) fun _ _ => .stop _)
  -- the record that the pass has left has the core that is now written
  obtain ⟨d', hmem, hd'⟩ : ∃ d' ∈ w₂.deps.rows,
      d'.core = (newDeployment id spec.admitted now).core.viaJSON := by
    rw [hq.deps]
    rcases hdeps with hdeps | ⟨d, d', hd, hrec, hdeps⟩
    · rw [hdeps]
      exact ⟨_, Table.mem_of_get h, rfl⟩
    · obtain rfl := Option.some.inj (h.symm.trans hd)
      rw [hdeps]
      exact ⟨d', Table.mem_rows_put.mpr (Or.inl rfl), hrec.of_new⟩
  refine steers_write hmem (.touch (Or.inl ?_))
  rw [core_viaJSON, hcore, hd', DepCore.viaJSON_viaJSON]

lemma steers_createDeployment (hS : S spec.resources) :
    Steers env S R (createDeployment o spec) w := by
  unfold createDeployment
  split
  · exact .stop _
  split
  · exact .stop _
  refine .bind (steers_admitSpec _) fun _ w₀ => ?_
  refine (timeNow_returns w₀).bind ?_
  rintro now w₁ ⟨rfl, q₁, ht₁⟩
  refine (randIntn_returns w₁).bind ?_
  rintro r w₂ ⟨rfl, q₂, ht₂⟩
  have hq : Quiet w₀ w₂ := q₁.trans q₂
  refine (createDeployment_store _ w₂).bind ?_ ?_
  swap
  · rintro e w₃ (⟨-, rfl, -⟩ | ⟨-, hr, -⟩)
    · exact hq.chain
    · cases hr
  rintro _ w₃ (⟨-, -, e, hr⟩ | ⟨hnew, -, he⟩)
  · cases hr
  have hcreate : Chain env S w₀ w₃ := by
    rw [hq.nodes, hq.deps, hq.workloads, hq.queue] at he
    rw [hq.deps, ht₁] at hnew
    refine .single (.create spec w₀.tick hS hnew le_rfl ?_ ?_)
    · have h₂ := q₂.tick
      have h₃ := he.tick
      omega
    · rw [ht₁] at he
      exact hq.eff he
  refine Steers.after hcreate (steers_firstPass ?_)
  rw [he.deps]
  exact Table.get_put_self _ _

/-! ### Autoscaling and workload health -/

lemma steers_autoscalePolicy (now : Time) (p : AutoscalerPolicy) :
    Steers env S R (autoscalePolicy o now p) w := by
  refine find_attempt_bind ?_ fun _ => .refl
  intro d hd
  have hmem : d ∈ w.deps.rows := Table.mem_of_get hd
  have hlist : Reads (StateStore.listDeploymentMetrics d.id 200) fun _ => True :=
    ⟨rfl, fun _ => trivial⟩
  refine Steers.quiet_bind hlist fun samples w₁ hq => ?_
  dsimp only
  split
  · exact .stop _
  · refine .bind (steers_write (d := d) ?_ (.scale _ rfl)) fun _ w₂ =>
      .orNow_bind _ fun t w₃ => .store rfl trivial
    rwa [hq.deps]

lemma steers_reconcileAutoscaling : Steers env S R (reconcileAutoscaling o) w :=
  .ask_bind rfl fun _ _ _ => .timeNow_bind fun now _ _ => .forEach fun p _ _ =>
    steers_autoscalePolicy now p

lemma maybeAutoRollback_holds (d : Deployment) :
    Holds env (planeRules S R) (maybeAutoRollbackForFailures d) w fun _ w' =>
      Chain env S w w' ∧ w'.workloads = w.workloads := by
  unfold maybeAutoRollbackForFailures
  split
  · exact ⟨.refl, rfl⟩
  refine deployed_bind ?_
  generalize (if d.spec.rollout.maxFailedWorkloads ≤ 0 then (1 : ℤ)
    else d.spec.rollout.maxFailedWorkloads) = threshold
  change Holds env _ (if _ then _ else _) w _
  split
  · exact ⟨.refl, rfl⟩
  · refine Prog.Sat.ignore ((rollbackDeployment_holds _ _).mono ?_)
    intro r w' h
    exact ⟨h.1, h.2.1⟩

lemma livenessFailure_some {deps : List Deployment} {v : Workload}
    (h : livenessFailure now deps v = some d) : v.status = .running := by
  rw [livenessFailure, Option.filter_eq_some_iff] at h
  simp only [Bool.and_eq_true, decide_eq_true_eq] at h
  exact h.2.1.1.2

lemma steers_evaluateWorkloadHealth : Steers env S R evaluateWorkloadHealth w := by
  refine listWorkloads_bind (listDeployments_bind (stamp_bind fun now w₀ hq => ?_))
  -- the listed workloads that are still to be visited are stored as they were listed
  refine Prog.Sat.forEach (I := fun l w' => Chain env S w w' ∧ (l.map Workload.id).Nodup ∧
    ∀ v ∈ l, v ∈ w'.workloads.rows) ?_ (fun _ h => h.1) _ ⟨hq.chain, w.workloads.nodup_keys, ?_⟩
  swap
  · intro v hv
    rwa [hq.workloads]
  rintro v vs w₁ ⟨hc, hnd, hmem⟩
  rw [List.map_cons, List.nodup_cons] at hnd
  have hv : v ∈ w₁.workloads.rows := hmem v (by simp)
  cases hfail : livenessFailure now w.deps.rows v with
  | none => exact ⟨hc, hnd.2, fun u hu => hmem u (by simp [hu])⟩
  | some d =>
    refine Returns.bind (restatusWorkload_returns (v := { v with
      status := .failed, restartCount := v.restartCount + 1 }) hv rfl rfl nofun) ?_
    rintro _ w₂ ⟨t, he⟩
    have hstep : Chain env S w₁ w₂ :=
      chain_restatus (g := fun u => { u with
        status := .failed, restartCount := u.restartCount + 1, updatedAt := t }) hv rfl
        (.unlive t (livenessFailure_some hfail)) he
    refine (maybeAutoRollback_holds d).mono ?_
    rintro r w₃ ⟨hc', hw⟩
    have hrest : ∀ u ∈ vs, u ∈ w₃.workloads.rows := by
      intro u hu
      rw [hw, he.workloads, Table.mem_rows_put]
      refine Or.inr ⟨hmem u (by simp [hu]), ?_⟩
      intro hid
      exact hnd.1 (List.mem_map.mpr ⟨u, hu, hid⟩)
    have hc₃ : Chain env S w w₃ := (hc.trans hstep).trans hc'
    cases r with
    | ok _ => exact ⟨hc₃, hnd.2, hrest⟩
    | error _ => exact hc₃

/-! ### Jobs -/

lemma Call.unnoticed_job (hS : S job.spec.template.resources) :
    Call.Unnoticed env S R (.put .job job) := unnoticed_put rfl fun _ => hS

lemma Call.unnoticed_cronJob {cj : CronJob} (hS : S cj.template.template.resources) :
    Call.Unnoticed env S R (.put .cronJob cj) := unnoticed_put rfl fun _ => hS

lemma steers_storeJob (hS : S job.spec.template.resources) :
    Steers env S R (StateStore.upsertJob job) w :=
  .of_makes (makes_storeJob fun _ hj => Call.unnoticed_job (hj ▸ hS))

lemma steers_runCronJob {cj : CronJob} (hS : S cj.template.template.resources) :
    Steers env S R (runCronJob now cj) w :=
  .of_makes (makes_runCronJob now (fun _ hj => Call.unnoticed_job
      ((congrArg (fun b => S b.2.resources) hj).mpr hS))
    fun _ hc => Call.unnoticed_cronJob ((congrArg (fun b => S b.2.resources) hc).mpr hS))

lemma steers_reconcileJob (hS : S job.spec.template.resources) :
    Steers env S R (reconcileJob o now job) w := by
  refine reconcileJob_of (Steers.modality S R) (fun _ => steers_createDeployment hS) ?_
    (fun _ => .of_reads (Q := fun _ => True) ⟨rfl, fun _ => trivial⟩)
    (fun k _ => steers_deleteDeployment k) (fun _ => .of_quiet (deleteJob_returns _ _)) w
  intro j hj _
  exact steers_storeJob ((congrArg (fun b => S b.2.resources) hj).mpr hS)

/-- Every stored job and cron job asks for resources in `S`. -/
def RequestsIn (S : Resource → Prop) (w : World) : Prop := ∀ r, w.Requested r → S r

/-- The run of `p` is a chain of actions, and what it returns satisfies `T`. -/
abbrev Yields (env : Env) (S : Resource → Prop) (R : String → Prop) (p : M α) (w : World)
    (T : α → Prop) : Prop :=
  Holds env (planeRules S R) p w fun r w' => Chain env S w w' ∧ ∀ a, r = .ok a → T a

lemma Yields.bind {p : M α} {f : α → M β} {T : α → Prop} (hw : RequestsIn S w)
    (hp : Yields env S R p w T) (hf : ∀ a w', T a → RequestsIn S w' → Steers env S R (f a) w') :
    Steers env S R (p >>= f) w := by
  refine (holds_requested hp hw).bind ?_ fun _ _ h => h.1.1
  rintro a w' ⟨⟨hc, hT⟩, hw'⟩
  exact Steers.after hc (hf a w' (hT a rfl) hw')

/-- A list collected from several parts. -/
lemma Yields.mapEach {γ : Type} {T : γ → Prop} {f : β → M (List γ)} (hw : RequestsIn S w)
    (hf : ∀ x w', RequestsIn S w' → Yields env S R (f x) w' fun ys => ∀ y ∈ ys, T y)
    (l : List β) : Yields env S R (Prog.mapEach l f) w fun yss => ∀ y ∈ yss.flatten, T y := by
  refine (Prog.Sat.mapEach (I := fun w' => Chain env S w w' ∧ RequestsIn S w')
    (P := fun ys => ∀ y ∈ ys, T y) l ?_ ⟨.refl, hw⟩).mono ?_
  · rintro x - w' ⟨hc, hw'⟩
    refine (holds_requested (hf x w' hw') hw').mono ?_
    rintro r w'' ⟨⟨hc', hr⟩, hw''⟩
    exact ⟨⟨hc.trans hc', hw''⟩, hr⟩
  · rintro r w' ⟨hI, hr⟩
    refine ⟨hI.1, ?_⟩
    rintro yss rfl y hy
    obtain ⟨ys, hys, hy⟩ := List.mem_flatten.mp hy
    exact hr yss rfl ys hys y hy

lemma yields_listCronJobs (hw : RequestsIn S w) (ns : String) :
    Yields env S R (StateStore.listCronJobs ns) w fun cs =>
      ∀ c ∈ cs, S c.template.template.resources := by
  refine ⟨trivial, .refl, ?_⟩
  rintro cs ⟨⟩ c hc
  have hc' : c ∈ w.store.list .cronJob (keyCronJobPrefix ns) := hc
  exact hw _ (Or.inr ⟨c, Store.mem_list hc', rfl⟩)

lemma yields_listJobs (hw : RequestsIn S w) (ns : String) :
    Yields env S R (StateStore.listJobs ns) w fun js => ∀ j ∈ js, S j.spec.template.resources := by
  have hlist : ∀ j ∈ w.store.list .job "", S (Job.spec j).template.resources := by
    intro j hj
    exact hw _ (Or.inl ⟨j, Store.mem_list hj, rfl⟩)
  refine ⟨trivial, ?_⟩
  change Holds env _ (if _ then _ else _) w _
  split
  · refine ⟨.refl, ?_⟩
    rintro js ⟨⟩ j hj
    exact hlist j hj
  · refine ⟨.refl, ?_⟩
    rintro js ⟨⟩ j hj
    exact hlist j (List.mem_filter.mp hj).1

lemma Steers.yields {p : M α} (hp : Steers env S R p w) : Yields env S R p w fun _ => True :=
  hp.mono fun _ _ hc => ⟨hc, fun _ _ => trivial⟩

/-- The controller's stage for jobs, from a state whose jobs ask for resources in `S`. -/
lemma steers_reconcileJobsAndCron (hw : RequestsIn S w) :
    Steers env S R (reconcileJobsAndCron o) w := by
  refine Yields.bind hw (yields_listCronJobs hw _) fun first w₁ hfirst hw₁ => ?_
  have hns : Steers env S R StateStore.listNamespaces w₁ := .of_reads (Q := fun _ => True)
    ⟨rfl, fun _ => trivial⟩
  refine Yields.bind hw₁ hns.yields fun namespaces w₂ _ hw₂ => ?_
  refine Yields.bind hw₂ (Yields.mapEach hw₂ (fun ns w' hw' => yields_listCronJobs hw' _) _)
    fun rest w₃ hrest hw₃ => ?_
  refine Yields.bind hw₃ (Steers.yields (.of_reads (Q := fun _ => True) ⟨rfl, fun _ => trivial⟩))
    fun now w₄ _ hw₄ => ?_
  have hcron : Steers env S R (Prog.forEach (first ++ rest.flatten) (runCronJob now)) w₄ := by
    refine .forEach fun c hc w' => steers_runCronJob ?_
    rcases List.mem_append.mp hc with hc | hc
    · exact hfirst c hc
    · exact hrest c hc
  refine Yields.bind hw₄ hcron.yields fun _ w₅ _ hw₅ => ?_
  refine Yields.bind hw₅ (yields_listJobs hw₅ _) fun first w₆ hfirst hw₆ => ?_
  refine Yields.bind hw₆ (Yields.mapEach hw₆ (fun ns w' hw' => yields_listJobs hw' _) _)
    fun rest w₇ hrest _ => ?_
  refine .forEach fun j hj w' => steers_reconcileJob ?_
  rcases List.mem_append.mp hj with hj | hj
  · exact hfirst j hj
  · exact hrest j hj

/-! ### Nodes -/

lemma remediateUnhealthyNode_holds (nodeID : String) :
    Holds env (planeRules S R) (remediateUnhealthyNode nodeID) w fun _ w' =>
      Chain env S w w' ∧ w'.nodes = w.nodes := by
  refine listWorkloads_bind ?_
  rw [Prog.forEach_ite]
  refine Prog.Sat.mono (terminateAll_returns ?_ ?_) ?_
  · exact w.workloads.nodup_keys.sublist (List.filter_sublist.map _)
  · intro v hv
    exact (List.mem_filter.mp hv).1
  · rintro _ w' ⟨_, -, h⟩
    refine ⟨h.chain ?_, ?_⟩
    · intro v hv
      obtain ⟨hmem, hstatus⟩ := List.mem_filter.mp hv
      simp only [decide_eq_true_eq] at hstatus
      refine ⟨hmem, ?_, ?_⟩ <;> rcases hstatus.2 with h | h <;> rw [h] <;> nofun
    · obtain ⟨τ, W, A, he, -⟩ := h
      exact he.nodes

lemma steers_terminateWorkload {v : Workload} (hv : v ∈ w.workloads.rows)
    (hstatus : v.status = .running) : Steers env S R (terminateWorkload v) w := by
  refine Prog.Sat.mono (terminateWorkload_returns hv) ?_
  rintro _ w' ⟨_, -, now, A, he⟩
  refine chain_restatus (g := fun u => u.marked now) hv rfl (.mark now ?_ ?_) he
  · rw [hstatus]
    nofun
  · rw [hstatus]
    nofun

lemma steers_rebalanceWorkloads : Steers env S R (rebalanceWorkloads o) w := by
  refine listNodes_bind ?_
  split
  · exact Steers.stop _
  · split
    · exact Steers.stop _
    · refine listWorkloads_bind ?_
      split
      · next v hv =>
        have hrun := List.find?_some hv
        simp only [Bool.and_eq_true, decide_eq_true_eq] at hrun
        exact steers_terminateWorkload (List.mem_of_find?_eq_some hv) hrun.2
      · exact Steers.stop _

lemma evaluateNode_eq (now : Time) (n : Node) : ∃ status health,
    evaluateNode o now n = { n with status := status, health := health } := by
  unfold evaluateNode
  dsimp only
  split_ifs <;> exact ⟨_, _, rfl⟩

/-- A node record is written with another status and health. -/
lemma touchNode_returns {n n' : Node} (hn : n ∈ w.nodes.rows)
    (h : ∃ status health, n' = { n with status := status, health := health }) :
    Returns env (planeRules S R) (StateStore.upsertNode n') w fun _ w' => Chain env S w w' ∧
      ∃ m, m.id = n.id ∧ w'.nodes = w.nodes.put m := by
  obtain ⟨status, health, rfl⟩ := h
  refine (upsertNode_returns _ w).mono ?_
  rintro _ w' ⟨seen, he⟩
  exact ⟨.single (.node n status health seen hn he),
    { n with status := status, health := health, lastSeen := seen }, rfl, he.nodes⟩

lemma steers_updateNodeHealth : Steers env S R (updateNodeHealth o) w := by
  refine listNodes_bind (stamp_bind fun now w₀ hq => ?_)
  -- the listed nodes that are still to be visited are stored as they were listed
  refine Prog.Sat.forEach (I := fun l w' => Chain env S w w' ∧ (l.map Node.id).Nodup ∧
    ∀ n ∈ l, n ∈ w'.nodes.rows) ?_ (fun _ h => h.1) _ ⟨hq.chain, w.nodes.nodup_keys, ?_⟩
  swap
  · intro n hn
    rwa [hq.nodes]
  rintro n ns w₁ ⟨hc, hnd, hmem⟩
  rw [List.map_cons, List.nodup_cons] at hnd
  refine Returns.bind (touchNode_returns (hmem n (by simp)) (evaluateNode_eq now n)) ?_
  rintro _ w₂ ⟨hc', m, hm, hnodes⟩
  have hrest : ∀ u ∈ ns, u ∈ w₂.nodes.rows := by
    intro u hu
    rw [hnodes, Table.mem_rows_put]
    refine Or.inr ⟨hmem u (by simp [hu]), ?_⟩
    intro hid
    exact hnd.1 (List.mem_map.mpr ⟨u, hu, hid.trans hm⟩)
  have hc₂ : Chain env S w w₂ := hc.trans hc'
  split
  · refine (remediateUnhealthyNode_holds _).mono ?_
    rintro r w₃ ⟨hc₃, hn₃⟩
    have hc₃' : Chain env S w w₃ := hc₂.trans hc₃
    cases r with
    | ok _ =>
      refine ⟨hc₃', hnd.2, ?_⟩
      rwa [hn₃]
    | error _ => exact hc₃'
  · exact ⟨hc₂, hnd.2, hrest⟩

lemma steers_drainNode (nodeID : String) : Steers env S R (drainNode nodeID) w := by
  refine find_bind ?_ fun _ => .refl
  intro n hn
  refine Returns.bind (touchNode_returns (Table.mem_of_get hn) ⟨_, _, rfl⟩) ?_
  rintro _ w₁ ⟨hc, -⟩
  exact Steers.after hc ((remediateUnhealthyNode_holds nodeID).mono fun _ _ h => h.1)

lemma steers_removeNode (nodeID : String) : Steers env S R (removeNode nodeID) w := by
  refine .bind (steers_drainNode nodeID) fun _ w₁ => find_bind ?_ fun _ => .refl
  intro n hn
  refine Prog.Sat.mono (touchNode_returns (Table.mem_of_get hn) ⟨_, _, rfl⟩) ?_
  rintro _ w₂ ⟨_, -, hc, -⟩
  exact hc

/-! ### `ReconcileAll` -/

/-- The deployment of this id, if it is stored, is not being deleted. -/
def Unmarked (w : World) (id : String) : Prop :=
  ∀ d, w.deps.get id = some d → d.deletionTimestamp = none

lemma unmarked_put {D : Table Deployment Deployment.id} {d : Deployment} (hw : w'.deps = D.put d')
    (hd : D.get d'.id = some d) (hdel : d'.deletionTimestamp = d.deletionTimestamp) (hD : w.deps = D)
    (id : String) (h : Unmarked w id) : Unmarked w' id := by
  intro e he
  rw [hw, Table.get_put] at he
  split at he
  · next hid =>
    cases he
    rw [hdel]
    refine h d ?_
    rwa [hD, hid]
  · refine h e ?_
    rwa [hD]

/-- The pass over one listed deployment marks no other. -/
lemma reconcileListed_holds (hlive : d.deletionTimestamp = none → Unmarked w d.id) :
    Holds env (planeRules S R) (reconcileListed o d) w fun r w' => r = .ok () ∧
      Chain env S w w' ∧ ∀ id, Unmarked w id → Unmarked w' id := by
  unfold reconcileListed
  split
  · refine Prog.Sat.ignore (reconcileDeletion_chain.mono ?_)
    rintro r w' ⟨hc, hdeps | ⟨e, he, hdeps | ⟨e', he', hdeps⟩⟩⟩
    · refine ⟨rfl, hc, fun id h => ?_⟩
      rwa [Unmarked, hdeps]
    · refine ⟨rfl, hc, fun id h e' he' => h e' ?_⟩
      rw [hdeps, Table.get_del] at he'
      split at he'
      · cases he'
      · exact he'
    · refine ⟨rfl, hc, unmarked_put hdeps (d := e) ?_ ?_ rfl⟩
      · rw [show e'.id = e.id from congrArg DepCore.id he', Table.key_of_get he]
        exact he
      · exact congrArg DepCore.deletionTimestamp he'
  · next hmark =>
    rw [Bool.not_eq_true, Option.isSome_eq_false_iff, Option.isNone_iff_eq_none] at hmark
    refine Prog.Sat.ignore ((reconcileDeployment_chain (hlive hmark)).mono ?_)
    rintro r w' ⟨hc, hdeps | ⟨e, e', he, hrec, hdeps⟩⟩
    · refine ⟨rfl, hc, fun id h => ?_⟩
      rwa [Unmarked, hdeps]
    · refine ⟨rfl, hc, unmarked_put hdeps (d := e) ?_ hrec.deletionTimestamp rfl⟩
      have hid : e'.id = e.id := (hrec.depChange (S := S)).id_eq
      rw [hid, Table.key_of_get he]
      exact he

lemma steers_reconcileListed_all :
    Steers env S R (Prog.forEach w.deps.rows (reconcileListed o)) w := by
  -- the listed deployments that are still to be visited are marked only if they were
  refine Prog.Sat.forEach (I := fun l w' => Chain env S w w' ∧
    ∀ d ∈ l, d.deletionTimestamp = none → Unmarked w' d.id) ?_ (fun _ h => h.1) _ ⟨.refl, ?_⟩
  · rintro d ds w₁ ⟨hc, hl⟩
    refine (reconcileListed_holds (hl d (by simp))).mono ?_
    rintro r w₂ ⟨rfl, hc', hkeep⟩
    refine ⟨hc.trans hc', fun e he hmark => ?_⟩
    exact hkeep e.id (hl e (by simp [he]) hmark)
  · intro d hd hmark e he
    obtain rfl := Option.some.inj ((Table.get_of_mem hd).symm.trans he)
    exact hmark

lemma steers_reconcileAll (hw : RequestsIn S w) : Steers env S R (reconcileAll o) w := by
  refine listDeployments_bind ?_
  refine Yields.bind hw steers_reconcileListed_all.yields fun _ w₁ _ hw₁ => ?_
  refine Yields.bind hw₁ steers_reconcileAutoscaling.ignore.yields fun _ w₂ _ hw₂ => ?_
  refine Yields.bind hw₂ steers_evaluateWorkloadHealth.ignore.yields fun _ w₃ _ hw₃ => ?_
  refine Yields.bind hw₃ steers_reconcileAllServiceEndpoints.ignore.yields fun _ w₄ _ hw₄ => ?_
  refine Yields.bind hw₄ steers_reconcilePVCBindings.ignore.yields fun _ w₅ _ hw₅ => ?_
  exact .bind (.ignore (steers_reconcileJobsAndCron hw₅)) fun _ _ => steers_updateNodeHealth

end Orchestrator
