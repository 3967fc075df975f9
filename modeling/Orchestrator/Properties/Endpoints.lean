/-
# The endpoints of a service

`reconcileServiceEndpoints` joins the workloads, their deployments and the ports of a service, and
stores one record for each pair of a workload behind the service and an entry of its ports, in
place of what was stored under the prefix of the service.  The id of a record names the service,
the workload and the target port only.  Two entries that lead to the same target port, such as TCP
and UDP of a name server, have one id, and the later of the two records replaces the earlier.

A workload is ready once it is past the delay of its probe.  The delay is a 64-bit number of
nanoseconds, and one of more than 9223372036 seconds is none that the code can wait for.
-/
import Orchestrator.Api.Validation
import Orchestrator.Lib.Decimal
import Orchestrator.Lib.Pointwise
import Orchestrator.Logic.Durations
import Orchestrator.Properties.Maps
import Orchestrator.System

namespace Orchestrator

open Lib

variable {env : Env} {P : Rules} {svc : Service} {w w' : World} {v : Workload} {n : ℕ}

/-! ### The pairs of a service -/

/-- The selector names at least one label, and the labels have all the values that it names. -/
def Selects (selector labels : StrMap) : Prop :=
  selector.rows ≠ [] ∧ ∀ kv ∈ selector.rows, labels.lookup kv.1 = kv.2

/-- The deployment is in the namespace of the service and has the labels that it selects. -/
def Service.Serves (svc : Service) (d : Deployment) : Prop :=
  trimSpace d.spec.nameSpace = trimSpace svc.spec.nameSpace ∧
    Selects svc.spec.selector (d.spec.labels.getD Table.empty)

/-- The workload stands behind the service: it is pending or running, and of a deployment that the
service serves. -/
def Backs (svc : Service) (w : World) (v : Workload) : Prop :=
  (v.status = .pending ∨ v.status = .running) ∧
    ∃ d, w.deps.get v.deploymentID = some d ∧ svc.Serves d

open Classical in
/-- The pairs of a workload behind the service and an entry of its ports. -/
noncomputable def pairs (svc : Service) (w : World) : List (Workload × ServicePort) :=
  (w.workloads.rows.filter fun v => Backs svc w v).flatMap fun v =>
    svc.spec.ports.map fun p => (v, p)

/-- What decides whether a workload made at time `u` is past its delay at time `t`. -/
abbrev Passing := Int64 → (u t : ℤ) → Prop

/-- So many seconds have passed. -/
def passed : Passing := fun delay u t => u + delay.toInt * 1000000000 ≤ t

/-- What the code compares. -/
def foundPassed : Passing := fun delay u t => seconds delay ≤ Time.sub t u

/-- The workload is ready at a time: it is running, and past the delay of its readiness probe if
that is enabled. -/
def ReadyAt (past : Passing) (w : World) (v : Workload) (t : Time) : Prop :=
  v.status = .running ∧ ∀ d, w.deps.get v.deploymentID = some d →
    d.spec.readinessProbe.enabled = true →
    past d.spec.readinessProbe.initialDelaySeconds v.createdAt t

/-- An endpoint for a pair, found to be ready or not at a reading of the clock between that of
`w` and the `n`-th. -/
structure EndpointFor (past : Passing) (env : Env) (svc : Service) (w : World) (n : ℕ)
    (x : Workload × ServicePort) (e : ServiceEndpoint) : Prop where
  service : e.serviceID = svc.id
  workload : e.workloadID = x.1.id
  node : e.nodeID = x.1.nodeID
  port : e.port = x.2.targetPort
  protocol : e.protocol = x.2.protocol
  ready : ∃ k, w.tick ≤ k ∧ k < n ∧ (e.ready = true ↔ ReadyAt past w x.1 (env.clock k))

/-- The id of the endpoint for a pair. -/
def pairID (svc : Service) (x : Workload × ServicePort) : String :=
  endpointID svc.id x.1.id x.2.targetPort

/-- An endpoint as it is made for a pair. -/
structure MadeFor (env : Env) (svc : Service) (w : World) (n : ℕ)
    (x : Workload × ServicePort) (e : ServiceEndpoint) : Prop
    extends EndpointFor foundPassed env svc w n x e where
  id : e.id = pairID svc x

lemma active_iff : v.active = true ↔ v.status = .pending ∨ v.status = .running := by
  simp [Workload.active, or_comm]

section Backends

variable (svc) (w)

/-- The deployment of a workload, if the service serves it. -/
def served (v : Workload) : Option (Workload × Deployment) :=
  match w.deps.rows.find? fun d => d.id = v.deploymentID with
  | none => none
  | some dep =>
    if trimSpace dep.spec.nameSpace = trimSpace svc.spec.nameSpace ∧
        labelsMatchSelector (dep.spec.labels.getD Table.empty) svc.spec.selector then
      some (v, dep)
    else none

variable {svc} {w}

lemma served_eq_some_iff {x : Workload × Deployment} : served svc w v = some x ↔
    x.1 = v ∧ w.deps.get v.deploymentID = some x.2 ∧ svc.Serves x.2 := by
  have hget : w.deps.get v.deploymentID = w.deps.rows.find? fun d => d.id = v.deploymentID := rfl
  rw [served, ← hget]
  cases w.deps.get v.deploymentID with
  | none => simp
  | some d =>
    have hserves : (trimSpace d.spec.nameSpace = trimSpace svc.spec.nameSpace ∧
        labelsMatchSelector (d.spec.labels.getD Table.empty) svc.spec.selector = true) ↔
        svc.Serves d := and_congr_right fun _ => labelsMatchSelector_iff
    dsimp only
    split_ifs with h
    · rw [hserves] at h
      constructor
      · rintro ⟨rfl⟩
        exact ⟨rfl, rfl, h⟩
      · rintro ⟨rfl, ⟨rfl⟩, -⟩
        rfl
    · refine iff_of_false (by simp) ?_
      rintro ⟨-, ⟨rfl⟩, hx⟩
      exact h (hserves.mpr hx)

lemma serviceBackends_eq : serviceBackends svc w.deps.rows w.workloads.rows =
    (w.workloads.rows.filter Workload.active).filterMap (served svc w) := rfl

/-- The pairs that the code runs through. -/
lemma targets_eq : (serviceBackends svc w.deps.rows w.workloads.rows).flatMap
    (fun x => svc.spec.ports.map fun p => (x.1, p)) = pairs svc w := by
  classical
  rw [serviceBackends_eq, pairs]
  induction w.workloads.rows with
  | nil => rfl
  | cons v l ih =>
    by_cases hv : Backs svc w v
    · obtain ⟨hactive, d, hd, hserves⟩ := hv
      have hsome : served svc w v = some (v, d) := served_eq_some_iff.mpr ⟨rfl, hd, hserves⟩
      rw [List.filter_cons_of_pos (active_iff.mpr hactive), List.filterMap_cons_some hsome,
        List.filter_cons_of_pos (by simpa using ⟨hactive, d, hd, hserves⟩), List.flatMap_cons,
        List.flatMap_cons, ih]
    · have hskip : ((v :: l).filter Workload.active).filterMap (served svc w) =
          (l.filter Workload.active).filterMap (served svc w) := by
        by_cases hactive : v.active = true
        · have hnone : served svc w v = none := by
            refine Option.eq_none_iff_forall_ne_some.mpr fun x hx => hv ?_
            obtain ⟨-, hd, hserves⟩ := served_eq_some_iff.mp hx
            exact ⟨active_iff.mp hactive, _, hd, hserves⟩
          rw [List.filter_cons_of_pos hactive, List.filterMap_cons_none hnone]
        · rw [List.filter_cons_of_neg hactive]
      rw [hskip, ih, List.filter_cons_of_neg (a := v) (by simpa using hv)]

end Backends

/-! ### What a reconciliation stores -/

/-- A part of a run that leaves the store as it is. -/
def Still (w w' : World) : Prop := w'.store = w.store ∧ w.tick ≤ w'.tick

instance : Std.Refl Still := ⟨fun _ => ⟨rfl, le_rfl⟩⟩

instance : IsTrans World Still := ⟨fun _ _ _ h h' => ⟨h'.1.trans h.1, h.2.trans h'.2⟩⟩

lemma MadeFor.mono {n' : ℕ} {x : Workload × ServicePort} {e : ServiceEndpoint}
    (h : MadeFor env svc w n x e) (hn : n ≤ n') : MadeFor env svc w n' x e := by
  obtain ⟨k, hk, hlt, hready⟩ := h.ready
  exact { h with ready := ⟨k, hk, hlt.trans_le hn, hready⟩ }

/-- An endpoint as `ReplaceServiceEndpoints` fills it in. -/
def ServiceEndpoint.filled (e : ServiceEndpoint) (t : Time) : ServiceEndpoint :=
  { e with
    id := if e.id = "" then endpointID e.serviceID e.workloadID e.port else e.id
    updatedAt := t }

lemma MadeFor.filled {x : Workload × ServicePort} {e : ServiceEndpoint}
    (h : MadeFor env svc w n x e) (t : Time) : MadeFor env svc w n x (e.filled t) where
  service := h.service
  workload := h.workload
  node := h.node
  port := h.port
  protocol := h.protocol
  ready := h.ready
  id := by
    change (if e.id = "" then endpointID e.serviceID e.workloadID e.port else e.id) = _
    rw [h.service, h.workload, h.port, h.id]
    exact ite_id _

lemma readyAt_iff {d : Deployment} (hd : w.deps.get v.deploymentID = some d) {t : Time} :
    ReadyAt foundPassed w v t ↔ v.status = .running ∧ (d.spec.readinessProbe.enabled = true →
      seconds d.spec.readinessProbe.initialDelaySeconds ≤ Time.sub t v.createdAt) := by
  simp [ReadyAt, foundPassed, hd]

lemma endpointReady_returns {d : Deployment} (hd : w.deps.get v.deploymentID = some d)
    (hlt : w.tick < w'.tick) : Returns env P (endpointReady v d) w' fun r w₁ =>
      Still w' w₁ ∧ ∃ k, w.tick ≤ k ∧ k < w₁.tick ∧
        (r = true ↔ ReadyAt foundPassed w v (env.clock k)) := by
  unfold endpointReady
  split_ifs with henabled
  · refine ⟨trivial, _, rfl, ⟨rfl, Nat.le_succ _⟩, w'.tick, hlt.le, Nat.lt_succ_self _, ?_⟩
    rw [readyAt_iff hd]
    simp only [henabled, Bool.and_eq_true, decide_eq_true_eq, forall_const]
    rfl
  · refine returns_pure ⟨⟨rfl, le_rfl⟩, w.tick, le_rfl, hlt, ?_⟩
    rw [readyAt_iff hd]
    simp [henabled]

/-- The endpoints are filled in one by one. -/
lemma fill_holds {γ : Type} {xs : List γ} {R : γ → ServiceEndpoint → Prop}
    (hR : ∀ x e t, R x e → R x (e.filled t)) {eps : List ServiceEndpoint}
    (heps : List.Forall₂ R xs eps) {k : List ServiceEndpoint → M Unit}
    {Q : Except Err Unit → World → Prop}
    (h : ∀ eps' w', Still w w' → List.Forall₂ R xs eps' → Holds env P (k eps') w' Q) :
    Holds env P (StateStore.replaceServiceEndpoints.fill eps k) w Q := by
  induction heps generalizing k w with
  | nil => exact h [] w ⟨rfl, le_rfl⟩ .nil
  | cons hx _ ih =>
    refine Returns.bind (R := fun _ w' => Still w w') ?_ fun t w₁ h₁ => ih fun eps' w₂ h₂ heps => ?_
    · unfold orNow
      split
      · exact ⟨trivial, _, rfl, rfl, Nat.le_succ _⟩
      · exact returns_pure ⟨rfl, le_rfl⟩
    · exact h _ w₂ (IsTrans.trans w w₁ w₂ h₁ h₂) (.cons (hR _ _ t hx) heps)

/-- **The outcome of a reconciliation**: an endpoint for each pair, stored in the place of those
under the prefix of the service. -/
lemma reconcileServiceEndpoints_returns (hsvc : (w.store .service).get svc.id = some svc) :
    Returns env P (reconcileServiceEndpoints svc.id) w fun _ w' => ∃ eps,
      List.Forall₂ (MadeFor env svc w w'.tick) (pairs svc w) eps ∧
        w'.store = w.store.replaceServiceEndpoints svc.id eps := by
  refine find_bind (fun svc' hsvc' => ?_) fun hnone => absurd (hsvc.symm.trans hnone) nofun
  obtain rfl : svc' = svc := Option.some.inj (hsvc'.symm.trans hsvc)
  refine listDeployments_bind (listWorkloads_bind (listNodes_bind ⟨trivial, ?_⟩))
  set w₁ : World := (exec env .now w).2
  have htick : w.tick < w₁.tick := Nat.lt_succ_self _
  refine (Prog.Sat.mapEach_forall₂ (T := Still)
    (R := fun s (x : Workload × Deployment × ServicePort) e =>
      MadeFor env svc' w s.tick (x.1, x.2.2) e)
    (fun s s' x e hs h => h.mono hs.2) ?_).bind_ok ?_
  · rintro ⟨v, d, p⟩ hx w₂ h₂
    obtain ⟨⟨v', d'⟩, hmem, hp⟩ := List.mem_flatMap.mp hx
    obtain ⟨p', -, ⟨⟩⟩ := List.mem_map.mp hp
    obtain ⟨v₀, -, hserved⟩ := List.mem_filterMap.mp (serviceBackends_eq ▸ hmem)
    obtain ⟨rfl, hd, -⟩ := served_eq_some_iff.mp hserved
    refine (endpointReady_returns hd (htick.trans_le h₂.2)).bind ?_
    rintro ready w₃ ⟨h₃, k, hk, hlt, hready⟩
    exact ⟨_, rfl, h₃, ⟨rfl, rfl, rfl, rfl, rfl, k, hk, hlt, hready⟩, rfl⟩
  · rintro eps w₂ ⟨h₂, heps⟩
    refine fill_holds (fun x e t h => h.filled t) heps fun eps' w₃ h₃ heps' => ?_
    refine ⟨trivial, (), rfl, eps', ?_, ?_⟩
    · have htargets : ((serviceBackends svc' w.deps.rows w.workloads.rows).flatMap fun x =>
          svc'.spec.ports.map fun p => (x.1, x.2, p)).map (fun x => (x.1, x.2.2)) =
            pairs svc' w := by
        rw [← targets_eq, List.map_flatMap]
        simp only [List.map_map]
        rfl
      rw [← htargets, List.forall₂_map_left_iff]
      exact heps'.imp fun _ _ h => h.mono h₃.2
    · change w₃.store.replaceServiceEndpoints svc'.id eps' = _
      rw [h₃.1, h₂.1]
      rfl

lemma reconcileServiceEndpoints_run (env : Env)
    (hsvc : (w.store .service).get svc.id = some svc) :
    let w' := (reconcileServiceEndpoints svc.id).final (exec env) w
    (reconcileServiceEndpoints svc.id).result (exec env) w = .ok () ∧ ∃ eps,
      List.Forall₂ (MadeFor env svc w w'.tick) (pairs svc w) eps ∧
        w'.store = w.store.replaceServiceEndpoints svc.id eps := by
  have hrun : Returns env Rules.any (reconcileServiceEndpoints svc.id) w _ :=
    reconcileServiceEndpoints_returns hsvc
  obtain ⟨_, hresult, hstored⟩ := hrun.run
  exact ⟨hresult, hstored⟩

/-! ### The records of the service and of the others -/

/-- The listed endpoints of the service correspond one to one to the pairs. -/
def Corresponds (env : Env) (svc : Service) (w w' : World) : Prop :=
  ∃ l, List.Forall₂ (EndpointFor passed env svc w w'.tick) (pairs svc w) l ∧
    l.Perm (w'.store.list .endpoint (keyServiceEndpointPrefix svc.id))

/-- The endpoints of the other services are the same. -/
def OthersKept (svc : Service) (w w' : World) : Prop :=
  ∀ e : ServiceEndpoint, e.serviceID ≠ svc.id →
    (e ∈ (w'.store .endpoint).rows ↔ e ∈ (w.store .endpoint).rows)

/-- No two pairs of the service have the same id. -/
def DistinctIDs (svc : Service) (w : World) : Prop := ((pairs svc w).map (pairID svc)).Nodup

/-- The delays of the running workloads behind the service, where they have a probe and there is a
port, are ones that the code can wait for. -/
def DelaysFit (svc : Service) (w : World) : Prop :=
  ∀ x ∈ pairs svc w, x.1.status = .running → ∀ d, w.deps.get x.1.deploymentID = some d →
    d.spec.readinessProbe.enabled = true → FitsDuration d.spec.readinessProbe.initialDelaySeconds

/-- No endpoint of another service is stored under the prefix of the service. -/
def Unmixed (svc : Service) (w : World) : Prop :=
  ∀ e ∈ (w.store .endpoint).rows, ServiceEndpoint.serviceID e ≠ svc.id →
    hasPrefix (Tbl.key .endpoint e) (keyServiceEndpointPrefix svc.id) = false

section Stored

variable {eps : List ServiceEndpoint} {e : ServiceEndpoint}
  (hstore : w'.store = w.store.replaceServiceEndpoints svc.id eps)

include hstore

lemma rows_eq : w'.store .endpoint = eps.foldl Table.put ((w.store .endpoint).delWhere fun e =>
    hasPrefix (Tbl.key .endpoint e) (keyServiceEndpointPrefix svc.id)) := by
  rw [hstore]
  exact Store.set_self _ _ _

lemma mem_of_mem_replaced (he : e ∈ (w'.store .endpoint).rows) : e ∈ eps ∨
    (e ∈ (w.store .endpoint).rows ∧
      hasPrefix (Tbl.key .endpoint e) (keyServiceEndpointPrefix svc.id) = false) := by
  rw [rows_eq hstore] at he
  exact (Table.mem_of_mem_foldl_put he).imp_right fun h => Table.mem_rows_delWhere.mp h.1

/-- What is listed for the service is what was made. -/
lemma mem_of_mem_listed (he : e ∈ w'.store.list .endpoint (keyServiceEndpointPrefix svc.id)) :
    e ∈ eps := by
  obtain ⟨hmem, hpfx⟩ := Store.mem_list_iff.mp he
  refine (mem_of_mem_replaced hstore hmem).resolve_right fun h => ?_
  rw [h.2] at hpfx
  cases hpfx

omit hstore

variable (hpairs : List.Forall₂ (MadeFor env svc w w'.tick) (pairs svc w) eps)

include hpairs

lemma service_of_mem (he : e ∈ eps) : e.serviceID = svc.id := by
  obtain ⟨x, -, hmade⟩ := exists_of_mem_right hpairs he
  exact hmade.service

lemma keys_eq : eps.map (Tbl.key .endpoint) =
    ((pairs svc w).map (pairID svc)).map (keyServiceEndpointPrefix svc.id ++ ·) := by
  have hkey : List.Forall₂ (· = ·)
      (((pairs svc w).map (pairID svc)).map (keyServiceEndpointPrefix svc.id ++ ·))
      (eps.map (Tbl.key .endpoint)) := by
    rw [List.map_map, List.forall₂_map_left_iff, List.forall₂_map_right_iff]
    refine hpairs.imp fun x e h => ?_
    change _ = keyServiceEndpoint e.serviceID e.id
    rw [h.service, h.id]
    rfl
  rw [List.forall₂_eq_eq_eq] at hkey
  exact hkey.symm

lemma nodup_keys_iff : (eps.map (Tbl.key .endpoint)).Nodup ↔ DistinctIDs svc w := by
  rw [keys_eq hpairs, List.nodup_map_iff fun a b h => (String.append_right_inj _).mp h]
  rfl

lemma hasPrefix_of_mem (he : e ∈ eps) :
    hasPrefix (Tbl.key .endpoint e) (keyServiceEndpointPrefix svc.id) = true := by
  have hmem : Tbl.key .endpoint e ∈ eps.map (Tbl.key .endpoint) := List.mem_map_of_mem he
  rw [keys_eq hpairs, List.mem_map] at hmem
  obtain ⟨id, -, hid⟩ := hmem
  exact hasPrefix_iff.mpr ⟨id, hid.symm⟩

include hstore

/-- If there is an endpoint for each pair, none was stored over another. -/
lemma distinctIDs_of_corresponds (h : Corresponds env svc w w') : DistinctIDs svc w := by
  obtain ⟨l, hl, hperm⟩ := h
  rw [← nodup_keys_iff hpairs]
  -- as many endpoints are listed as there are pairs, and their keys are keys of what was made
  have hlen : eps.length ≤ (w'.store.list .endpoint (keyServiceEndpointPrefix svc.id)).length := by
    rw [← hperm.length_eq, ← hl.length_eq, hpairs.length_eq]
  have hnodup := w'.store.nodup_list .endpoint (keyServiceEndpointPrefix svc.id)
  have hsub := List.subperm_of_subset hnodup
    (List.map_subset _ fun e he => mem_of_mem_listed hstore he)
  exact (hsub.perm_of_length_le (by simpa using hlen)).nodup_iff.mp hnodup

lemma corresponds_of_distinctIDs (hids : DistinctIDs svc w) (hfit : DelaysFit svc w) :
    Corresponds env svc w w' := by
  have hnodup := (nodup_keys_iff hpairs).mpr hids
  have hlisted := (w'.store.nodup_list .endpoint (keyServiceEndpointPrefix svc.id)).of_map
  refine ⟨eps, ?_, (List.perm_ext_iff_of_nodup hnodup.of_map hlisted).mpr fun e => ?_⟩
  · refine ((List.forall₂_and_left _ _).mpr ⟨hfit, hpairs⟩).imp fun x e h => ?_
    obtain ⟨hx, hmade⟩ := h
    obtain ⟨k, hk, hlt, hready⟩ := hmade.ready
    refine { hmade with ready := ⟨k, hk, hlt, hready.trans ?_⟩ }
    refine and_congr_right fun hrun => forall_congr' fun d => forall_congr' fun hd =>
      forall_congr' fun henabled => ?_
    exact (fitsDuration_iff _ _).mp (hx hrun d hd henabled) _
  · refine ⟨fun he => Store.mem_list_iff.mpr ⟨?_, hasPrefix_of_mem hpairs he⟩,
      mem_of_mem_listed hstore⟩
    rw [rows_eq hstore]
    exact Table.mem_foldl_put_of_nodup hnodup he

/-- If the clock stands still and the endpoints correspond to the pairs, what the code compares is
whether the delay has passed. -/
lemma passed_iff_of_corresponds {t : Time} (hclock : ∀ k, env.clock k = t)
    (h : Corresponds env svc w w') {x : Workload × ServicePort} (hx : x ∈ pairs svc w)
    (hrun : x.1.status = .running) {d : Deployment} (hd : w.deps.get x.1.deploymentID = some d)
    (henabled : d.spec.readinessProbe.enabled = true) :
    foundPassed d.spec.readinessProbe.initialDelaySeconds x.1.createdAt t ↔
      passed d.spec.readinessProbe.initialDelaySeconds x.1.createdAt t := by
  have hjudged : ∀ past, ReadyAt past w x.1 t ↔
      past d.spec.readinessProbe.initialDelaySeconds x.1.createdAt t := by
    intro past
    simp [ReadyAt, hrun, hd, henabled]
  obtain ⟨l, hl, hperm⟩ := h
  obtain ⟨e, he, hfor⟩ := exists_of_mem_left hl hx
  obtain ⟨x', hx', hmade⟩ := exists_of_mem_right hpairs
    (mem_of_mem_listed hstore (hperm.mem_iff.mp he))
  have hstored : ∀ y ∈ pairs svc w, y.1 ∈ w.workloads.rows := by
    intro y hy
    obtain ⟨v, hv, hp⟩ := List.mem_flatMap.mp hy
    obtain ⟨p, -, rfl⟩ := List.mem_map.mp hp
    exact List.mem_of_mem_filter hv
  have hsame : x'.1 = x.1 := Table.eq_of_mem_of_key_eq (hstored x' hx') (hstored x hx)
    (hmade.workload.symm.trans hfor.workload)
  obtain ⟨k, -, -, hready⟩ := hfor.ready
  obtain ⟨k', -, -, hfound⟩ := hmade.ready
  rw [hclock] at hready hfound
  rw [hsame] at hfound
  exact (hjudged _).symm.trans (hfound.symm.trans (hready.trans (hjudged _)))

/-- The other services are spared exactly if none of their endpoints has the prefix. -/
lemma othersKept_iff : OthersKept svc w w' ↔ Unmixed svc w := by
  constructor
  · intro h e he hne
    rcases mem_of_mem_replaced hstore ((h e hne).mpr he) with heps | ⟨-, hpfx⟩
    · exact absurd (service_of_mem hpairs heps) hne
    · exact hpfx
  · intro h e hne
    constructor
    · intro he
      rcases mem_of_mem_replaced hstore he with heps | ⟨hmem, -⟩
      · exact absurd (service_of_mem hpairs heps) hne
      · exact hmem
    · intro he
      rw [rows_eq hstore]
      refine Table.mem_foldl_put_of_mem (Table.mem_rows_delWhere.mpr ⟨he, h e he hne⟩) fun hkey => ?_
      obtain ⟨e', he', heq⟩ := List.mem_map.mp hkey
      have hpfx := hasPrefix_of_mem hpairs he'
      rw [heq, h e he hne] at hpfx
      cases hpfx

end Stored

/-! ### Ids -/

/-- Without negative numbers, the id of an endpoint names the workload and the port. -/
lemma endpointID_inj {s a b : String} {p q : ℤ} (hp : 0 ≤ p) (hq : 0 ≤ q)
    (h : endpointID s a p = endpointID s b q) : a = b ∧ p = q := by
  obtain ⟨m, rfl⟩ := Int.eq_ofNat_of_zero_le hp
  obtain ⟨k, rfl⟩ := Int.eq_ofNat_of_zero_le hq
  have hl := congrArg String.toList h
  simp only [endpointID, String.toList_append, List.append_assoc] at hl
  have hdigits : ∀ k : ℕ, (toString (k : ℤ)).toList = Nat.toDigits 10 k :=
    fun k => toString_nat_toList k
  rw [hdigits, hdigits] at hl
  obtain ⟨hab, hmk⟩ := append_toDigits_inj (c := '-') (by decide)
    (List.append_cancel_left (List.append_cancel_left hl))
  exact ⟨String.toList_inj.mp hab, congrArg _ hmk⟩

/-- Where the target ports are not negative, the ids are distinct exactly if there is no workload
behind the service or no two of its ports have the same target port. -/
lemma distinctIDs_iff (hports : ∀ p ∈ svc.spec.ports, 0 ≤ p.targetPort) :
    DistinctIDs svc w ↔ ((∃ v ∈ w.workloads.rows, Backs svc w v) →
      (svc.spec.ports.map ServicePort.targetPort).Nodup) := by
  classical
  have hinner : ∀ v : Workload, (svc.spec.ports.map fun p => (v, p)).map (pairID svc) =
      (svc.spec.ports.map ServicePort.targetPort).map (endpointID svc.id v.id) := by
    intro v
    rw [List.map_map, List.map_map]
    rfl
  have hnonneg : ∀ p ∈ svc.spec.ports.map ServicePort.targetPort, 0 ≤ p :=
    List.forall_mem_map.mpr hports
  have hdisjoint : ∀ l : List Workload, (l.map Workload.id).Nodup →
      l.Pairwise (Function.onFun List.Disjoint fun v =>
        (svc.spec.ports.map fun p => (v, p)).map (pairID svc)) := by
    intro l hl
    rw [List.nodup_iff_pairwise_ne, List.pairwise_map] at hl
    refine hl.imp fun {v v'} hne id hid hid' => hne ?_
    dsimp only at hid hid'
    rw [hinner, List.mem_map] at hid hid'
    obtain ⟨p, hp, rfl⟩ := hid
    obtain ⟨q, hq, heq⟩ := hid'
    exact (endpointID_inj (hnonneg q hq) (hnonneg p hp) heq).1.symm
  unfold DistinctIDs pairs
  rw [List.map_flatMap, List.nodup_flatMap]
  constructor
  · rintro ⟨heach, -⟩ ⟨v, hv, hbacks⟩
    have := heach v (List.mem_filter.mpr ⟨hv, by simpa using hbacks⟩)
    rw [hinner] at this
    exact this.of_map
  · intro h
    refine ⟨fun v hv => ?_, hdisjoint _ ?_⟩
    · obtain ⟨hv, hbacks⟩ := List.mem_filter.mp hv
      rw [hinner]
      refine (h ⟨v, hv, by simpa using hbacks⟩).map_on fun p hp q hq heq => ?_
      exact (endpointID_inj (hnonneg p hp) (hnonneg q hq) heq).2
    · exact w.workloads.nodup_keys.sublist (List.filter_sublist.map _)

/-! ### The theorem -/

/-- The environment with a clock that stands still. -/
def Env.standing (env : Env) (t : Time) : Env := { env with clock := fun _ => t }

lemma delaysFit_of_corresponds (env : Env) (hsvc : (w.store .service).get svc.id = some svc)
    (h : ∀ env, Corresponds env svc w ((reconcileServiceEndpoints svc.id).final (exec env) w)) :
    DelaysFit svc w := by
  intro x hx hrun d hd henabled
  refine (fitsDuration_iff _ x.1.createdAt).mpr fun t => ?_
  obtain ⟨-, eps, hpairs, hstore⟩ := reconcileServiceEndpoints_run (env.standing t) hsvc
  exact passed_iff_of_corresponds hstore hpairs (fun _ => rfl) (h _) hx hrun hd henabled

/-- **The endpoints of a service are exact** whatever the clock shows exactly if no two pairs share
an id, which is to say that no two ports share a target port, and no delay is too long, and **the
other services are spared** exactly if none of their endpoints is under the prefix of the
service. -/
theorem endpoints_exact_iff (w : World) (svc : Service)
    (hsvc : (w.store .service).get svc.id = some svc) :
    let p := reconcileServiceEndpoints svc.id
    (∀ env, p.result (exec env) w = .ok ()) ∧
      ((∀ env, Corresponds env svc w (p.final (exec env) w)) ↔
        DistinctIDs svc w ∧ DelaysFit svc w) ∧
      (∀ env, OthersKept svc w (p.final (exec env) w) ↔ Unmixed svc w) ∧
      ((∀ p ∈ svc.spec.ports, 0 ≤ p.targetPort) →
        (DistinctIDs svc w ↔ ((∃ v ∈ w.workloads.rows, Backs svc w v) →
          (svc.spec.ports.map ServicePort.targetPort).Nodup))) := by
  intro p
  refine ⟨fun env => (reconcileServiceEndpoints_run env hsvc).1, ⟨fun h => ⟨?_, ?_⟩, ?_⟩,
    fun env => ?_, distinctIDs_iff⟩
  · obtain ⟨-, eps, hpairs, hstore⟩ := reconcileServiceEndpoints_run steadyEnv hsvc
    exact distinctIDs_of_corresponds hstore hpairs (h _)
  · exact delaysFit_of_corresponds steadyEnv hsvc h
  · rintro ⟨hids, hfit⟩ env
    obtain ⟨-, eps, hpairs, hstore⟩ := reconcileServiceEndpoints_run env hsvc
    exact corresponds_of_distinctIDs hstore hpairs hids hfit
  · obtain ⟨-, eps, hpairs, hstore⟩ := reconcileServiceEndpoints_run env hsvc
    exact othersKept_iff hstore hpairs

/-! ### A name server -/

/-- A service in front of a name server. -/
def nameService (ports : List ServicePort) : Service where
  id := "s1"
  spec := { nameSpace := "default", name := "dns", selector := Table.ofList [("app", "dns")]
            ports := ports }

def nameServer : Deployment where
  id := "d1"
  spec := { nameSpace := "default", name := "dns", image := "img"
            labels := some (Table.ofList [("app", "dns")])
            readinessProbe := { enabled := true, initialDelaySeconds := 30 } }

def nameWorkload : Workload where
  id := "w1"
  deploymentID := "d1"
  nodeID := "n1"
  status := .running

/-- The service with its workload, next to an endpoint of another service. -/
def nameWorld (ports : List ServicePort) : World where
  store := (((Store.empty.put .deployment nameServer).put .workload nameWorkload).put .service
    (nameService ports)).put .endpoint
      { id := "s2-w2-80", serviceID := "s2", workloadID := "w2", nodeID := "n1", address := "n1"
        port := 80, protocol := .tcp, ready := true, updatedAt := 0 }
  tick := 0

/-- The name service and its metrics. -/
def metricsPorts : List ServicePort :=
  [{ port := 53, targetPort := 53, protocol := .udp },
    { port := 9153, targetPort := 9153, protocol := .tcp }]

theorem endpoints_exact_iff_metrics :
    Corresponds steadyEnv (nameService metricsPorts) (nameWorld metricsPorts)
        ((reconcileServiceEndpoints "s1").final (exec steadyEnv) (nameWorld metricsPorts)) ∧
      OthersKept (nameService metricsPorts) (nameWorld metricsPorts)
        ((reconcileServiceEndpoints "s1").final (exec steadyEnv) (nameWorld metricsPorts)) := by
  obtain ⟨-, hexact, hothers, hids⟩ := endpoints_exact_iff (nameWorld metricsPorts)
    (nameService metricsPorts) (by decide +kernel)
  have hfit : ∀ d ∈ (nameWorld metricsPorts).deps.rows,
      FitsDuration d.spec.readinessProbe.initialDelaySeconds := by decide +kernel
  refine ⟨hexact.mpr ⟨(hids (by decide +kernel)).mpr fun _ => by decide +kernel, ?_⟩ steadyEnv,
    (hothers steadyEnv).mpr ?_⟩
  · exact fun _ _ _ d hd _ => hfit d (Table.mem_of_get hd)
  · unfold Unmixed
    decide +kernel

/-- The name service over both protocols. -/
def bothProtocols : List ServicePort :=
  [{ port := 53, targetPort := 53, protocol := .tcp },
    { port := 53, targetPort := 53, protocol := .udp }]

lemma backs_nameWorkload :
    Backs (nameService bothProtocols) (nameWorld bothProtocols) nameWorkload := by
  refine ⟨.inr rfl, nameServer, by decide +kernel, rfl, ?_⟩
  exact labelsMatchSelector_iff.mp (by decide +kernel)

/-- A service with TCP and UDP on one target port is valid, and loses the endpoint for TCP. -/
theorem endpoints_lose_protocol :
    let w' := (reconcileServiceEndpoints "s1").final (exec steadyEnv) (nameWorld bothProtocols)
    validateServiceSpec (nameService bothProtocols).spec = none ∧
      Backs (nameService bothProtocols) (nameWorld bothProtocols) nameWorkload ∧
      (w'.store.list .endpoint (keyServiceEndpointPrefix "s1")).map
        (fun e : ServiceEndpoint => (e.workloadID, e.port, e.protocol)) = [("w1", 53, .udp)] ∧
      ¬ Corresponds steadyEnv (nameService bothProtocols) (nameWorld bothProtocols) w' := by
  intro w'
  refine ⟨by decide +kernel, backs_nameWorkload, by decide +kernel, fun h => ?_⟩
  have hsvc : ((nameWorld bothProtocols).store .service).get (nameService bothProtocols).id =
      some (nameService bothProtocols) := by decide +kernel
  obtain ⟨-, eps, hpairs, hstore⟩ := reconcileServiceEndpoints_run steadyEnv hsvc
  have hids := distinctIDs_of_corresponds hstore hpairs h
  have hmem : nameWorkload ∈ (nameWorld bothProtocols).workloads.rows := by decide +kernel
  exact absurd ((distinctIDs_iff (by decide +kernel)).mp hids ⟨_, hmem, backs_nameWorkload⟩)
    (by decide +kernel)

end Orchestrator
