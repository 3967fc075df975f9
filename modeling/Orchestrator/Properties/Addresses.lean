/-
# Cluster addresses

`CreateService` takes the address of a service from the clock: the nanoseconds are reduced modulo
65534, and the remainder is cut into two octets, the upper one once more modulo 254.  So an address
stands for a slot, one of 254 * 254, and times of the same slot share it: times 65534 apart, and
also the first and the last few remainders of one period.

Two services have different addresses exactly if they were created in different slots, and the
octets are in range from 1970 on.
-/
import Orchestrator.Service.Tenancy
import Orchestrator.Logic.Frames
import Orchestrator.System

namespace Orchestrator

open Lib

variable {env : Env} {w w' : World}

/-! ### Slots -/

/-- The slot of a time. -/
def clusterSlot (t : Time) : ℤ := t % 65534 % 64516

/-- An address whose last two octets are from 1 to 254. -/
def ProperAddress (ip : String) : Prop :=
  ∃ a b : ℤ, (1 ≤ a ∧ a ≤ 254) ∧ (1 ≤ b ∧ b ≤ 254) ∧
    ip = "10.96." ++ toString a ++ "." ++ toString b

/-- From 1970 on the octets are the quotient and the remainder of the slot. -/
lemma allocateClusterIP_eq {t : ℤ} (ht : 0 ≤ t) :
    allocateClusterIP t =
      "10.96." ++ toString (clusterSlot t / 254 + 1) ++ "." ++
        toString (clusterSlot t % 254 + 1) := by
  have hv : t.tmod 65534 = t % 65534 := Int.tmod_eq_emod_of_nonneg ht
  have hpos : 0 ≤ t % 65534 := Int.emod_nonneg _ (by decide)
  have hquot : (t % 65534).tdiv 254 = t % 65534 / 254 := Int.tdiv_eq_ediv_of_nonneg hpos
  have hrem : (t % 65534).tmod 254 = t % 65534 % 254 := Int.tmod_eq_emod_of_nonneg hpos
  have hquot' : (t % 65534 / 254).tmod 254 = t % 65534 / 254 % 254 :=
    Int.tmod_eq_emod_of_nonneg (by omega)
  have hupper : t % 65534 / 254 % 254 = clusterSlot t / 254 := by
    rw [clusterSlot]
    omega
  have hlower : t % 65534 % 254 = clusterSlot t % 254 := by
    rw [clusterSlot]
    omega
  simp only [allocateClusterIP, hv, hquot, hrem, hquot', hupper, hlower]

lemma clusterSlot_bounds (t : Time) : 0 ≤ clusterSlot t ∧ clusterSlot t < 64516 :=
  ⟨Int.emod_nonneg _ (by decide), Int.emod_lt_of_pos _ (by decide)⟩

lemma properAddress_allocate {t : Time} (ht : 0 ≤ t) : ProperAddress (allocateClusterIP t) := by
  obtain ⟨hlow, hhigh⟩ := clusterSlot_bounds t
  refine ⟨_, _, ?_, ?_, allocateClusterIP_eq ht⟩ <;> omega

/-- An address can be read back. -/
lemma address_inj {a b a' b' : ℕ}
    (h : "10.96." ++ toString (a : ℤ) ++ "." ++ toString (b : ℤ) =
      "10.96." ++ toString (a' : ℤ) ++ "." ++ toString (b' : ℤ)) : a = a' ∧ b = b' := by
  have hdigits : ∀ k : ℕ, (toString (k : ℤ)).toList = Nat.toDigits 10 k :=
    fun k => toString_nat_toList k
  have hl := congrArg String.toList h
  simp only [String.toList_append, hdigits, List.append_assoc] at hl
  obtain ⟨ha, hrest⟩ := toDigits_append_inj (c := '.') (by decide) (List.append_cancel_left hl)
  exact ⟨ha, toDigits_inj hrest⟩

/-- Two times from 1970 on give the same address exactly if they are of the same slot. -/
lemma allocateClusterIP_eq_iff {s t : Time} (hs : 0 ≤ s) (ht : 0 ≤ t) :
    allocateClusterIP s = allocateClusterIP t ↔ clusterSlot s = clusterSlot t := by
  rw [allocateClusterIP_eq hs, allocateClusterIP_eq ht]
  constructor
  · intro h
    obtain ⟨hs₀, -⟩ := clusterSlot_bounds s
    obtain ⟨ht₀, -⟩ := clusterSlot_bounds t
    generalize clusterSlot s = x at h hs₀ ⊢
    generalize clusterSlot t = y at h ht₀ ⊢
    obtain ⟨m, rfl⟩ := Int.eq_ofNat_of_zero_le hs₀
    obtain ⟨n, rfl⟩ := Int.eq_ofNat_of_zero_le ht₀
    have hadd : ∀ k : ℕ, (k : ℤ) / 254 + 1 = ((k / 254 + 1 : ℕ) : ℤ) ∧
        (k : ℤ) % 254 + 1 = ((k % 254 + 1 : ℕ) : ℤ) := by
      intro k
      constructor <;> push_cast <;> rfl
    rw [(hadd m).1, (hadd m).2, (hadd n).1, (hadd n).2] at h
    obtain ⟨hupper, hlower⟩ := address_inj h
    omega
  · intro h
    rw [h]

/-! ### The service that a call stores -/

/-- A run, with its own result and final state, that leaves a table alone. -/
lemma Spares.self {t : Tbl} {α : Type} {p : M α} (h : Spares t p) (w : World) :
    Prog.Sat (exec env) (fun _ _ => True) p w fun r w' =>
      r = p.result (exec env) w ∧ w' = p.final (exec env) w ∧ w'.store t = w.store t := by
  refine Prog.Sat.mono (Prog.Sat.self (Prog.Sat.of_only (fun _ w' hc hw' => ⟨trivial,
    (exec_writes env hc w').trans hw'⟩) h rfl)) fun _ _ hrun => ⟨hrun.1, hrun.2.1, hrun.2.2.2⟩

lemma spares_runAdmissionCheck : Spares .service runAdmissionCheck := by
  have hw : WritesIn [] runAdmissionCheck := makes_runAdmissionCheck
  exact hw.spares (by decide)

lemma spares_ensureNamespaceExists (ns : String) : Spares .service (ensureNamespaceExists ns) :=
  (ensureNamespaceExists_writesIn ns).spares (by decide)

lemma spares_reconcileServiceEndpoints (id : String) :
    Spares .service (reconcileServiceEndpoints id) := by
  have hw : WritesIn [.endpoint] (reconcileServiceEndpoints id) := by
    refine makes_reconcileServiceEndpoints ?_ id
    intro _ _ t ht
    exact decide_eq_false fun h => ht (List.mem_singleton.mpr h)
  exact hw.spares (by decide)

/-- The reading of the clock that `CreateService` takes for the service. -/
def serviceTime (env : Env) (spec : ServiceSpec) (w : World) : Time :=
  env.clock ((ensureNamespaceExists (orDefault spec.nameSpace)).final (exec env)
    (runAdmissionCheck.final (exec env) w)).tick

lemma storeService_services (svc : Service) (w : World) :
    Prog.Sat (exec env) (fun _ _ => True) (StateStore.createService svc) w fun _ w' =>
      w'.store .service = w.store .service ∨
        w'.store .service = (w.store .service).put svc := by
  refine ⟨trivial, ?_⟩
  cases h : (w.store .service).get svc.id with
  | some old =>
    have he : (exec env (.get .service svc.id) w).1 = some old := h
    rw [he]
    exact Or.inl rfl
  | none =>
    have he : (exec env (.get .service svc.id) w).1 = none := h
    rw [he]
    exact ⟨trivial, Or.inr (Store.put_self w.store .service svc)⟩

/-- The services after a call: as before, or with a new one that has its address from the clock. -/
lemma createService_services (env : Env) (spec : ServiceSpec) (w : World) :
    Prog.Sat (exec env) (fun _ _ => True) (createService spec) w fun _ w' =>
      w'.store .service = w.store .service ∨ ∃ svc : Service,
        svc.createdAt = serviceTime env spec w ∧ svc.clusterIP = allocateClusterIP svc.createdAt ∧
        w'.store .service = (w.store .service).put svc := by
  unfold createService
  split
  · exact Or.inl rfl
  split
  · exact Or.inl rfl
  split
  · exact Or.inl rfl
  refine (spares_runAdmissionCheck.self w).bind ?_ fun _ _ h => Or.inl h.2.2
  rintro _ w₁ ⟨-, hw₁, hs₁⟩
  refine ((spares_ensureNamespaceExists _).self w₁).bind ?_ ?_
  swap
  · rintro _ w₂ ⟨-, -, hs₂⟩
    exact Or.inl (hs₂.trans hs₁)
  rintro _ w₂ ⟨-, hw₂, hs₂⟩
  have htime : env.clock w₂.tick = serviceTime env spec w := by
    rw [hw₂, hw₁]
    rfl
  -- the clock and the random number are read between the checks and the write
  refine ⟨trivial, trivial, ?_⟩
  have hs : (exec env .rand (exec env .now w₂).2).2.store .service = w.store .service :=
    hs₂.trans hs₁
  change Prog.Sat _ _ (StateStore.createService _ >>= fun _ =>
    reconcileServiceEndpoints _ >>= fun _ => pure _) _ _
  refine (storeService_services _ _).bind ?_ ?_
  · intro _ w₃ h₃
    rw [hs] at h₃
    refine Prog.Sat.bind ((spares_reconcileServiceEndpoints _).self w₃) ?_ ?_
    · rintro _ w₄ ⟨-, -, hs₄⟩
      rw [← hs₄] at h₃
      exact h₃.imp_right fun h => ⟨_, htime, rfl, h⟩
    · rintro _ w₄ ⟨-, -, hs₄⟩
      rw [← hs₄] at h₃
      exact h₃.imp_right fun h => ⟨_, htime, rfl, h⟩
  · intro _ w₃ h₃
    rw [hs] at h₃
    exact h₃.imp_right fun h => ⟨_, htime, rfl, h⟩

/-! ### Runs -/

/-- A call of `CreateService`, or anything else, by the state it leads to. -/
inductive ServiceCall
  | create (spec : ServiceSpec)
  | other (next : World)

def serviceStep (env : Env) (c : ServiceCall) (w : World) : World :=
  match c with
  | .create spec => (createService spec).final (exec env) w
  | .other next => next

/-- A service is created after 1970 and in a slot that no stored service was created in; nothing
else writes services. -/
def TakesFreeSlot (env : Env) (c : ServiceCall) (w : World) : Prop :=
  match c with
  | .create spec => 0 ≤ serviceTime env spec w ∧ ∀ s ∈ (w.store .service).rows,
      clusterSlot (serviceTime env spec w) ≠ clusterSlot (Service.createdAt s)
  | .other next => next.store .service = w.store .service

instance (env : Env) (spec : ServiceSpec) (w : World) :
    Decidable (TakesFreeSlot env (.create spec) w) :=
  inferInstanceAs (Decidable (_ ∧ ∀ s ∈ (w.store .service).rows, _))

/-- The stored services have their addresses from different slots. -/
structure Slotted (w : World) : Prop where
  address : ∀ s ∈ (w.store .service).rows, 0 ≤ Service.createdAt s ∧
    s.clusterIP = allocateClusterIP (Service.createdAt s)
  apart : ∀ s ∈ (w.store .service).rows, ∀ t ∈ (w.store .service).rows,
    clusterSlot (Service.createdAt s) = clusterSlot (Service.createdAt t) → s = t

lemma Slotted.of_services (h : Slotted w) (hs : w'.store .service = w.store .service) :
    Slotted w' := by
  refine ⟨?_, ?_⟩ <;> rw [hs]
  · exact h.address
  · exact h.apart

lemma Slotted.step {c : ServiceCall} (h : Slotted w) (hc : TakesFreeSlot env c w) :
    Slotted (serviceStep env c w) := by
  cases c with
  | other next => exact h.of_services hc
  | create spec =>
    obtain ⟨hpos, hfree⟩ := hc
    rcases (createService_services env spec w).run with hs | ⟨svc, htime, hip, hs⟩
    · exact h.of_services hs
    · have hmem : ∀ s, s ∈ ((serviceStep env (.create spec) w).store .service).rows →
          s = svc ∨ s ∈ (w.store .service).rows := by
        intro s hs'
        rw [serviceStep, hs] at hs'
        exact (Table.mem_rows_put.mp hs').imp_right And.left
      refine ⟨?_, ?_⟩
      · intro s hs'
        rcases hmem s hs' with rfl | hold
        · exact ⟨htime ▸ hpos, hip⟩
        · exact h.address s hold
      · intro s hs' t ht' heq
        rcases hmem s hs' with rfl | hold <;> rcases hmem t ht' with rfl | hold'
        · rfl
        · rw [htime] at heq
          exact absurd heq (hfree t hold')
        · rw [htime] at heq
          exact absurd heq.symm (hfree s hold)
        · exact h.apart s hold t hold' heq

/-- **Cluster addresses.**  Two times from 1970 on give the same address exactly if they are of the
same slot.  In every run from a state without services in which each service is created in a slot of
its own, the stored services have different addresses, with octets from 1 to 254. -/
theorem cluster_addresses (env : Env) :
    (∀ s t : Time, 0 ≤ s → 0 ≤ t →
      (allocateClusterIP s = allocateClusterIP t ↔ clusterSlot s = clusterSlot t)) ∧
    ∀ w w' : World, (w.store .service).rows = [] →
      Runs (serviceStep env) (TakesFreeSlot env) w w' →
      (∀ s ∈ (w'.store .service).rows, ∀ t ∈ (w'.store .service).rows,
        Service.clusterIP s = Service.clusterIP t → s = t) ∧
      ∀ s ∈ (w'.store .service).rows, ProperAddress (Service.clusterIP s) := by
  refine ⟨fun s t hs ht => allocateClusterIP_eq_iff hs ht, ?_⟩
  intro w w' hnone hrun
  have hstart : Slotted w := by
    constructor <;> rw [hnone] <;> nofun
  have hend : Slotted w' := hrun.invariant hstart fun c x hx hok => hx.step hok
  constructor
  · intro s hs t ht heq
    obtain ⟨hs₀, hips⟩ := hend.address s hs
    obtain ⟨ht₀, hipt⟩ := hend.address t ht
    rw [hips, hipt] at heq
    exact hend.apart s hs t ht ((allocateClusterIP_eq_iff hs₀ ht₀).mp heq)
  · intro s hs
    obtain ⟨hs₀, hip⟩ := hend.address s hs
    rw [hip]
    exact properAddress_allocate hs₀

/-! ### Two services -/

/-- A clock that starts at some time and advances by the same amount at each reading. -/
def pacedEnv (start pace : ℤ) : Env :=
  { steadyEnv with clock := fun k => start + k * pace }

lemma pacedEnv_clock_strictMono (start : ℤ) {pace : ℤ} (h : 0 < pace) :
    StrictMono (pacedEnv start pace).clock := by
  intro j k hjk
  have hjk' : (j : ℤ) < k := by exact_mod_cast hjk
  change start + j * pace < start + k * pace
  nlinarith

def frontSpec (name : String) : ServiceSpec :=
  { name := name, selector := Table.ofList [("app", "web")],
    ports := [{ port := 80, targetPort := 8080, protocol := .tcp }] }

/-- Two services are created in an empty store. -/
def frontRun : List ServiceCall := [.create (frontSpec "a"), .create (frontSpec "b")]

def emptyWorld : World := { store := Store.empty, tick := 0 }

/-- The creation times and the addresses of the two services. -/
def frontAddresses (env : Env) : List (Time × String) :=
  ((after (serviceStep env) frontRun emptyWorld).store .service).rows.map fun s =>
    (Service.createdAt s, Service.clusterIP s)

/-- Four nanoseconds apart, the two services get different addresses. -/
theorem cluster_addresses_two :
    let w := after (serviceStep (pacedEnv 1700000000000000000 1)) frontRun emptyWorld
    frontAddresses (pacedEnv 1700000000000000000 1) =
        [(1700000000000000003, "10.96.159.74"), (1700000000000000007, "10.96.159.78")] ∧
      (∀ s ∈ (w.store .service).rows, ∀ t ∈ (w.store .service).rows,
        Service.clusterIP s = Service.clusterIP t → s = t) ∧
      ∀ s ∈ (w.store .service).rows, ProperAddress (Service.clusterIP s) := by
  intro w
  refine ⟨by decide +kernel, ?_⟩
  have hfree : TakesFreeSlot (pacedEnv 1700000000000000000 1) (.create (frontSpec "a")) emptyWorld ∧
      TakesFreeSlot (pacedEnv 1700000000000000000 1) (.create (frontSpec "b"))
        (serviceStep (pacedEnv 1700000000000000000 1) (.create (frontSpec "a")) emptyWorld) := by
    decide +kernel
  exact (cluster_addresses (pacedEnv 1700000000000000000 1)).2 emptyWorld w rfl
    (Runs.of_list frontRun ⟨hfree.1, hfree.2, trivial⟩)

/-- Twice 65534 nanoseconds apart, they get the same address; a nanosecond before 1970, the last
octet is zero. -/
theorem cluster_address_shared :
    StrictMono (pacedEnv 1700000000000000000 32767).clock ∧ StrictMono (pacedEnv (-4) 1).clock ∧
      frontAddresses (pacedEnv 1700000000000000000 32767) =
        [(1700000000000098301, "10.96.30.70"), (1700000000000229369, "10.96.30.70")] ∧
      frontAddresses (pacedEnv (-4) 1) = [(-1, "10.96.1.0"), (3, "10.96.1.4")] ∧
      ¬ ProperAddress "10.96.1.0" := by
  refine ⟨pacedEnv_clock_strictMono _ (by decide), pacedEnv_clock_strictMono _ (by decide), ?_, ?_, ?_⟩
  · decide +kernel
  · decide +kernel
  · rintro ⟨a, b, ⟨ha, -⟩, ⟨hb, -⟩, h⟩
    obtain ⟨m, rfl⟩ := Int.eq_ofNat_of_zero_le (by omega : 0 ≤ a)
    obtain ⟨n, rfl⟩ := Int.eq_ofNat_of_zero_le (by omega : 0 ≤ b)
    have hread : "10.96." ++ toString ((1 : ℕ) : ℤ) ++ "." ++ toString ((0 : ℕ) : ℤ) =
        "10.96." ++ toString (m : ℤ) ++ "." ++ toString (n : ℤ) := h
    have hzero := (address_inj hread).2
    omega

end Orchestrator
