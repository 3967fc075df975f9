/-
# Volumes and claims

A run that stores new volumes and new claims and makes binding passes.  A pass goes through
the claims that it lists and binds each unbound one to the first volume that can serve it,
looking at the volumes as they were listed; a volume that it has just bound still looks
available.  The bindings are a matching as long as no two unbound claims that a pass lists
have the same first volume.
-/
import Orchestrator.Logic.Frames
import Orchestrator.System

namespace Orchestrator

open Lib

variable {c : PersistentVolumeClaim} {v : PersistentVolume} {w' : World}

/-! ### The tables -/

namespace World

def volumes (w : World) : Table PersistentVolume PersistentVolume.name := w.store .volume

def claims (w : World) : Table PersistentVolumeClaim (Tbl.key .claim) := w.store .claim

/-- The claims that a pass goes through, in order. -/
def listedClaims (w : World) : List PersistentVolumeClaim :=
  w.byNamespace .claim keyPersistentVolumeClaimPrefix

/-- The volumes in the order in which a pass looks at them. -/
def sortedVolumes (w : World) : List PersistentVolume :=
  sortStable (fun a b => decide (a.capacityMB < b.capacityMB)) w.volumes.rows

/-- The first volume that can serve a claim. -/
def chosenVolume (w : World) (c : PersistentVolumeClaim) : Option PersistentVolume :=
  w.sortedVolumes.find? (volumeMatches c)

end World

/-- A pass skips the claim. -/
def PersistentVolumeClaim.Settled (c : PersistentVolumeClaim) : Prop :=
  c.phase = .bound ∧ blank c.volumeName = false

instance PersistentVolumeClaim.decidableSettled (c : PersistentVolumeClaim) : Decidable c.Settled :=
  inferInstanceAs (Decidable (_ ∧ _))

/-- The bindings are a matching of claims with volumes. -/
structure Matching (w : World) : Prop where
  claim_volume : ∀ c ∈ w.claims.rows, c.phase = .bound →
    ∃ v ∈ w.volumes.rows, v.name = c.volumeName ∧ v.phase = .bound ∧
      v.claimNamespace = c.nameSpace ∧ v.claimName = c.name ∧ c.requestedCapacity ≤ v.capacityMB
  volume_claim : ∀ v ∈ w.volumes.rows, v.phase = .bound →
    ∃ c ∈ w.claims.rows, c.nameSpace = v.claimNamespace ∧ c.name = v.claimName ∧
      c.volumeName = v.name
  volume_once : ∀ v ∈ w.volumes.rows, ∀ c ∈ w.claims.rows, ∀ c' ∈ w.claims.rows,
    c.volumeName = v.name → c'.volumeName = v.name → c = c'

/-! ### Runs -/

/-- The calls of a run. -/
inductive VolumeCall
  | volume (pv : PersistentVolume)
  | claim (pvc : PersistentVolumeClaim)
  | pass

def VolumeCall.step (env : Env) (e : VolumeCall) (w : World) : World :=
  match e with
  | .volume pv => (upsertPersistentVolume pv).final (exec env) w
  | .claim pvc => (upsertPersistentVolumeClaim pvc).final (exec env) w
  | .pass => reconcilePVCBindings.final (exec env) w

/-- Volumes and claims are stored under names that are not in use, and are not bound yet. -/
def VolumeCall.Fresh : VolumeCall → World → Prop
  | .volume pv, w => pv.phase = .unset ∧ ∀ v ∈ w.volumes.rows, v.name ≠ pv.name
  | .claim pvc, w => pvc.phase = .unset ∧ pvc.volumeName = "" ∧
      ∀ c ∈ w.claims.rows, ¬ (c.nameSpace = pvc.home ∧ c.name = pvc.name)
  | .pass, _ => True

/-- Different unbound claims that a pass lists have different first volumes. -/
def Uncontested (w : World) : Prop :=
  ∀ c ∈ w.listedClaims, ∀ c' ∈ w.listedClaims, ¬ c.Settled → ¬ c'.Settled →
    (w.chosenVolume c).isSome → w.chosenVolume c = w.chosenVolume c' → c = c'

instance (w : World) : Decidable (Uncontested w) :=
  inferInstanceAs (Decidable (∀ c ∈ w.listedClaims, ∀ c' ∈ w.listedClaims, _))

/-- The passes of the call meet no two claims with one first volume, and the key of a new
claim is not in use. -/
def VolumeCall.Orderly (env : Env) : VolumeCall → World → Prop
  | .volume _, _ => True
  | .claim pvc, w =>
      (∀ c ∈ w.claims.rows, Tbl.key .claim c ≠ keyPersistentVolumeClaim pvc.home pvc.name) ∧
      Uncontested ((admitClaim pvc).final (exec env) w)
  | .pass, w => Uncontested w

instance VolumeCall.decidableFresh (e : VolumeCall) (w : World) : Decidable (e.Fresh w) :=
  match e with
  | .volume _ => inferInstanceAs (Decidable (_ ∧ ∀ v ∈ w.volumes.rows, _))
  | .claim _ => inferInstanceAs (Decidable (_ ∧ _ ∧ ∀ c ∈ w.claims.rows, ¬ (_ ∧ _)))
  | .pass => .isTrue trivial

instance VolumeCall.decidableOrderly (env : Env) (e : VolumeCall) (w : World) :
    Decidable (e.Orderly env w) :=
  match e with
  | .volume _ => .isTrue trivial
  | .claim _ => inferInstanceAs (Decidable ((∀ c ∈ w.claims.rows, _) ∧ _))
  | .pass => inferInstanceAs (Decidable (Uncontested w))

/-! ### What the calls store -/

variable {env : Env} {P : Rules} {w w₀ : World}

lemma mem_claims_of_listed (h : c ∈ w.listedClaims) :
    c ∈ w.claims.rows := World.mem_of_byNamespace h

lemma chosenVolume_some
    (h : w.chosenVolume c = some v) :
    v ∈ w.volumes.rows ∧ v.phase = .available ∧ c.requestedCapacity ≤ v.capacityMB := by
  have hmem := List.mem_of_find?_eq_some h
  have hmatch := List.find?_some h
  simp only [volumeMatches, Bool.and_eq_true, decide_eq_true_eq] at hmatch
  exact ⟨(sortStable_perm _ _).mem_iff.mp hmem, hmatch.1.1.1, hmatch.1.1.2⟩

/-- A pass is the loop over the claims that it lists. -/
lemma reconcilePVCBindings_holds {Q : Except Err Unit → World → Prop}
    (h : Holds env P (Prog.forEach w.listedClaims (bindClaim w.sortedVolumes)) w Q) :
    Holds env P reconcilePVCBindings w Q := by
  unfold reconcilePVCBindings
  exact list_bind ⟨trivial, list_bind (lists_bind h)⟩

/-! A write fills in the times; what is said of the stored record does not mention them. -/

/-- The record of a volume that is bound to a claim. -/
structure HeldBy (v : PersistentVolume) (c : PersistentVolumeClaim) (v' : PersistentVolume) :
    Prop where
  name : v'.name = v.name
  phase : v'.phase = .bound
  claimNamespace : v'.claimNamespace = c.nameSpace
  claimName : v'.claimName = c.name
  capacity : v'.capacityMB = v.capacityMB

/-- The record of a claim that is bound to a volume. -/
structure BoundTo (c : PersistentVolumeClaim) (v : PersistentVolume)
    (c' : PersistentVolumeClaim) : Prop where
  nameSpace : c'.nameSpace = c.nameSpace
  name : c'.name = c.name
  requested : c'.requestedCapacity = c.requestedCapacity
  phase : c'.phase = .bound
  volumeName : c'.volumeName = v.name

lemma volumes_put (w : World) (v : PersistentVolume) :
    World.volumes ⟨w.store.put .volume v, w.tick⟩ = w.volumes.put v := Store.put_self _ _ _

lemma claims_put (w : World) (c : PersistentVolumeClaim) :
    World.claims ⟨w.store.put .claim c, w.tick⟩ = w.claims.put c := Store.put_self _ _ _

lemma claims_put_volume (w : World) (v : PersistentVolume) :
    World.claims ⟨w.store.put .volume v, w.tick⟩ = w.claims :=
  Store.put_of_ne w.store .volume .claim v (by decide)

lemma volumes_put_claim (w : World) (c : PersistentVolumeClaim) :
    World.volumes ⟨w.store.put .claim c, w.tick⟩ = w.volumes :=
  Store.put_of_ne w.store .claim .volume c (by decide)

lemma upsertPersistentVolume_holds (v : PersistentVolume) (w : World) :
    Returns env P (StateStore.upsertPersistentVolume v) w fun _ w' =>
      ∃ createdAt updatedAt, w'.claims = w.claims ∧ w'.volumes = w.volumes.put { v with
        createdAt := createdAt, updatedAt := updatedAt
        phase := if v.phase = .unset then .available else v.phase } := by
  unfold StateStore.upsertPersistentVolume orNow
  split
  · exact ⟨trivial, trivial, trivial, (), rfl, _, _, claims_put_volume _ _, volumes_put _ _⟩
  · exact ⟨trivial, trivial, (), rfl, _, _, claims_put_volume _ _, volumes_put _ _⟩

lemma upsertPersistentVolumeClaim_holds (c : PersistentVolumeClaim) (w : World) :
    Returns env P (StateStore.upsertPersistentVolumeClaim c) w fun _ w' =>
      ∃ createdAt updatedAt, w'.volumes = w.volumes ∧ w'.claims = w.claims.put { c with
        createdAt := createdAt, updatedAt := updatedAt
        phase := if c.phase = .unset then .pending else c.phase } := by
  unfold StateStore.upsertPersistentVolumeClaim orNow
  split
  · exact ⟨trivial, trivial, trivial, (), rfl, _, _, volumes_put_claim _ _, claims_put _ _⟩
  · exact ⟨trivial, trivial, (), rfl, _, _, volumes_put_claim _ _, claims_put _ _⟩

/-- The body of the loop stores a bound record of the claim and of the volume it has
chosen. -/
lemma bindClaim_holds (pvs : List PersistentVolume) (c : PersistentVolumeClaim) (w : World) :
    Returns env P (bindClaim pvs c) w fun _ w' =>
      (w' = w ∧ (c.Settled ∨ pvs.find? (volumeMatches c) = none)) ∨
      ¬ c.Settled ∧ ∃ v v' c', pvs.find? (volumeMatches c) = some v ∧ HeldBy v c v' ∧
        BoundTo c v c' ∧ w'.volumes = w.volumes.put v' ∧ w'.claims = w.claims.put c' := by
  unfold bindClaim
  split
  · next hset => exact ⟨(), rfl, .inl ⟨rfl, .inl hset⟩⟩
  · next hset =>
    cases hfind : pvs.find? (volumeMatches c) with
    | none => exact ⟨(), rfl, .inl ⟨rfl, .inr rfl⟩⟩
    | some v =>
      refine (upsertPersistentVolume_holds _ w).bind ?_
      rintro _ w₁ ⟨t₁, t₂, hc₁, hv₁⟩
      refine (upsertPersistentVolumeClaim_holds _ w₁).mono ?_
      rintro _ w₂ ⟨t₃, t₄, hv₂, hc₂⟩
      rw [hc₁] at hc₂
      refine .inr ⟨hset, v, _, _, rfl, ?_, ?_, hv₂.trans hv₁, hc₂⟩
      · exact ⟨rfl, rfl, rfl, rfl, rfl⟩
      · exact ⟨rfl, rfl, rfl, rfl, rfl⟩

/-! ### A pass -/

/-- The pass has bound the claim to the volume that it had chosen, and that volume is bound. -/
structure Assigned (w₀ w : World) (c : PersistentVolumeClaim) (v : PersistentVolume) : Prop where
  unsettled : ¬ c.Settled
  chosen : w₀.chosenVolume c = some v
  volume : ∃ v', w.volumes.get v.name = some v' ∧ v'.phase = .bound
  claim : ∃ c', w.claims.get (Tbl.key .claim c) = some c' ∧ BoundTo c v c'

/-- What a pass that started in `w₀` has done when the claims `rest` are still to come: records are
as they were, or bound. -/
structure Passed (w₀ : World) (rest : List PersistentVolumeClaim) (w : World) : Prop where
  volumes : ∀ v ∈ w₀.volumes.rows, w.volumes.get v.name = some v ∨
    ∃ c ∈ w₀.listedClaims, Assigned w₀ w c v ∧ ∃ v', w.volumes.get v.name = some v' ∧ HeldBy v c v'
  claims : ∀ c ∈ w₀.claims.rows,
    w.claims.get (Tbl.key .claim c) = some c ∨ c ∈ w₀.listedClaims ∧ ∃ v, Assigned w₀ w c v
  volumes_from : ∀ v ∈ w.volumes.rows, ∃ v₀ ∈ w₀.volumes.rows, v₀.name = v.name
  claims_from : ∀ c ∈ w.claims.rows, ∃ c₀ ∈ w₀.claims.rows,
    Tbl.key .claim c₀ = Tbl.key .claim c
  done : ∀ c ∈ w₀.listedClaims, c ∈ rest ∨ c.Settled ∨ w₀.chosenVolume c = none ∨
    ∃ v, Assigned w₀ w c v

lemma Passed.start (w : World) : Passed w w.listedClaims w where
  volumes _ hv := .inl (Table.get_of_mem hv)
  claims _ hc := .inl (Table.get_of_mem hc)
  volumes_from v hv := ⟨v, hv, rfl⟩
  claims_from c hc := ⟨c, hc, rfl⟩
  done _ hc := .inl hc

/-- Binding one more claim: other claims have other keys, whatever volume they have. -/
lemma Passed.bind {rest : List PersistentVolumeClaim} {v' : PersistentVolume}
    {c' : PersistentVolumeClaim} (h : Passed w₀ (c :: rest) w) (hlist : c ∈ w₀.listedClaims)
    (hset : ¬ c.Settled) (hchosen : w₀.chosenVolume c = some v) (hv' : HeldBy v c v')
    (hc' : BoundTo c v c') (hV : w'.volumes = w.volumes.put v')
    (hC : w'.claims = w.claims.put c') : Passed w₀ rest w' := by
  have hkey : Tbl.key .claim c' = Tbl.key .claim c := by
    simp only [Tbl.key, hc'.nameSpace, hc'.name]
  have hvself : w'.volumes.get v.name = some v' := by
    rw [hV, ← hv'.name]
    exact Table.get_put_self _ _
  have hcself : w'.claims.get (Tbl.key .claim c) = some c' := by
    rw [hC, ← hkey]
    exact Table.get_put_self _ _
  have hvother : ∀ k, k ≠ v.name → w'.volumes.get k = w.volumes.get k := fun k hk => by
    rw [hV]
    exact Table.get_put_of_ne _ (hv'.name ▸ hk)
  have hcother : ∀ c₁ ∈ w₀.claims.rows, c₁ ≠ c →
      w'.claims.get (Tbl.key .claim c₁) = w.claims.get (Tbl.key .claim c₁) := by
    intro c₁ hc₁ hne
    rw [hC]
    refine Table.get_put_of_ne _ fun hk => hne ?_
    exact Table.eq_of_mem_of_key_eq hc₁ (mem_claims_of_listed hlist) (hk.trans hkey)
  have hnew : Assigned w₀ w' c v := ⟨hset, hchosen, ⟨v', hvself, hv'.phase⟩, ⟨c', hcself, hc'⟩⟩
  have hkeep : ∀ c₁ ∈ w₀.claims.rows, c₁ ≠ c → ∀ v₁, Assigned w₀ w c₁ v₁ →
      Assigned w₀ w' c₁ v₁ := by
    intro c₁ hc₁ hne v₁ ha
    refine ⟨ha.unsettled, ha.chosen, ?_, by rw [hcother c₁ hc₁ hne]; exact ha.claim⟩
    by_cases hvv : v₁.name = v.name
    · exact ⟨v', hvv ▸ hvself, hv'.phase⟩
    · rw [hvother _ hvv]
      exact ha.volume
  refine ⟨?_, ?_, ?_, ?_, ?_⟩
  · intro v₁ hv₁
    by_cases hvv : v₁ = v
    · subst hvv
      exact .inr ⟨c, hlist, hnew, v', hvself, hv'⟩
    have hname : v₁.name ≠ v.name := fun hn =>
      hvv (Table.eq_of_mem_of_key_eq hv₁ (chosenVolume_some hchosen).1 hn)
    rw [hvother _ hname]
    refine (h.volumes v₁ hv₁).imp_right ?_
    rintro ⟨c₁, hlist₁, ha, hheld⟩
    refine ⟨c₁, hlist₁, hkeep c₁ (mem_claims_of_listed hlist₁) ?_ v₁ ha, hheld⟩
    rintro rfl
    exact hvv (Option.some.inj (ha.chosen.symm.trans hchosen))
  · intro c₁ hc₁
    by_cases hcc : c₁ = c
    · exact .inr ⟨hcc ▸ hlist, v, hcc ▸ hnew⟩
    · rw [hcother c₁ hc₁ hcc]
      exact (h.claims c₁ hc₁).imp_right fun ⟨hl, v₁, ha⟩ => ⟨hl, v₁, hkeep c₁ hc₁ hcc v₁ ha⟩
  · intro v₁ hv₁
    rw [hV, Table.mem_rows_put] at hv₁
    rcases hv₁ with rfl | ⟨hv₁, -⟩
    · exact ⟨v, (chosenVolume_some hchosen).1, hv'.name.symm⟩
    · exact h.volumes_from v₁ hv₁
  · intro c₁ hc₁
    rw [hC, Table.mem_rows_put] at hc₁
    rcases hc₁ with rfl | ⟨hc₁, -⟩
    · exact ⟨c, mem_claims_of_listed hlist, hkey.symm⟩
    · exact h.claims_from c₁ hc₁
  · intro c₁ hc₁
    by_cases hcc : c₁ = c
    · exact .inr (.inr (.inr ⟨v, hcc ▸ hnew⟩))
    · rcases h.done c₁ hc₁ with hmem | hset₁ | hnone | ⟨v₁, ha⟩
      · exact .inl ((List.mem_cons.mp hmem).resolve_left hcc)
      · exact .inr (.inl hset₁)
      · exact .inr (.inr (.inl hnone))
      · exact .inr (.inr (.inr ⟨v₁, hkeep c₁ (mem_claims_of_listed hc₁) hcc v₁ ha⟩))

lemma reconcilePVCBindings_passed (w₀ : World) :
    Returns env P reconcilePVCBindings w₀ fun _ w' => Passed w₀ [] w' := by
  refine reconcilePVCBindings_holds ?_
  refine Prog.Sat.forEach (I := fun l w => (∀ c ∈ l, c ∈ w₀.listedClaims) ∧ Passed w₀ l w) ?_ ?_ _
    ⟨fun c hc => hc, .start w₀⟩
  · rintro c rest w ⟨hl, hp⟩
    obtain ⟨hlist, hl⟩ := List.forall_mem_cons.mp hl
    refine Prog.Sat.mono (bindClaim_holds _ c w) ?_
    rintro _ w' ⟨_, rfl, ⟨rfl, hskip⟩ | ⟨hset, v, v', c', hfind, hv', hc', hV, hC⟩⟩
    · refine ⟨hl, hp.volumes, hp.claims, hp.volumes_from, hp.claims_from, ?_⟩
      intro c₁ hc₁
      rcases hp.done c₁ hc₁ with hmem | hdone
      · rcases List.mem_cons.mp hmem with rfl | hmem
        · exact .inr (hskip.imp_right .inl)
        · exact .inl hmem
      · exact .inr hdone
    · exact ⟨hl, hp.bind hlist hset hfind hv' hc' hV hC⟩
  · rintro w ⟨-, hp⟩
    exact ⟨(), rfl, hp⟩

/-- A claim after the pass is one from before, or the pass has bound it. -/
lemma Passed.claim_cases (hp : Passed w₀ [] w) (hc : c ∈ w.claims.rows) : c ∈ w₀.claims.rows ∨
    ∃ c₀ ∈ w₀.listedClaims, ∃ v, Assigned w₀ w c₀ v ∧ BoundTo c₀ v c := by
  obtain ⟨c₀, hc₀, hkey⟩ := hp.claims_from c hc
  have hget := Table.get_of_mem hc
  rw [← hkey] at hget
  rcases hp.claims c₀ hc₀ with hsame | ⟨hlist, v, ha⟩
  · obtain rfl := Option.some.inj (hsame.symm.trans hget)
    exact .inl hc₀
  · obtain ⟨c', hc', hbound⟩ := ha.claim
    obtain rfl := Option.some.inj (hc'.symm.trans hget)
    exact .inr ⟨c₀, hlist, v, ha, hbound⟩

/-- So is a volume. -/
lemma Passed.volume_cases (hp : Passed w₀ [] w) (hv : v ∈ w.volumes.rows) :
    v ∈ w₀.volumes.rows ∨ ∃ c v₀, Assigned w₀ w c v₀ ∧ HeldBy v₀ c v := by
  obtain ⟨v₀, hv₀, hkey⟩ := hp.volumes_from v hv
  have hget := Table.get_of_mem hv
  rw [← hkey] at hget
  rcases hp.volumes v₀ hv₀ with hsame | ⟨c, -, ha, v', hv', hheld⟩
  · obtain rfl := Option.some.inj (hsame.symm.trans hget)
    exact .inl hv₀
  · obtain rfl := Option.some.inj (hv'.symm.trans hget)
    exact .inr ⟨c, v₀, ha, hheld⟩

/-- Without a contest the volume of a claim is held by that claim. -/
lemma Passed.held (hp : Passed w₀ [] w) (hun : Uncontested w₀) (hlist : c ∈ w₀.listedClaims)
    (ha : Assigned w₀ w c v) : ∃ v' ∈ w.volumes.rows, HeldBy v c v' := by
  obtain ⟨hmem, hphase, -⟩ := chosenVolume_some ha.chosen
  obtain ⟨v', hv', hbound⟩ := ha.volume
  rcases hp.volumes v hmem with hsame | ⟨c₁, hlist₁, ha₁, v₁, hv₁, hheld⟩
  · rw [Option.some.inj (hv'.symm.trans hsame), hphase] at hbound
    cases hbound
  · obtain rfl : c = c₁ := hun c hlist c₁ hlist₁ ha.unsettled ha₁.unsettled
      (by rw [ha.chosen]; rfl) (ha.chosen.trans ha₁.chosen.symm)
    exact ⟨v₁, Table.mem_of_get hv₁, hheld⟩

/-! ### The invariant -/

/-- The matching, with what the next passes need: an unbound claim names no volume, and every
volume has a name. -/
structure Paired (w : World) : Prop where
  claim : ∀ c ∈ w.claims.rows, c.phase = .bound →
    ∃ v ∈ w.volumes.rows, v.name = c.volumeName ∧ v.phase = .bound ∧
      v.claimNamespace = c.nameSpace ∧ v.claimName = c.name ∧ c.requestedCapacity ≤ v.capacityMB
  volume : ∀ v ∈ w.volumes.rows, v.phase = .bound →
    ∃ c ∈ w.claims.rows, c.phase = .bound ∧ c.nameSpace = v.claimNamespace ∧
      c.name = v.claimName ∧ c.volumeName = v.name
  idle : ∀ c ∈ w.claims.rows, c.phase ≠ .bound → c.volumeName = ""
  named : ∀ v ∈ w.volumes.rows, blank v.name = false

/-- A claim that names a volume is bound to it. -/
lemma Paired.bound_of_name (h : Paired w)
    (hc : c ∈ w.claims.rows) (hv : v ∈ w.volumes.rows) (hn : c.volumeName = v.name) :
    c.phase = .bound := by
  by_contra hne
  have hblank := h.named v hv
  rw [← hn, h.idle c hc hne] at hblank
  exact absurd hblank (by decide)

lemma Paired.matching (h : Paired w) : Matching w where
  claim_volume := h.claim
  volume_claim := by
    intro v hv hb
    obtain ⟨c, hc, -, hns, hname, hvol⟩ := h.volume v hv hb
    exact ⟨c, hc, hns, hname, hvol⟩
  volume_once := by
    -- both claims are the one that the volume points back to
    have hback : ∀ v ∈ w.volumes.rows, ∀ c ∈ w.claims.rows, c.volumeName = v.name →
        Tbl.key .claim c = keyPersistentVolumeClaim v.claimNamespace v.claimName := by
      intro v hv c hc hn
      obtain ⟨v₁, hv₁, hn₁, -, hns, hname, -⟩ := h.claim c hc (h.bound_of_name hc hv hn)
      obtain rfl : v₁ = v := Table.eq_of_mem_of_key_eq hv₁ hv (hn₁.trans hn)
      rw [hns, hname]
      rfl
    intro v hv c hc c' hc' hn hn'
    exact Table.eq_of_mem_of_key_eq hc hc' ((hback v hv c hc hn).trans (hback v hv c' hc' hn').symm)

lemma Paired.of_tables (h : Paired w) (hV : w'.volumes = w.volumes)
    (hC : w'.claims = w.claims) : Paired w' := by
  refine ⟨?_, ?_, ?_, ?_⟩ <;> simp only [hV, hC]
  · exact h.claim
  · exact h.volume
  · exact h.idle
  · exact h.named

lemma Paired.pass (h : Paired w₀) (hun : Uncontested w₀) (hp : Passed w₀ [] w') : Paired w' := by
  refine ⟨?_, ?_, ?_, ?_⟩
  · intro c hc hb
    rcases hp.claim_cases hc with hc₀ | ⟨c₀, hlist, v, ha, hbound⟩
    · obtain ⟨v, hv, hn, hvb, hns, hname, hcap⟩ := h.claim c hc₀ hb
      -- the pass only chooses volumes that are available
      rcases hp.volumes v hv with hsame | ⟨c₁, -, ha, -⟩
      · exact ⟨v, Table.mem_of_get hsame, hn, hvb, hns, hname, hcap⟩
      · rw [(chosenVolume_some ha.chosen).2.1] at hvb
        cases hvb
    · obtain ⟨v', hv', hheld⟩ := hp.held hun hlist ha
      refine ⟨v', hv', ?_, hheld.phase, ?_, ?_, ?_⟩
      · rw [hheld.name, hbound.volumeName]
      · rw [hheld.claimNamespace, hbound.nameSpace]
      · rw [hheld.claimName, hbound.name]
      · rw [hheld.capacity, hbound.requested]
        exact (chosenVolume_some ha.chosen).2.2
  · intro v hv hb
    rcases hp.volume_cases hv with hv₀ | ⟨c, v₀, ha, hheld⟩
    · obtain ⟨c, hc, hcb, hns, hname, hvol⟩ := h.volume v hv₀ hb
      -- the pass skips claims that are bound
      rcases hp.claims c hc with hsame | ⟨-, v₁, ha⟩
      · exact ⟨c, Table.mem_of_get hsame, hcb, hns, hname, hvol⟩
      · exact absurd ⟨hcb, by rw [hvol]; exact h.named v hv₀⟩ ha.unsettled
    · obtain ⟨c', hc', hbound⟩ := ha.claim
      refine ⟨c', Table.mem_of_get hc', hbound.phase, ?_, ?_, ?_⟩
      · rw [hheld.claimNamespace, hbound.nameSpace]
      · rw [hheld.claimName, hbound.name]
      · rw [hheld.name, hbound.volumeName]
  · intro c hc hb
    rcases hp.claim_cases hc with hc₀ | ⟨c₀, -, v, -, hbound⟩
    · exact h.idle c hc₀ hb
    · exact absurd hbound.phase hb
  · intro v hv
    obtain ⟨v₀, hv₀, hname⟩ := hp.volumes_from v hv
    rw [← hname]
    exact h.named v₀ hv₀

/-! ### New records -/

lemma Paired.put_volume (h : Paired w)
    (hnew : ∀ u ∈ w.volumes.rows, u.name ≠ v.name) (hphase : v.phase ≠ .bound)
    (hname : blank v.name = false) (hV : w'.volumes = w.volumes.put v)
    (hC : w'.claims = w.claims) : Paired w' := by
  refine ⟨?_, ?_, ?_, ?_⟩
  · intro c hc hb
    rw [hC] at hc
    obtain ⟨u, hu, hrest⟩ := h.claim c hc hb
    exact ⟨u, by rw [hV]; exact Table.mem_rows_put.mpr (.inr ⟨hu, hnew u hu⟩), hrest⟩
  · intro u hu hb
    rw [hV, Table.mem_rows_put] at hu
    rcases hu with rfl | ⟨hu, -⟩
    · exact absurd hb hphase
    · rw [hC]
      exact h.volume u hu hb
  · rw [hC]
    exact h.idle
  · intro u hu
    rw [hV, Table.mem_rows_put] at hu
    rcases hu with rfl | ⟨hu, -⟩
    · exact hname
    · exact h.named u hu

lemma Paired.put_claim (h : Paired w)
    (hnew : ∀ u ∈ w.claims.rows, Tbl.key .claim u ≠ Tbl.key .claim c) (hphase : c.phase ≠ .bound)
    (hname : c.volumeName = "") (hV : w'.volumes = w.volumes) (hC : w'.claims = w.claims.put c) :
    Paired w' := by
  refine ⟨?_, ?_, ?_, ?_⟩
  · intro u hu hb
    rw [hC, Table.mem_rows_put] at hu
    rcases hu with rfl | ⟨hu, -⟩
    · exact absurd hb hphase
    · rw [hV]
      exact h.claim u hu hb
  · intro v hv hb
    rw [hV] at hv
    obtain ⟨u, hu, hrest⟩ := h.volume v hv hb
    exact ⟨u, by rw [hC]; exact Table.mem_rows_put.mpr (.inr ⟨hu, hnew u hu⟩), hrest⟩
  · intro u hu hb
    rw [hC, Table.mem_rows_put] at hu
    rcases hu with rfl | ⟨hu, -⟩
    · exact hname
    · exact h.idle u hu hb
  · rw [hV]
    exact h.named

/-! ### Steps -/

/-- Storing a claim either fails its checks, or puts one record. -/
lemma admitClaim_holds (pvc : PersistentVolumeClaim) (hphase : pvc.phase = .unset) (w : World) :
    Holds env openRules (admitClaim pvc) w fun _ w' =>
      w'.volumes = w.volumes ∧ (w'.claims = w.claims ∨ ∃ createdAt updatedAt,
        w'.claims = w.claims.put { pvc with
          nameSpace := pvc.home, phase := .pending
          createdAt := createdAt, updatedAt := updatedAt }) := by
  unfold admitClaim
  split
  · exact ⟨rfl, .inl rfl⟩
  split
  · exact ⟨rfl, .inl rfl⟩
  have hns := ensureNamespaceExists_writesIn pvc.home
  refine ((hns.spares (t := .volume) (by decide)).frame
    ((hns.spares (t := .claim) (by decide)).frame (steers_ensureNamespaceExists pvc.home))).bind
    ?_ ?_
  · rintro _ w₁ ⟨⟨-, hC⟩, hV⟩
    refine Prog.Sat.mono (upsertPersistentVolumeClaim_holds _ w₁) ?_
    rintro _ w₂ ⟨_, _, t₁, t₂, hV₂, hC₂⟩
    refine ⟨hV₂.trans hV, .inr ⟨t₁, t₂, hC₂.trans ?_⟩⟩
    exact congrArg (Table.put · _) hC
  · rintro _ w₁ ⟨⟨-, hC⟩, hV⟩
    exact ⟨hV, .inl hC⟩

lemma Paired.volume_step {pv : PersistentVolume} (h : Paired w)
    (hfresh : (VolumeCall.volume pv).Fresh w) :
    Holds env openRules (upsertPersistentVolume pv) w fun _ w' => Paired w' := by
  obtain ⟨hphase, hnew⟩ := hfresh
  unfold upsertPersistentVolume
  split
  · exact h
  next hname =>
  split
  · exact h
  refine (upsertPersistentVolume_holds _ w).bind ?_
  rintro _ w₁ ⟨t₁, t₂, hC, hV⟩
  have hw₁ : Paired w₁ := by
    refine h.put_volume ?_ ?_ ?_ hV hC
    · exact hnew
    · simp
    · simpa using hname
  exact find_holds fun _ => hw₁

lemma Paired.pass_step (env : Env) (h : Paired w) (hun : Uncontested w) :
    Returns env openRules reconcilePVCBindings w fun _ w' => Paired w' :=
  (reconcilePVCBindings_passed w).mono fun _ _ hp => h.pass hun hp

lemma Paired.claim_step {pvc : PersistentVolumeClaim} (h : Paired w)
    (hfresh : (VolumeCall.claim pvc).Fresh w) (hord : (VolumeCall.claim pvc).Orderly env w) :
    Holds env openRules (upsertPersistentVolumeClaim pvc) w fun _ w' => Paired w' := by
  obtain ⟨hphase, hvol, -⟩ := hfresh
  obtain ⟨hkey, hun⟩ := hord
  have hadmit : Holds env openRules (admitClaim pvc) w fun _ w' => Paired w' := by
    refine (admitClaim_holds pvc hphase w).mono ?_
    rintro _ w' ⟨hV, hC | ⟨t₁, t₂, hC⟩⟩
    · exact h.of_tables hV hC
    · refine h.put_claim ?_ ?_ ?_ hV hC
      · exact hkey
      · nofun
      · exact hvol
  refine hadmit.self.bind ?_ ?_
  · rintro _ w₁ ⟨-, rfl, hw₁⟩
    exact (hw₁.pass_step env hun).bind fun _ w₂ hw₂ => find_holds fun _ => hw₂
  · rintro _ w₁ ⟨-, -, hw₁⟩
    exact hw₁

lemma Paired.step {e : VolumeCall} (h : Paired w) (hfresh : e.Fresh w) (hord : e.Orderly env w) :
    Paired (e.step env w) := by
  cases e with
  | volume pv => exact (h.volume_step hfresh).run
  | claim pvc => exact (h.claim_step hfresh hord).run
  | pass =>
    obtain ⟨_, -, hw'⟩ := (h.pass_step env hord).run
    exact hw'

/-- **The bindings are a matching** in every state of a run of new volumes, new claims and
passes in which no pass meets two unbound claims with the same first volume. -/
theorem bindings_matching (env : Env) (w₀ : World) {w : World}
    (hV : w₀.volumes = Table.empty) (hC : w₀.claims = Table.empty)
    (h : Runs (VolumeCall.step env) (fun e w => e.Fresh w ∧ e.Orderly env w) w₀ w) :
    Matching w := by
  have hpaired : Paired w := by
    refine h.invariant ?_ fun e w hw hok => hw.step hok.1 hok.2
    refine ⟨?_, ?_, ?_, ?_⟩ <;> simp [hV, hC]
  exact hpaired.matching

/-- A claim on five megabytes in the default namespace. -/
def smallClaim (name : String) : PersistentVolumeClaim :=
  { nameSpace := "", name := name, requestedCapacity := 5 }

/-- A volume of ten megabytes. -/
def smallVolume (name : String) : PersistentVolume := { name := name, capacityMB := 10 }

/-- Two volumes are stored, and then two claims, one after the other. -/
def orderlyCalls : List VolumeCall :=
  [.volume (smallVolume "v1"), .volume (smallVolume "v2"), .claim (smallClaim "x"),
    .claim (smallClaim "y"), .pass]

theorem bindings_matching_orderly :
    let w := after (VolumeCall.step steadyEnv) orderlyCalls ⟨Store.empty, 0⟩
    (w.claims.rows.map fun c => (c.name, c.volumeName)) = [("x", "v1"), ("y", "v2")] ∧
      Matching w :=
  ⟨by decide +kernel, bindings_matching steadyEnv ⟨Store.empty, 0⟩ rfl rfl
    (.of_list _ (by decide +kernel))⟩

/-- Two claims wait for a volume, and one is stored. -/
def contestedCalls : List VolumeCall :=
  [.claim (smallClaim "x"), .claim (smallClaim "y"), .volume (smallVolume "v"), .pass]

/-- The pass binds both claims to the volume. -/
theorem volume_bound_twice :
    let w := after (VolumeCall.step steadyEnv) contestedCalls ⟨Store.empty, 0⟩
    Runs (VolumeCall.step steadyEnv) VolumeCall.Fresh ⟨Store.empty, 0⟩ w ∧
      (w.claims.rows.map fun c => (c.name, c.volumeName)) = [("x", "v"), ("y", "v")] ∧
      ¬ Matching w := by
  refine ⟨.of_list _ (by decide +kernel), by decide +kernel, fun h => ?_⟩
  exact absurd h.volume_once (by decide +kernel)

/-! ### The best fit

A pass that meets claims with the same first volume binds all of them to it, but it binds each
claim to a volume of the least sufficient capacity, and leaves a claim unbound only if no
available volume would do. -/

/-- The volume has what the claim asks for. -/
def Suits (c : PersistentVolumeClaim) (v : PersistentVolume) : Prop :=
  c.requestedCapacity ≤ v.capacityMB ∧
  (blank c.storageClass = true ∨ blank v.storageClass = true ∨ c.storageClass = v.storageClass) ∧
  (blank c.accessMode = true ∨ blank v.accessMode = true ∨ c.accessMode = v.accessMode)

lemma volumeMatches_iff : volumeMatches c v = true ↔ v.phase = .available ∧ Suits c v := by
  simp only [volumeMatches, Suits, Bool.and_eq_true, Bool.or_eq_true, decide_eq_true_eq,
    and_assoc, or_assoc]

/-- The volume is available and compatible with the claim, and no such volume is smaller. -/
structure BestFit (w : World) (c : PersistentVolumeClaim) (v : PersistentVolume) : Prop where
  mem : v ∈ w.volumes.rows
  available : v.phase = .available
  compatible : Suits c v
  least : ∀ u ∈ w.volumes.rows, u.phase = .available → Suits c u → v.capacityMB ≤ u.capacityMB

lemma bestFit_of_chosenVolume (h : w.chosenVolume c = some v) : BestFit w c v := by
  obtain ⟨hphase, hcomp⟩ := volumeMatches_iff.mp (List.find?_some h)
  refine ⟨(chosenVolume_some h).1, hphase, hcomp, ?_⟩
  intro u hu hphase' hcomp'
  have hle := key_le_of_find? (fun v : PersistentVolume => v.capacityMB.toInt) ?_ h hu
    (volumeMatches_iff.mpr ⟨hphase', hcomp'⟩)
  · exact Int64.le_iff_toInt_le.mpr hle
  · intro a _ b _
    exact decide_eq_decide.mpr Int64.lt_iff_toInt_lt

/-- **Binding is best-fit and complete**: a claim is as it was before the pass, or it was unbound
and is bound to a best fit among the volumes of that time; and a claim that the pass lists was
bound already, is bound to a best fit, or no volume that is still available would do. -/
theorem bindings_best_fit (env : Env) (w : World) :
    let w' := reconcilePVCBindings.final (exec env) w
    (∀ c' ∈ w'.claims.rows, c' ∈ w.claims.rows ∨
      ∃ c ∈ w.claims.rows, ¬ c.Settled ∧ ∃ v, BestFit w c v ∧ BoundTo c v c') ∧
    ∀ c ∈ w.listedClaims,
      (c.Settled ∧ c ∈ w'.claims.rows) ∨
      (∃ v, BestFit w c v ∧ ∃ c' ∈ w'.claims.rows, BoundTo c v c') ∨
      ∀ v ∈ w'.volumes.rows, v.phase = .available → ¬ Suits c v := by
  have hpass : Returns env openRules reconcilePVCBindings w fun _ w' => Passed w [] w' :=
    reconcilePVCBindings_passed w
  obtain ⟨_, -, hp⟩ := hpass.run
  refine ⟨?_, ?_⟩
  · intro c' hc'
    rcases hp.claim_cases hc' with hc | ⟨c, hlist, v, ha, hbound⟩
    · exact .inl hc
    · exact .inr ⟨c, mem_claims_of_listed hlist, ha.unsettled, v,
        bestFit_of_chosenVolume ha.chosen, hbound⟩
  · intro c hc
    rcases hp.done c hc with hnil | hset | hnone | ⟨v, ha⟩
    · cases hnil
    · rcases hp.claims c (mem_claims_of_listed hc) with hsame | ⟨-, v, ha⟩
      · exact .inl ⟨hset, Table.mem_of_get hsame⟩
      · exact absurd hset ha.unsettled
    · refine .inr (.inr fun v hv hphase hsuits => ?_)
      rcases hp.volume_cases hv with hv₀ | ⟨c₁, v₀, -, hheld⟩
      · have hno := List.find?_eq_none.mp hnone v (mem_sortStable.mpr hv₀)
        exact hno (volumeMatches_iff.mpr ⟨hphase, hsuits⟩)
      · rw [hheld.phase] at hphase
        cases hphase
    · obtain ⟨c', hc', hbound⟩ := ha.claim
      exact .inr (.inl ⟨v, bestFit_of_chosenVolume ha.chosen, c', Table.mem_of_get hc', hbound⟩)

end Orchestrator
