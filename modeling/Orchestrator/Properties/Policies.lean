/-
# What network policies allow

The verdict of `IsNetworkAccessAllowed` is found by three nested loops with early returns.  It says
that no policy is applied to the service, or that some applied policy has a rule for the port that
is open to all or has a peer which stands for the source.  An existential does not depend on an
order, and that over all policies is the disjunction of those over each.

The group of a policy is compared with that of the source where a peer matches, and nowhere else: a
rule without peers is open to all groups.
-/
import Orchestrator.Lib.Pointwise
import Orchestrator.Properties.Traffic

namespace Orchestrator

open Lib

variable {source : String} {labels : StrMap} {svc : Service} {port : ℤ} {p : NetworkPolicy}
  {rule : NetworkPolicyRule} {l l' : List NetworkPolicy}

/-! ### The verdict -/

/-- The rule is for the port. -/
def NetworkPolicyRule.IsFor (rule : NetworkPolicyRule) (port : ℤ) : Prop :=
  rule.port > 0 → rule.port = port

/-- The policy has a rule that lets the source in. -/
def NetworkPolicy.LetsIn (p : NetworkPolicy) (source : String) (labels : StrMap) (port : ℤ) :
    Prop :=
  ∃ rule ∈ p.ingress, rule.IsFor port ∧
    (rule.sources = [] ∨ ∃ peer ∈ rule.sources, p.peerMatches source labels peer = true)

lemma isSome_ruleVerdict : (p.ruleVerdict source labels port rule).isSome = true ↔
    rule.IsFor port ∧
      (rule.sources = [] ∨ ∃ peer ∈ rule.sources, p.peerMatches source labels peer = true) := by
  have hport : rule.IsFor port ↔ ¬ (rule.port > 0 ∧ rule.port ≠ port) := by
    rw [NetworkPolicyRule.IsFor, not_and_not_right]
  unfold NetworkPolicy.ruleVerdict
  rw [hport]
  split_ifs with hother hempty hpeer
  · simp [hother]
  · simp [hother, hempty]
  · have hmatch := List.any_eq_true.mp hpeer
    exact iff_of_true rfl ⟨hother, Or.inr hmatch⟩
  · refine iff_of_false Bool.false_ne_true ?_
    rintro ⟨-, hnil | hmatch⟩
    · exact hempty hnil
    · exact hpeer (List.any_eq_true.mpr hmatch)

lemma isSome_ingress :
    (p.ingress.findSome? (p.ruleVerdict source labels port)).isSome = true ↔
      p.LetsIn source labels port := by
  rw [List.isSome_findSome?, List.any_eq_true]
  exact exists_congr fun rule => and_congr_right fun _ => isSome_ruleVerdict

/-- **The verdict**: no policy is applied, or an applied one lets the source in. -/
lemma networkVerdict_iff :
    (networkVerdict source labels svc port l).1 = true ↔
      applicablePolicies svc l = [] ∨ ∃ p ∈ applicablePolicies svc l, p.LetsIn source labels port := by
  have hsome : ((applicablePolicies svc l).findSome? fun p =>
      p.ingress.findSome? (p.ruleVerdict source labels port)).isSome = true ↔
        ∃ p ∈ applicablePolicies svc l, p.LetsIn source labels port := by
    rw [List.isSome_findSome?, List.any_eq_true]
    exact exists_congr fun p => and_congr_right fun _ => isSome_ingress
  unfold networkVerdict
  dsimp only
  rw [← hsome]
  split_ifs with hnil
  · exact iff_of_true rfl (Or.inl hnil)
  · rw [or_iff_right hnil]
    cases List.findSome? (fun p => p.ingress.findSome? (p.ruleVerdict source labels port))
        (applicablePolicies svc l) with
    | some reason => exact iff_of_true rfl rfl
    | none => exact iff_of_false Bool.false_ne_true Bool.false_ne_true

lemma isNetworkAccessAllowed_run (env : Env) (source : String) (labels : StrMap) (svc : Service)
    (port : ℤ) (w : World) :
    (isNetworkAccessAllowed source labels svc port).run (exec env) w =
      (.ok (networkVerdict (orDefault source) labels svc port (policiesOf w.store svc)), w) := rfl

/-! ### Order -/

/-- The two rules have the same peers, in some order. -/
def SameRule (r r' : NetworkPolicyRule) : Prop :=
  r' = { r with sources := r'.sources } ∧ r.sources.Perm r'.sources

/-- The two policies have the same rules, in some order. -/
def SamePolicy (p p' : NetworkPolicy) : Prop :=
  p' = { p with ingress := p'.ingress } ∧ Shuffled SameRule p.ingress p'.ingress

/-- The two lists have the same policies, in some order. -/
def Reordered (l l' : List NetworkPolicy) : Prop := Shuffled SamePolicy l l'

lemma SamePolicy.letsIn_iff {p p' : NetworkPolicy} (h : SamePolicy p p') :
    p.LetsIn source labels port ↔ p'.LetsIn source labels port := by
  obtain ⟨heq, hrules⟩ := h
  have hpeer : p'.peerMatches source labels = p.peerMatches source labels := by rw [heq]; rfl
  refine hrules.exists_iff fun r r' ⟨hr, hpeers⟩ => ?_
  have hport : r'.IsFor port ↔ r.IsFor port := by rw [hr]; rfl
  have hnil : r.sources = [] ↔ r'.sources = [] := by
    rw [← List.length_eq_zero_iff, ← List.length_eq_zero_iff, hpeers.length_eq]
  have hmatch : (∃ peer ∈ r.sources, p.peerMatches source labels peer = true) ↔
      ∃ peer ∈ r'.sources, p'.peerMatches source labels peer = true := by
    rw [hpeer]
    exact exists_congr fun peer => and_congr_left fun _ => hpeers.mem_iff
  rw [hport, hnil, hmatch]

/-- **The order does not matter**, of the policies, of their rules and of the peers. -/
lemma Reordered.verdict (h : Reordered l l') :
    (networkVerdict source labels svc port l).1 = (networkVerdict source labels svc port l').1 := by
  have happlied : Shuffled SamePolicy (applicablePolicies svc l) (applicablePolicies svc l') := by
    refine Shuffled.filter h fun p p' hp => ?_
    rw [hp.1]
  rw [Bool.eq_iff_iff, networkVerdict_iff, networkVerdict_iff, happlied.eq_nil_iff,
    happlied.exists_iff fun _ _ hp => hp.letsIn_iff]

/-! ### Addition -/

/-- The verdict for one policy that is applied. -/
lemma networkVerdict_singleton (hp : labelsMatchSelector svc.spec.selector p.podSelector = true) :
    (networkVerdict source labels svc port [p]).1 = true ↔ p.LetsIn source labels port := by
  have happlied : applicablePolicies svc [p] = [p] := by simp [applicablePolicies, hp]
  rw [networkVerdict_iff, happlied]
  simp

/-- **Network policies are additive, and their order does not matter.**  The verdict is one on the
listed policies; it does not depend on an order; if policies are applied it is the disjunction of
those for each of them alone, so that more policies and more rules allow more; and an applied
policy without rules denies. -/
theorem networkPolicies_additive (source : String) (labels : StrMap) (svc : Service) (port : ℤ) :
    let verdict := fun l => (networkVerdict (orDefault source) labels svc port l).1
    (∀ env w, ∃ reason, (isNetworkAccessAllowed source labels svc port).result (exec env) w =
      .ok (verdict (policiesOf w.store svc), reason)) ∧
    (∀ l l', Reordered l l' → verdict l = verdict l') ∧
    (∀ l, applicablePolicies svc l ≠ [] →
      (verdict l = (applicablePolicies svc l).any fun p => verdict [p]) ∧
      (verdict l = true → ∀ p, verdict (p :: l) = true) ∧
      (verdict l = true → ∀ l₁ p l₂ rule, l = l₁ ++ p :: l₂ →
        verdict (l₁ ++ { p with ingress := rule :: p.ingress } :: l₂) = true)) ∧
    ∀ p, labelsMatchSelector svc.spec.selector p.podSelector = true → p.ingress = [] →
      verdict [p] = false := by
  intro verdict
  refine ⟨fun env w => ⟨_, rfl⟩, fun l l' h => h.verdict, fun l hne => ⟨?_, ?_, ?_⟩, ?_⟩
  · rw [Bool.eq_iff_iff, networkVerdict_iff, or_iff_right hne, List.any_eq_true]
    refine exists_congr fun p => and_congr_right fun hp => ?_
    exact (networkVerdict_singleton (List.mem_filter.mp hp).2).symm
  · intro hallowed p
    obtain ⟨q, hq, hin⟩ := (networkVerdict_iff.mp hallowed).resolve_left hne
    obtain ⟨hmem, happlied⟩ := List.mem_filter.mp hq
    exact networkVerdict_iff.mpr
      (Or.inr ⟨q, List.mem_filter.mpr ⟨List.mem_cons_of_mem _ hmem, happlied⟩, hin⟩)
  · rintro hallowed l₁ p l₂ rule rfl
    obtain ⟨q, hq, hin⟩ := (networkVerdict_iff.mp hallowed).resolve_left hne
    obtain ⟨hmem, happlied⟩ := List.mem_filter.mp hq
    refine networkVerdict_iff.mpr (Or.inr ?_)
    -- the policy that lets the source in is another one, or has the new rule in addition
    rcases List.mem_append.mp hmem with hmem | hmem
    · exact ⟨q, List.mem_filter.mpr ⟨List.mem_append_left _ hmem, happlied⟩, hin⟩
    · rcases List.mem_cons.mp hmem with rfl | hmem
      · obtain ⟨r, hr, hfor, hpeers⟩ := hin
        exact ⟨_, List.mem_filter.mpr ⟨List.mem_append_right _ List.mem_cons_self, happlied⟩, r,
          List.mem_cons_of_mem _ hr, hfor, hpeers⟩
      · exact ⟨q, List.mem_filter.mpr
          ⟨List.mem_append_right _ (List.mem_cons_of_mem _ hmem), happlied⟩, hin⟩
  · intro p hp hnil
    rw [Bool.eq_false_iff, ne_eq, networkVerdict_singleton hp]
    rintro ⟨rule, hrule, -⟩
    rw [hnil] at hrule
    cases hrule

/-! ### Groups -/

/-- A source that a rule with peers lets in is of the group of the policy. -/
lemma group_of_peerMatches {peer : NetworkPolicyPeer} (hgroup : blank p.group = false)
    (h : p.peerMatches source labels peer = true) : labels.lookup "group" = p.group := by
  simpa [NetworkPolicy.peerMatches, hgroup] using (Bool.and_eq_true_iff.mp h).2

/-- **Policies of a group admit their group only, exactly if none of their rules is without
peers.** -/
theorem group_admitted_iff (env : Env) (w : World) (svc : Service) (g : String)
    (hg : blank g = false) (hne : applicablePolicies svc (policiesOf w.store svc) ≠ [])
    (hgroup : ∀ p ∈ applicablePolicies svc (policiesOf w.store svc), p.group = g) :
    (∀ source labels port reason,
      (isNetworkAccessAllowed source labels svc port).result (exec env) w = .ok (true, reason) →
        labels.lookup "group" = g) ↔
      ∀ p ∈ applicablePolicies svc (policiesOf w.store svc), ∀ rule ∈ p.ingress,
        rule.sources ≠ [] := by
  constructor
  · intro hadmit p hp rule hrule hopen
    -- a source without labels, on the port of the rule
    have hin : p.LetsIn (orDefault "") Table.empty rule.port :=
      ⟨rule, hrule, fun _ => rfl, Or.inl hopen⟩
    have hallowed := networkVerdict_iff.mpr (Or.inr ⟨p, hp, hin⟩)
    have hempty : "" = g := hadmit "" Table.empty rule.port _ (by
      rw [Prog.result, isNetworkAccessAllowed_run, Except.ok.injEq]
      exact Prod.ext hallowed rfl)
    rw [← hempty] at hg
    exact absurd hg (by decide +kernel)
  · intro hpeers source labels port reason hresult
    rw [Prog.result, isNetworkAccessAllowed_run, Except.ok.injEq] at hresult
    obtain ⟨p, hp, rule, hrule, -, hnil | ⟨peer, -, hmatch⟩⟩ :=
      (networkVerdict_iff.mp (congrArg Prod.fst hresult)).resolve_left hne
    · exact absurd hnil (hpeers p hp rule hrule)
    · have hown := hgroup p hp
      rw [← hown] at hg ⊢
      exact group_of_peerMatches hg hmatch

/-- A policy for the database that is for the group `blue`. -/
def bluePolicy (sources : List NetworkPolicyPeer) : NetworkPolicy :=
  { nameSpace := "default", name := "blue", podSelector := Table.ofList [("app", "db")]
    group := "blue", ingress := [{ sources := sources }] }

/-- The policy is stored. -/
def blueWorld (sources : List NetworkPolicyPeer) : World :=
  (upsertNetworkPolicy (bluePolicy sources)).final (exec steadyEnv) ⟨Store.empty, 0⟩

/-- With a peer that any source matches, the policy admits the group `blue` only. -/
theorem group_admitted_iff_blue :
    let w := blueWorld [{}]
    let svc := databaseService [("app", "db")]
    applicablePolicies svc (policiesOf w.store svc) ≠ [] ∧
      ∀ source labels port reason, (isNetworkAccessAllowed source labels svc port).result
        (exec steadyEnv) w = .ok (true, reason) → labels.lookup "group" = "blue" := by
  intro w svc
  have hne : applicablePolicies svc (policiesOf w.store svc) ≠ [] := by decide +kernel
  exact ⟨hne, (group_admitted_iff steadyEnv w svc "blue" (by decide +kernel) hne
    (by decide +kernel)).mpr (by decide +kernel)⟩

/-- Without a peer, it admits the group `red` too. -/
theorem red_admitted_by_blue :
    let w := blueWorld []
    let svc := databaseService [("app", "db")]
    applicablePolicies svc (policiesOf w.store svc) ≠ [] ∧
      (∀ p ∈ applicablePolicies svc (policiesOf w.store svc), p.group = "blue") ∧
      (isNetworkAccessAllowed "default" (Table.ofList [("group", "red")]) svc 5432).result
        (exec steadyEnv) w = .ok (true, "allow_empty_from") := by
  decide +kernel

end Orchestrator
