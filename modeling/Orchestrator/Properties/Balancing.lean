/-
# The balancer

Round robin keeps one cursor for each service, and the endpoints are sorted by id before one is
taken.  So the list in which they are offered does not matter, only the cursor does, and it is
moved by the round-robin selections for the service alone: `n` of them over the same `n` endpoints
take every endpoint once.

Least connections takes an endpoint whose count is the lowest and raises it by one, which is a step
of `Lib/Leveling.lean`: the counts get level.
-/
import Mathlib.Data.List.Rotate
import Mathlib.Data.Prod.Lex
import Orchestrator.Lib.Leveling
import Orchestrator.Service.Routing

namespace Orchestrator

open Lib

variable {b : Balancer} {s strategy : String} {endpoints E : List ServiceEndpoint}
  {first e : ServiceEndpoint} {rest : List ServiceEndpoint}

/-! ### One selection -/

/-- The ready endpoints in the order of their ids. -/
def ranked (endpoints : List ServiceEndpoint) : List ServiceEndpoint :=
  sortStable (fun a b => decide (a.id < b.id)) (endpoints.filter ServiceEndpoint.ready)

/-- The strategies that stand for round robin. -/
def isRoundRobin (strategy : String) : Bool := strategy = "" || strategy = "round-robin"

lemma ranked_perm (endpoints : List ServiceEndpoint) :
    (ranked endpoints).Perm (endpoints.filter ServiceEndpoint.ready) :=
  sortStable_perm _ _

/-- The order in which the endpoints are offered does not matter. -/
lemma ranked_congr (hperm : (endpoints.filter ServiceEndpoint.ready).Perm E)
    (hids : (E.map ServiceEndpoint.id).Nodup) :
    ranked endpoints = sortStable (fun a b => decide (a.id < b.id)) E :=
  sortStable_key_congr ServiceEndpoint.id hperm ((hperm.map _).nodup_iff.mpr hids)

lemma select_of_nil (h : endpoints.filter ServiceEndpoint.ready = []) :
    b.select s strategy endpoints = (.error (.message "no ready endpoints"), b) := by
  rw [Balancer.select, h]
  rfl

/-- The balancer after a round-robin selection of `e` among `n` endpoints. -/
def Balancer.turned (b : Balancer) (s : String) (n : ℕ) (e : ServiceEndpoint) : Balancer :=
  { b with rrIndex := Function.update b.rrIndex s ((b.rrIndex s % n + 1) % n) }.count e

lemma select_roundRobin (h : ranked endpoints = first :: rest)
    (hstrategy : isRoundRobin strategy = true) :
    b.select s strategy endpoints =
      let e := (first :: rest).getD (b.rrIndex s % (first :: rest).length) first
      (.ok e, b.turned s (first :: rest).length e) := by
  have hcase : strategy = "" ∨ strategy = "round-robin" := by
    simpa [isRoundRobin] using hstrategy
  rw [ranked] at h
  rw [Balancer.select, h]
  exact if_pos hcase

lemma select_leastConnections (h : ranked endpoints = first :: rest) :
    b.select s "least-connections" endpoints =
      (.ok (b.leastConnections first rest), b.count (b.leastConnections first rest)) := by
  rw [ranked] at h
  rw [Balancer.select, h]
  rfl

lemma leastConnections_cons (x : ServiceEndpoint) : b.leastConnections first (x :: rest) =
    b.leastConnections (if b.inflight x.id < b.inflight first.id then x else first) rest := rfl

lemma leastConnections_mem : b.leastConnections first rest ∈ first :: rest := by
  induction rest generalizing first with
  | nil => exact List.mem_cons_self
  | cons x rest ih =>
    rw [leastConnections_cons]
    split_ifs
    · exact List.mem_cons_of_mem _ ih
    · rcases List.mem_cons.mp ih with heq | hmem
      · rw [heq]
        exact List.mem_cons_self
      · exact List.mem_cons_of_mem _ (List.mem_cons_of_mem _ hmem)

lemma getD_mem_cons (i : ℕ) : (first :: rest).getD i first ∈ first :: rest := by
  rw [List.getD_eq_getElem?_getD]
  cases h : (first :: rest)[i]? with
  | none => exact List.mem_cons_self
  | some e => exact List.mem_of_getElem? h

/-- What is selected is one of the ready endpoints. -/
lemma mem_of_select (h : (b.select s strategy endpoints).1 = .ok e) :
    e ∈ endpoints ∧ e.ready = true := by
  suffices hmem : e ∈ ranked endpoints from
    List.mem_filter.mp ((ranked_perm endpoints).mem_iff.mp hmem)
  rw [ranked]
  unfold Balancer.select at h
  split at h
  · cases h
  · rename_i first rest hranked
    rw [hranked]
    split_ifs at h
    · obtain rfl := Except.ok.inj h
      exact getD_mem_cons _
    · obtain rfl := Except.ok.inj h
      exact leastConnections_mem

/-- Every ready endpoint is selected in some state of the balancer. -/
lemma exists_select (s : String) (he : e ∈ endpoints) (hready : e.ready = true) :
    ∃ b b' : Balancer, b.select s "" endpoints = (.ok e, b') := by
  have hmem : e ∈ ranked endpoints :=
    (ranked_perm endpoints).mem_iff.mpr (List.mem_filter.mpr ⟨he, hready⟩)
  obtain ⟨i, hi, hget⟩ := List.getElem_of_mem hmem
  cases hranked : ranked endpoints with
  | nil =>
    rw [hranked] at hmem
    cases hmem
  | cons first rest =>
    simp only [hranked] at hi hget
    refine ⟨{ rrIndex := fun _ => i }, ?_⟩
    rw [select_roundRobin hranked rfl, Nat.mod_eq_of_lt hi, List.getD_eq_getElem?_getD,
      List.getElem?_eq_getElem hi, hget]
    exact ⟨_, rfl⟩

/-- A selection moves no cursor but that of the service, and that only in round robin. -/
lemma rrIndex_select {t : String} (h : s ≠ t ∨ isRoundRobin strategy = false) :
    (b.select s strategy endpoints).2.rrIndex t = b.rrIndex t := by
  unfold Balancer.select
  split
  · rfl
  · split_ifs with hrr
    · have hne : t ≠ s := by
        rcases h with h | h
        · exact h.symm
        · simp [isRoundRobin] at h
          exact absurd hrr (not_or.mpr h)
      exact Function.update_of_ne hne _ _
    · rfl
    · rfl

lemma rrIndex_release (id t : String) : (b.release id).rrIndex t = b.rrIndex t := by
  unfold Balancer.release
  split_ifs <;> rfl

/-! ### Round robin -/

/-- A call of the balancer, which holds the mutex from beginning to end. -/
inductive BalancerCall
  | select (serviceID strategy : String) (endpoints : List ServiceEndpoint)
  | release (endpointID : String)

namespace BalancerCall

/-- What is left in memory after the call. -/
def step : BalancerCall → Balancer → Balancer
  | select s strategy endpoints, b => (b.select s strategy endpoints).2
  | release id, b => b.release id

/-- The endpoint that the call returns, if it is a selection that succeeds. -/
def selected (b : Balancer) : BalancerCall → Option ServiceEndpoint
  | select s strategy endpoints => (b.select s strategy endpoints).1.toOption
  | release _ => none

/-- The call is a round-robin selection for a service. -/
def turnOf (s : String) : BalancerCall → Bool
  | select s' strategy _ => s' = s && isRoundRobin strategy
  | release _ => false

/-- The ready endpoints that the call offers. -/
def offered : BalancerCall → List ServiceEndpoint
  | select _ _ endpoints => endpoints.filter ServiceEndpoint.ready
  | release _ => []

end BalancerCall

/-- What the successful round-robin selections for a service return, one after the other, in a run
of calls of any kind. -/
def roundRobinPicks (s : String) : Balancer → List BalancerCall → List ServiceEndpoint
  | _, [] => []
  | b, c :: cs => (if c.turnOf s then (c.selected b).toList else []) ++ roundRobinPicks s (c.step b) cs

variable {c : BalancerCall}

/-- A call that is not a round-robin selection for the service leaves its cursor. -/
lemma rrIndex_step (h : c.turnOf s = false) : (c.step b).rrIndex s = b.rrIndex s := by
  cases c with
  | select s' strategy endpoints =>
    refine rrIndex_select ?_
    simpa [BalancerCall.turnOf, or_iff_not_imp_left] using h
  | release id => exact rrIndex_release id s

/-- A selection that has nothing to select changes nothing. -/
lemma step_of_offered_nil (h : c.turnOf s = true) (hnil : c.offered = []) :
    c.selected b = none ∧ c.step b = b := by
  cases c with
  | select s' strategy endpoints =>
    rw [BalancerCall.selected, BalancerCall.step, select_of_nil hnil]
    exact ⟨rfl, rfl⟩
  | release id => cases h

/-- A round-robin selection takes the endpoint under the cursor and moves the cursor on. -/
lemma step_of_offered_perm (h : c.turnOf s = true) (hne : E ≠ []) (hperm : c.offered.Perm E)
    (hids : (E.map ServiceEndpoint.id).Nodup) :
    let S := sortStable (fun a b => decide (a.id < b.id)) E
    c.selected b = S[b.rrIndex s % S.length]? ∧
      (c.step b).rrIndex s = (b.rrIndex s % S.length + 1) % S.length := by
  intro S
  cases c with
  | release id => cases h
  | select s' strategy endpoints =>
    obtain ⟨rfl, hstrategy⟩ : s' = s ∧ isRoundRobin strategy = true := by
      simpa [BalancerCall.turnOf] using h
    have hranked : ranked endpoints = S := ranked_congr hperm hids
    cases hS : S with
    | nil =>
      have hlen := length_sortStable (fun a b => decide (a.id < b.id)) E
      rw [show sortStable _ E = S from rfl, hS, List.length_nil] at hlen
      exact absurd (List.length_eq_zero_iff.mp hlen.symm) hne
    | cons first rest =>
      have hlt : b.rrIndex s' % (first :: rest).length < (first :: rest).length :=
        Nat.mod_lt _ (Nat.succ_pos _)
      rw [BalancerCall.selected, BalancerCall.step, select_roundRobin (hranked.trans hS) hstrategy]
      refine ⟨?_, Function.update_self _ _ _⟩
      dsimp only
      rw [List.getD_eq_getElem?_getD, List.getElem?_eq_getElem hlt]
      rfl

/-- The successful round-robin selections go through the sorted endpoints in a circle, starting
at the cursor. -/
lemma getElem?_roundRobinPicks (hne : E ≠ []) (hids : (E.map ServiceEndpoint.id).Nodup)
    (calls : List BalancerCall) (hset : ∀ c ∈ calls, c.turnOf s = true → c.offered = [] ∨
      c.offered.Perm E) {i : ℕ} (hi : i < (roundRobinPicks s b calls).length) :
    let S := sortStable (fun a b => decide (a.id < b.id)) E
    (roundRobinPicks s b calls)[i]? = S[(b.rrIndex s + i) % S.length]? := by
  intro S
  induction calls generalizing b i with
  | nil => simp [roundRobinPicks] at hi
  | cons c calls ih =>
    have hrest : ∀ c ∈ calls, c.turnOf s = true → c.offered = [] ∨ c.offered.Perm E :=
      fun c hc => hset c (List.mem_cons_of_mem _ hc)
    rw [roundRobinPicks] at hi ⊢
    cases hturn : c.turnOf s with
    | false =>
      simp only [hturn, Bool.false_eq_true, if_false, List.nil_append] at hi ⊢
      rw [ih hrest hi, rrIndex_step hturn]
    | true =>
      simp only [hturn, if_true] at hi ⊢
      rcases hset c List.mem_cons_self hturn with hnil | hperm
      · obtain ⟨hselected, hstep⟩ := step_of_offered_nil (b := b) hturn hnil
        simp only [hselected, hstep, Option.toList_none, List.nil_append] at hi ⊢
        exact ih hrest hi
      · obtain ⟨hselected, hcursor⟩ := step_of_offered_perm (b := b) hturn hne hperm hids
        have hlt : b.rrIndex s % S.length < S.length := by
          refine Nat.mod_lt _ ?_
          rw [show S.length = E.length from length_sortStable _ E]
          exact List.length_pos_iff.mpr hne
        rw [List.getElem?_eq_getElem hlt] at hselected
        simp only [hselected, Option.toList_some, List.singleton_append] at hi ⊢
        cases i with
        | zero => rw [List.getElem?_cons_zero, add_zero, List.getElem?_eq_getElem hlt]
        | succ i =>
          rw [List.getElem?_cons_succ, ih hrest (by simpa using hi), hcursor, Nat.mod_add_mod,
            add_assoc, Nat.mod_add_mod, add_comm 1 i]

/-- **Round robin is fair.** As many successful round-robin selections for a service over a set of
endpoints as there are endpoints return each of them once.  The other calls in between can be any,
also failing and least-connections selections for the service. -/
theorem roundRobin_fair (b : Balancer) (s : String) (E : List ServiceEndpoint)
    (hids : (E.map ServiceEndpoint.id).Nodup) (calls : List BalancerCall)
    (hset : ∀ c ∈ calls, c.turnOf s = true → c.offered = [] ∨ c.offered.Perm E)
    (hn : (roundRobinPicks s b calls).length = E.length) : (roundRobinPicks s b calls).Perm E := by
  by_cases hne : E = []
  · subst hne
    rw [List.length_eq_zero_iff.mp hn]
  set S := sortStable (fun a b => decide (a.id < b.id)) E with hS
  have hlen : S.length = E.length := length_sortStable _ E
  have hrotate : roundRobinPicks s b calls = S.rotate (b.rrIndex s) := by
    refine List.ext_getElem? fun i => ?_
    by_cases hi : i < E.length
    · rw [getElem?_roundRobinPicks hne hids calls hset (hn ▸ hi), List.getElem?_rotate (hlen ▸ hi),
        add_comm i]
    · rw [List.getElem?_eq_none (by omega), List.getElem?_eq_none (by rw [List.length_rotate]; omega)]
  rw [hrotate]
  exact (List.rotate_perm S _).trans (sortStable_perm _ E)

/-- An endpoint of the service `web`. -/
def webEndpoint (id : String) (ready : Bool) : ServiceEndpoint where
  id := id
  serviceID := "web"
  workloadID := "w-" ++ id
  nodeID := "n1"
  address := "10.0.0.1"
  port := 8080
  protocol := .tcp
  ready := ready
  updatedAt := 1

/-- Three round-robin selections among `b`, `c` and `a`, with other calls in between and `d` that
is not ready. -/
def webCalls : List BalancerCall :=
  let a := webEndpoint "a" true
  let b := webEndpoint "b" true
  let c := webEndpoint "c" true
  let d := webEndpoint "d" false
  [.select "web" "" [b, c, a], .select "web" "least-connections" [a, b],
    .select "web" "round-robin" [d, a, c, b], .select "api" "" [a, b], .release "a",
    .select "web" "" [d], .select "web" "random" [a], .select "web" "" [c, b, d, a]]

theorem roundRobin_fair_web :
    let b : Balancer := { rrIndex := fun _ => 7 }
    roundRobinPicks "web" b webCalls = [webEndpoint "b" true, webEndpoint "c" true, webEndpoint "a" true] ∧
      (roundRobinPicks "web" b webCalls).Perm
        [webEndpoint "a" true, webEndpoint "b" true, webEndpoint "c" true] := by
  intro b
  exact ⟨by decide +kernel, roundRobin_fair b "web" _ (by decide) webCalls (by decide +kernel)
    (by decide +kernel)⟩

/-! ### Least connections -/

/-- What least connections goes by: the count, and the id among equal counts. -/
def Balancer.rank (b : Balancer) (e : ServiceEndpoint) : ℤ ×ₗ String :=
  toLex (b.inflight e.id, e.id)

lemma rank_le_of_not_lt {e e' : ServiceEndpoint} (hcount : ¬ b.inflight e'.id < b.inflight e.id)
    (hid : e.id < e'.id) : b.rank e ≤ b.rank e' := by
  refine Prod.Lex.toLex_le_toLex.mpr ?_
  rcases (not_lt.mp hcount).lt_or_eq with hlt | heq
  · exact Or.inl hlt
  · exact Or.inr ⟨heq, hid.le⟩

lemma rank_le_of_lt {e e' : ServiceEndpoint} (hcount : b.inflight e.id < b.inflight e'.id) :
    b.rank e ≤ b.rank e' :=
  Prod.Lex.toLex_le_toLex.mpr (Or.inl hcount)

/-- The scan of endpoints that are sorted by id ends with the least one. -/
lemma leastConnections_le (hsorted : (first :: rest).Pairwise fun a b => a.id < b.id) :
    ∀ e ∈ first :: rest, b.rank (b.leastConnections first rest) ≤ b.rank e := by
  induction rest generalizing first with
  | nil =>
    intro e he
    rw [List.mem_singleton.mp he]
    rfl
  | cons x rest ih =>
    obtain ⟨hfirst, hx, hrest⟩ : (∀ e ∈ x :: rest, first.id < e.id) ∧
        (∀ e ∈ rest, x.id < e.id) ∧ rest.Pairwise fun a b => a.id < b.id := by
      simpa only [List.pairwise_cons] using hsorted
    rw [leastConnections_cons]
    split_ifs with hlt
    · have hle := ih (List.pairwise_cons.mpr ⟨hx, hrest⟩)
      refine List.forall_mem_cons.mpr ⟨?_, hle⟩
      exact (hle x List.mem_cons_self).trans (rank_le_of_lt hlt)
    · obtain ⟨hlefirst, hlerest⟩ := List.forall_mem_cons.mp (ih (List.pairwise_cons.mpr
        ⟨fun e he => hfirst e (List.mem_cons_of_mem _ he), hrest⟩))
      refine List.forall_mem_cons.mpr ⟨hlefirst, List.forall_mem_cons.mpr ⟨?_, hlerest⟩⟩
      exact hlefirst.trans (rank_le_of_not_lt hlt (hfirst x List.mem_cons_self))

/-- A least-connections selection over the ready endpoints `E` returns the least one and counts
it. -/
lemma select_least (s : String) (hE : E ≠ []) (hids : (E.map ServiceEndpoint.id).Nodup)
    (hperm : (endpoints.filter ServiceEndpoint.ready).Perm E) :
    ∃ e ∈ E, (∀ e' ∈ E, b.rank e ≤ b.rank e') ∧
      b.select s "least-connections" endpoints = (.ok e, b.count e) := by
  have hranked := ranked_congr hperm hids
  have hsorted := pairwise_sortStable_key ServiceEndpoint.id hids
  have hmem : ∀ e, e ∈ E ↔ e ∈ ranked endpoints := fun e => by rw [hranked, mem_sortStable]
  rw [← hranked] at hsorted
  cases hcase : ranked endpoints with
  | nil =>
    obtain ⟨e, he⟩ := List.exists_mem_of_ne_nil E hE
    rw [hmem, hcase] at he
    cases he
  | cons first rest =>
    rw [hcase] at hsorted
    refine ⟨_, (hmem _).mpr (hcase ▸ leastConnections_mem), fun e' he' => ?_,
      select_leastConnections hcase⟩
    refine leastConnections_le hsorted e' ?_
    rw [← hcase]
    exact (hmem e').mp he'

/-- The ids of the endpoints. -/
def endpointIDs (E : List ServiceEndpoint) : Finset String := (E.map ServiceEndpoint.id).toFinset

/-- The difference between the highest and the lowest count of the endpoints. -/
def Balancer.spread (b : Balancer) (E : List ServiceEndpoint) (hE : (endpointIDs E).Nonempty) : ℤ :=
  Lib.spread (endpointIDs E) hE b.inflight

/-- The balancer after least-connections selections, each for a service and with a list of
endpoints. -/
def Balancer.leastMany (b : Balancer) (calls : List (String × List ServiceEndpoint)) : Balancer :=
  calls.foldl (fun b c => (b.select c.1 "least-connections" c.2).2) b

/-- Each selection raises a lowest count. -/
lemma raises_select (s : String) (hE : E ≠ []) (hids : (E.map ServiceEndpoint.id).Nodup)
    (hperm : (endpoints.filter ServiceEndpoint.ready).Perm E) :
    Raises (endpointIDs E) b.inflight (b.select s "least-connections" endpoints).2.inflight := by
  obtain ⟨e, he, hle, heq⟩ := select_least (b := b) s hE hids hperm
  refine ⟨e.id, List.mem_toFinset.mpr (List.mem_map_of_mem he), fun j hj => ?_, by rw [heq]; rfl⟩
  obtain ⟨e', he', rfl⟩ := List.mem_map.mp (List.mem_toFinset.mp hj)
  rcases Prod.Lex.toLex_le_toLex.mp (hle e' he') with hlt | ⟨heq, -⟩
  · exact hlt.le
  · exact heq.le

lemma raisesMany_leastMany (hE : E ≠ []) (hids : (E.map ServiceEndpoint.id).Nodup)
    (calls : List (String × List ServiceEndpoint))
    (hset : ∀ c ∈ calls, (c.2.filter ServiceEndpoint.ready).Perm E) :
    RaisesMany (endpointIDs E) calls.length b.inflight (b.leastMany calls).inflight := by
  induction calls generalizing b with
  | nil => exact .zero _
  | cons c calls ih =>
    obtain ⟨hc, hrest⟩ := List.forall_mem_cons.mp hset
    exact .succ (raises_select c.1 hE hids hc) (ih hrest)

/-- **Least connections balances.** A selection returns the endpoint that is least by count and id,
and raises its count only.  Over a fixed set of ready endpoints the spread of the counts does not
grow beyond one or what it was, and from some number of selections on it is at most one. -/
theorem leastConnections_balances (b : Balancer) (E : List ServiceEndpoint)
    (hE : (endpointIDs E).Nonempty) (hids : (E.map ServiceEndpoint.id).Nodup) :
    (∀ s endpoints, (endpoints.filter ServiceEndpoint.ready).Perm E →
      ∃ e ∈ E, (∀ e' ∈ E, b.rank e ≤ b.rank e') ∧
        (b.select s "least-connections" endpoints).1 = .ok e ∧
        (b.select s "least-connections" endpoints).2 =
          { b with inflight := Function.update b.inflight e.id (b.inflight e.id + 1) }) ∧
    (∀ calls : List (String × List ServiceEndpoint),
      (∀ c ∈ calls, (c.2.filter ServiceEndpoint.ready).Perm E) →
        (b.leastMany calls).spread E hE ≤ max 1 (b.spread E hE)) ∧
    ∃ N : ℕ, ∀ calls : List (String × List ServiceEndpoint), N ≤ calls.length →
      (∀ c ∈ calls, (c.2.filter ServiceEndpoint.ready).Perm E) →
        (b.leastMany calls).spread E hE ≤ 1 := by
  have hne : E ≠ [] := by
    rintro rfl
    exact Finset.not_nonempty_empty hE
  refine ⟨fun s endpoints hperm => ?_, fun calls hset => ?_, ?_⟩
  · obtain ⟨e, he, hle, heq⟩ := select_least (b := b) s hne hids hperm
    exact ⟨e, he, hle, by rw [heq], by rw [heq]; rfl⟩
  · exact (raisesMany_leastMany hne hids calls hset).spread_le hE
  · -- as many selections as the counts are below the highest one
    refine ⟨(∑ i ∈ endpointIDs E, ((endpointIDs E).sup' hE b.inflight - b.inflight i)).toNat,
      fun calls hlen hset => ?_⟩
    exact (raisesMany_leastMany hne hids calls hset).spread_le_one hE (Int.toNat_le.mp hlen)

/-- With counts of three and zero, the spread of two endpoints does not get above three. -/
theorem leastConnections_balances_web :
    let E := [webEndpoint "a" true, webEndpoint "b" true]
    let b : Balancer := { inflight := fun id => if id = "a" then 3 else 0 }
    let calls := [("web", [webEndpoint "b" true, webEndpoint "d" false, webEndpoint "a" true]),
      ("web", E)]
    ∃ hE : (endpointIDs E).Nonempty, b.spread E hE = 3 ∧ (b.leastMany calls).spread E hE = 1 ∧
      (b.leastMany calls).spread E hE ≤ max 1 (b.spread E hE) := by
  intro E b calls
  exact ⟨⟨"a", by decide⟩, by decide +kernel, by decide +kernel,
    (leastConnections_balances b E ⟨"a", by decide⟩ (by decide)).2.1 calls (by decide +kernel)⟩

end Orchestrator
