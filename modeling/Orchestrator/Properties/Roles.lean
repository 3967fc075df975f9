/-
# The resolution of roles

`EffectiveRolesForSubject` puts the global bindings and those of a namespace under their names and
follows the parents from name to name.  Nothing that a binding has to pass on its way into the
store keeps it from inheriting from itself, and the resolution for a subject whose bindings lead
into such a cycle does not end.  A binding of the namespace takes the place of a global one of the
same name, also where the global one is what the subject is bound by: the subject then has the
roles of a binding that may belong to somebody else, and not its own.  Whatever roles the
bindings have, those found are exact if and only if no name leads to the wrong binding in this way.
-/
import Orchestrator.Properties.Escalation
import Orchestrator.Properties.Maps

namespace Orchestrator

open Lib

variable {st : Store} {ns subject : String} {b : RoleBinding}

/-! ### The end of a resolution -/

/-- The visits of the bindings of a subject end, each with enough fuel. -/
def Resolves (all : List RoleBinding) (subject : String) : Prop :=
  ∀ b ∈ all, b.bindsTo subject = true → ∃ fuel l, visitRoles all fuel b.name = some l

/-- No binding that the bindings of a subject lead to leads back to itself. -/
def CycleFree (all : List RoleBinding) (subject : String) : Prop :=
  ∀ b ∈ all, b.bindsTo subject = true → NoWayBack all b.name

/-- **The resolution of the roles of a subject ends exactly if its bindings lead into no cycle.**
If so, the depth that the model allows is enough. -/
theorem resolution_ends_iff (env : Env) (w : World) (subject ns : String) :
    (Resolves (bindingsIn w.store ns) subject ↔ CycleFree (bindingsIn w.store ns) subject) ∧
      ((∃ roles, (effectiveRolesForSubject subject ns).result (exec env) w = .ok (some roles)) ↔
        Resolves (bindingsIn w.store ns) subject) := by
  have hiff : Resolves (bindingsIn w.store ns) subject ↔
      CycleFree (bindingsIn w.store ns) subject :=
    forall₂_congr fun b _ => imp_congr_right fun _ => visitRoles_ends_iff
  refine ⟨hiff, ?_⟩
  rw [hiff, CycleFree, ← exists_rolesFor_iff, Prog.result, effectiveRolesForSubject_run]
  simp only [Except.ok.injEq]

/-- A binding that inherits from itself. -/
def loopBinding : RoleBinding where
  name := "loop"
  subject := "alice"
  roles := ["viewer"]
  inherits := ["loop"]

/-- A binding as it is stored at a reading of the clock. -/
def RoleBinding.stampedAt (k : ℕ) (b : RoleBinding) : RoleBinding :=
  { b with createdAt := steadyEnv.clock k, updatedAt := steadyEnv.clock (k + 1) }

/-- A binding that inherits from itself is accepted, and the roles of its subject are never
found. -/
theorem resolution_of_loop_never_ends :
    let w := (upsertRoleBinding loopBinding).final (exec steadyEnv) emptyServer.world
    (upsertRoleBinding loopBinding).result (exec steadyEnv) emptyServer.world =
        .ok (loopBinding.stampedAt 0) ∧
      ¬ Resolves (bindingsIn w.store "default") "alice" := by
  intro w
  refine ⟨by decide +kernel, fun h => ?_⟩
  have hall : bindingsIn w.store "default" = [loopBinding.stampedAt 0] := by decide +kernel
  rw [hall] at h
  have hback := visitRoles_ends_iff.mp (h _ List.mem_cons_self (by decide +kernel))
  exact hback _ (.here rfl) "loop" List.mem_cons_self _ (.here rfl) rfl

/-! ### The bindings that count -/

/-- A stored binding that counts in a namespace: a global one, or one of the namespace. -/
def Counts (st : Store) (ns : String) (b : RoleBinding) : Prop :=
  b ∈ (st .roleBinding).rows ∧ (blank b.nameSpace = true ∨ b.nameSpace = ns)

/-- A subject reaches a binding: the binding is made for it, or one made for it inherits from the
binding, directly or through others. -/
def Reaches (st : Store) (ns subject : String) (b' : RoleBinding) : Prop :=
  ∃ b, Counts st ns b ∧ b.bindsTo subject = true ∧
    Relation.ReflTransGen (InheritsFrom (Counts st ns)) b b'

/-- A binding lists a role, in whatever case and with whatever spaces around it. -/
def RoleBinding.Lists (b : RoleBinding) (role : String) : Prop :=
  ∃ q ∈ b.roles, blank q = false ∧ normalizeRole q = role

/-- A subject should have a role: a binding that it reaches lists the role. -/
def Deserves (st : Store) (ns subject role : String) : Prop :=
  ∃ b, Reaches st ns subject b ∧ b.Lists role

/-- No binding of a subject is mistaken for another one: a condition on the names, subjects,
parents and namespaces of the stored bindings. -/
structure Unmistaken (st : Store) (ns subject : String) : Prop where
  /-- A binding that the subject reaches is the last of its name in the listing. -/
  own : ∀ b, Reaches st ns subject b → bindingNamed (bindingsIn st ns) b.name = some b
  /-- The last of a name that a listed binding of the subject has, or from which one that the
  subject reaches inherits, is one that the subject reaches. -/
  led : ∀ b, bindingNamed (bindingsIn st ns) b.name = some b →
    (∃ b' ∈ bindingsIn st ns, b'.bindsTo subject = true ∧ b'.name = b.name) ∨
      (∃ a, Reaches st ns subject a ∧ b.name ∈ a.inherits) → Reaches st ns subject b

lemma Counts.mem (h : Counts st ns b) : b ∈ bindingsIn st ns := by
  have hlist : ∀ pfx, keyRoleBindingPrefix b.nameSpace = pfx → b ∈ st.list .roleBinding pfx :=
    fun pfx hpfx => Store.mem_list_iff.mpr ⟨h.1, hasPrefix_iff.mpr ⟨b.name, hpfx ▸ rfl⟩⟩
  have hglobal : ∀ ns' : String, blank ns' = true →
      keyRoleBindingPrefix ns' = keyRoleBindingPrefix "" := by
    intro ns' hblank
    rw [keyRoleBindingPrefix, keyRoleBindingPrefix, if_pos hblank, if_pos (by decide +kernel)]
  unfold bindingsIn
  split_ifs with hblank
  · exact hlist _ (hglobal _ (h.2.elim id fun hns => by rwa [hns]))
  · rw [List.mem_append]
    exact h.2.imp (fun hblank => hlist _ (hglobal _ hblank)) fun hns => hlist _ (by rw [hns])

lemma Reaches.counts (h : Reaches st ns subject b) : Counts st ns b := by
  obtain ⟨a, ha, -, hchain⟩ := h
  rcases hchain.cases_tail with rfl | ⟨c, -, hstep⟩
  · exact ha
  · exact hstep.1

lemma Reaches.trans {b' : RoleBinding} (h : Reaches st ns subject b)
    (hchain : Relation.ReflTransGen (InheritsFrom (Counts st ns)) b b') :
    Reaches st ns subject b' := by
  obtain ⟨a, ha, hbinds, hfirst⟩ := h
  exact ⟨a, ha, hbinds, hfirst.trans hchain⟩

/-- From a binding that the subject reaches, the names lead to what it inherits from. -/
lemma Unmistaken.inherits (h : Unmistaken st ns subject) {a : RoleBinding} {parent : String}
    (ha : Reaches st ns subject a) (hparent : parent ∈ a.inherits)
    (hlead : LeadsTo (bindingsIn st ns) parent b) :
    Relation.TransGen (InheritsFrom (Counts st ns)) a b := by
  have hstep : ∀ {a : RoleBinding} {parent : String} {c : RoleBinding}, Reaches st ns subject a →
      parent ∈ a.inherits → bindingNamed (bindingsIn st ns) parent = some c →
      Reaches st ns subject c ∧ InheritsFrom (Counts st ns) a c := by
    intro a parent c ha hparent hc
    obtain rfl := name_of_bindingNamed hc
    have hreach := h.led c hc (.inr ⟨a, ha, hparent⟩)
    exact ⟨hreach, hreach.counts, hparent⟩
  induction hlead generalizing a with
  | here hc => exact .single (hstep ha hparent hc).2
  | parent hc hp _ ih =>
    obtain ⟨hreach, hfirst⟩ := hstep ha hparent hc
    exact .head hfirst (ih hreach hp)

/-! ### The roles -/

/-- The resolution meets a binding: following the names from a listed binding of the subject leads
to it. -/
def Meets (st : Store) (ns subject : String) (rb : RoleBinding) : Prop :=
  ∃ b ∈ bindingsIn st ns, b.bindsTo subject = true ∧ LeadsTo (bindingsIn st ns) b.name rb

lemma Unmistaken.meets_iff (h : Unmistaken st ns subject) :
    Meets st ns subject b ↔ Reaches st ns subject b := by
  constructor
  · rintro ⟨a, ha, hbinds, hlead⟩
    have hfirst : ∀ c, bindingNamed (bindingsIn st ns) a.name = some c →
        Reaches st ns subject c := by
      intro c hc
      have hname := name_of_bindingNamed hc
      exact h.led c (hname.symm ▸ hc) (.inl ⟨a, ha, hbinds, hname.symm⟩)
    cases hlead with
    | here hc => exact hfirst b hc
    | parent hc hp hrest =>
      exact (hfirst _ hc).trans (h.inherits (hfirst _ hc) hp hrest).to_reflTransGen
  · rintro ⟨a, ha, hbinds, hchain⟩
    refine ⟨a, ha.mem, hbinds, ?_⟩
    induction hchain with
    | refl => exact .here (h.own a ⟨a, ha, hbinds, .refl⟩)
    | tail hchain hstep ih =>
      exact ih.trans hstep.2 (.here (h.own _ ⟨a, ha, hbinds, hchain.tail hstep⟩))

lemma unmistaken_of_meets (h : ∀ b, Meets st ns subject b ↔ Reaches st ns subject b) :
    Unmistaken st ns subject where
  own b hb := by
    obtain ⟨a, -, -, hlead⟩ := (h b).mpr hb
    exact hlead.named
  led b hb hwhy := by
    refine (h b).mp ?_
    rcases hwhy with ⟨a, ha, hbinds, hname⟩ | ⟨a, ha, hparent⟩
    · exact ⟨a, ha, hbinds, .here (hname ▸ hb)⟩
    · obtain ⟨a', ha', hbinds, hlead⟩ := (h a).mpr ha
      exact ⟨a', ha', hbinds, hlead.trans hparent (.here hb)⟩

lemma Unmistaken.cycleFree (h : Unmistaken st ns subject)
    (hacyclic : ∀ b, Counts st ns b → ¬ Relation.TransGen (InheritsFrom (Counts st ns)) b b) :
    CycleFree (bindingsIn st ns) subject := by
  intro a ha hbinds b hlead parent hparent b' hback hname
  have hreach := h.meets_iff.mp ⟨a, ha, hbinds, hlead⟩
  obtain rfl : b' = b := Option.some.inj (hback.named.symm.trans (hname ▸ hlead.named))
  exact hacyclic _ hreach.counts (h.inherits hreach hparent hback)

/-- The roles that the resolution of a subject finds: sorted, without repetition, and those that
the subject should have. -/
def ExactRoles (env : Env) (w : World) (subject ns : String) : Prop :=
  ∃ roles, (effectiveRolesForSubject subject ns).result (exec env) w = .ok (some roles) ∧
    roles.Pairwise (· < ·) ∧ ∀ role, role ∈ roles ↔ Deserves w.store ns subject role

lemma exactRoles_iff {env : Env} {w : World} :
    ExactRoles env w subject ns ↔ CycleFree (bindingsIn w.store ns) subject ∧ ∀ role,
      (∃ b, Meets w.store ns subject b ∧ b.Lists role) ↔
        ∃ b, Reaches w.store ns subject b ∧ b.Lists role := by
  have hgrants : ∀ role, Grants (bindingsIn w.store ns) subject role ↔
      ∃ b, Meets w.store ns subject b ∧ b.Lists role := by
    intro role
    constructor
    · rintro ⟨b, hb, hbinds, rb, hlead, hlists⟩
      exact ⟨rb, ⟨b, hb, hbinds, hlead⟩, hlists⟩
    · rintro ⟨rb, ⟨b, hb, hbinds, hlead⟩, hlists⟩
      exact ⟨b, hb, hbinds, rb, hlead, hlists⟩
  simp only [← hgrants]
  unfold ExactRoles
  rw [Prog.result, effectiveRolesForSubject_run, CycleFree, ← exists_rolesFor_iff]
  simp only [Except.ok.injEq]
  constructor
  · rintro ⟨roles, hroles, -, hmem⟩
    exact ⟨⟨roles, hroles⟩, fun role => (mem_rolesFor hroles).symm.trans (hmem role)⟩
  · rintro ⟨⟨roles, hroles⟩, hmem⟩
    exact ⟨roles, hroles, rolesFor_sorted hroles,
      fun role => (mem_rolesFor hroles).trans (hmem role)⟩

/-- The store with other roles in its bindings. -/
def World.withRoles (f : RoleBinding → List String) (w : World) : World :=
  let bindings := (w.store .roleBinding).mapRows (RoleBinding.withRoles f) fun _ => rfl
  { w with store := w.store.set .roleBinding bindings }

section Assigned

variable {w : World} {f : RoleBinding → List String}

lemma rows_withRoles (f : RoleBinding → List String) (w : World) :
    ((w.withRoles f).store .roleBinding).rows =
      (w.store .roleBinding).rows.map (RoleBinding.withRoles f) :=
  congrArg Table.rows (Store.set_self _ _ _)

lemma withRoles_roles (w : World) : w.withRoles RoleBinding.roles = w := by
  refine congrArg (fun s => { w with store := s }) (funext fun t => ?_)
  by_cases ht : t = .roleBinding
  · subst ht
    exact Table.ext ((rows_withRoles _ w).trans (List.map_id _))
  · exact Store.set_of_ne _ _ ht

lemma bindingsIn_withRoles :
    bindingsIn (w.withRoles f).store ns =
      (bindingsIn w.store ns).map (RoleBinding.withRoles f) := by
  have hlist : ∀ pfx, (w.withRoles f).store.list .roleBinding pfx =
      (w.store.list .roleBinding pfx).map (RoleBinding.withRoles f) := by
    intro pfx
    unfold Store.list
    rw [rows_withRoles]
    split
    · rfl
    · rw [List.filter_map]
      rfl
  unfold bindingsIn
  rw [hlist, hlist, ← List.map_append]
  split_ifs <;> rfl

lemma counts_withRoles :
    Counts (w.withRoles f).store ns b ↔ ∃ a, Counts w.store ns a ∧ a.withRoles f = b := by
  unfold Counts
  rw [rows_withRoles, List.mem_map]
  constructor
  · rintro ⟨⟨a, ha, rfl⟩, hns⟩
    exact ⟨a, ⟨ha, hns⟩, rfl⟩
  · rintro ⟨a, ⟨ha, hns⟩, rfl⟩
    exact ⟨⟨a, ha, rfl⟩, hns⟩

lemma reaches_withRoles : Reaches (w.withRoles f).store ns subject b ↔
    ∃ a, Reaches w.store ns subject a ∧ a.withRoles f = b := by
  constructor
  · rintro ⟨c, hc, hbinds, hchain⟩
    obtain ⟨a, ha, rfl⟩ := counts_withRoles.mp hc
    induction hchain with
    | refl => exact ⟨a, ⟨a, ha, hbinds, .refl⟩, rfl⟩
    | tail _ hstep ih =>
      obtain ⟨a', ha', rfl⟩ := ih
      obtain ⟨c, hc, rfl⟩ := counts_withRoles.mp hstep.1
      exact ⟨c, ha'.trans (.single ⟨hc, hstep.2⟩), rfl⟩
  · rintro ⟨a, ⟨c, hc, hbinds, hchain⟩, rfl⟩
    refine ⟨c.withRoles f, counts_withRoles.mpr ⟨c, hc, rfl⟩, hbinds, hchain.lift _ ?_⟩
    exact fun x y hstep => ⟨counts_withRoles.mpr ⟨y, hstep.1, rfl⟩, hstep.2⟩

lemma meets_withRoles : Meets (w.withRoles f).store ns subject b ↔
    ∃ a, Meets w.store ns subject a ∧ a.withRoles f = b := by
  unfold Meets
  simp only [bindingsIn_withRoles, leadsTo_withRoles, List.mem_map]
  constructor
  · rintro ⟨_, ⟨a, ha, rfl⟩, hbinds, rb, hlead, rfl⟩
    exact ⟨rb, ⟨a, ha, hbinds, hlead⟩, rfl⟩
  · rintro ⟨rb, ⟨a, ha, hbinds, hlead⟩, rfl⟩
    exact ⟨_, ⟨a, ha, rfl⟩, hbinds, rb, hlead, rfl⟩

lemma cycleFree_withRoles (h : CycleFree (bindingsIn w.store ns) subject) :
    CycleFree (bindingsIn (w.withRoles f).store ns) subject := by
  rw [bindingsIn_withRoles]
  intro _ hmem hbinds _ hleads parent hparent _ hleads'
  obtain ⟨b, hb, rfl⟩ := List.mem_map.mp hmem
  obtain ⟨rb, hlead, rfl⟩ := leadsTo_withRoles.mp hleads
  obtain ⟨rb', hback, rfl⟩ := leadsTo_withRoles.mp hleads'
  exact h b hb hbinds rb hlead parent hparent rb' hback

end Assigned

/-- **Whatever the roles are, they are exact if and only if no binding is mistaken for
another.** -/
theorem effectiveRoles_exact_iff (env : Env) (w : World) (subject ns : String)
    (hacyclic : ∀ b, Counts w.store ns b →
      ¬ Relation.TransGen (InheritsFrom (Counts w.store ns)) b b) :
    (∀ f, ExactRoles env (w.withRoles f) subject ns) ↔ Unmistaken w.store ns subject := by
  constructor
  · intro h
    refine unmistaken_of_meets fun b => ?_
    -- a role that this binding alone lists
    let f : RoleBinding → List String := fun c => if c = b then ["viewer"] else []
    have hlists : ∀ c : RoleBinding, (c.withRoles f).Lists "viewer" ↔ c = b := by
      intro c
      have hviewer : blank "viewer" = false ∧ normalizeRole "viewer" = "viewer" := by
        decide +kernel
      by_cases hc : c = b <;> simp [RoleBinding.Lists, RoleBinding.withRoles, f, hc, hviewer]
    have hone := (exactRoles_iff.mp (h f)).2 "viewer"
    simpa only [meets_withRoles, reaches_withRoles, exists_exists_and_eq_and, hlists,
      exists_eq_right] using hone
  · intro h f
    refine exactRoles_iff.mpr ⟨cycleFree_withRoles (h.cycleFree hacyclic), fun role => ?_⟩
    simp only [meets_withRoles, reaches_withRoles, h.meets_iff]

/-! ### Two bindings -/

/-- A global binding of a viewer. -/
def viewerBinding (name : String) (parents : List String) : RoleBinding where
  name := name
  subject := "Alice"
  roles := [" Viewer", ""]
  inherits := parents

/-- A binding of an operator in a namespace. -/
def operatorBinding : RoleBinding where
  nameSpace := "team"
  name := "writers"
  subject := "bob"
  roles := ["operator"]

/-- The two bindings are stored, one after the other. -/
def teamWorld (name : String) (parents : List String) : World :=
  (upsertRoleBinding operatorBinding).final (exec steadyEnv)
    ((upsertRoleBinding (viewerBinding name parents)).final (exec steadyEnv) emptyServer.world)

lemma acyclic_of_two {v v' : RoleBinding} (h : ∀ b, Counts st ns b → b = v ∨ b = v')
    (hv : v.name ∉ v.inherits) (hv' : v'.inherits = []) (hb : Counts st ns b) :
    ¬ Relation.TransGen (InheritsFrom (Counts st ns)) b b := by
  have hlast : ∀ c, ¬ InheritsFrom (Counts st ns) v' c := by
    rintro c ⟨-, hc⟩
    rw [hv'] at hc
    cases hc
  intro hcycle
  obtain ⟨c, hstep, hrest⟩ := Relation.TransGen.head'_iff.mp hcycle
  rcases h b hb with rfl | rfl
  · rcases h c hstep.1 with rfl | rfl
    · exact hv hstep.2
    · rcases hrest.cases_head with rfl | ⟨d, hd, -⟩
      · exact hlast _ hstep
      · exact hlast d hd
  · exact hlast c hstep

/-- Where the viewer's binding inherits from the operator's, the viewer has both roles. -/
theorem effectiveRoles_exact_iff_team :
    let w := teamWorld "readers" ["writers"]
    (effectiveRolesForSubject "alice" "team").result (exec steadyEnv) w =
        .ok (some ["operator", "viewer"]) ∧
      Deserves w.store "team" "alice" "operator" ∧ Deserves w.store "team" "alice" "viewer" ∧
      ¬ Deserves w.store "team" "alice" "admin" := by
  intro w
  have hall : ∀ b ∈ bindingsIn w.store "team",
      b = (viewerBinding "readers" ["writers"]).stampedAt 0 ∨ b = operatorBinding.stampedAt 2 := by
    decide +kernel
  have hiff := effectiveRoles_exact_iff steadyEnv w "alice" "team"
    fun b hb => acyclic_of_two (fun b hb => hall b hb.mem) (by decide) rfl hb
  have hviewer : Reaches w.store "team" "alice"
      ((viewerBinding "readers" ["writers"]).stampedAt 0) :=
    ⟨_, ⟨by decide +kernel, .inl (by decide +kernel)⟩, by decide +kernel, .refl⟩
  have hoperator : Reaches w.store "team" "alice" (operatorBinding.stampedAt 2) :=
    hviewer.trans (.single ⟨⟨by decide +kernel, .inr rfl⟩, List.mem_cons_self⟩)
  have hown : Unmistaken w.store "team" "alice" := by
    refine ⟨fun b hb => ?_, fun b hb _ => ?_⟩
    · rcases hall b hb.counts.mem with rfl | rfl <;> decide +kernel
    · rcases hall b (mem_of_bindingNamed hb) with rfl | rfl
      · exact hviewer
      · exact hoperator
  have hexact := hiff.mpr hown RoleBinding.roles
  rw [withRoles_roles] at hexact
  obtain ⟨roles, hresult, -, hroles⟩ := hexact
  have heval : (effectiveRolesForSubject "alice" "team").result (exec steadyEnv) w =
      .ok (some ["operator", "viewer"]) := by decide +kernel
  obtain rfl : roles = ["operator", "viewer"] := by
    rw [hresult] at heval
    simpa using heval
  refine ⟨hresult, (hroles _).mp (by simp), (hroles _).mp (by simp), fun h => ?_⟩
  exact absurd ((hroles _).mpr h) (by decide)

/-- **A shared name.** Where the operator's binding has the name of the viewer's, the viewer has
the role of the operator, and not its own. -/
theorem effectiveRoles_of_shared_name :
    let w := teamWorld "writers" []
    (∀ b, Counts w.store "team" b →
        ¬ Relation.TransGen (InheritsFrom (Counts w.store "team")) b b) ∧
      (effectiveRolesForSubject "alice" "team").result (exec steadyEnv) w =
        .ok (some ["operator"]) ∧
      Deserves w.store "team" "alice" "viewer" ∧ ¬ Deserves w.store "team" "alice" "operator" := by
  intro w
  have hall : ∀ b ∈ bindingsIn w.store "team",
      b = (viewerBinding "writers" []).stampedAt 0 ∨ b = operatorBinding.stampedAt 2 := by
    decide +kernel
  have hcounts : ∀ b, Counts w.store "team" b →
      b = (viewerBinding "writers" []).stampedAt 0 ∨ b = operatorBinding.stampedAt 2 :=
    fun b hb => hall b hb.mem
  refine ⟨fun b hb => acyclic_of_two hcounts List.not_mem_nil rfl hb, by decide +kernel, ?_, ?_⟩
  · exact ⟨(viewerBinding "writers" []).stampedAt 0, ⟨_, ⟨by decide +kernel,
      .inl (by decide +kernel)⟩, by decide +kernel, .refl⟩, " Viewer", List.mem_cons_self,
      by decide +kernel, by decide +kernel⟩
  · rintro ⟨b', ⟨b, hb, hbinds, hreach⟩, q, hq, hblank, hnorm⟩
    rcases hcounts b hb with rfl | rfl
    · -- nothing is inherited from
      rcases hreach.cases_head with rfl | ⟨c, ⟨-, hc⟩, -⟩
      · have hother : ∀ q ∈ [" Viewer", ""], normalizeRole q ≠ "operator" := by decide +kernel
        exact hother q hq hnorm
      · cases hc
    · revert hbinds
      decide +kernel

end Orchestrator
