/-
# Names in the DNS

A name is looked up among the services of all namespaces, and the first one that is called so is
taken.  So the answer is that of the default namespace exactly if this one happens to be in it.

The server finds the zone in a name whatever its case, but it cuts it off only in lower case.  Names
that differ in case only get the same answers exactly if both have the zone in lower case, or
neither.
-/
import Orchestrator.Api.Dns
import Orchestrator.Lib.Delimited
import Orchestrator.Logic.Routing
import Orchestrator.Logic.Texts
import Orchestrator.System

namespace Orchestrator

open Lib

variable {env : Env} {w : World} {ip : String → Option IPv4} {resolver : Resolver}
  {q q' : Question} {s sfx : String}

/-! ### Suffixes -/

lemma hasSuffix_iff : hasSuffix s sfx = true ↔ ∃ r, s = r ++ sfx := by
  rw [hasSuffix, List.isSuffixOf_iff_suffix]
  constructor
  · rintro ⟨l, hl⟩
    refine ⟨String.ofList l, String.toList_inj.mp ?_⟩
    rw [String.toList_append, String.toList_ofList, hl]
  · rintro ⟨r, rfl⟩
    exact ⟨r.toList, by rw [String.toList_append]⟩

lemma trimSuffix_append (r sfx : String) : trimSuffix (r ++ sfx) sfx = r := by
  rw [trimSuffix, if_pos (hasSuffix_iff.mpr ⟨r, rfl⟩)]
  apply String.toList_inj.mp
  simp

lemma trimSuffix_of_not (h : hasSuffix s sfx = false) : trimSuffix s sfx = s :=
  if_neg (Bool.eq_false_iff.mp h)

/-- What is left of two names without suffixes of the same length. -/
lemma SameLetters.of_append {a b x y : String} (h : SameLetters (a ++ x) (b ++ y))
    (hlen : x.toList.length = y.toList.length) : SameLetters a b := by
  unfold SameLetters at h ⊢
  rw [String.toList_append, String.toList_append, List.map_append, List.map_append] at h
  exact List.append_inj_left' h (by simpa using hlen)

lemma eq_dot_of_toLower {c : Char} (h : c.toLower = '.') : c = '.' := by
  by_cases hc : c.toNat < 128
  · have hall : ∀ n < 128, (Char.ofNat n).toLower = '.' → Char.ofNat n = '.' := by decide
    simpa using hall c.toNat hc (by simpa using h)
  · rwa [toLower_of_large hc] at h

lemma SameLetters.hasSuffix_dot {a b : String} (h : SameLetters a b)
    (ha : hasSuffix a "." = true) : hasSuffix b "." = true := by
  obtain ⟨r, rfl⟩ := hasSuffix_iff.mp ha
  have hsplit : b.toList.map Char.toLower = r.toList.map Char.toLower ++ ['.'] := by
    refine Eq.trans h.symm ?_
    rw [String.toList_append, List.map_append]
    rfl
  obtain ⟨l, l', hl, -, hl'⟩ := List.map_eq_append_iff.mp hsplit
  obtain ⟨c, hc, hdot⟩ := List.map_eq_singleton_iff.mp hl'
  refine hasSuffix_iff.mpr ⟨String.ofList l, String.toList_inj.mp ?_⟩
  rw [hl, hc, eq_dot_of_toLower hdot, String.toList_append, String.toList_ofList]
  rfl

lemma SameLetters.hasSuffix_dot_eq {a b : String} (h : SameLetters a b) :
    hasSuffix a "." = hasSuffix b "." :=
  Bool.eq_iff_iff.mpr ⟨h.hasSuffix_dot, h.symm.hasSuffix_dot⟩

/-- Suffixes that both names have, or neither, are cut off alike. -/
lemma SameLetters.trimSuffix {a b : String} (h : SameLetters a b)
    (hsfx : hasSuffix a sfx = hasSuffix b sfx) :
    SameLetters (trimSuffix a sfx) (trimSuffix b sfx) := by
  cases ha : hasSuffix a sfx with
  | false => rwa [trimSuffix_of_not ha, trimSuffix_of_not (hsfx ▸ ha)]
  | true =>
    obtain ⟨r, rfl⟩ := hasSuffix_iff.mp ha
    obtain ⟨r', rfl⟩ := hasSuffix_iff.mp (hsfx ▸ ha)
    rw [trimSuffix_append, trimSuffix_append]
    exact h.of_append rfl

/-! ### A question -/

namespace Question

/-- The name that a question is about, without the final dot. -/
def host (q : Question) : String := trimSuffix q.name "."

/-- The name is in the zone of the server. -/
def InZone (q : Question) : Prop := hasSuffix (toLower q.host) zone = true

/-- The name has the zone in lower case. -/
def HasZone (q : Question) : Prop := hasSuffix q.host zone = true

/-- The name that the resolver is asked for. -/
def service (q : Question) : String := trimSuffix q.host zone

instance (q : Question) : Decidable q.InZone := inferInstanceAs (Decidable (_ = _))

instance (q : Question) : Decidable q.HasZone := inferInstanceAs (Decidable (_ = _))

lemma HasZone.inZone (h : q.HasZone) : q.InZone := by
  obtain ⟨r, hr⟩ := hasSuffix_iff.mp h
  refine hasSuffix_iff.mpr ⟨toLower r, String.toList_inj.mp ?_⟩
  have hzone : zone.toList.map lowerChar = zone.toList := by decide
  rw [hr]
  simp only [toLower, String.toList_ofList, String.toList_append, List.map_append, hzone]

end Question

lemma SameLetters.host (h : SameLetters q.name q'.name) : SameLetters q.host q'.host :=
  h.trimSuffix h.hasSuffix_dot_eq

lemma SameLetters.inZone_iff (h : SameLetters q.name q'.name) : q.InZone ↔ q'.InZone := by
  rw [Question.InZone, Question.InZone, h.host.toLower_eq]

lemma SameLetters.service (h : SameLetters q.name q'.name) (hzone : q.HasZone ↔ q'.HasZone) :
    SameLetters q.service q'.service :=
  h.host.trimSuffix (Bool.eq_iff_iff.mpr hzone)

/-- A name that keeps its zone is longer than one that loses it. -/
lemma service_ne (h : SameLetters q.name q'.name) (hq : q.HasZone) (hq' : ¬ q'.HasZone) :
    ¬ SameLetters q.service q'.service := by
  intro hsame
  have hlen := hsame.length_eq
  have hhost := h.host.length_eq
  obtain ⟨r, hr⟩ := hasSuffix_iff.mp hq
  rw [Question.service, Question.service, trimSuffix_of_not (Bool.eq_false_iff.mpr hq'), hr,
    trimSuffix_append] at hlen
  rw [hr, String.toList_append, List.length_append, hlen] at hhost
  have hzone : zone.toList.length = 26 := by decide
  omega

/-! ### The answer to a query -/

/-- The records for what the resolver says. -/
def recordsOf (ip : String → Option IPv4) (q : Question) :
    Except Err (String × List ServiceEndpoint × ℤ) → List ARecord
  | .ok (_, endpoints, ttl) =>
    endpoints.filterMap (endpointRecord ip q (if ttl ≤ 0 then 30 else ttl))
  | .error _ => []

/-- The records in the answer to a query of one question. -/
def answers (env : Env) (w : World) (ip : String → Option IPv4) (resolver : Resolver)
    (q : Question) : List ARecord :=
  match (handleQuery ip resolver [q]).result (exec env) w with
  | .ok reply => reply.answer
  | .error _ => []

/-- The answer section as far as the name of the question does not matter. -/
def answerSection (env : Env) (w : World) (ip : String → Option IPv4) (resolver : Resolver)
    (q : Question) : List (IPv4 × UInt32) :=
  (answers env w ip resolver q).map fun a => (a.address, a.ttl)

lemma answers_eq (htype : q.qtype = typeA) : answers env w ip resolver q =
    if q.InZone then recordsOf ip q ((resolver q.service).result (exec env) w) else [] := by
  have hbody : (answerQuestion ip resolver q).result (exec env) w =
      .ok (if q.InZone then recordsOf ip q ((resolver q.service).result (exec env) w) else []) := by
    unfold answerQuestion
    rw [if_neg (not_not.mpr htype)]
    dsimp only
    split_ifs with hout hin hin
    · exact absurd (hin.symm.trans hout) (by decide)
    · rfl
    · have hname : trimSuffix (trimSuffix q.name ".") zone = q.service := rfl
      rw [hname, Prog.result, Prog.run_bind, Prog.run_attempt, Prog.result]
      cases ((resolver q.service).run (exec env) w).1 <;> rfl
    · exact absurd (Bool.eq_false_iff.mpr hin) hout
  have hrun : (handleQuery ip resolver [q]).result (exec env) w = .ok ⟨true,
      if q.InZone then recordsOf ip q ((resolver q.service).result (exec env) w) else []⟩ := by
    have hone : handleQuery ip resolver [q] = answerQuestion ip resolver q >>= fun l =>
        pure ⟨true, l⟩ := by
      simp only [handleQuery, Prog.mapEach, Prog.bind_assoc, Prog.pure_bind', List.flatten_cons,
        List.flatten_nil, List.append_nil]
    rw [hone, Prog.result_bind, hbody]
    rfl
  rw [answers, hrun]

/-! ### Namespaces -/

/-- A service is called so in the default namespace. -/
def Service.IsDefault (name : String) (svc : Service) : Prop :=
  svc.called name = true ∧ svc.spec.nameSpace = "default"

/-- What is found for a name is of the default namespace. -/
structure RespectsNamespaces (ip : String → Option IPv4) (env : Env) (w : World) (name : String) :
    Prop where
  /-- The endpoints are those of a service in the default namespace. -/
  resolved (r : String × List ServiceEndpoint × ℤ) :
    (resolveServiceDNS name).result (exec env) w = .ok r → r.2.1 ≠ [] →
    ∃ svc ∈ (w.store .service).rows, Service.IsDefault name svc ∧ r.2.1 = endpointsOf w.store svc.id
  /-- Without such a service the lookup fails. -/
  fails : (∀ svc ∈ (w.store .service).rows, ¬ Service.IsDefault name svc) →
    ∃ e, (resolveServiceDNS name).result (exec env) w = .error e
  /-- The addresses in the answer to a query are those of such a service. -/
  answered (q : Question) : q.qtype = typeA → q.host = name ++ zone →
    ∀ a ∈ answers env w ip resolveServiceDNS q,
      ∃ svc ∈ (w.store .service).rows, Service.IsDefault name svc ∧
        ∃ ep ∈ endpointsOf w.store svc.id, ep.ready = true ∧ ip ep.address = some a.address

lemma resolveServiceDNS_result (name : String) : (resolveServiceDNS name).result (exec env) w =
    (serviceNamed w.store name).elim (.error .notFound) fun svc => .ok (dnsRecord w.store svc) :=
  congrArg Prod.fst (resolveServiceDNS_run name w)

lemma eq_some_of_endpointRecord {ttl : ℤ} {ep : ServiceEndpoint} {a : ARecord}
    (h : endpointRecord ip q ttl ep = some a) :
    ep.ready = true ∧ ip ep.address = some a.address := by
  unfold endpointRecord at h
  split_ifs at h with hready
  obtain ⟨v4, hv4, rfl⟩ := Option.map_eq_some_iff.mp h
  exact ⟨by simpa using hready, hv4⟩

/-- A record comes from a ready endpoint. -/
lemma mem_recordsOf {r : Except Err (String × List ServiceEndpoint × ℤ)} {a : ARecord}
    (h : a ∈ recordsOf ip q r) : ∃ r', r = .ok r' ∧
      ∃ ep ∈ r'.2.1, ep.ready = true ∧ ip ep.address = some a.address := by
  cases r with
  | error e => cases h
  | ok r =>
    obtain ⟨ep, hep, hrec⟩ := List.mem_filterMap.mp h
    exact ⟨r, rfl, ep, hep, eq_some_of_endpointRecord hrec⟩

/-- The answers respect namespaces if the lookup does. -/
lemma respectsNamespaces_of_first {name : String}
    (h : ∀ svc, serviceNamed w.store name = some svc → svc.spec.nameSpace = "default") :
    RespectsNamespaces ip env w name := by
  have hfirst : ∀ r, (resolveServiceDNS name).result (exec env) w = .ok r →
      ∃ svc ∈ (w.store .service).rows, Service.IsDefault name svc ∧
        r.2.1 = endpointsOf w.store svc.id := by
    intro r hr
    rw [resolveServiceDNS_result] at hr
    cases hsvc : serviceNamed w.store name with
    | none =>
      rw [hsvc] at hr
      cases hr
    | some svc =>
      rw [hsvc] at hr
      obtain rfl := Except.ok.inj hr
      obtain ⟨hmem, hcalled⟩ := mem_of_serviceNamed hsvc
      exact ⟨svc, hmem, ⟨hcalled, h svc hsvc⟩, rfl⟩
  refine ⟨fun r hr _ => hfirst r hr, fun hnone => ?_, fun q htype hhost a ha => ?_⟩
  · cases hres : (resolveServiceDNS name).result (exec env) w with
    | error e => exact ⟨e, rfl⟩
    | ok r =>
      obtain ⟨svc, hmem, hdef, -⟩ := hfirst r hres
      exact absurd hdef (hnone svc hmem)
  · have hservice : q.service = name := by rw [Question.service, hhost, trimSuffix_append]
    rw [answers_eq htype, hservice] at ha
    split_ifs at ha
    · obtain ⟨r, hr, ep, hep, hready, hv4⟩ := mem_recordsOf ha
      obtain ⟨svc, hmem, hdef, heps⟩ := hfirst r hr
      exact ⟨svc, hmem, hdef, ep, heps ▸ hep, hready, hv4⟩
    · cases ha

/-- A ready endpoint. -/
def readyAt (serviceID address : String) : ServiceEndpoint where
  id := "ep"
  serviceID := serviceID
  workloadID := "w"
  nodeID := "n"
  address := address
  port := 80
  protocol := .tcp
  ready := true
  updatedAt := 0

/-- A store with these services, each with one endpoint. -/
def oneEndpointEach (services : Table Service Service.id) : World where
  store := (Store.empty.set .service services).set .endpoint
    (Table.ofList (services.rows.map fun svc => readyAt svc.id "127.0.0.1"))
  tick := 0

section Each

variable {services : Table Service Service.id} {svc svc' : Service}

lemma toList_append_colon (kind a b : String) :
    (kind ++ a ++ ":" ++ b).toList = kind.toList ++ (a.toList ++ ':' :: b.toList) := by
  simp

lemma toList_keyServiceEndpoint (serviceID endpointID : String) :
    (keyServiceEndpoint serviceID endpointID).toList =
      "service-endpoint:".toList ++ (serviceID.toList ++ ':' :: endpointID.toList) :=
  toList_append_colon "service-endpoint:" serviceID endpointID

/-- Keys of endpoints that are equal are so after the name of the kind. -/
lemma append_sep_of_key_eq {a b x y : String}
    (h : keyServiceEndpoint a x = keyServiceEndpoint b y) :
    a.toList ++ ':' :: x.toList = b.toList ++ ':' :: y.toList := by
  have hlist := congrArg String.toList h
  rw [toList_keyServiceEndpoint, toList_keyServiceEndpoint] at hlist
  exact List.append_cancel_left hlist

lemma readyAt_mem (h : svc ∈ services.rows) :
    readyAt svc.id "127.0.0.1" ∈ endpointsOf (oneEndpointEach services).store svc.id := by
  have hinj : Function.Injective fun id => keyServiceEndpoint id "ep" := fun a b hab =>
    String.toList_inj.mp (List.append_cancel_right (append_sep_of_key_eq hab))
  have hnodup : ((services.rows.map fun svc => readyAt svc.id "127.0.0.1").map
      (Tbl.key .endpoint)).Nodup := by
    have hkeys := services.nodup_keys.map hinj
    rwa [List.map_map] at hkeys ⊢
  have hrow : readyAt svc.id "127.0.0.1" ∈ ((oneEndpointEach services).store .endpoint).rows :=
    Table.mem_foldl_put_of_nodup hnodup (List.mem_map_of_mem h)
  exact Store.mem_list_iff.mpr ⟨hrow, hasPrefix_iff.mpr ⟨"ep", rfl⟩⟩

/-- An endpoint can be listed for another service only if the id of this one is a prefix. -/
lemma prefix_of_readyAt_mem (h : readyAt svc.id "127.0.0.1" ∈
    endpointsOf (oneEndpointEach services).store svc'.id) : svc'.id.toList <+: svc.id.toList := by
  obtain ⟨r, hr⟩ := hasPrefix_iff.mp (Store.mem_list_iff.mp h).2
  have hkey : keyServiceEndpoint svc.id "ep" = keyServiceEndpoint svc'.id r := hr
  exact prefix_of_append_sep (by decide) (append_sep_of_key_eq hkey).symm

/-- Services with different ids have different lists of endpoints. -/
lemma eq_of_endpoints_eq (h : svc ∈ services.rows) (h' : svc' ∈ services.rows)
    (heq : endpointsOf (oneEndpointEach services).store svc.id =
      endpointsOf (oneEndpointEach services).store svc'.id) : svc = svc' := by
  have hpre : svc'.id.toList <+: svc.id.toList := prefix_of_readyAt_mem (heq ▸ readyAt_mem h)
  have hpre' : svc.id.toList <+: svc'.id.toList := prefix_of_readyAt_mem (heq ▸ readyAt_mem h')
  have hid : svc.id = svc'.id := String.toList_inj.mp (hpre'.eq_of_length_le hpre.length_le)
  exact Table.eq_of_mem_of_key_eq h h' hid

end Each

/-- What is found for a name is of the default namespace, whatever the endpoints are, exactly if the
first service that is called so is in it. -/
theorem dns_respects_namespaces_iff (services : Table Service Service.id) (name : String) :
    (∀ (env : Env) (w : World), w.store .service = services → RespectsNamespaces ip env w name) ↔
      ∀ svc, services.rows.find? (Service.called name) = some svc →
        svc.spec.nameSpace = "default" := by
  constructor
  · intro h svc hsvc
    have hrow : svc ∈ services.rows := List.mem_of_find?_eq_some hsvc
    have hres : (resolveServiceDNS name).result (exec steadyEnv) (oneEndpointEach services) =
        .ok (dnsRecord (oneEndpointEach services).store svc) := by
      rw [resolveServiceDNS_result]
      have hnamed : serviceNamed (oneEndpointEach services).store name = some svc := hsvc
      rw [hnamed]
      rfl
    obtain ⟨svc', hmem, hdef, heq⟩ := (h steadyEnv (oneEndpointEach services) rfl).resolved _ hres
      (List.ne_nil_of_mem (readyAt_mem hrow))
    rw [eq_of_endpoints_eq hrow hmem heq]
    exact hdef.2
  · rintro h env w rfl
    exact respectsNamespaces_of_first h

/-- The addresses of the examples. -/
def loopback (address : String) : Option IPv4 :=
  if address = "127.0.0.1" then some 2130706433 else none

/-- A service of another namespace, with an endpoint, and one of the default namespace that comes
later. -/
def teamDBWorld : World where
  store := ((Store.empty.put .service
    { id := "svc-1", spec := { nameSpace := "team", name := "db" } }).put .service
    { id := "svc-2", spec := { nameSpace := "default", name := "db" } }).put .endpoint
      (readyAt "svc-1" "127.0.0.1")
  tick := 0

/-- The endpoint of the other namespace is found, and its address is the answer. -/
theorem other_namespace_answers :
    (resolveServiceDNS "db").result (exec steadyEnv) teamDBWorld =
      .ok ("db.default.svc.cluster.local", [readyAt "svc-1" "127.0.0.1"], 30) ∧
    (answers steadyEnv teamDBWorld loopback resolveServiceDNS
      ⟨"db.default.svc.cluster.local.", typeA⟩).map ARecord.address = [2130706433] ∧
    ∀ svc ∈ (teamDBWorld.store .service).rows, svc.spec.nameSpace = "default" →
      endpointsOf teamDBWorld.store svc.id = [] := by
  decide +kernel

/-! ### Case -/

/-- The resolver does not tell names that differ in case only. -/
def Resolver.IgnoresCase (resolver : Resolver) : Prop :=
  ∀ a b, SameLetters a b → resolver a = resolver b

/-- Whatever resolver ignores case, the two queries get the same addresses and times to live. -/
def SameAnswers (ip : String → Option IPv4) (q q' : Question) : Prop :=
  ∀ resolver : Resolver, resolver.IgnoresCase → ∀ (env : Env) (w : World),
    answerSection env w ip resolver q = answerSection env w ip resolver q'

lemma SameAnswers.symm (h : SameAnswers ip q q') : SameAnswers ip q' q :=
  fun resolver hcase env w => (h resolver hcase env w).symm

lemma resolveServiceDNS_ignoresCase : Resolver.IgnoresCase resolveServiceDNS := by
  intro a b h
  have hcalled : Service.called a = Service.called b :=
    funext fun svc => h.trimSpace.equalFold_eq _
  unfold resolveServiceDNS findServiceByName
  rw [hcalled]

/-- The records differ by the name of the question only. -/
lemma map_recordsOf (ip : String → Option IPv4) (q q' : Question)
    (r : Except Err (String × List ServiceEndpoint × ℤ)) :
    ((recordsOf ip q r).map fun a => (a.address, a.ttl)) =
      (recordsOf ip q' r).map fun a => (a.address, a.ttl) := by
  cases r with
  | error e => rfl
  | ok r =>
    simp only [recordsOf, List.map_filterMap]
    refine List.filterMap_congr fun ep _ => ?_
    unfold endpointRecord
    by_cases hready : ep.ready = false
    · rw [if_pos hready, if_pos hready]
    · rw [if_neg hready, if_neg hready, Option.map_map, Option.map_map]
      rfl

/-- A resolver that knows one name, in any case, and one endpoint for it. -/
def knowsOnly (name address : String) : Resolver := fun s =>
  if SameLetters name s then pure ("", [readyAt "svc" address], 30) else Prog.fail .notFound

lemma knowsOnly_ignoresCase (name address : String) :
    (knowsOnly name address).IgnoresCase := by
  intro a b h
  unfold knowsOnly
  rw [if_congr ⟨fun hs => hs.trans h, fun hs => hs.trans h.symm⟩ rfl rfl]

section Case

variable (htype : q.qtype = typeA) (htype' : q'.qtype = typeA)
  (hname : SameLetters q.name q'.name)

include htype htype' hname

lemma sameAnswers_of_not_inZone (h : ¬ q.InZone) : SameAnswers ip q q' := by
  intro resolver _ env w
  rw [answerSection, answerSection, answers_eq htype, answers_eq htype', if_neg h,
    if_neg (hname.inZone_iff.not.mp h)]

lemma sameAnswers_of_zone (h : q.HasZone ↔ q'.HasZone) : SameAnswers ip q q' := by
  intro resolver hcase env w
  rw [answerSection, answerSection, answers_eq htype, answers_eq htype',
    hcase _ _ (hname.service h), if_congr hname.inZone_iff rfl rfl]
  split_ifs
  · exact map_recordsOf ip q q' _
  · rfl

/-- A name that loses its zone is found where one that keeps it is not. -/
lemma not_sameAnswers {address : String} {v4 : IPv4} (hip : ip address = some v4)
    (hq : q.HasZone) (hq' : ¬ q'.HasZone) : ¬ SameAnswers ip q q' := by
  intro hsame
  have hfound : answerSection steadyEnv ⟨Store.empty, 0⟩ ip (knowsOnly q.service address) q =
      [(v4, 30)] := by
    rw [answerSection, answers_eq htype, if_pos hq.inZone, knowsOnly, if_pos (SameLetters.refl _)]
    have hrec : endpointRecord ip q 30 (readyAt "svc" address) =
        some { name := q.name, ttl := 30, address := v4 } := by
      simp only [endpointRecord, readyAt, hip, Option.map_some, reduceCtorEq, if_false]
      rfl
    change (List.filterMap (endpointRecord ip q 30) [readyAt "svc" address]).map _ = _
    rw [List.filterMap_cons_some hrec]
    rfl
  have hlost :
      answerSection steadyEnv ⟨Store.empty, 0⟩ ip (knowsOnly q.service address) q' = [] := by
    rw [answerSection, answers_eq htype', if_pos (hname.inZone_iff.mp hq.inZone), knowsOnly,
      if_neg (service_ne hname hq hq')]
    rfl
  have := hsame _ (knowsOnly_ignoresCase q.service address) steadyEnv ⟨Store.empty, 0⟩
  rw [hfound, hlost] at this
  cases this

end Case

/-- Queries for names that differ in case only get the same answers exactly if the names are not in
the zone, or both have the zone in lower case, or neither.  `ResolveServiceDNS` is a resolver that
ignores case. -/
theorem dns_case_insensitive_iff {address : String} {v4 : IPv4} (hip : ip address = some v4)
    (htype : q.qtype = typeA) (htype' : q'.qtype = typeA) (hname : SameLetters q.name q'.name) :
    Resolver.IgnoresCase resolveServiceDNS ∧
      (SameAnswers ip q q' ↔ (q.InZone → (q.HasZone ↔ q'.HasZone))) := by
  refine ⟨resolveServiceDNS_ignoresCase, fun h _ => ?_, fun h => ?_⟩
  · constructor
    · exact fun hq => by_contra fun hq' => not_sameAnswers htype htype' hname hip hq hq' h
    · exact fun hq' => by_contra fun hq =>
        not_sameAnswers htype' htype hname.symm hip hq' hq h.symm
  · by_cases hin : q.InZone
    · exact sameAnswers_of_zone htype htype' hname (h hin)
    · exact sameAnswers_of_not_inZone htype htype' hname hin

/-- A query for `web` in lower case, and one in which the service is in upper case. -/
theorem dns_case_insensitive_iff_web :
    SameLetters "web.default.svc.cluster.local." "WEB.default.svc.cluster.local." ∧
      SameAnswers loopback ⟨"web.default.svc.cluster.local.", typeA⟩
        ⟨"WEB.default.svc.cluster.local.", typeA⟩ :=
  have hip : loopback "127.0.0.1" = some 2130706433 := rfl
  ⟨by decide, (dns_case_insensitive_iff hip rfl rfl (by decide)).2.mpr (by decide)⟩

/-- A service of the default namespace, with an endpoint. -/
def resolvableWorld : World where
  store := (Store.empty.put .service
    { id := "svc-1", spec := { nameSpace := "default", name := "web" } }).put .endpoint
      (readyAt "svc-1" "127.0.0.1")
  tick := 0

/-- A name in upper case is not found. -/
theorem upper_case_not_found :
    SameLetters "web.default.svc.cluster.local." "WEB.DEFAULT.SVC.CLUSTER.LOCAL." ∧
    answerSection steadyEnv resolvableWorld loopback resolveServiceDNS
      ⟨"web.default.svc.cluster.local.", typeA⟩ = [(2130706433, 30)] ∧
    answerSection steadyEnv resolvableWorld loopback resolveServiceDNS
      ⟨"WEB.DEFAULT.SVC.CLUSTER.LOCAL.", typeA⟩ = [] := by
  decide +kernel

end Orchestrator
