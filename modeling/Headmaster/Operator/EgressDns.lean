import Mathlib.Data.Prod.Lex
import Mathlib.Data.String.Basic
import Headmaster.Operator.Objects

/-!
# The names of egress Services

For each egress Service the operator rewrites a tailnet name, cluster-wide, to
the proxy of the Service (`src/operator/src/controllers/external_service/dns.rs`).
Which Services get a rewrite is decided apart from which ones the Service
controller adopts (`reconcile` in the same directory).

* `lookup_winners`: a name goes to the first of its candidates, by namespace and
  name (`collectStep` is a step over them);
* `rewrites_adopted_iff`: only adopted Services get a rewrite exactly when, for
  each name, the candidates whose namespace the instance excludes come after one
  that it allows. The namespace is not looked at where the rewrites are
  collected (`not_adopted_of_excluded`);
* `collectRewrites_assigned`: each name goes to the first Service that wants it,
  each other one is told so once, and the order in which the Services are listed
  makes no difference. The candidates are parted into the two
  (`foldl_collectStep`).
-/

namespace Headmaster.Operator

/-! ## Services -/

structure Service where
  metadata : ObjectMeta
  /-- `spec.type`. -/
  type : Option String := none

def externalNameType : String := "ExternalName"

namespace Service

variable (svc : Service)

def ns : String := svc.metadata.ns

def isExternalName : Bool := svc.type == some externalNameType

def hasConfig : Bool := (svc.metadata.annotations.lookup annotationConfig).isSome

/-- The shape of a Service for egress. -/
def isEgressShape : Bool := svc.isExternalName && svc.hasConfig

/-- The shape of a Service that is exposed to the tailnet. -/
def isExposeShape : Bool := !svc.isExternalName && svc.hasConfig

end Service

/-! ## Adoption -/

def finalizer (operatorNs : String) : String :=
  "headmaster.potatonode.github.io/cleanup-" ++ operatorNs

variable (read : Reader) (digest : Digest) (ctx : Context) (instances : List HeadscaleInstance)

/-- The instance with a name, in the namespace of the operator. -/
def getInstance (name : String) : Option HeadscaleInstance :=
  instances.find? fun inst => inst.name == name

/-- The gates of `reconcile`: the Service goes on to the finalizer. -/
def passesGates (svc : Service) : Bool :=
  let hasOurFinalizer := svc.metadata.finalizers.contains (finalizer ctx.operatorNamespace)
  let isOursShape := svc.isEgressShape || svc.isExposeShape
  if !isOursShape && !hasOurFinalizer then false
  else
    match svc.metadata.namespaceName with
    | none => false
    | some ns =>
      if !isOurs read ctx svc.metadata && !hasOurFinalizer then false
      else if hasOurFinalizer then true
      else
        -- only before adoption
        match IngressAnnotations.parse read svc.metadata with
        | .error _ => false
        | .ok annotations =>
          match getInstance instances annotations.headscaleRef with
          | some inst => inst.namespaceAllowed ns
          | none => true

inductive Disposition
  | released
  | failed
  | invalid
  /-- The instance is not there yet. -/
  | pending
  | egress
  | expose
  deriving DecidableEq

/-- What `apply` does with a Service, as far as its ports, its namespace and the readiness of the
    instance do not delay it. -/
def disposition (svc : Service) : Disposition :=
  if !svc.hasConfig then .released
  else if !isOurs read ctx svc.metadata then .released
  else if svc.isExternalName then
    match IngressAnnotations.parse read svc.metadata with
    | .error _ => .failed
    | .ok annotations =>
      match annotations.tailnetFqdn.filter (· ≠ "") with
      | none => .invalid
      | some _ =>
        match getInstance instances annotations.headscaleRef with
        | none => .pending
        | some inst => if !inst.namespaceAllowed svc.ns then .released else .egress
  else .expose

/-- The Service controller of the deployment adopts the Service, for egress. -/
def adoptsEgress (svc : Service) : Bool :=
  passesGates read ctx instances svc && !svc.metadata.deleting &&
    (disposition read ctx instances svc == .egress || disposition read ctx instances svc == .pending)

/-! ## The rewrites -/

def rewriteTarget (svc : Service) : String :=
  (ProxyNames.forService digest svc.ns svc.metadata.name).wgServiceName ++ "." ++
    ctx.operatorNamespace ++ ".svc.cluster.local"

structure Candidate where
  svc : Service
  fqdn : String
  target : String

def candidates (services : List Service) : List Candidate :=
  ObjectMeta.sortBy (fun c => c.svc.metadata) <| services
    |>.filter (fun svc => svc.isEgressShape && !svc.metadata.deleting)
    |>.filter (fun svc => isOurs read ctx svc.metadata)
    |>.filterMap fun svc =>
      match IngressAnnotations.parse read svc.metadata with
      | .error _ => none
      | .ok annotations => (annotations.tailnetFqdn.filter (· ≠ "")).map fun fqdn =>
        { svc, fqdn, target := rewriteTarget digest ctx svc }

structure Duplicate where
  service : Service
  fqdn : String
  winnerNs : String
  winnerName : String

structure Collected where
  rewrites : List (String × String) := []
  /-- The Service that a name was rewritten for, by namespace and name. -/
  winners : List (String × String × String) := []
  duplicates : List Duplicate := []

/-- The first Service that wants a name gets it. -/
def collectStep (acc : Collected) (c : Candidate) : Collected :=
  match acc.winners.lookup c.fqdn with
  | some (winnerNs, winnerName) =>
    { acc with
      duplicates := acc.duplicates ++
        [{ service := c.svc, fqdn := c.fqdn, winnerNs, winnerName }] }
  | none =>
    { acc with
      winners := Props.insert c.fqdn c.svc.metadata.key acc.winners
      rewrites := acc.rewrites ++ [(c.fqdn, c.target)] }

def collect (services : List Service) : Collected :=
  (candidates read digest ctx services).foldl collectStep {}

/-- The order of the rewrites: by name, and then by target. -/
def rewriteLe (a b : String × String) : Prop := a.1 < b.1 ∨ a.1 = b.1 ∧ a.2 ≤ b.2

instance : DecidableRel rewriteLe := fun a b =>
  inferInstanceAs (Decidable (a.1 < b.1 ∨ a.1 = b.1 ∧ a.2 ≤ b.2))

def collectRewrites (services : List Service) : List (String × String) × List Duplicate :=
  let collected := collect read digest ctx services
  (collected.rewrites.insertionSort rewriteLe, collected.duplicates)

/-- The rewrites, as the cluster DNS is configured with them. -/
def buildOverride (rewrites : List (String × String)) : String :=
  String.join (rewrites.map fun (fqdn, target) => "rewrite name " ++ fqdn ++ " " ++ target ++ "\n")

/-! ## Who gets a rewrite -/

/-- A name is to be rewritten for the Service, as far as this is looked at. -/
structure Wants (svc : Service) (fqdn : String) : Prop where
  shape : svc.isEgressShape = true
  alive : svc.metadata.deleting = false
  ours : isOurs read ctx svc.metadata = true
  parsed : ∃ a, IngressAnnotations.parse read svc.metadata = .ok a ∧ a.tailnetFqdn = some fqdn
  nonempty : fqdn ≠ ""

/-- The Service has a namespace, which the instance it references allows if it exists. -/
def Authorized (svc : Service) : Prop :=
  ∃ ns, svc.metadata.namespaceName = some ns ∧
    ∀ a, IngressAnnotations.parse read svc.metadata = .ok a →
      ∀ inst, getInstance instances a.headscaleRef = some inst → inst.namespaceAllowed ns = true

/-- The name is rewritten for the Service. -/
def Gets (services : List Service) (svc : Service) (fqdn : String) : Prop :=
  (collect read digest ctx services).winners.lookup fqdn = some svc.metadata.key

/-- Names are rewritten only to the proxies of adopted Services, and no Service of an excluded
    namespace stands in the way of one that is allowed. -/
structure OnlyAdopted (services : List Service) : Prop where
  targets : ∀ r ∈ (collectRewrites read digest ctx services).1, ∃ svc ∈ services,
    Gets read digest ctx services svc r.1 ∧ r.2 = rewriteTarget digest ctx svc ∧
      adoptsEgress read ctx instances svc = true
  excluded : ∀ svc ∈ services, ¬Authorized read instances svc → ∀ fqdn,
    ¬Gets read digest ctx services svc fqdn
  kept : ∀ svc ∈ services, Authorized read instances svc → ∀ fqdn, Wants read ctx svc fqdn →
    ∃ svc' ∈ services, Gets read digest ctx services svc' fqdn ∧ Authorized read instances svc'

/-- Nothing is rewritten to a target. -/
def Clean (target : String) (rewrites : List (String × String)) : Prop :=
  ∀ r ∈ rewrites, r.2 ≠ target

instance (target : String) (rewrites : List (String × String)) : Decidable (Clean target rewrites) :=
  inferInstanceAs (Decidable (∀ r ∈ rewrites, r.2 ≠ target))

/-- Where a Service with that target wants a name, another that wants it comes before. -/
def Dropped (target : String) (services : List Service) : Prop :=
  ∀ svc ∈ services, rewriteTarget digest ctx svc = target → ∀ fqdn, Wants read ctx svc fqdn →
    ∃ svc' ∈ services, Wants read ctx svc' fqdn ∧ svc'.metadata.lt svc.metadata

variable {read digest ctx instances} {svc : Service} {fqdn : String} {services : List Service}

/-! ### Adoption -/

theorem Wants.config (h : Wants read ctx svc fqdn) : svc.hasConfig = true :=
  (Bool.and_eq_true_iff.1 h.shape).2

theorem Wants.externalName (h : Wants read ctx svc fqdn) : svc.isExternalName = true :=
  (Bool.and_eq_true_iff.1 h.shape).1

/-- What is left of `apply` for a Service that wants a name. -/
theorem Wants.disposition_eq (h : Wants read ctx svc fqdn) {a : IngressAnnotations}
    (ha : IngressAnnotations.parse read svc.metadata = .ok a) :
    disposition read ctx instances svc =
      match getInstance instances a.headscaleRef with
      | none => .pending
      | some inst => if !inst.namespaceAllowed svc.ns then .released else .egress := by
  obtain ⟨a', ha', hfqdn⟩ := h.parsed
  obtain rfl : a' = a := Except.ok.inj (ha'.symm.trans ha)
  have hsome : a'.tailnetFqdn.filter (· ≠ "") = some fqdn := by
    rw [hfqdn, Option.filter_some, if_pos (decide_eq_true h.nonempty)]
  simp only [disposition, h.config, h.ours, h.externalName, ha', hsome, Bool.not_true,
    Bool.false_eq_true, if_false, if_true]

/-- `apply` goes on to egress only for a Service that wants a name. -/
theorem exists_wants (halive : svc.metadata.deleting = false)
    (h : disposition read ctx instances svc = .egress ∨ disposition read ctx instances svc = .pending) :
    ∃ fqdn, Wants read ctx svc fqdn := by
  rw [disposition] at h
  split at h
  · simp at h
  rename_i hconfig
  split at h
  · simp at h
  rename_i hours
  split at h
  swap
  · simp at h
  rename_i hexternal
  split at h
  · simp at h
  rename_i a ha
  split at h
  · simp at h
  rename_i fqdn hfqdn
  obtain ⟨hfqdn, hnonempty⟩ := Option.filter_eq_some_iff.1 hfqdn
  refine ⟨fqdn, ?_, halive, by simpa using hours, ⟨a, ha, hfqdn⟩, by simpa using hnonempty⟩
  exact Bool.and_eq_true_iff.2 ⟨hexternal, by simpa using hconfig⟩

/-- A Service past the gates has a namespace. -/
theorem exists_namespace (h : passesGates read ctx instances svc = true) :
    ∃ ns, svc.metadata.namespaceName = some ns := by
  match hns : svc.metadata.namespaceName with
  | some ns => exact ⟨ns, rfl⟩
  | none =>
    simp only [passesGates, hns] at h
    split at h <;> cases h

/-- A Service that wants a name in a namespace that is allowed passes the gates. -/
theorem Wants.passesGates (h : Wants read ctx svc fqdn)
    (hauthorized : Authorized read instances svc) : passesGates read ctx instances svc = true := by
  obtain ⟨ns, hns, hallowed⟩ := hauthorized
  obtain ⟨a, ha, _⟩ := h.parsed
  have hgate : (match getInstance instances a.headscaleRef with
      | some inst => inst.namespaceAllowed ns
      | none => true) = true := by
    split
    · rename_i inst hinst
      exact hallowed a ha inst hinst
    · rfl
  simp only [Operator.passesGates, h.shape, h.ours, hns, ha, hgate, Bool.true_or, Bool.not_true,
    Bool.false_and, Bool.false_eq_true, if_false, ite_self]

/-- What the Service controller adopts for egress is what a name would be rewritten for, in a
    namespace that is allowed. -/
theorem adoptsEgress_iff : adoptsEgress read ctx instances svc = true ↔
    (∃ fqdn, Wants read ctx svc fqdn) ∧ Authorized read instances svc := by
  rw [adoptsEgress, Bool.and_eq_true_iff, Bool.and_eq_true_iff, Bool.or_eq_true_iff, beq_iff_eq,
    beq_iff_eq, Bool.not_eq_true']
  constructor
  · rintro ⟨⟨hgates, halive⟩, hegress⟩
    obtain ⟨fqdn, hwants⟩ := exists_wants halive hegress
    obtain ⟨ns, hns⟩ := exists_namespace hgates
    refine ⟨⟨fqdn, hwants⟩, ns, hns, fun a ha inst hinst => ?_⟩
    -- a Service that has the finalizer is not checked at the gates, but in `apply`
    rw [hwants.disposition_eq ha, hinst, Service.ns, ObjectMeta.ns, hns] at hegress
    by_contra hexcluded
    have hexcluded : inst.namespaceAllowed ns = false := Bool.eq_false_iff.2 hexcluded
    simp [hexcluded] at hegress
  · rintro ⟨⟨fqdn, hwants⟩, hauthorized⟩
    refine ⟨⟨hwants.passesGates hauthorized, hwants.alive⟩, ?_⟩
    obtain ⟨a, ha, _⟩ := hwants.parsed
    obtain ⟨ns, hns, hallowed⟩ := hauthorized
    rw [hwants.disposition_eq ha]
    match hinst : getInstance instances a.headscaleRef with
    | none => exact .inr rfl
    | some inst =>
      refine .inl (if_neg ?_)
      rw [Service.ns, ObjectMeta.ns, hns, Option.getD_some, hallowed a ha inst hinst]
      exact Bool.false_ne_true

/-- A Service that is deleted or has no configuration wants no name. -/
theorem not_wants_of_given_up (h : (svc.metadata.deleting || !svc.hasConfig) = true) :
    ¬Wants read ctx svc fqdn := by
  intro hwants
  rw [hwants.alive, hwants.config] at h
  cases h

/-! ### The first candidate -/

theorem mem_candidates {c : Candidate} : c ∈ candidates read digest ctx services ↔
    c.svc ∈ services ∧ Wants read ctx c.svc c.fqdn ∧ c.target = rewriteTarget digest ctx c.svc := by
  rw [candidates, ObjectMeta.sortBy, List.mem_insertionSort, List.mem_filterMap]
  constructor
  · rintro ⟨svc, hsvc, hc⟩
    obtain ⟨hsvc, hours⟩ := List.mem_filter.1 hsvc
    obtain ⟨hsvc, hshape⟩ := List.mem_filter.1 hsvc
    obtain ⟨hshape, halive⟩ := Bool.and_eq_true_iff.1 hshape
    split at hc
    · cases hc
    · rename_i a ha
      obtain ⟨fqdn, hfqdn, rfl⟩ := Option.map_eq_some_iff.1 hc
      obtain ⟨hfqdn, hnonempty⟩ := Option.filter_eq_some_iff.1 hfqdn
      exact ⟨hsvc, ⟨hshape, by simpa using halive, hours, ⟨a, ha, hfqdn⟩, by simpa using hnonempty⟩,
        rfl⟩
  · rintro ⟨hsvc, hwants, htarget⟩
    obtain ⟨a, ha, hfqdn⟩ := hwants.parsed
    refine ⟨c.svc, List.mem_filter.2 ⟨List.mem_filter.2 ⟨hsvc, ?_⟩, hwants.ours⟩, ?_⟩
    · rw [hwants.shape, hwants.alive]
      rfl
    · simp only [ha, hfqdn, Option.filter_some, if_pos (decide_eq_true hwants.nonempty),
        Option.map_some, ← htarget]

/-- The winner of a name is that of before, or else the first candidate for the name. -/
theorem lookup_winners (cs : List Candidate) (acc : Collected) (fqdn : String) :
    (cs.foldl collectStep acc).winners.lookup fqdn =
      (acc.winners.lookup fqdn).or ((cs.find? (·.fqdn == fqdn)).map (·.svc.metadata.key)) := by
  induction cs generalizing acc with
  | nil => rw [List.foldl_nil, List.find?_nil, Option.map_none, Option.or_none]
  | cons c cs ih =>
    rw [List.foldl_cons, ih, List.find?_cons, collectStep]
    by_cases hc : c.fqdn = fqdn
    · subst hc
      rw [beq_self_eq_true]
      match hwinner : acc.winners.lookup c.fqdn with
      | some (winnerNs, winnerName) => simp only [hwinner, Option.some_or]
      | none => simp only [Props.lookup_insert, if_pos, Option.some_or, Option.none_or, Option.map_some]
    · rw [beq_false_of_ne hc]
      match acc.winners.lookup c.fqdn with
      | some (winnerNs, winnerName) => rfl
      | none => simp only [Props.lookup_insert, if_neg (Ne.symm hc)]

/-- The rewrites are those of before, and one for each name that had no winner, to the proxy of the
    first candidate for the name. -/
theorem mem_rewrites {cs : List Candidate} {acc : Collected} {r : String × String} :
    r ∈ (cs.foldl collectStep acc).rewrites ↔ r ∈ acc.rewrites ∨ acc.winners.lookup r.1 = none ∧
      (cs.find? (·.fqdn == r.1)).map (·.target) = some r.2 := by
  induction cs generalizing acc with
  | nil => simp
  | cons c cs ih =>
    rw [List.foldl_cons, ih, List.find?_cons, collectStep]
    by_cases hc : c.fqdn = r.1
    · rw [hc, beq_self_eq_true]
      match hwinner : acc.winners.lookup r.1 with
      | some (winnerNs, winnerName) => simp [hwinner]
      | none => simp [Props.lookup_insert, Prod.ext_iff, eq_comm]
    · rw [beq_false_of_ne hc]
      match acc.winners.lookup c.fqdn with
      | some (winnerNs, winnerName) => simp
      | none => simp [Props.lookup_insert, Prod.ext_iff, Ne.symm hc]

/-! ### Who is first -/

theorem lookup_collect : (collect read digest ctx services).winners.lookup fqdn =
    ((candidates read digest ctx services).find? (·.fqdn == fqdn)).map (·.svc.metadata.key) := by
  rw [collect, lookup_winners, List.lookup_nil, Option.none_or]

/-- The first candidate for a name is a Service that wants it. -/
theorem wants_of_find?_candidates {c : Candidate}
    (hfind : (candidates read digest ctx services).find? (·.fqdn == fqdn) = some c) :
    c.svc ∈ services ∧ Wants read ctx c.svc fqdn ∧ c.target = rewriteTarget digest ctx c.svc := by
  have hname : c.fqdn = fqdn := by
    simpa using List.find?_some hfind
  rw [← hname]
  exact mem_candidates.1 (List.mem_of_find?_eq_some hfind)

/-- A name is rewritten to the proxy of the first candidate for it. -/
theorem mem_collectRewrites {r : String × String} :
    r ∈ (collectRewrites read digest ctx services).1 ↔
      ∃ c, (candidates read digest ctx services).find? (·.fqdn == r.1) = some c ∧ c.target = r.2 := by
  rw [collectRewrites, List.mem_insertionSort, collect, mem_rewrites, List.lookup_nil,
    Option.map_eq_some_iff]
  exact ⟨fun hr => (hr.resolve_left List.not_mem_nil).2, fun hr => .inr ⟨rfl, hr⟩⟩

/-- There is a first candidate for a name that some Service wants. -/
theorem exists_find?_candidates (hsvc : svc ∈ services) (hwants : Wants read ctx svc fqdn) :
    ∃ c, (candidates read digest ctx services).find? (·.fqdn == fqdn) = some c :=
  Option.isSome_iff_exists.1 (List.find?_isSome.2
    ⟨⟨svc, fqdn, rewriteTarget digest ctx svc⟩, mem_candidates.2 ⟨hsvc, hwants, rfl⟩,
      beq_self_eq_true fqdn⟩)

/-- A name that some Service wants goes to one of them. -/
theorem exists_gets (hsvc : svc ∈ services) (hwants : Wants read ctx svc fqdn) :
    ∃ svc' ∈ services, Gets read digest ctx services svc' fqdn := by
  obtain ⟨c, hfind⟩ := exists_find?_candidates hsvc hwants
  refine ⟨c.svc, (wants_of_find?_candidates hfind).1, ?_⟩
  rw [Gets, lookup_collect, hfind, Option.map_some]

/-- The first candidate for a name comes before all others that want it. -/
theorem not_lt_of_find?_candidates {c : Candidate} {svc' : Service}
    (hfind : (candidates read digest ctx services).find? (·.fqdn == fqdn) = some c)
    (hsvc : svc' ∈ services) (hwants : Wants read ctx svc' fqdn) :
    ¬svc'.metadata.lt c.svc.metadata := by
  have hmem : ⟨svc', fqdn, rewriteTarget digest ctx svc'⟩ ∈ candidates read digest ctx services :=
    mem_candidates.2 ⟨hsvc, hwants, rfl⟩
  rw [candidates] at hfind hmem
  have hfirst := ObjectMeta.not_lt_of_find?_sortBy hfind hmem (beq_self_eq_true fqdn)
  exact hfirst

/-- Nothing is rewritten to a target exactly when all that have it are dropped. -/
theorem clean_collectRewrites_iff {target : String} :
    Clean target (collectRewrites read digest ctx services).1 ↔
      Dropped read digest ctx target services := by
  constructor
  · intro hclean svc hsvc htarget fqdn hwants
    by_contra hfirst
    obtain ⟨c, hfind⟩ := exists_find?_candidates hsvc hwants
    obtain ⟨hmem, hwants', hsame⟩ := wants_of_find?_candidates hfind
    -- neither comes before the other, so they have one name, and one target
    have hkey : c.svc.metadata.key = svc.metadata.key := by
      by_contra hne
      rcases ObjectMeta.le_total c.svc.metadata svc.metadata with hle | hle
      · exact hfirst ⟨c.svc, hmem, hwants', ObjectMeta.lt_of_le hle hne⟩
      · exact not_lt_of_find?_candidates hfind hsvc hwants
          (ObjectMeta.lt_of_le hle fun h => hne h.symm)
    obtain ⟨hns, hname⟩ := Prod.mk.inj hkey
    have htarget' : rewriteTarget digest ctx c.svc = target := by
      rw [← htarget, rewriteTarget, rewriteTarget, Service.ns, Service.ns, hns, hname]
    exact hclean (fqdn, c.target) (mem_collectRewrites.2 ⟨c, hfind, rfl⟩) (hsame.trans htarget')
  · intro hdropped r hr htarget
    obtain ⟨c, hfind, hsame⟩ := mem_collectRewrites.1 hr
    obtain ⟨hmem, hwants, htarget'⟩ := wants_of_find?_candidates hfind
    obtain ⟨svc', hsvc', hwants', hlt⟩ :=
      hdropped c.svc hmem (htarget'.symm.trans (hsame.trans htarget)) r.1 hwants
    exact not_lt_of_find?_candidates hfind hsvc' hwants' hlt

section Distinct

variable (hdistinct : (services.map fun svc => svc.metadata.key).Nodup)

include hdistinct

/-- The candidates stand in the order of their Services. -/
theorem pairwise_candidates : (candidates read digest ctx services).Pairwise fun c d =>
    c.svc.metadata.lt d.svc.metadata := by
  refine ObjectMeta.pairwise_sortBy (List.pairwise_map.2 (List.pairwise_filterMap.2 ?_))
  refine (((List.pairwise_map.1 hdistinct).filter _).filter _).imp ?_
  intro svc svc' hne c hc d hd
  -- a candidate is for the Service it was made from
  have hsame : ∀ {s : Service} {c : Candidate}, (match IngressAnnotations.parse read s.metadata with
      | .error _ => none
      | .ok annotations => (annotations.tailnetFqdn.filter (· ≠ "")).map fun fqdn =>
          ({ svc := s, fqdn, target := rewriteTarget digest ctx s } : Candidate)) = some c →
      c.svc = s := by
    intro s c h
    split at h
    · cases h
    · obtain ⟨_, _, rfl⟩ := Option.map_eq_some_iff.1 h
      rfl
  rw [hsame hc, hsame hd]
  exact hne

/-- A name goes to the first Service that wants it, by namespace and name. -/
theorem gets_iff (hsvc : svc ∈ services) : Gets read digest ctx services svc fqdn ↔
    Wants read ctx svc fqdn ∧
      ∀ svc' ∈ services, Wants read ctx svc' fqdn → ¬svc'.metadata.lt svc.metadata := by
  rw [Gets, lookup_collect, Option.map_eq_some_iff]
  -- the candidates are sorted by age, so the first with the name is the oldest
  have hordered : (candidates read digest ctx services).Pairwise fun c d =>
      c.svc.metadata.lt d.svc.metadata := pairwise_candidates hdistinct
  have hfirst := fun c => ObjectMeta.find?_eq_some_iff_of_pairwise (p := fun c => c.fqdn == fqdn)
    (a := c) hordered
  constructor
  · rintro ⟨c, hfind, hkey⟩
    obtain ⟨hmem, hfqdn, hleast⟩ := (hfirst c).1 hfind
    obtain ⟨hmem, hwants, _⟩ := mem_candidates.1 hmem
    obtain rfl : c.svc = svc := List.inj_on_of_nodup_map hdistinct hmem hsvc hkey
    obtain rfl : c.fqdn = fqdn := beq_iff_eq.1 hfqdn
    refine ⟨hwants, fun svc' hsvc' hwants' => ?_⟩
    exact hleast ⟨svc', c.fqdn, rewriteTarget digest ctx svc'⟩
      (mem_candidates.2 ⟨hsvc', hwants', rfl⟩) (beq_self_eq_true _)
  · rintro ⟨hwants, hleast⟩
    refine ⟨⟨svc, fqdn, rewriteTarget digest ctx svc⟩, (hfirst _).2 ⟨?_, ?_, ?_⟩, rfl⟩
    · exact mem_candidates.2 ⟨hsvc, hwants, rfl⟩
    · exact beq_self_eq_true _
    · intro c hmem hfqdn
      obtain ⟨hmem, hwants', _⟩ := mem_candidates.1 hmem
      exact hleast c.svc hmem (beq_iff_eq.1 hfqdn ▸ hwants')

/-- A name is rewritten to the proxy of the Service that it goes to. -/
theorem mem_collectRewrites_iff {r : String × String} :
    r ∈ (collectRewrites read digest ctx services).1 ↔ ∃ svc ∈ services,
      Gets read digest ctx services svc r.1 ∧ r.2 = rewriteTarget digest ctx svc := by
  rw [mem_collectRewrites]
  constructor
  · rintro ⟨c, hfind, htarget⟩
    obtain ⟨hmem, _, hsame⟩ := wants_of_find?_candidates hfind
    refine ⟨c.svc, hmem, ?_, htarget.symm.trans hsame⟩
    rw [Gets, lookup_collect, hfind, Option.map_some]
  · rintro ⟨svc, hsvc, hgets, htarget⟩
    rw [Gets, lookup_collect] at hgets
    obtain ⟨c, hfind, hkey⟩ := Option.map_eq_some_iff.1 hgets
    obtain ⟨hmem, _, hsame⟩ := wants_of_find?_candidates hfind
    obtain rfl : c.svc = svc := List.inj_on_of_nodup_map hdistinct hmem hsvc hkey
    exact ⟨c, hfind, hsame.trans htarget.symm⟩

/-- Names are rewritten only to adopted Services exactly when, for each name, the Services that want
    it from a namespace that is not allowed come after one whose namespace is allowed. -/
theorem rewrites_adopted_iff : OnlyAdopted read digest ctx instances services ↔
    ∀ svc ∈ services, ∀ fqdn, Wants read ctx svc fqdn → ¬Authorized read instances svc →
      ∃ svc' ∈ services, Wants read ctx svc' fqdn ∧ Authorized read instances svc' ∧
        svc'.metadata.lt svc.metadata := by
  constructor
  · intro h svc hsvc fqdn hwants hexcluded
    obtain ⟨svc', hsvc', hgets⟩ : ∃ svc' ∈ services, Gets read digest ctx services svc' fqdn :=
      exists_gets hsvc hwants
    obtain ⟨hwants', hleast⟩ := (gets_iff hdistinct hsvc').1 hgets
    have hauthorized : Authorized read instances svc' := by
      by_contra hexcluded'
      exact h.excluded svc' hsvc' hexcluded' fqdn hgets
    refine ⟨svc', hsvc', hwants', hauthorized, ?_⟩
    have hne : svc'.metadata.key ≠ svc.metadata.key := fun hkey =>
      hexcluded (List.inj_on_of_nodup_map hdistinct hsvc' hsvc hkey ▸ hauthorized)
    rcases ObjectMeta.le_total svc'.metadata svc.metadata with hle | hle
    · exact ObjectMeta.lt_of_le hle hne
    · exact absurd (ObjectMeta.lt_of_le hle hne.symm) (hleast svc hsvc hwants)
  · intro h
    -- who gets a name comes before all others that want it
    have hgets : ∀ svc ∈ services, ∀ fqdn, Gets read digest ctx services svc fqdn →
        Wants read ctx svc fqdn ∧ Authorized read instances svc := by
      intro svc hsvc fqdn hgets
      obtain ⟨hwants, hleast⟩ := (gets_iff hdistinct hsvc).1 hgets
      refine ⟨hwants, ?_⟩
      by_contra hexcluded
      obtain ⟨svc', hsvc', hwants', _, hlt⟩ := h svc hsvc fqdn hwants hexcluded
      exact hleast svc' hsvc' hwants' hlt
    refine ⟨fun r hr => ?_, fun svc hsvc hexcluded fqdn hget => ?_, fun svc hsvc _ fqdn hwants => ?_⟩
    · obtain ⟨svc, hsvc, hget, htarget⟩ := (mem_collectRewrites_iff hdistinct).1 hr
      obtain ⟨hwants, hauthorized⟩ := hgets svc hsvc r.1 hget
      exact ⟨svc, hsvc, hget, htarget, adoptsEgress_iff.2 ⟨⟨r.1, hwants⟩, hauthorized⟩⟩
    · exact hexcluded (hgets svc hsvc fqdn hget).2
    · obtain ⟨svc', hsvc', hget⟩ := exists_gets hsvc hwants
      exact ⟨svc', hsvc', hget, (hgets svc' hsvc' fqdn hget).2⟩

end Distinct

namespace EgressDns

/-! ### Two Services for one name -/

def config : String :=
  "\x7b\"headscale-ref\":\"main\",\"user\":\"alice\",\"tailnet-fqdn\":\"db.example.com\"\x7d"

def reader : Reader := fun s =>
  if s = config then
    some (.object [("headscale-ref", .string "main"), ("user", .string "alice"),
      ("tailnet-fqdn", .string "db.example.com")])
  else none

/-- The digest for the names of the first two Services below. -/
def sha256 : Digest := fun s =>
  if s = "svc\x00aaa\x00db" then
    "5a8ed2715028aa93a1e6ec795f02adb1059fc124288ece7fb6b45e0100e37f33"
  else "41e7c7e0a4dd7ec5a4714d272dd19442e08eea83729875ec91485595baadb7a2"

def deployment : Context := ⟨"headmaster", true⟩

def main : List HeadscaleInstance := [⟨"main", ["apps"]⟩]

/-- An egress Service, in a namespace, for one and the same name. -/
def db (ns : String) : Service where
  metadata := {
    name := "db"
    namespaceName := some ns
    annotations := [(annotationConfig, config)] }
  type := some externalNameType

end EgressDns

open EgressDns (reader sha256 deployment main db) in
/-- Where the excluded namespace comes after the allowed one, the name goes to the latter. -/
theorem rewrites_adopted_apps :
    OnlyAdopted reader sha256 deployment main [db "apps", db "web"] := by
  have hallowed : Authorized reader main (db "apps") := by
    refine ⟨"apps", rfl, fun a _ inst hinst => ?_⟩
    obtain rfl : inst = ⟨"main", ["apps"]⟩ := List.mem_singleton.1 (List.mem_of_find?_eq_some hinst)
    rfl
  refine (rewrites_adopted_iff (by decide)).2 fun svc hsvc fqdn hwants hexcluded => ?_
  refine ⟨db "apps", List.mem_cons_self, ?_, hallowed, ?_⟩
  all_goals obtain rfl | rfl : svc = db "apps" ∨ svc = db "web" := by simpa using hsvc
  · exact hwants
  · exact ⟨hwants.shape, hwants.alive, hwants.ours, hwants.parsed, hwants.nonempty⟩
  · exact absurd hallowed hexcluded
  · exact .inl (by decide)

open EgressDns (reader sha256 deployment main db) in
/-- A Service of an excluded namespace takes the name of one whose namespace is allowed. -/
theorem not_adopted_of_excluded :
    ¬OnlyAdopted reader sha256 deployment main [db "aaa", db "apps"] := by
  intro h
  have hrewrite : ("db.example.com", "proxy-wg-svc-aaa-db-5a8ed271.headmaster.svc.cluster.local") ∈
      (collectRewrites reader sha256 deployment [db "aaa", db "apps"]).1 := by decide +kernel
  obtain ⟨svc, hsvc, hgets, _, hadopted⟩ := h.targets _ hrewrite
  obtain rfl | rfl : svc = db "aaa" ∨ svc = db "apps" := by simpa using hsvc
  · have hreleased : adoptsEgress reader deployment main (db "aaa") = false := by
      decide +kernel
    rw [hreleased] at hadopted
    cases hadopted
  · have hwinner : (collect reader sha256 deployment [db "aaa", db "apps"]).winners.lookup
        "db.example.com" = some ("aaa", "db") := by decide +kernel
    rw [Gets, hwinner] at hgets
    revert hgets
    decide

/-! ## Duplicate names -/

section Duplicates

variable (read : Reader) (digest : Digest) (ctx : Context)

/-- The Service that a name is for: the first of those that want it, by namespace and name. -/
structure Owns (services : List Service) (svc : Service) (fqdn : String) : Prop where
  mem : svc ∈ services
  wants : Wants read ctx svc fqdn
  first : ∀ svc' ∈ services, Wants read ctx svc' fqdn →
    svc' = svc ∨ svc.metadata.lt svc'.metadata

/-- What the author of a Service is told: another one has the name. -/
def duplicateOf (svc : Service) (fqdn : String) (winner : Service) : Duplicate where
  service := svc
  fqdn := fqdn
  winnerNs := winner.ns
  winnerName := winner.metadata.name

/-- Each name that is wanted goes to one Service, and each other that wants it is told, once. -/
structure Assigned (services : List Service) (rewrites : List (String × String))
    (duplicates : List Duplicate) : Prop where
  sorted : rewrites.Pairwise fun r r' => r.1 < r'.1
  one : ∀ svc ∈ services, ∀ fqdn, Wants read ctx svc fqdn → (rewrites.map Prod.fst).count fqdn = 1
  owner : ∀ r ∈ rewrites, ∃ svc, Owns read ctx services svc r.1 ∧ r.2 = rewriteTarget digest ctx svc
  told : ∀ svc ∈ services, ∀ fqdn, Wants read ctx svc fqdn →
    ∀ winner, Owns read ctx services winner fqdn → winner ≠ svc →
      duplicates.filter (·.service.metadata.key == svc.metadata.key) = [duplicateOf svc fqdn winner]
  /-- Nobody is told without a reason. -/
  lost : ∀ d ∈ duplicates, ∃ svc ∈ services, ∃ fqdn winner, Wants read ctx svc fqdn ∧
    Owns read ctx services winner fqdn ∧ winner ≠ svc ∧ d = duplicateOf svc fqdn winner

/-- The rewrite for a candidate, if its name went to it. -/
def Candidate.rewrite (winners : List (String × String × String)) (c : Candidate) :
    Option (String × String) :=
  if winners.lookup c.fqdn = some c.svc.metadata.key then some (c.fqdn, c.target) else none

/-- What is reported of a candidate, if its name went to another. -/
def Candidate.report (winners : List (String × String × String)) (c : Candidate) :
    Option Duplicate :=
  ((winners.lookup c.fqdn).filter (· ≠ c.svc.metadata.key)).map fun winner =>
    { service := c.svc, fqdn := c.fqdn, winnerNs := winner.1, winnerName := winner.2 }

variable {read digest ctx} {services : List Service} {svc winner : Service} {fqdn : String}

/-! ### Winners and losers -/

theorem collectStep_of_some {acc : Collected} {c : Candidate} {winner : String × String}
    (h : acc.winners.lookup c.fqdn = some winner) :
    collectStep acc c = { acc with duplicates := acc.duplicates ++
      [{ service := c.svc, fqdn := c.fqdn, winnerNs := winner.1, winnerName := winner.2 }] } := by
  rw [collectStep, h]

theorem collectStep_of_none {acc : Collected} {c : Candidate}
    (h : acc.winners.lookup c.fqdn = none) :
    collectStep acc c = { acc with
      winners := Props.insert c.fqdn c.svc.metadata.key acc.winners
      rewrites := acc.rewrites ++ [(c.fqdn, c.target)] } := by
  rw [collectStep, h]

/-- The candidates are parted into those whose name goes to them, and those who are told who has
    theirs. -/
theorem foldl_collectStep {cs : List Candidate} {acc : Collected}
    {winners : List (String × String × String)}
    (hwinners : (cs.foldl collectStep acc).winners = winners)
    (hdistinct : (cs.map (·.svc.metadata.key)).Nodup)
    (hnew : ∀ c ∈ cs, ∀ fqdn, acc.winners.lookup fqdn ≠ some c.svc.metadata.key) :
    (cs.foldl collectStep acc).rewrites = acc.rewrites ++ cs.filterMap (Candidate.rewrite winners) ∧
      (cs.foldl collectStep acc).duplicates =
        acc.duplicates ++ cs.filterMap (Candidate.report winners) := by
  induction cs generalizing acc with
  | nil => exact ⟨(List.append_nil _).symm, (List.append_nil _).symm⟩
  | cons c cs ih =>
    obtain ⟨hc, hdistinct⟩ := List.nodup_cons.1 hdistinct
    -- who has the name of `c` now has it in the end
    have hlookup : winners.lookup c.fqdn =
        (acc.winners.lookup c.fqdn).or (some c.svc.metadata.key) := by
      rw [← hwinners, lookup_winners, List.find?_cons, beq_self_eq_true, Option.map_some]
    cases hwinner : acc.winners.lookup c.fqdn with
    | some winner =>
      have hne : winner ≠ c.svc.metadata.key := fun h =>
        hnew c List.mem_cons_self c.fqdn (h ▸ hwinner)
      rw [hwinner, Option.some_or] at hlookup
      have hrewrite : c.rewrite winners = none := by
        rw [Candidate.rewrite, hlookup, if_neg fun h => hne (Option.some.inj h)]
      have hreport : c.report winners = some ⟨c.svc, c.fqdn, winner.1, winner.2⟩ := by
        rw [Candidate.report, hlookup, Option.filter_some, if_pos (decide_eq_true hne),
          Option.map_some]
      rw [List.foldl_cons, collectStep_of_some hwinner] at hwinners ⊢
      obtain ⟨hrewrites, hduplicates⟩ := ih hwinners hdistinct fun c' hc' =>
        hnew c' (List.mem_cons_of_mem _ hc')
      rw [List.filterMap_cons_none hrewrite, List.filterMap_cons_some hreport]
      exact ⟨hrewrites, hduplicates.trans (List.append_assoc _ _ _)⟩
    | none =>
      rw [hwinner, Option.none_or] at hlookup
      have hrewrite : c.rewrite winners = some (c.fqdn, c.target) := by
        rw [Candidate.rewrite, hlookup, if_pos rfl]
      have hreport : c.report winners = none := by
        rw [Candidate.report, hlookup, Option.filter_some, if_neg (by simp), Option.map_none]
      rw [List.foldl_cons, collectStep_of_none hwinner] at hwinners ⊢
      obtain ⟨hrewrites, hduplicates⟩ := ih hwinners hdistinct fun c' hc' fqdn => by
        rw [Props.lookup_insert]
        split
        · exact fun h => hc (List.mem_map.2 ⟨c', hc', (Option.some.inj h).symm⟩)
        · exact hnew c' (List.mem_cons_of_mem _ hc') fqdn
      rw [List.filterMap_cons_some hrewrite, List.filterMap_cons_none hreport]
      exact ⟨hrewrites.trans (List.append_assoc _ _ _), hduplicates⟩

theorem Candidate.report_eq_some {winners : List (String × String × String)} {c : Candidate}
    {d : Duplicate} : c.report winners = some d ↔ ∃ winner, winners.lookup c.fqdn = some winner ∧
      winner ≠ c.svc.metadata.key ∧ d = ⟨c.svc, c.fqdn, winner.1, winner.2⟩ := by
  rw [Candidate.report, Option.map_eq_some_iff]
  simp only [Option.filter_eq_some_iff, decide_eq_true_eq, and_assoc, eq_comm (b := d)]

/-- Where all others give nothing, what is left is what the one gives. -/
theorem filterMap_eq_toList {α β : Type} {f : α → Option β} {xs : List α} {x : α}
    (hnodup : xs.Nodup) (hx : x ∈ xs) (hothers : ∀ y ∈ xs, y ≠ x → f y = none) :
    xs.filterMap f = (f x).toList := by
  obtain ⟨before, after, rfl⟩ := List.append_of_mem hx
  obtain ⟨hx, _⟩ := List.nodup_cons.1 (List.nodup_middle.1 hnodup)
  have hbefore : before.filterMap f = [] := List.filterMap_eq_nil_iff.2 fun y hy =>
    hothers y (List.mem_append_left _ hy) fun h => hx (List.mem_append_left _ (h ▸ hy))
  have hafter : after.filterMap f = [] := List.filterMap_eq_nil_iff.2 fun y hy =>
    hothers y (List.mem_append_right _ (List.mem_cons_of_mem _ hy)) fun h =>
      hx (List.mem_append_right _ (h ▸ hy))
  rw [List.filterMap_append, List.filterMap_cons, hbefore, hafter]
  cases f x <;> rfl

section Distinct

variable (hdistinct : (services.map fun svc => svc.metadata.key).Nodup)

include hdistinct

theorem nodup_candidates :
    ((candidates read digest ctx services).map (·.svc.metadata.key)).Nodup := by
  refine List.pairwise_map.2 ((pairwise_candidates hdistinct).imp fun {c d} hlt hkey => ?_)
  obtain ⟨hns, hname⟩ := Prod.mk.inj hkey
  rcases hlt with hlt | ⟨_, hlt⟩
  · exact String.lt_irrefl _ (hns ▸ hlt)
  · exact String.lt_irrefl _ (hname ▸ hlt)

/-- The candidates, parted. -/
theorem collect_eq :
    (collect read digest ctx services).rewrites = (candidates read digest ctx services).filterMap
        (Candidate.rewrite (collect read digest ctx services).winners) ∧
      (collect read digest ctx services).duplicates =
        (candidates read digest ctx services).filterMap
          (Candidate.report (collect read digest ctx services).winners) :=
  foldl_collectStep rfl (nodup_candidates hdistinct) fun _ _ _ h => by cases h

/-- A name goes to the Service that it is for. -/
theorem owns_iff : Owns read ctx services svc fqdn ↔
    svc ∈ services ∧ Gets read digest ctx services svc fqdn := by
  constructor
  · intro h
    refine ⟨h.mem, (gets_iff hdistinct h.mem).2 ⟨h.wants, fun svc' hsvc' hwants => ?_⟩⟩
    rcases h.first svc' hsvc' hwants with rfl | hlt
    · exact fun hlt => hlt.not_lt hlt
    · exact hlt.not_lt
  · rintro ⟨hsvc, hgets⟩
    obtain ⟨hwants, hleast⟩ := (gets_iff hdistinct hsvc).1 hgets
    refine ⟨hsvc, hwants, fun svc' hsvc' hwants' => ?_⟩
    by_cases hkey : svc.metadata.key = svc'.metadata.key
    · exact .inl (List.inj_on_of_nodup_map hdistinct hsvc' hsvc hkey.symm)
    · refine .inr (ObjectMeta.lt_of_le ?_ hkey)
      exact (ObjectMeta.le_total _ _).resolve_right fun hle =>
        hleast svc' hsvc' hwants' (ObjectMeta.lt_of_le hle (Ne.symm hkey))

/-! ### The rewrites -/

/-- No name is rewritten twice: two candidates that had it would be one. -/
theorem nodup_names_collect :
    ((collect read digest ctx services).rewrites.map Prod.fst).Nodup := by
  rw [(collect_eq hdistinct).1]
  refine List.pairwise_map.2 (List.pairwise_filterMap.2 ?_)
  refine (List.pairwise_map.1 (nodup_candidates hdistinct)).imp fun {c d} hne r hr r' hr' hsame => ?_
  obtain ⟨hc, hr⟩ := Option.ite_none_right_eq_some.1 hr
  obtain ⟨hd, hr'⟩ := Option.ite_none_right_eq_some.1 hr'
  obtain rfl := Option.some.inj hr
  obtain rfl := Option.some.inj hr'
  have hsame : c.fqdn = d.fqdn := hsame
  rw [hsame, hd] at hc
  exact hne (Option.some.inj hc).symm

theorem nodup_names_collectRewrites :
    ((collectRewrites read digest ctx services).1.map Prod.fst).Nodup :=
  ((List.perm_insertionSort rewriteLe _).map Prod.fst).nodup_iff.2 (nodup_names_collect hdistinct)

omit hdistinct in
theorem pairwise_rewriteLe (rewrites : List (String × String)) :
    (rewrites.insertionSort rewriteLe).Pairwise rewriteLe :=
  have hlex : ∀ a b, rewriteLe a b ↔ toLex a ≤ toLex b := fun _ _ => Prod.Lex.toLex_le_toLex.symm
  have : Std.Total rewriteLe := ⟨fun a b => by
    rw [hlex, hlex]
    exact le_total (toLex a) (toLex b)⟩
  have : IsTrans (String × String) rewriteLe := ⟨fun a b c hab hbc =>
    (hlex a c).2 (((hlex a b).1 hab).trans ((hlex b c).1 hbc))⟩
  List.pairwise_insertionSort rewriteLe rewrites

/-- The rewrites stand in the order of their names. -/
theorem sorted_collectRewrites :
    (collectRewrites read digest ctx services).1.Pairwise fun r r' => r.1 < r'.1 := by
  have hsorted : (collectRewrites read digest ctx services).1.Pairwise rewriteLe :=
    pairwise_rewriteLe _
  refine hsorted.imp₂ ?_ (List.pairwise_map.1 (nodup_names_collectRewrites hdistinct))
  intro r r' hle hne
  exact hle.resolve_right fun h => hne h.1

theorem count_collectRewrites (hsvc : svc ∈ services) (hwants : Wants read ctx svc fqdn) :
    ((collectRewrites read digest ctx services).1.map Prod.fst).count fqdn = 1 := by
  obtain ⟨winner, hwinner, hgets⟩ : ∃ svc' ∈ services, Gets read digest ctx services svc' fqdn :=
    exists_gets hsvc hwants
  refine List.count_eq_one_of_mem (nodup_names_collectRewrites hdistinct) (List.mem_map.2 ?_)
  exact ⟨(fqdn, rewriteTarget digest ctx winner), (mem_collectRewrites_iff hdistinct).2
    ⟨winner, hwinner, hgets, rfl⟩, rfl⟩

/-! ### The reports -/

/-- All that is said of a Service that wants a name is said of its candidate. -/
theorem filter_duplicates (hsvc : svc ∈ services) (hwants : Wants read ctx svc fqdn) :
    (collectRewrites read digest ctx services).2.filter
        (·.service.metadata.key == svc.metadata.key) =
      (Candidate.report (collect read digest ctx services).winners
        ⟨svc, fqdn, rewriteTarget digest ctx svc⟩).toList := by
  have hmem : ⟨svc, fqdn, rewriteTarget digest ctx svc⟩ ∈ candidates read digest ctx services :=
    mem_candidates.2 ⟨hsvc, hwants, rfl⟩
  have hnodup : ((candidates read digest ctx services).map (·.svc.metadata.key)).Nodup :=
    nodup_candidates hdistinct
  rw [collectRewrites, (collect_eq hdistinct).2, List.filter_filterMap,
    filterMap_eq_toList hnodup.of_map hmem fun c hc hne => ?_]
  · cases hreport : Candidate.report (collect read digest ctx services).winners
        ⟨svc, fqdn, rewriteTarget digest ctx svc⟩ with
    | none => rfl
    | some d =>
      obtain ⟨_, _, _, rfl⟩ := Candidate.report_eq_some.1 hreport
      exact congrArg Option.toList (Option.filter_some_pos (beq_self_eq_true svc.metadata.key))
  · refine Option.filter_eq_none_iff.2 fun d hd => ?_
    obtain ⟨_, _, _, rfl⟩ := Candidate.report_eq_some.1 hd
    rw [beq_iff_eq]
    exact fun hkey => hne (List.inj_on_of_nodup_map hnodup hc hmem hkey)

/-- Who does not get a name is told who has it. -/
theorem told_of_owns (hsvc : svc ∈ services) (hwants : Wants read ctx svc fqdn)
    (howns : Owns read ctx services winner fqdn) (hne : winner ≠ svc) :
    (collectRewrites read digest ctx services).2.filter
        (·.service.metadata.key == svc.metadata.key) = [duplicateOf svc fqdn winner] := by
  obtain ⟨hwinner, hgets⟩ : winner ∈ services ∧ Gets read digest ctx services winner fqdn :=
    (owns_iff hdistinct).1 howns
  have hkey : winner.metadata.key ≠ svc.metadata.key := fun hkey =>
    hne (List.inj_on_of_nodup_map hdistinct hwinner hsvc hkey)
  have hreport : Candidate.report (collect read digest ctx services).winners
      ⟨svc, fqdn, rewriteTarget digest ctx svc⟩ = some (duplicateOf svc fqdn winner) :=
    Candidate.report_eq_some.2 ⟨winner.metadata.key, hgets, hkey, rfl⟩
  rw [filter_duplicates hdistinct hsvc hwants, hreport, Option.toList_some]

/-- Only who does not get a name is told. -/
theorem exists_owns_of_mem_duplicates {d : Duplicate}
    (hd : d ∈ (collectRewrites read digest ctx services).2) :
    ∃ svc ∈ services, ∃ fqdn winner, Wants read ctx svc fqdn ∧
      Owns read ctx services winner fqdn ∧ winner ≠ svc ∧ d = duplicateOf svc fqdn winner := by
  rw [collectRewrites, (collect_eq hdistinct).2, List.mem_filterMap] at hd
  obtain ⟨c, hc, hreport⟩ := hd
  obtain ⟨hsvc, hwants, _⟩ := mem_candidates.1 hc
  obtain ⟨key, hlookup, hne, rfl⟩ := Candidate.report_eq_some.1 hreport
  rw [lookup_collect, Option.map_eq_some_iff] at hlookup
  obtain ⟨first, hfind, rfl⟩ := hlookup
  have hgets : Gets read digest ctx services first.svc c.fqdn := by
    rw [Gets, lookup_collect, hfind, Option.map_some]
  refine ⟨c.svc, hsvc, c.fqdn, first.svc, hwants, ?_, fun h => hne (h ▸ rfl), rfl⟩
  exact (owns_iff hdistinct).2 ⟨(wants_of_find?_candidates hfind).1, hgets⟩

/-! ### The order of the Services -/

omit hdistinct in
theorem candidates_perm {services' : List Service} (hperm : services'.Perm services) :
    (candidates read digest ctx services').Perm (candidates read digest ctx services) := by
  rw [candidates, candidates]
  refine (ObjectMeta.perm_sortBy _).trans (.trans ?_ (ObjectMeta.perm_sortBy _).symm)
  exact ((hperm.filter _).filter _).filterMap _

theorem collectRewrites_eq_of_perm {services' : List Service} (hperm : services'.Perm services) :
    collectRewrites read digest ctx services' = collectRewrites read digest ctx services := by
  have hcandidates : candidates read digest ctx services' = candidates read digest ctx services :=
    List.Perm.eq_of_pairwise (fun _ _ _ _ hab hba => absurd hba hab.not_lt)
      (pairwise_candidates ((hperm.map _).nodup_iff.2 hdistinct)) (pairwise_candidates hdistinct)
      (candidates_perm hperm)
  rw [collectRewrites, collectRewrites, collect, collect, hcandidates]

/-- However the Services are listed, each name goes to the first that wants it, and the others are
    told. -/
theorem collectRewrites_assigned :
    (Assigned read digest ctx services (collectRewrites read digest ctx services).1
        (collectRewrites read digest ctx services).2) ∧
      ∀ services', services'.Perm services →
        collectRewrites read digest ctx services' = collectRewrites read digest ctx services := by
  refine ⟨⟨sorted_collectRewrites hdistinct, fun svc hsvc fqdn => count_collectRewrites hdistinct hsvc,
    fun r hr => ?_, fun svc hsvc fqdn hwants winner => told_of_owns hdistinct hsvc hwants,
    fun d => exists_owns_of_mem_duplicates hdistinct⟩,
    fun services' => collectRewrites_eq_of_perm hdistinct⟩
  obtain ⟨svc, hsvc, hgets, htarget⟩ := (mem_collectRewrites_iff hdistinct).1 hr
  exact ⟨svc, (owns_iff hdistinct).2 ⟨hsvc, hgets⟩, htarget⟩

end Distinct

end Duplicates

open EgressDns (reader sha256 deployment db) in
/-- Of two Services with one name, the first by namespace has it, in whatever order they are. -/
theorem collectRewrites_assigned_db :
    (Assigned reader sha256 deployment [db "apps", db "aaa"]
        (collectRewrites reader sha256 deployment [db "apps", db "aaa"]).1
        (collectRewrites reader sha256 deployment [db "apps", db "aaa"]).2) ∧
      ∀ services', services'.Perm [db "apps", db "aaa"] →
        collectRewrites reader sha256 deployment services' =
          collectRewrites reader sha256 deployment [db "apps", db "aaa"] :=
  collectRewrites_assigned (by decide)

open EgressDns (reader sha256 deployment db) in
example : (collectRewrites reader sha256 deployment [db "apps", db "aaa"]).2.map
    (fun d => (d.service.ns, d.fqdn, d.winnerNs, d.winnerName)) =
      [("apps", "db.example.com", "aaa", "db")] := by decide +kernel

end Headmaster.Operator
