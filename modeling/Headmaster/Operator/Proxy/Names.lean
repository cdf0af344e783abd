import Headmaster.Kubernetes
import Headmaster.Operator.Proxy.Runs

/-!
# The names of the children

What a proxy consists of is named after the object that it is for
(`ProxyNames`), and labelled with it (`ChildApplier.labels`). A name is a prefix,
the first 40 bytes of namespace and name, and the first digits of a hash.

* `names_apart`: objects whose hashes differ have no name of a kind in common;
* `valid_iff`: the API server accepts the names and the labels for every
  Service, and for an Ingress unless its name is longer than a label may be or
  has a dot among those bytes (`not_valid_of_dotted`).
-/

namespace Headmaster.Operator.Proxy

open Kubernetes

/-- The digest is SHA-256, in hexadecimal digits. -/
structure Hex (digest : Digest) : Prop where
  length : ∀ s, (digest s).length = 64
  digits : ∀ s, ∀ c ∈ (digest s).toList, c ∈ "0123456789abcdef".toList

namespace ObjectReference

variable (digest : Digest) (parent : ObjectReference)

/-- Namespace and name are ones that the API server accepts for the kind. -/
def isValid : Bool :=
  isDns1123Label parent.ns &&
    match parent.kind with
    | .ingress => isDns1123Subdomain parent.name
    | .service => isDns1035Label parent.name

/-- What is hashed. -/
def hashInput : String :=
  match parent.kind with
  | .ingress => parent.ns ++ "\x00" ++ parent.name
  | .service => "svc\x00" ++ parent.ns ++ "\x00" ++ parent.name

/-- What is shown of namespace and name, before it is cut. -/
def display : String :=
  match parent.kind with
  | .ingress => parent.ns ++ "-" ++ parent.name
  | .service => "svc-" ++ parent.ns ++ "-" ++ parent.name

/-- The digits of the hash that are in the names. -/
def hash : List Char := (digest parent.hashInput).toList.take 8

theorem names_eq : parent.names digest = .fromParts digest parent.hashInput parent.display := by
  rcases parent with ⟨kind, ns, name⟩
  cases kind <;> rfl

end ObjectReference

/-! ## Labels -/

def appName : String := "app.kubernetes.io/name"

def appInstance : String := "app.kubernetes.io/instance"

def appManagedBy : String := "app.kubernetes.io/managed-by"

def managedByValue : String := "headmaster"

def ingressName : String := "headmaster.potatonode.github.io/ingress-name"

def ingressNamespace : String := "headmaster.potatonode.github.io/ingress-namespace"

def parentKind : String := "headmaster.potatonode.github.io/parent-kind"

def proxyComponent : String := "tailscale-proxy"

def ParentKind.value : ParentKind → String
  | ingress => "ingress"
  | service => "service"

namespace ChildApplier

variable (child : ChildApplier)

/-- The labels of the owner, and the object that the proxy is for. -/
def extraLabels (ownerLabels : List (String × String)) : List (String × String) :=
  Props.extend (Props.extend [] ownerLabels)
    [(parentKind, child.parent.kind.value), (ingressName, child.parent.name),
      (ingressNamespace, child.parent.ns)]

/-- The labels of a child that comes with some of its own. -/
def labels (ownerLabels : List (String × String)) (component : String)
    (own : List (String × String)) : List (String × String) :=
  Props.extend (Props.extend own (child.extraLabels ownerLabels))
    [(appName, component), (appInstance, child.proxyBase), (appManagedBy, managedByValue)]

/-- The labels that are not the user's, with their values. -/
def stamped : List (String × String) :=
  [(appName, proxyComponent), (appInstance, child.proxyBase), (appManagedBy, managedByValue),
    (parentKind, child.parent.kind.value), (ingressName, child.parent.name),
    (ingressNamespace, child.parent.ns)]

/-- Whatever labels the owner and the child have, these are theirs. -/
theorem lookup_labels {ownerLabels own : List (String × String)} {key value : String}
    (h : (key, value) ∈ child.stamped) :
    (child.labels ownerLabels proxyComponent own).lookup key = some value := by
  have hnodup : ((child.extraLabels ownerLabels).map Prod.fst).Nodup :=
    Props.nodup_extend _ (Props.nodup_extend _ List.nodup_nil)
  rw [labels, Props.lookup_extend, Props.lookup_extend,
    ← Props.lookup_eq_last (Props.once_of_nodup hnodup key), extraLabels, Props.lookup_extend]
  rw [stamped] at h
  simp only [List.mem_cons, Prod.mk.injEq, List.not_mem_nil, or_false] at h
  rcases h with ⟨rfl, rfl⟩ | ⟨rfl, rfl⟩ | ⟨rfl, rfl⟩ | ⟨rfl, rfl⟩ | ⟨rfl, rfl⟩ | ⟨rfl, rfl⟩
  all_goals rfl

end ChildApplier

/-! ## What the names are made of -/

section Parts

variable {digest : Digest} {parent : ObjectReference}

theorem isLowerAlnum_of_hex {c : Char} (h : c ∈ "0123456789abcdef".toList) : isLowerAlnum c = true := by
  have hall : "0123456789abcdef".toList.all isLowerAlnum = true := by decide
  exact List.all_eq_true.1 hall c h

/-- Of characters of one byte each, as many remain. -/
theorem floorCharBoundary_eq_take {cs : List Char} (h : ∀ c ∈ cs, c.utf8Size = 1) (n : ℕ) :
    floorCharBoundary n cs = cs.take n := by
  induction cs generalizing n with
  | nil => rw [floorCharBoundary, List.take_nil]
  | cons c cs ih =>
    rw [floorCharBoundary, h c List.mem_cons_self]
    cases n with
    | zero => rfl
    | succ n => rw [if_pos (by omega), Nat.add_sub_cancel, ih fun d hd => h d (List.mem_cons_of_mem _ hd),
        List.take_succ_cons]

namespace ObjectReference

theorem length_hash (hdigest : Hex digest) : (parent.hash digest).length = 8 := by
  rw [hash, List.length_take, String.length_toList, hdigest.length]
  rfl

theorem toList_proxyBase : (parent.names digest).proxyBase.toList =
    floorCharBoundary 40 parent.display.toList ++ '-' :: parent.hash digest := by
  rw [names_eq]
  simp [ProxyNames.fromParts, hash]

/-- All names end with the base. -/
theorem exists_name {kind : Kind} {name : String}
    (h : (kind, name) ∈ proxyResources (parent.names digest)) :
    ∃ pre, name = pre ++ (parent.names digest).proxyBase ∧ pre ∈
      ["proxy-", "proxy-wg-", "proxy-authkey-", "proxy-state-", "proxy-serve-"] := by
  rw [names_eq] at h ⊢
  simp only [proxyResources, List.mem_cons, Prod.mk.injEq, List.not_mem_nil, or_false] at h
  rcases h with ⟨_, rfl⟩ | ⟨_, rfl⟩ | ⟨_, rfl⟩ | ⟨_, rfl⟩ | ⟨_, rfl⟩ | ⟨_, rfl⟩ | ⟨_, rfl⟩ | ⟨_, rfl⟩ |
    ⟨_, rfl⟩
  all_goals exact ⟨_, rfl, by decide⟩

/-- Namespace and name are of the characters of labels, and dots. -/
theorem chars_of_isValid (h : parent.isValid = true) :
    (∀ c ∈ parent.ns.toList, isLabelChar c = true) ∧
      ∀ c ∈ parent.name.toList, c = '.' ∧ parent.kind = .ingress ∨ isLabelChar c = true := by
  rcases parent with ⟨kind, ns, name⟩
  obtain ⟨hns, hname⟩ := Bool.and_eq_true_iff.1 h
  refine ⟨chars_of_isDns1123Label hns, fun c hc => ?_⟩
  cases kind with
  | ingress => exact (chars_of_isDns1123Subdomain hname c hc).imp_left fun h => ⟨h, rfl⟩
  | service => exact .inr (chars_of_isDns1035Label hname c hc)

theorem chars_display (h : parent.isValid = true) :
    ∀ c ∈ parent.display.toList, c = '.' ∧ parent.kind = .ingress ∨ isLabelChar c = true := by
  obtain ⟨hns, hname⟩ := chars_of_isValid h
  intro c hc
  rcases parent with ⟨kind, ns, name⟩
  cases kind <;> simp only [display, String.toList_append, List.mem_append] at hc
  · rcases hc with (hc | hc) | hc
    · exact .inr (hns c hc)
    · rw [List.mem_singleton.1 hc]
      exact .inr rfl
    · exact hname c hc
  · rcases hc with ((hc | hc) | hc) | hc
    · have hall : "svc-".toList.all isLabelChar = true := by decide
      exact .inr (List.all_eq_true.1 hall c hc)
    · exact .inr (hns c hc)
    · rw [List.mem_singleton.1 hc]
      exact .inr rfl
    · exact hname c hc

/-- What is shown is all ASCII: the cut is after 40 characters. -/
theorem shown_eq (h : parent.isValid = true) :
    floorCharBoundary 40 parent.display.toList = parent.display.toList.take 40 := by
  refine floorCharBoundary_eq_take (fun c hc => ?_) 40
  rcases chars_display h c hc with ⟨rfl, _⟩ | hc
  · rfl
  · exact utf8Size_of_isLabelChar hc

end ObjectReference

end Parts

/-! ## No two objects have a name in common -/

section Apart

variable {digest : Digest} {p q : ObjectReference}

namespace ObjectReference

theorem notMem_of_isValid (h : p.isValid = true) :
    '\x00' ∉ p.ns.toList ∧ '\x00' ∉ p.name.toList := by
  obtain ⟨hns, hname⟩ := chars_of_isValid h
  refine ⟨fun hc => absurd (hns _ hc) (by decide), fun hc => ?_⟩
  rcases hname _ hc with ⟨hdot, _⟩ | hlabel
  · exact absurd hdot (by decide)
  · exact absurd hlabel (by decide)

theorem toList_hashInput : p.hashInput.toList = match p.kind with
    | .ingress => p.ns.toList ++ '\x00' :: p.name.toList
    | .service => "svc".toList ++ '\x00' :: (p.ns.toList ++ '\x00' :: p.name.toList) := by
  rcases p with ⟨kind, ns, name⟩
  cases kind <;> simp [hashInput]

/-- An Ingress and a Service differ in how many characters separate. -/
theorem hashInput_ne_of_kind (hp : p.isValid = true) (hpkind : p.kind = .ingress)
    (hqkind : q.kind = .service) : p.hashInput ≠ q.hashInput := by
  intro h
  have hlist := congrArg String.toList h
  rw [toList_hashInput, toList_hashInput, hpkind, hqkind] at hlist
  obtain ⟨hns, hname⟩ := notMem_of_isValid hp
  obtain ⟨_, _, hrest⟩ := (List.append_cons_inj_of_notMem hns hname).1 hlist
  rw [hrest] at hname
  exact hname (List.mem_append_right _ List.mem_cons_self)

/-- No namespace and no name has the character that separates them. -/
theorem hashInput_injective (hp : p.isValid = true) (hq : q.isValid = true)
    (h : p.hashInput = q.hashInput) : p = q := by
  obtain ⟨hns, hname⟩ := notMem_of_isValid hp
  have hlist := congrArg String.toList h
  cases hpkind : p.kind <;> cases hqkind : q.kind
  case ingress.service => exact absurd h (hashInput_ne_of_kind hp hpkind hqkind)
  case service.ingress => exact absurd h.symm (hashInput_ne_of_kind hq hqkind hpkind)
  all_goals
    rw [toList_hashInput, toList_hashInput, hpkind, hqkind] at hlist
    simp only [List.append_cancel_left_eq, List.cons.injEq, true_and] at hlist
    obtain ⟨hnss, _, hnames⟩ := (List.append_cons_inj_of_notMem hns hname).1 hlist
    rcases p with ⟨kind, ns, name⟩
    rcases q with ⟨kind', ns', name'⟩
    obtain rfl := String.toList_inj.1 hnss
    obtain rfl := String.toList_inj.1 hnames
    rw [ObjectReference.mk.injEq]
    exact ⟨hpkind.trans hqkind.symm, rfl, rfl⟩

/-- Texts that end with the bases end with the hashes. -/
theorem hash_eq_of_append (hdigest : Hex digest) {s s' : String}
    (h : s ++ (p.names digest).proxyBase = s' ++ (q.names digest).proxyBase) :
    p.hash digest = q.hash digest := by
  have hends (t : String) (r : ObjectReference) : (t ++ (r.names digest).proxyBase).toList =
      (t.toList ++ floorCharBoundary 40 r.display.toList ++ ['-']) ++ r.hash digest := by
    rw [String.toList_append, toList_proxyBase, List.append_assoc, List.append_assoc,
      List.singleton_append]
  have hlist := congrArg String.toList h
  rw [hends, hends] at hlist
  refine List.append_inj_right' hlist ?_
  rw [length_hash hdigest, length_hash hdigest]

theorem nodup_proxyResources : (proxyResources (p.names digest)).Nodup := by
  have hsecrets := p.configSecretName_ne digest
  simp [proxyResources, hsecrets]

end ObjectReference

/-- Two objects have nothing in common in what they are given names for, if their hashes differ. -/
structure NamesApart (digest : Digest) (p q : ObjectReference) : Prop where
  hashInputs : p.hashInput ≠ q.hashInput
  bases : p.hash digest ≠ q.hash digest → (p.names digest).proxyBase ≠ (q.names digest).proxyBase
  tags : p.hash digest ≠ q.hash digest → p.kind = .ingress → q.kind = .ingress →
    ingressAutoTag digest p.ns p.name ≠ ingressAutoTag digest q.ns q.name
  resources : p.hash digest ≠ q.hash digest → ∀ kind name,
    (kind, name) ∈ proxyResources (p.names digest) → (kind, name) ∉ proxyResources (q.names digest)
  /-- Nor does one object use a name twice for a kind. -/
  own : (proxyResources (p.names digest)).Nodup ∧ (proxyResources (q.names digest)).Nodup

/-- Whatever two objects are, the names of what they consist of are told apart by the hashes. -/
theorem names_apart (hdigest : Hex digest) (hp : p.isValid = true) (hq : q.isValid = true)
    (hne : p ≠ q) : NamesApart digest p q where
  hashInputs h := hne (ObjectReference.hashInput_injective hp hq h)
  bases hhash h := hhash (ObjectReference.hash_eq_of_append hdigest (congrArg ("" ++ ·) h))
  tags hhash hpkind hqkind h := by
    have htag {r : ObjectReference} (hkind : r.kind = .ingress) :
        ingressAutoTag digest r.ns r.name = "tag:hm-" ++ (r.names digest).proxyBase := by
      rw [ObjectReference.names, hkind, ingressAutoTag]
    rw [htag hpkind, htag hqkind] at h
    exact hhash (ObjectReference.hash_eq_of_append hdigest h)
  resources hhash kind name hmem hmem' := by
    obtain ⟨pre, hname, _⟩ := ObjectReference.exists_name hmem
    obtain ⟨pre', hname', _⟩ := ObjectReference.exists_name hmem'
    exact hhash (ObjectReference.hash_eq_of_append hdigest (hname.symm.trans hname'))
  own := ⟨ObjectReference.nodup_proxyResources, ObjectReference.nodup_proxyResources⟩

end Apart

/-! ## What the API server accepts -/

/-- The format of the names of a kind. -/
def Kind.accepts : Kind → String → Bool
  | .service => isDns1035Label
  | _ => isDns1123Subdomain

/-- The API server accepts what an object has names and labels for. -/
structure NamesValid (digest : Digest) (parent : ObjectReference) : Prop where
  resources : ∀ kind name, (kind, name) ∈ proxyResources (parent.names digest) →
    kind.accepts name = true
  /-- Whatever the instance is that owns a child, and whatever labels it has. -/
  labels : ∀ owner ownerLabels own,
    let child : ChildApplier := ⟨owner, (parent.names digest).proxyBase, parent⟩
    ∀ key ∈ child.stamped.map Prod.fst, ∃ value,
      (child.labels ownerLabels proxyComponent own).lookup key = some value ∧
        isLabelValue value = true

section Valid

variable {digest : Digest} {parent : ObjectReference}

/-- What is shown is the beginning of a label. -/
theorem head_display (h : parent.isValid = true) :
    ∃ c ∈ (parent.display.toList.take 40).head?, isLowerAlnum c = true := by
  rcases parent with ⟨kind, ns, name⟩
  cases kind with
  | service =>
    refine ⟨'s', ?_, rfl⟩
    simp [ObjectReference.display]
  | ingress =>
    obtain ⟨⟨c, hc, hfirst⟩, _⟩ :=
      framed_iff.1 (Bool.and_eq_true_iff.1 (Bool.and_eq_true_iff.1 h).1).2
    refine ⟨c, ?_, hfirst⟩
    simp [ObjectReference.display, List.head?_take, List.head?_append, Option.mem_def.1 hc]

theorem mem_hash {c : Char} (hdigest : Hex digest) (hc : c ∈ parent.hash digest) :
    isLowerAlnum c = true :=
  isLowerAlnum_of_hex (hdigest.digits _ c (List.mem_of_mem_take hc))

theorem length_proxyBase (hdigest : Hex digest) (h : parent.isValid = true) :
    (parent.names digest).proxyBase.length ≤ 49 := by
  rw [← String.length_toList, ObjectReference.toList_proxyBase, ObjectReference.shown_eq h,
    List.length_append, List.length_cons, ObjectReference.length_hash hdigest]
  exact Nat.add_le_add_right (List.length_take_le _ _) 9

/-- Where no dot is shown, the base is of the characters of labels. -/
theorem chars_proxyBase (hdigest : Hex digest) (h : parent.isValid = true)
    (hdot : '.' ∉ parent.display.toList.take 40) :
    ∀ c ∈ (parent.names digest).proxyBase.toList, isLabelChar c = true := by
  intro c hc
  rw [ObjectReference.toList_proxyBase, ObjectReference.shown_eq h] at hc
  rcases List.mem_append.1 hc with hc | hc
  · rcases ObjectReference.chars_display h c (List.mem_of_mem_take hc) with ⟨rfl, _⟩ | hlabel
    · exact absurd hc hdot
    · exact hlabel
  · rcases List.mem_cons.1 hc with rfl | hc
    · rfl
    · exact Bool.or_eq_true_iff.2 (.inl (mem_hash hdigest hc))

theorem last_proxyBase (hdigest : Hex digest) :
    ∃ c ∈ (parent.names digest).proxyBase.toList.getLast?, isLowerAlnum c = true := by
  rw [ObjectReference.toList_proxyBase, List.getLast?_append_cons]
  have hlength := parent.length_hash hdigest
  match hhash : parent.hash digest with
  | [] => rw [hhash] at hlength; cases hlength
  | c :: cs =>
    have hmem : ∀ d ∈ parent.hash digest, isLowerAlnum d = true := fun _ => mem_hash hdigest
    refine ⟨_, List.getLast?_eq_some_getLast (List.cons_ne_nil _ _), hmem _ ?_⟩
    rw [List.getLast_cons (List.cons_ne_nil _ _), hhash]
    exact List.getLast_mem _

/-- Where no dot is shown, a name is one of a Service. -/
theorem isDns1035Label_append (hdigest : Hex digest) (h : parent.isValid = true)
    (hdot : '.' ∉ parent.display.toList.take 40) {pre : String}
    (hpre : pre ∈ ["proxy-", "proxy-wg-", "proxy-authkey-", "proxy-state-", "proxy-serve-"]) :
    isDns1035Label (pre ++ (parent.names digest).proxyBase) = true := by
  have hbase := length_proxyBase hdigest h
  have hall : ∀ pre ∈ ["proxy-", "proxy-wg-", "proxy-authkey-", "proxy-state-", "proxy-serve-"],
      pre.length ≤ 14 ∧ pre.toList.head?.any Char.isLower = true ∧
        pre.toList.all isLabelChar = true := by decide
  obtain ⟨hlength, hhead, hchars⟩ := hall pre hpre
  refine Bool.and_eq_true_iff.2 ⟨decide_eq_true ?_, ?_⟩
  · rw [String.length_append]
    omega
  · rw [String.toList_append]
    refine framed_append ((Option.any_eq_true _ _).1 hhead) (fun c hc => ?_) (last_proxyBase hdigest)
    exact (List.mem_append.1 hc).elim (List.all_eq_true.1 hchars c) (chars_proxyBase hdigest h hdot c)

theorem isDns1123Label_proxyBase (hdigest : Hex digest) (h : parent.isValid = true)
    (hdot : '.' ∉ parent.display.toList.take 40) :
    isDns1123Label (parent.names digest).proxyBase = true := by
  have hbase := length_proxyBase hdigest h
  have hchars := chars_proxyBase hdigest h hdot
  have hlast : ∃ c ∈ (parent.names digest).proxyBase.toList.getLast?, isLowerAlnum c = true :=
    last_proxyBase hdigest
  refine Bool.and_eq_true_iff.2 ⟨decide_eq_true (by omega), framed_iff.2 ⟨?_, hchars, hlast⟩⟩
  obtain ⟨c, hc, hfirst⟩ := head_display h
  refine ⟨c, ?_, hfirst⟩
  rw [ObjectReference.toList_proxyBase, ObjectReference.shown_eq h, List.head?_append,
    Option.mem_def.1 hc]
  rfl

/-- A Service has no dots. -/
theorem dot_notMem_display (h : parent.isValid = true) (hkind : parent.kind = .service) :
    '.' ∉ parent.display.toList := fun hc =>
  (ObjectReference.chars_display h _ hc).elim
    (fun ⟨_, hingress⟩ => by rw [hkind] at hingress; cases hingress)
    fun hlabel => absurd hlabel (by decide)

/-- Short names without a dot that is shown are accepted wherever they are used. -/
theorem namesValid_of_dotless (hdigest : Hex digest) (h : parent.isValid = true)
    (hdot : '.' ∉ parent.display.toList.take 40) (hname : isLabelValue parent.name = true) :
    NamesValid digest parent where
  resources kind name hmem := by
    obtain ⟨pre, rfl, hpre⟩ := ObjectReference.exists_name hmem
    have hlabel := isDns1035Label_append hdigest h hdot hpre
    cases kind with
    | service => exact hlabel
    | _ => exact isDns1123Subdomain_of_label (isDns1123Label_of_1035 hlabel)
  labels owner ownerLabels own := by
    intro child key hkey
    obtain ⟨⟨key, value⟩, hmem, rfl⟩ := List.mem_map.1 hkey
    refine ⟨value, ChildApplier.lookup_labels _ hmem, ?_⟩
    simp only [ChildApplier.stamped, List.mem_cons, Prod.mk.injEq, List.not_mem_nil, or_false] at hmem
    rcases hmem with ⟨_, rfl⟩ | ⟨_, rfl⟩ | ⟨_, rfl⟩ | ⟨_, rfl⟩ | ⟨_, rfl⟩ | ⟨_, rfl⟩
    · decide
    · exact isLabelValue_of_label (isDns1123Label_proxyBase hdigest h hdot)
    · decide
    · change isLabelValue parent.kind.value = true
      cases parent.kind <;> decide
    · exact hname
    · exact isLabelValue_of_label (Bool.and_eq_true_iff.1 h).1

/-- The name of the object is the value of a label. -/
theorem NamesValid.name (h : NamesValid digest parent) : isLabelValue parent.name = true := by
  let child : ChildApplier := ⟨"", (parent.names digest).proxyBase, parent⟩
  have hmem : (ingressName, parent.name) ∈ child.stamped := by simp [child, ChildApplier.stamped]
  obtain ⟨value, hlookup, hvalue⟩ := h.labels "" [] [] ingressName (List.mem_map_of_mem hmem)
  rw [ChildApplier.lookup_labels _ hmem] at hlookup
  rwa [Option.some.inj hlookup]

/-- The name of the Service in front of the proxy has no dot. -/
theorem NamesValid.dot_notMem (h : NamesValid digest parent) (hvalid : parent.isValid = true) :
    '.' ∉ parent.display.toList.take 40 := by
  intro hdot
  have hmem : (Kind.service, (parent.names digest).wgServiceName) ∈
      proxyResources (parent.names digest) := by
    simp [proxyResources]
  obtain ⟨pre, hname, _⟩ := ObjectReference.exists_name hmem
  refine absurd (chars_of_isDns1035Label (h.resources _ _ hmem) '.' ?_) (by decide)
  rw [hname, String.toList_append, ObjectReference.toList_proxyBase, ObjectReference.shown_eq hvalid]
  exact List.mem_append_right _ (List.mem_append_left _ hdot)

/-- All is accepted exactly for a Service, and for an Ingress whose name is short, and has no dot
    that is shown. -/
theorem valid_iff (hdigest : Hex digest) (h : parent.isValid = true) :
    NamesValid digest parent ↔ parent.kind = .service ∨
      parent.name.length ≤ 63 ∧ '.' ∉ (parent.ns ++ "-" ++ parent.name).toList.take 40 := by
  have hname := (Bool.and_eq_true_iff.1 h).2
  cases hkind : parent.kind with
  | service =>
    rw [hkind] at hname
    refine iff_of_true (namesValid_of_dotless hdigest h ?_ ?_) (.inl rfl)
    · exact fun hdot => dot_notMem_display h hkind (List.mem_of_mem_take hdot)
    · exact isLabelValue_of_label (isDns1123Label_of_1035 hname)
  | ingress =>
    rw [hkind] at hname
    have hdisplay : parent.display = parent.ns ++ "-" ++ parent.name := by
      rw [ObjectReference.display, hkind]
    rw [← hdisplay]
    constructor
    · intro hnames
      have hlength := (Bool.and_eq_true_iff.1 hnames.name).1
      exact .inr ⟨of_decide_eq_true hlength, hnames.dot_notMem h⟩
    · rintro (hservice | ⟨hlength, hdot⟩)
      · cases hservice
      · exact namesValid_of_dotless hdigest h hdot (isLabelValue_of_subdomain hname hlength)

end Valid

namespace Names

/-! ### Objects of some names -/

/-- The digest for the names of the three below. -/
def sha256 : Digest := fun s =>
  if s = "a-b\x00c" then "695274f6b86e6e905d2d63600faba937eb4003b60a72aae0fea7434f4f1e4a73"
  else if s = "a\x00b-c" then "02654a5c0c95227cd7c1e05e6a7fe0ebc864e0a98b51215619d99718818fd0eb"
  else "72621a7fbe93a26d30794c9eb1850e627226b0ee8465876f28a7f6ae9bcb5f72"

theorem hex_sha256 : Hex sha256 := by
  refine ⟨fun s => ?_, fun s => ?_⟩ <;> rw [sha256]
  · split
    · decide
    · split <;> decide
  · split
    · exact Text.forall_mem_of_all (by decide)
    · split <;> exact Text.forall_mem_of_all (by decide)

/-- An Ingress with the name of a host. -/
def dotted : ObjectReference := ⟨.ingress, "default", "app.example"⟩

end Names

open Names (sha256 hex_sha256) in
/-- Both are shown as `a-b-c`, and the names differ. -/
theorem names_apart_alike : NamesApart sha256 ⟨.ingress, "a-b", "c"⟩ ⟨.ingress, "a", "b-c"⟩ ∧
    ingressAutoTag sha256 "a-b" "c" ≠ ingressAutoTag sha256 "a" "b-c" := by
  have hapart : NamesApart sha256 ⟨.ingress, "a-b", "c"⟩ ⟨.ingress, "a", "b-c"⟩ :=
    names_apart hex_sha256 (by decide) (by decide) (by decide)
  exact ⟨hapart, hapart.tags (by decide) rfl rfl⟩

open Names (sha256 hex_sha256) in
/-- A name without dots is accepted. -/
theorem valid_iff_dotless : NamesValid sha256 ⟨.ingress, "a", "b-c"⟩ :=
  (valid_iff hex_sha256 (by decide)).2 (.inr (by decide))

open Names (sha256 hex_sha256 dotted) in
/-- The name of a host is accepted for an Ingress, and not for the Service in front of its proxy. -/
theorem not_valid_of_dotted : Hex sha256 ∧ dotted.isValid = true ∧
    (dotted.names sha256).wgServiceName = "proxy-wg-default-app.example-72621a7f" ∧
    ¬NamesValid sha256 dotted := by
  refine ⟨hex_sha256, by decide, by decide, fun h => ?_⟩
  exact absurd (h.resources .service _ (List.mem_cons_of_mem _ List.mem_cons_self)) (by decide)

end Headmaster.Operator.Proxy
