import Headmaster.Operator.Proxy.Names

/-!
# The override of the cluster DNS

The cluster DNS reads the override line by line, as one directive each
(`readOverride`). It is written from the names of the annotations as they are
(`buildOverride`): it reads as the rewrites that were collected exactly if no
name has a blank (`readOverride_iff`, `injected_directive`).
-/

namespace Headmaster.Operator.Proxy

open Kubernetes
open Text (isSpace)

/-! ## Reading the override -/

/-- The rewrite of a line, by its words. -/
def readDirective : List (List Char) → Option (String × String)
  | [directive, field, fqdn, target] =>
    if directive = "rewrite".toList ∧ field = "name".toList then
      some (String.ofList fqdn, String.ofList target)
    else none
  | _ => none

/-- The rewrites, if the lines that are not blank are nothing else. -/
def readOverride (text : String) : Option (List (String × String)) :=
  (((text.toList.splitOn '\n').map (Text.fields isSpace)).filter (· ≠ [])).mapM readDirective

/-- The text is one word. -/
def IsToken (s : String) : Prop := s ≠ "" ∧ ∀ c ∈ s.toList, isSpace c = false

section Texts

variable {rewrites : List (String × String)}

/-- What is read of a list is read of its elements. -/
theorem exists_of_mem_mapM {α β : Type} {f : α → Option β} {xs : List α} {ys : List β}
    (h : xs.mapM f = some ys) : ∀ y ∈ ys, ∃ x ∈ xs, f x = some y := by
  induction xs generalizing ys with
  | nil =>
    rw [← Option.some.inj h]
    exact List.forall_mem_nil _
  | cons x xs ih =>
    rw [List.mapM_cons] at h
    obtain ⟨y, hy, h⟩ := Option.bind_eq_some_iff.1 h
    obtain ⟨ys', hys, h⟩ := Option.bind_eq_some_iff.1 h
    rw [← Option.some.inj h]
    refine List.forall_mem_cons.2 ⟨⟨x, List.mem_cons_self, hy⟩, fun z hz => ?_⟩
    obtain ⟨x', hx', hz⟩ := ih hys z hz
    exact ⟨x', List.mem_cons_of_mem _ hx', hz⟩

theorem mapM_map_eq {α β : Type} {f : α → Option β} {g : β → α} {ys : List β}
    (h : ∀ y ∈ ys, f (g y) = some y) : (ys.map g).mapM f = some ys := by
  induction ys with
  | nil => rfl
  | cons y ys ih =>
    rw [List.map_cons, List.mapM_cons, h y List.mem_cons_self,
      ih fun z hz => h z (List.mem_cons_of_mem _ hz)]
    rfl

theorem isToken_ofList {w : List Char} (h : w ≠ [] ∧ ∀ c ∈ w, isSpace c = false) :
    IsToken (String.ofList w) := by
  refine ⟨fun hempty => h.1 ?_, by rw [String.toList_ofList]; exact h.2⟩
  rw [← String.toList_ofList (l := w), hempty]
  rfl

theorem isToken_of_readDirective {words : List (List Char)} {r : String × String}
    (h : readDirective words = some r) (hwords : ∀ w ∈ words, w ≠ [] ∧ ∀ c ∈ w, isSpace c = false) :
    IsToken r.1 ∧ IsToken r.2 := by
  match words, h with
  | [directive, field, fqdn, target], h =>
    rw [readDirective] at h
    split_ifs at h
    obtain rfl := Option.some.inj h
    exact ⟨isToken_ofList (hwords fqdn (by simp)), isToken_ofList (hwords target (by simp))⟩

/-- What is read is words. -/
theorem isToken_of_readOverride {text : String} (h : readOverride text = some rewrites) :
    ∀ r ∈ rewrites, IsToken r.1 ∧ IsToken r.2 := by
  intro r hr
  obtain ⟨words, hwords, hread⟩ := exists_of_mem_mapM h r hr
  obtain ⟨line, _, rfl⟩ := List.mem_map.1 (List.mem_filter.1 hwords).1
  exact isToken_of_readDirective hread fun w hw => Text.mem_fields hw

/-- The line for a rewrite, without what ends it. -/
def lineOf (r : String × String) : List Char :=
  "rewrite".toList ++ ' ' :: ("name".toList ++ ' ' :: (r.1.toList ++ ' ' :: r.2.toList))

theorem toList_buildOverride :
    (buildOverride rewrites).toList = (rewrites.map lineOf).flatMap (· ++ ['\n']) := by
  rw [buildOverride, String.toList_join, List.flatMap_map, List.flatMap_map]
  refine List.flatMap_congr fun r _ => ?_
  unfold lineOf
  simp

/-- The line for words has these. -/
theorem fields_lineOf {r : String × String} (h : IsToken r.1 ∧ IsToken r.2) :
    Text.fields isSpace (lineOf r) = ["rewrite".toList, "name".toList, r.1.toList, r.2.toList] := by
  have hne {s : String} (hs : IsToken s) : s.toList ≠ [] := fun hempty =>
    hs.1 (String.toList_inj.1 hempty)
  unfold lineOf
  rw [Text.fields_append_cons (by decide) (Text.forall_mem_of_all (by decide)) rfl,
    Text.fields_append_cons (by decide) (Text.forall_mem_of_all (by decide)) rfl,
    Text.fields_append_cons (hne h.1) h.1.2 rfl, Text.fields_word (hne h.2) h.2.2]

theorem newline_notMem_lineOf {r : String × String} (h : IsToken r.1 ∧ IsToken r.2) :
    '\n' ∉ lineOf r := by
  have hspace {s : String} (hs : IsToken s) : '\n' ∉ s.toList := fun hmem =>
    absurd (hs.2 _ hmem) (by decide)
  unfold lineOf
  simp only [List.mem_append, List.mem_cons, not_or]
  exact ⟨by decide, by decide, by decide, by decide, hspace h.1, by decide, hspace h.2⟩

theorem readOverride_buildOverride (h : ∀ r ∈ rewrites, IsToken r.1 ∧ IsToken r.2) :
    readOverride (buildOverride rewrites) = some rewrites := by
  have hlines : (buildOverride rewrites).toList.splitOn '\n' = rewrites.map lineOf ++ [[]] := by
    rw [toList_buildOverride, ← List.append_nil (List.flatMap _ _), Text.splitOn_lines]
    · rfl
    · intro line hline
      obtain ⟨r, hr, rfl⟩ := List.mem_map.1 hline
      exact newline_notMem_lineOf (h r hr)
  have hwords : rewrites.map (Text.fields isSpace ∘ lineOf) =
      rewrites.map fun r => ["rewrite".toList, "name".toList, r.1.toList, r.2.toList] :=
    List.map_congr_left fun r hr => fields_lineOf (h r hr)
  have hlast : ([[]].map (Text.fields isSpace)).filter (· ≠ []) = [] := rfl
  rw [readOverride, hlines, List.map_append, List.map_map, hwords, List.filter_append, hlast,
    List.append_nil, List.filter_eq_self.2 fun words hmem => ?_]
  · refine mapM_map_eq fun r _ => ?_
    rw [readDirective, if_pos ⟨rfl, rfl⟩, String.ofList_toList, String.ofList_toList]
  · obtain ⟨r, _, rfl⟩ := List.mem_map.1 hmem
    rfl

end Texts

/-! ## The rewrites of the egress Services -/

section Services

variable {read : Reader} {digest : Digest} {ctx : Context} {services : List Service}

theorem isSpace_of_isLabelChar {c : Char} (h : isLabelChar c = true) : isSpace c = false := by
  have hrange := toNat_of_isLabelChar h
  simp only [isSpace, List.mem_cons, List.not_mem_nil, or_false, Bool.or_eq_false_iff,
    Bool.and_eq_false_iff, decide_eq_false_iff_not, not_or]
  omega

/-- The target of a rewrite is a word. -/
theorem isToken_rewriteTarget {svc : Service} (hdigest : Hex digest)
    (hctx : isDns1123Label ctx.operatorNamespace = true)
    (hvalid : (ObjectReference.mk .service svc.ns svc.metadata.name).isValid = true) :
    IsToken (rewriteTarget digest ctx svc) := by
  have hdot : '.' ∉ (ObjectReference.mk .service svc.ns svc.metadata.name).display.toList.take 40 :=
    fun hmem => dot_notMem_display hvalid rfl (List.mem_of_mem_take hmem)
  have hlabel := chars_of_isDns1035Label
    (isDns1035Label_append hdigest hvalid hdot (List.mem_cons_of_mem _ List.mem_cons_self))
  have hsuffix : ".svc.cluster.local".toList.all (!isSpace ·) = true := by decide
  unfold rewriteTarget
  constructor
  · intro hempty
    have hlength := congrArg String.length hempty
    rw [String.length_append] at hlength
    exact absurd (Nat.eq_zero_of_add_eq_zero_left hlength) (by decide)
  · rw [String.toList_append, String.toList_append, String.toList_append, List.forall_mem_append,
      List.forall_mem_append, List.forall_mem_append]
    refine ⟨⟨⟨fun c hc => isSpace_of_isLabelChar (hlabel c hc),
      Text.forall_mem_of_all (by decide)⟩, fun c hc => ?_⟩, fun c hc => ?_⟩
    · exact isSpace_of_isLabelChar (chars_of_isDns1123Label hctx c hc)
    · simpa using List.all_eq_true.1 hsuffix c hc

/-- The override reads as the rewrites that were collected exactly if no name of an egress Service
    has a blank. -/
theorem readOverride_iff (hdigest : Hex digest) (hctx : isDns1123Label ctx.operatorNamespace = true)
    (hvalid : ∀ svc ∈ services, (ObjectReference.mk .service svc.ns svc.metadata.name).isValid = true) :
    readOverride (buildOverride (collectRewrites read digest ctx services).1) =
        some (collectRewrites read digest ctx services).1 ↔
      ∀ svc ∈ services, ∀ fqdn, Wants read ctx svc fqdn → ∀ c ∈ fqdn.toList, isSpace c = false := by
  constructor
  · intro h svc hsvc fqdn hwants
    obtain ⟨c, hfind⟩ := exists_find?_candidates hsvc hwants
    have hmem : (fqdn, c.target) ∈ (collectRewrites read digest ctx services).1 :=
      mem_collectRewrites.2 ⟨c, hfind, rfl⟩
    exact (isToken_of_readOverride h _ hmem).1.2
  · intro h
    refine readOverride_buildOverride fun r hr => ?_
    obtain ⟨c, hfind, htarget⟩ := mem_collectRewrites.1 hr
    obtain ⟨hsvc, hwants, hsame⟩ := wants_of_find?_candidates hfind
    rw [← htarget, hsame]
    exact ⟨⟨hwants.nonempty, h _ hsvc _ hwants⟩, isToken_rewriteTarget hdigest hctx (hvalid _ hsvc)⟩

end Services

namespace Override

/-! ### A Service whose name of the tailnet is a directive -/

def injected : String := "db.example.com x\nrewrite name api.example.com"

def config : String :=
  "\x7b\"headscale-ref\":\"main\",\"user\":\"alice\",\"tailnet-fqdn\":\"db.example.com x\\n" ++
    "rewrite name api.example.com\"\x7d"

def reader : Reader := fun s =>
  if s = config then
    some (.object [("headscale-ref", .string "main"), ("user", .string "alice"),
      ("tailnet-fqdn", .string injected)])
  else none

def db : Service where
  metadata := {
    name := "db"
    namespaceName := some "apps"
    annotations := [(annotationConfig, config)] }
  type := some externalNameType

end Override

open Names (sha256 hex_sha256) in
open EgressDns (reader deployment db) in
/-- The name of a host is a word. -/
theorem readOverride_iff_host :
    readOverride (buildOverride (collectRewrites reader sha256 deployment [db "apps"]).1) =
      some (collectRewrites reader sha256 deployment [db "apps"]).1 := by
  have hname : (IngressAnnotations.parse reader (db "apps").metadata).toOption.bind
      (·.tailnetFqdn) = some "db.example.com" := by
    decide +kernel
  refine (readOverride_iff hex_sha256 (by decide) fun svc hsvc => ?_).2 fun svc hsvc fqdn hwants => ?_
  all_goals obtain rfl := List.mem_singleton.1 hsvc
  · decide
  · obtain ⟨a, ha, hfqdn⟩ := hwants.parsed
    rw [ha] at hname
    obtain rfl := Option.some.inj (hname.symm.trans hfqdn)
    exact Text.forall_mem_of_all (by decide)

open Names (sha256 hex_sha256) in
open EgressDns (deployment) in
open Override (reader db injected) in
/-- One name gives two rewrites: the cluster DNS sends another name to the proxy. -/
theorem injected_directive :
    (collectRewrites reader sha256 deployment [db]).1.map Prod.fst = [injected] ∧
    (readOverride (buildOverride (collectRewrites reader sha256 deployment [db]).1)).map
      (·.map Prod.fst) = some ["db.example.com", "api.example.com"] ∧
    readOverride (buildOverride (collectRewrites reader sha256 deployment [db]).1) ≠
      some (collectRewrites reader sha256 deployment [db]).1 := by
  decide +kernel

end Headmaster.Operator.Proxy
