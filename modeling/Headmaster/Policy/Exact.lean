import Headmaster.Policy.Pruning

/-!
# Pruning, exactly

What pruning the grants of a policy leaves, said without the edits that do it:
`cleaned` is a grant whose fields `src` and `dst` lost their stale members,
`keptGrants` the grants without those that lost all members of a side. For a
policy that does not repeat the names concerned this is what pruning does
(`filterMapGrants_prune_eq_map`), so that policies which mean the same do so once
they are pruned (`Alike.filterMapGrants_prune`).
-/

namespace Headmaster.Policy

open Props (alter Once last)

/-- A field without its stale members; what is not a string is no member. -/
def keptField (groups : List String) : Json → Json
  | .array es => .array (es.filter fun
    | .string m => !isStale groups m
    | _ => true)
  | j => j

/-- A grant without its stale members. -/
def cleaned (groups : List String) (g : Grant) : Grant :=
  g.map fun (k, v) => (k, if k = "src" ∨ k = "dst" then keptField groups v else v)

/-- There were members, and all of them are stale. -/
def emptied (groups members : List String) : Bool :=
  !members.isEmpty && members.all (isStale groups)

/-- The grants, cleaned, without those of which a side was emptied. -/
def keptGrants (groups : List String) : Json → Json
  | .array es => .array (es.filterMap fun
    | .object g =>
      if emptied groups (Grant.src g) || emptied groups (Grant.dst g) then none
      else some (.object (cleaned groups g))
    | j => some j)
  | j => j

namespace Grant

variable {g : Grant} {groups : List String} {field : String}

theorem keepIn_eq_map (h : Once field g) : g.keepIn field (!isStale groups ·) =
    g.map fun p => (p.1, if p.1 = field then keptField groups p.2 else p.2) := by
  cases hv : g.lookup field with
  | none =>
    rw [Props.map_of_absent (Props.lookup_eq_none_iff.1 hv), keepIn, hv]
  | some v =>
    rw [← Props.alter_eq_map h hv, keepIn, hv]
    cases v with
    | array es =>
      have hkeep : keepElement (!isStale groups ·) = fun
          | .string m => !isStale groups m
          | _ => true := by
        funext e
        cases e <;> rfl
      rw [keptField, hkeep]
    | null | bool | number | string | object => exact (Props.alter_eq_self hv rfl).symm

theorem names_keepIn (keep : String → Bool) : (g.keepIn field keep).map Prod.fst = g.map Prod.fst := by
  rcases array_or_not g field with ⟨es, hes⟩ | hes
  · rw [keepIn_of_array hes, Props.names_alter, if_pos (Props.mem_names_of_lookup hes)]
  · rw [keepIn_of_not_array hes]

theorem names_pruned : (g.pruned groups).map Prod.fst = g.map Prod.fst := by
  rw [pruned, names_keepIn, names_keepIn]

theorem pruned_eq_cleaned (hsrc : Once "src" g) (hdst : Once "dst" g) :
    g.pruned groups = cleaned groups g := by
  have hdst' : Once "dst" (g.keepIn "src" (!isStale groups ·)) := by
    rw [Once, names_keepIn]
    exact hdst
  rw [pruned, keepIn_eq_map hdst', keepIn_eq_map hsrc, List.map_map, cleaned]
  refine List.map_congr_left fun p _ => ?_
  by_cases hk : p.1 = "src"
  · simp [hk]
  · simp [hk]

theorem isEmpty_filter_iff (members : List String) :
    (!members.isEmpty && (members.filter (!isStale groups ·)).isEmpty) = emptied groups members := by
  rw [emptied]
  congr 1
  induction members with
  | nil => rfl
  | cons m ms ih =>
    cases h : isStale groups m
    · simp [h]
    · simpa [h] using ih

theorem prune_eq_cleaned (hsrc : Once "src" g) (hdst : Once "dst" g) : g.prune groups =
    if emptied groups g.src || emptied groups g.dst then none else some (cleaned groups g) := by
  rw [prune_eq, src_pruned, dst_pruned, isEmpty_filter_iff, isEmpty_filter_iff,
    pruned_eq_cleaned hsrc hdst]

end Grant

/-! ## Pruning and meaning -/

/-- What is made of elements by their meaning is the same for lists of the same meaning. -/
theorem filterMap_congr_of_meaning {α : Type} {f : Json → Option α} {es es' : List Json}
    (hmeaning : es.map Json.meaning = es'.map Json.meaning)
    (h : ∀ j ∈ es, ∀ j' ∈ es', j.meaning = j'.meaning → f j = f j') :
    es.filterMap f = es'.filterMap f := by
  induction es generalizing es' with
  | nil =>
    rw [List.map_nil, eq_comm, List.map_eq_nil_iff] at hmeaning
    rw [hmeaning]
  | cons j es ih =>
    match es', hmeaning with
    | j' :: es', hmeaning =>
      obtain ⟨hj, hes⟩ := List.cons.inj hmeaning
      have hhead : f j = f j' := h j List.mem_cons_self j' List.mem_cons_self hj
      have htail : es.filterMap f = es'.filterMap f := ih hes fun i hi i' hi' =>
        h i (List.mem_cons_of_mem _ hi) i' (List.mem_cons_of_mem _ hi')
      rw [List.filterMap_cons, List.filterMap_cons, hhead, htail]

/-- Values of one meaning are both arrays, both objects, or the same. -/
theorem same_kind_of_meaning {j j' : Json} (h : j.meaning = j'.meaning) :
    (∃ es es', j = .array es ∧ j' = .array es' ∧ es.map Json.meaning = es'.map Json.meaning) ∨
      (∃ g g', j = .object g ∧ j' = .object g') ∨ j = j' := by
  cases j with
  | array es =>
    cases j' with
    | array es' =>
      rw [Json.meaning_array, Json.meaning_array, Val.array.injEq] at h
      exact .inl ⟨es, es', rfl, rfl, h⟩
    | null | bool | number | string | object => simp [Json.meaning] at h
  | object g =>
    cases j' with
    | object g' => exact .inr (.inl ⟨g, g', rfl, rfl⟩)
    | null | bool | number | string | array => simp [Json.meaning] at h
  | null | bool | number | string =>
    refine .inr (.inr ?_)
    cases j' <;> simp_all [Json.meaning]

/-- A member means a name that is not stale. -/
def keptVal (groups : List String) : Val → Bool
  | .string m => !isStale groups m
  | _ => true

theorem meaning_keptField_array (groups : List String) (es : List Json) :
    (keptField groups (.array es)).meaning =
      .array ((es.map Json.meaning).filter (keptVal groups)) := by
  rw [keptField, Json.meaning_array, List.filter_map]
  refine congrArg (fun es => Val.array (es.map Json.meaning)) (List.filter_congr fun e _ => ?_)
  cases e <;> simp [keptVal, Json.meaning]

/-- The members a field loses depend on what it means. -/
theorem meaning_keptField (groups : List String) {j j' : Json} (h : j.meaning = j'.meaning) :
    (keptField groups j).meaning = (keptField groups j').meaning := by
  rcases same_kind_of_meaning h with ⟨es, es', rfl, rfl, hes⟩ | ⟨g, g', rfl, rfl⟩ | rfl
  · rw [meaning_keptField_array, meaning_keptField_array, hes]
  · exact h
  · rfl

/-- A grant that means the same, without its stale members, means the same. -/
theorem meaning_cleaned {groups : List String} {g g' : Grant}
    (h : (Json.object g).meaning = (Json.object g').meaning) :
    (Json.object (cleaned groups g)).meaning = (Json.object (cleaned groups g')).meaning := by
  rw [Json.meaning_object_inj] at h ⊢
  intro k
  have hlast (g : Grant) : last (cleaned groups g) k =
      (last g k).map fun v => if k = "src" ∨ k = "dst" then keptField groups v else v :=
    Props.last_map fun k v => if k = "src" ∨ k = "dst" then keptField groups v else v
  rw [hlast, hlast]
  have hk := h k
  split
  · match last g k, last g' k, hk with
    | none, none, _ => rfl
    | some v, some v', hk => exact congrArg some (meaning_keptField groups (Option.some.inj hk))
  · rwa [Option.map_id', Option.map_id']

/-- The names a grant is changed under do not repeat in it. -/
def TidyGrant (j : Json) : Prop := ∀ g, j = .object g → Once "src" g ∧ Once "dst" g

/-- The grants that are kept depend on what the grants mean. -/
theorem meaning_keptElements {groups : List String} {es es' : List Json}
    (hes : ∀ j ∈ es, TidyGrant j) (hes' : ∀ j ∈ es', TidyGrant j)
    (h : es.map Json.meaning = es'.map Json.meaning) :
    (keptGrants groups (.array es)).meaning = (keptGrants groups (.array es')).meaning := by
  rw [keptGrants, keptGrants, Json.meaning_array, Json.meaning_array, List.map_filterMap,
    List.map_filterMap]
  -- the two arrays are walked together: elements of one meaning are kept or dropped together
  refine congrArg Val.array (filterMap_congr_of_meaning h fun j hj j' hj' hmeaning => ?_)
  rcases same_kind_of_meaning hmeaning with ⟨_, _, rfl, rfl, _⟩ | ⟨g, g', rfl, rfl⟩ | rfl
  · exact congrArg some hmeaning
  · obtain ⟨hsrc, hdst⟩ := hes _ hj g rfl
    obtain ⟨hsrc', hdst'⟩ := hes' _ hj' g' rfl
    have hmembers : Grant.src g = Grant.src g' := PolicyEditor.fieldValues_congr hsrc hsrc' hmeaning
    have hmembers' : Grant.dst g = Grant.dst g' := PolicyEditor.fieldValues_congr hdst hdst' hmeaning
    dsimp only
    rw [hmembers, hmembers']
    split
    · rfl
    · exact congrArg some (meaning_cleaned hmeaning)
  · rfl

theorem meaning_keptGrants {groups : List String} {j j' : Json}
    (hes : ∀ es, j = .array es → ∀ g ∈ es, TidyGrant g)
    (hes' : ∀ es, j' = .array es → ∀ g ∈ es, TidyGrant g) (h : j.meaning = j'.meaning) :
    (keptGrants groups j).meaning = (keptGrants groups j').meaning := by
  rcases same_kind_of_meaning h with ⟨es, es', rfl, rfl, heq⟩ | ⟨g, g', rfl, rfl⟩ | rfl
  · exact meaning_keptElements (hes es rfl) (hes' es' rfl) heq
  · exact h
  · rfl

/-! ## The grants of a policy -/

namespace PolicyEditor

variable {e e' : PolicyEditor} {ps : List (String × Json)} {groups : List String}

theorem tidyGrants_of_distinct (h : (Json.object ps).Distinct) :
    (value (.object ps)).TidyGrants := by
  have helement (g : Grant) (hg : .object g ∈ (value (.object ps)).grantElements) :
      (Json.object g).Distinct := by
    rw [grantElements, objectValueOrSet_object] at hg
    cases hv : ps.lookup "grants" with
    | none =>
      rw [hv] at hg
      cases hg
    | some v =>
      rw [hv] at hg
      cases v with
      | array es => exact (h.of_lookup hv).of_mem hg
      | null | bool | number | string | object => cases hg
  exact ⟨h.once _, fun g hg => (helement g hg).once _, fun g hg => (helement g hg).once _⟩

/-- Pruning a policy maps its grants, and nothing else. -/
theorem filterMapGrants_prune_eq_map (h : (value (.object ps)).TidyGrants) :
    Policy.filterMapGrants (Grant.prune groups) ps =
      ps.map fun p => (p.1, if p.1 = "grants" then keptGrants groups p.2 else p.2) := by
  -- `grants` occurs once, so changing it is a map over the members
  have hOnce : Once "grants" ps := h.grants
  by_cases hes : ∃ es, ps.lookup "grants" = some (.array es)
  · obtain ⟨es, hes⟩ := hes
    rw [props_filterMapGrants_of_array _ hes, ← Props.alter_eq_map hOnce hes, keptGrants]
    refine congrArg (fun es => alter "grants" (fun _ => Json.array es) ps) ?_
    refine List.filterMap_congr fun j hj => ?_
    cases j with
    | object g =>
      have hg : .object g ∈ (value (.object ps)).grantElements := by
        rw [grantElements, objectValueOrSet_object, hes]
        exact hj
      rw [changed, Grant.prune_eq_cleaned (h.src g hg) (h.dst g hg)]
      dsimp only
      split <;> rfl
    | null | bool | number | string | array => rfl
  · have hes := not_exists.1 hes
    rw [props_filterMapGrants_of_not_array _ hes]
    cases hv : ps.lookup "grants" with
    | none => rw [Props.map_of_absent (Props.lookup_eq_none_iff.1 hv)]
    | some v =>
      rw [← Props.alter_eq_map hOnce hv, Props.alter_eq_self hv]
      cases v with
      | array es => exact absurd hv (hes es)
      | null | bool | number | string | object => rfl

theorem tidyGrants_filterMapGrants_prune (h : e.TidyGrants) :
    (e.filterMapGrants (Grant.prune groups)).TidyGrants := by
  -- pruning drops grants and values but renames no field
  have hnames (g : Grant) (hg : .object g ∈ (e.filterMapGrants (Grant.prune groups)).grantElements) :
      ∃ g' : Grant, .object g' ∈ e.grantElements ∧ g.map Prod.fst = g'.map Prod.fst := by
    rw [grantElements_filterMapGrants, List.mem_filterMap] at hg
    obtain ⟨j, hj, hchanged⟩ := hg
    match j, hj, hchanged with
    | .object g', hj, hchanged =>
      obtain ⟨g'', hprune, heq⟩ := Option.map_eq_some_iff.1 hchanged
      obtain rfl := Json.object.inj heq
      rw [Grant.prune_eq] at hprune
      split at hprune
      · cases hprune
      · rw [← Option.some.inj hprune]
        exact ⟨g', hj, Grant.names_pruned⟩
  refine ⟨?_, fun g hg => ?_, fun g hg => ?_⟩
  · rw [Once, names_filterMapGrants]
    exact h.grants
  · obtain ⟨g', hg', heq⟩ := hnames g hg
    rw [Once, heq]
    exact h.src g' hg'
  · obtain ⟨g', hg', heq⟩ := hnames g hg
    rw [Once, heq]
    exact h.dst g' hg'

/-- A policy that means the same once it is pruned has nothing to prune. -/
theorem filterMapGrants_prune_of_alike (h : e.TidyGrants)
    (halike : e.Alike (e.filterMapGrants (Grant.prune groups))) :
    e.filterMapGrants (Grant.prune groups) = e :=
  filterMapGrants_prune_of_settled
    (halike.settled h (tidyGrants_filterMapGrants_prune h) settled_filterMapGrants_prune)

/-- Policies that mean the same do so after pruning. -/
theorem Alike.filterMapGrants_prune (h : e.Alike e') (he : e.TidyGrants) (he' : e'.TidyGrants) :
    (e.filterMapGrants (Grant.prune groups)).Alike (e'.filterMapGrants (Grant.prune groups)) := by
  have hprune {e : PolicyEditor} (he : e.TidyGrants) (k : String) :
      sectionOf (e.filterMapGrants (Grant.prune groups)).toText k =
        (last e.objectValueOrSet k).map fun v =>
          (if k = "grants" then keptGrants groups v else v).meaning := by
    have hprops : Policy.filterMapGrants (Grant.prune groups) e.objectValueOrSet = _ :=
      filterMapGrants_prune_eq_map ⟨he.grants, he.src, he.dst⟩
    rw [sectionOf_toText, objectValueOrSet_filterMapGrants, hprops,
      Props.last_map fun k v => if k = "grants" then keptGrants groups v else v, Option.map_map]
    rfl
  have htidy {e : PolicyEditor} (he : e.TidyGrants) {v : Json}
      (hv : last e.objectValueOrSet "grants" = some v) :
      ∀ es, v = .array es → ∀ j ∈ es, TidyGrant j := by
    rintro es rfl j hj g rfl
    have hmem : .object g ∈ e.grantElements := by
      rw [PolicyEditor.grantElements, Props.lookup_eq_last he.grants, hv]
      exact hj
    exact ⟨he.src g hmem, he.dst g hmem⟩
  intro k
  have hsection := h k
  rw [sectionOf_toText, sectionOf_toText] at hsection
  rw [hprune he, hprune he']
  split
  · rename_i hk
    subst hk
    cases hv : last e.objectValueOrSet "grants" with
    | none =>
      cases hv' : last e'.objectValueOrSet "grants" with
      | none => rfl
      | some v' =>
        rw [hv, hv'] at hsection
        cases hsection
    | some v =>
      cases hv' : last e'.objectValueOrSet "grants" with
      | none =>
        rw [hv, hv'] at hsection
        cases hsection
      | some v' =>
        rw [hv, hv'] at hsection
        exact congrArg some
          (meaning_keptGrants (htidy he hv) (htidy he' hv') (Option.some.inj hsection))
  · exact hsection

end PolicyEditor

end Headmaster.Policy
