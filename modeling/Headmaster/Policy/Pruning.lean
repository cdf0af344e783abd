import Headmaster.Policy.Halves

/-!
# Pruning grants

The SCIM server prunes the grants of a policy for its groups (`Grant.prune`):
the members that name another group are removed (`Grant.pruned`), and with them
a grant that is left without sources or without destinations.

A grant is *settled* for some groups when it names no other. Pruning leaves
settled grants (`settled_filterMapGrants_prune`), keeps them as they are
(`filterMapGrants_prune_of_settled`), and may be done for more groups first
(`filterMapGrants_prune_prune`). Whether grants are settled is a matter of what
they mean, when they do not repeat their members (`Alike.settled`).
-/

namespace Headmaster.Policy

open Props (alter Once)

/-- A member names a group that is not among some groups. -/
def isStale (groups : List String) (m : String) : Bool :=
  "group:".toList.isPrefixOf m.toList && m ∉ groups

namespace Grant

variable {g : Grant} {groups : List String} {field field' : String}

/-- A grant names no group but some. -/
def Settled (groups : List String) (g : Grant) : Prop :=
  (∀ m ∈ g.src, isStale groups m = false) ∧ ∀ m ∈ g.dst, isStale groups m = false

instance : Decidable (g.Settled groups) := inferInstanceAs (Decidable (_ ∧ _))

/-! ### Keeping some members of a field -/

/-- The elements that are not strings stay. -/
def keepElement (keep : String → Bool) : Json → Bool
  | .string s => keep s
  | _ => true

/-- The members of an array field that are to be kept. -/
def keepIn (field : String) (keep : String → Bool) (g : Grant) : Grant :=
  match g.lookup field with
  | some (.array es) => alter field (fun _ => .array (es.filter (keepElement keep))) g
  | _ => g

variable {keep keep' : String → Bool}

theorem keepIn_of_array {es : List Json} (h : g.lookup field = some (.array es)) :
    g.keepIn field keep = alter field (fun _ => .array (es.filter (keepElement keep))) g := by
  rw [keepIn, h]

theorem keepIn_of_not_array (h : ∀ es, g.lookup field ≠ some (.array es)) :
    g.keepIn field keep = g := by
  rw [keepIn]
  split
  · rename_i es hes
    exact absurd hes (h es)
  · rfl

theorem array_or_not (g : Grant) (field : String) :
    (∃ es, g.lookup field = some (.array es)) ∨ ∀ es, g.lookup field ≠ some (.array es) := by
  by_cases h : ∃ es, g.lookup field = some (.array es)
  · exact .inl h
  · exact .inr fun es hes => h ⟨es, hes⟩

theorem removeFromField_eq (value : String) :
    g.removeFromField field value = g.keepIn field (· != value) := by
  rcases array_or_not g field with ⟨es, hes⟩ | hes
  · rw [removeFromField, hes, keepIn_of_array hes]
    refine congrArg (fun es => alter field (fun _ => Json.array es) g) ?_
    refine List.filter_congr fun e _ => ?_
    cases e <;> rfl
  · rw [keepIn_of_not_array hes, removeFromField]
    split
    · rename_i es h
      exact absurd h (hes es)
    · rfl

theorem strings_filter (es : List Json) :
    strings (es.filter (keepElement keep)) = (strings es).filter keep := by
  induction es with
  | nil => rfl
  | cons e es ih =>
    match e with
    | .string s =>
      have hs (es : List Json) : strings (.string s :: es) = s :: strings es := rfl
      by_cases h : keep s = true
      · rw [List.filter_cons_of_pos (p := keepElement keep) (a := .string s) h, hs, hs,
          List.filter_cons_of_pos (p := keep) h, ih]
      · rw [List.filter_cons_of_neg (p := keepElement keep) (a := .string s) h, hs,
          List.filter_cons_of_neg (p := keep) h, ih]
    | .null | .bool _ | .number _ | .array _ | .object _ => exact ih

theorem fieldValues_of_not_array (h : ∀ es, g.lookup field ≠ some (.array es)) :
    g.fieldValues field = [] := by
  rw [fieldValues]
  match hj : List.lookup field g with
  | some (.array es) => exact absurd hj (h es)
  | none | some .null | some (.bool _) | some (.number _) | some (.string _) | some (.object _) =>
    rfl

theorem fieldValues_keepIn :
    (g.keepIn field keep).fieldValues field = (g.fieldValues field).filter keep := by
  rcases array_or_not g field with ⟨es, hes⟩ | hes
  · rw [keepIn_of_array hes, fieldValues, Props.lookup_alter, fieldValues, hes]
    exact strings_filter es
  · rw [keepIn_of_not_array hes, fieldValues_of_not_array hes, List.filter_nil]

theorem lookup_keepIn_of_ne (h : field' ≠ field) :
    (g.keepIn field keep).lookup field' = g.lookup field' := by
  rcases array_or_not g field with ⟨es, hes⟩ | hes
  · rw [keepIn_of_array hes, Props.lookup_alter_of_ne _ h]
  · rw [keepIn_of_not_array hes]

theorem fieldValues_keepIn_of_ne (h : field' ≠ field) :
    (g.keepIn field keep).fieldValues field' = g.fieldValues field' := by
  rw [fieldValues, lookup_keepIn_of_ne h, fieldValues]

theorem keepIn_congr (h : ∀ m ∈ g.fieldValues field, keep m = keep' m) :
    g.keepIn field keep = g.keepIn field keep' := by
  rcases array_or_not g field with ⟨es, hes⟩ | hes
  · rw [fieldValues, hes] at h
    have hfilter : es.filter (keepElement keep) = es.filter (keepElement keep') := by
      refine List.filter_congr fun e he => ?_
      match e, he with
      | .string s, he => exact h s (List.mem_filterMap.2 ⟨_, he, rfl⟩)
      | .null, _ | .bool _, _ | .number _, _ | .array _, _ | .object _, _ => rfl
    rw [keepIn_of_array hes, keepIn_of_array hes, hfilter]
  · rw [keepIn_of_not_array hes, keepIn_of_not_array hes]

theorem keepIn_eq_self (h : ∀ m ∈ g.fieldValues field, keep m = true) : g.keepIn field keep = g := by
  have hall : g.keepIn field keep = g.keepIn field fun _ => true := keepIn_congr h
  rw [hall]
  rcases array_or_not g field with ⟨es, hes⟩ | hes
  · rw [keepIn_of_array hes]
    refine Props.alter_eq_self hes (congrArg Json.array ?_)
    refine List.filter_eq_self.2 fun e _ => ?_
    cases e <;> rfl
  · rw [keepIn_of_not_array hes]

theorem keepIn_keepIn : (g.keepIn field keep).keepIn field keep' =
    g.keepIn field fun m => keep m && keep' m := by
  rcases array_or_not g field with ⟨es, hes⟩ | hes
  · have helement (e : Json) : (keepElement keep e && keepElement keep' e) =
        keepElement (fun m => keep m && keep' m) e := by
      cases e <;> rfl
    rw [keepIn_of_array hes, keepIn_of_array (Props.lookup_alter _), keepIn_of_array hes,
      Props.alter_alter, List.filter_filter]
    simp only [Bool.and_comm (keepElement keep' _), helement]
  · rw [keepIn_of_not_array hes, keepIn_of_not_array hes, keepIn_of_not_array hes]

theorem keepIn_comm (h : field ≠ field') : (g.keepIn field keep).keepIn field' keep' =
    (g.keepIn field' keep').keepIn field keep := by
  rcases array_or_not g field with ⟨es, hes⟩ | hes
  · have hes₁ : (g.keepIn field' keep').lookup field = some (.array es) := by
      rw [lookup_keepIn_of_ne h, hes]
    rcases array_or_not g field' with ⟨es', hes'⟩ | hes'
    · have hes₁' : (g.keepIn field keep).lookup field' = some (.array es') := by
        rw [lookup_keepIn_of_ne h.symm, hes']
      rw [keepIn_of_array hes₁', keepIn_of_array hes₁, keepIn_of_array hes, keepIn_of_array hes']
      exact Props.alter_comm _ _ h.symm (hes' ▸ nofun) (hes ▸ nofun)
    · rw [keepIn_of_not_array hes', keepIn_of_not_array]
      rwa [lookup_keepIn_of_ne h.symm]
  · have hes₁ : ∀ es, (g.keepIn field' keep').lookup field ≠ some (.array es) := by
      rwa [lookup_keepIn_of_ne h]
    rw [keepIn_of_not_array hes, keepIn_of_not_array hes₁]

theorem foldl_removeFromField (values : List String) :
    values.foldl (fun g v => g.removeFromField field v) g = g.keepIn field (· ∉ values) := by
  induction values generalizing g with
  | nil => exact (keepIn_eq_self fun _ _ => by simp).symm
  | cons v values ih =>
    rw [List.foldl_cons, ih, removeFromField_eq, keepIn_keepIn]
    refine keepIn_congr fun m _ => ?_
    by_cases h : m = v <;> simp [h]

/-! ### Pruning in one step -/

/-- A grant without its stale members. -/
def pruned (groups : List String) (g : Grant) : Grant :=
  (g.keepIn "src" (!isStale groups ·)).keepIn "dst" (!isStale groups ·)

theorem src_pruned : (g.pruned groups).src = g.src.filter (!isStale groups ·) := by
  rw [src, pruned, fieldValues_keepIn_of_ne (by decide), fieldValues_keepIn, src]

theorem dst_pruned : (g.pruned groups).dst = g.dst.filter (!isStale groups ·) := by
  rw [dst, pruned, fieldValues_keepIn, fieldValues_keepIn_of_ne (by decide), dst]

theorem prune_eq (groups : List String) (g : Grant) : g.prune groups =
    if !g.src.isEmpty && (g.pruned groups).src.isEmpty ||
      !g.dst.isEmpty && (g.pruned groups).dst.isEmpty then none else some (g.pruned groups) := by
  have hkept (field : String) (g : Grant) :
      ((g.fieldValues field).filter (isStale groups)).foldl (fun g v => g.removeFromField field v) g =
        g.keepIn field (!isStale groups ·) := by
    rw [foldl_removeFromField]
    refine keepIn_congr fun m hm => ?_
    simp [hm]
  have hsrc : (g.src.filter (isStale groups)).foldl removeFromSrc g =
      g.keepIn "src" (!isStale groups ·) := hkept "src" g
  have hdst (g : Grant) : (g.dst.filter (isStale groups)).foldl removeFromDst g =
      g.keepIn "dst" (!isStale groups ·) := hkept "dst" g
  have hunfold : g.prune groups =
      let g₁ := (g.src.filter (isStale groups)).foldl removeFromSrc g
      let g₂ := (g₁.dst.filter (isStale groups)).foldl removeFromDst g₁
      if !g.src.isEmpty && g₂.src.isEmpty || !g.dst.isEmpty && g₂.dst.isEmpty then none
      else some g₂ := rfl
  rw [hunfold]
  dsimp only
  rw [hsrc, hdst]
  rfl

/-- What pruning leaves is settled. -/
theorem settled_of_prune {g' : Grant} (h : g.prune groups = some g') : g'.Settled groups := by
  rw [prune_eq] at h
  split at h
  · cases h
  · obtain rfl := Option.some.inj h
    rw [Settled, src_pruned, dst_pruned]
    constructor <;> intro m hm <;> simpa using (List.mem_filter.1 hm).2

theorem pruned_of_settled (h : g.Settled groups) : g.pruned groups = g := by
  rw [pruned, keepIn_eq_self (g := g) fun m hm => by simp [h.1 m hm], keepIn_eq_self]
  exact fun m hm => by simp [h.2 m hm]

/-- A settled grant is kept as it is. -/
theorem prune_of_settled (h : g.Settled groups) : g.prune groups = some g := by
  rw [prune_eq, pruned_of_settled h]
  simp

/-- Pruning for more groups first makes no difference. -/
theorem prune_prune {groups' : List String}
    (h : ∀ m ∈ g.src ++ g.dst, isStale groups' m = true → isStale groups m = true) :
    (g.prune groups').bind (prune groups) = g.prune groups := by
  have hkeep (ms : List String) (hms : ms ⊆ g.src ++ g.dst) : ∀ m ∈ ms,
      (!isStale groups' m && !isStale groups m) = !isStale groups m := by
    intro m hm
    cases hF : isStale groups m with
    | true => simp
    | false =>
      have hG : isStale groups' m = false := by
        by_contra hG
        rw [h m (hms hm) (by simpa using hG)] at hF
        cases hF
      simp [hG]
  have hpruned : (g.pruned groups').pruned groups = g.pruned groups := by
    rw [pruned, pruned, keepIn_comm (show "dst" ≠ "src" by decide), keepIn_keepIn, keepIn_keepIn,
      keepIn_congr (g := g) (hkeep g.src (List.subset_append_left _ _)), pruned]
    refine keepIn_congr fun m hm => ?_
    rw [fieldValues_keepIn_of_ne (by decide)] at hm
    exact hkeep g.dst (List.subset_append_right _ _) m hm
  -- what is left when less is kept is left when more is
  have hempty (ms : List String) (hms : ms ⊆ g.src ++ g.dst)
      (hG : (ms.filter (!isStale groups' ·)).isEmpty = true) :
      (ms.filter (!isStale groups ·)).isEmpty = true := by
    rw [List.isEmpty_iff, List.filter_eq_nil_iff] at hG ⊢
    intro m hm
    have := h m (hms hm)
    have hG := hG m hm
    simp only [Bool.not_eq_true, Bool.not_eq_false'] at hG ⊢
    exact this hG
  have hsrc := hempty g.src (List.subset_append_left _ _)
  have hdst := hempty g.dst (List.subset_append_right _ _)
  rw [prune_eq groups' g, prune_eq groups g, src_pruned, dst_pruned, src_pruned,
    dst_pruned]
  split
  · rename_i hemptied
    rw [Option.bind_none, if_pos]
    simp only [Bool.or_eq_true, Bool.and_eq_true] at hemptied ⊢
    exact hemptied.imp (And.imp_right hsrc) (And.imp_right hdst)
  · rename_i hkept
    -- nothing was emptied, so it is empty exactly if it was
    simp only [Bool.or_eq_true, Bool.and_eq_true, Bool.not_eq_true', not_or, not_and,
      Bool.not_eq_true] at hkept
    have hsame (ms : List String) (hms : ms.isEmpty = false →
        (ms.filter (!isStale groups' ·)).isEmpty = false) :
        (ms.filter (!isStale groups' ·)).isEmpty = ms.isEmpty := by
      match ms, hms with
      | [], _ => rfl
      | _ :: _, hms => exact hms rfl
    rw [Option.bind_some, prune_eq, hpruned, src_pruned, dst_pruned, src_pruned, dst_pruned,
      hsame g.src hkept.1, hsame g.dst hkept.2]

end Grant

namespace PolicyEditor

variable {e e' : PolicyEditor} {groups : List String}

/-- All grants of a policy are settled. -/
def Settled (groups : List String) (e : PolicyEditor) : Prop :=
  ∀ g, .object g ∈ e.grantElements → Grant.Settled groups g

theorem filterMapGrants_prune_of_settled (h : e.Settled groups) :
    e.filterMapGrants (Grant.prune groups) = e :=
  filterMapGrants_eq_self _ fun g hg => Grant.prune_of_settled (h g hg)

/-- Pruning for more groups first makes no difference. -/
theorem filterMapGrants_prune_prune {groups' : List String}
    (h : ∀ g : Grant, .object g ∈ e.grantElements → ∀ m ∈ g.src ++ g.dst,
      isStale groups' m = true → isStale groups m = true) :
    (e.filterMapGrants (Grant.prune groups')).filterMapGrants (Grant.prune groups) =
      e.filterMapGrants (Grant.prune groups) := by
  rw [filterMapGrants_filterMapGrants]
  exact filterMapGrants_congr fun g hg => Grant.prune_prune (h g hg)

theorem settled_filterMapGrants_prune : (e.filterMapGrants (Grant.prune groups)).Settled groups := by
  intro g hg
  rw [grantElements_filterMapGrants, List.mem_filterMap] at hg
  obtain ⟨j, _, hj⟩ := hg
  match j, hj with
  | .object g', hj =>
    obtain ⟨g'', hprune, heq⟩ := Option.map_eq_some_iff.1 hj
    obtain rfl := Json.object.inj heq
    exact Grant.settled_of_prune hprune

/-! ## Grants that mean the same -/

/-- Neither `grants` nor the members of a grant repeat. -/
structure TidyGrants (e : PolicyEditor) : Prop where
  grants : Once "grants" e.objectValueOrSet
  src : ∀ g, .object g ∈ e.grantElements → Once "src" g
  dst : ∀ g, .object g ∈ e.grantElements → Once "dst" g

theorem tidyGrants_rest : e.rest.TidyGrants ↔ e.TidyGrants := by
  have hrest : ∀ g, .object g ∈ e.rest.grantElements ↔ .object g ∈ e.grantElements := by
    intro g
    rw [grantElements_rest]
  have hgrants : Once "grants" e.rest.objectValueOrSet ↔ Once "grants" e.objectValueOrSet :=
    Props.once_others (by decide)
  constructor
  · exact fun h => ⟨hgrants.1 h.grants, fun g hg => h.src g ((hrest g).2 hg),
      fun g hg => h.dst g ((hrest g).2 hg)⟩
  · exact fun h => ⟨hgrants.2 h.grants, fun g hg => h.src g ((hrest g).1 hg),
      fun g hg => h.dst g ((hrest g).1 hg)⟩

theorem strings_eq (es : List Json) : strings es = (es.map Json.meaning).filterMap fun
    | .string s => some s
    | _ => none := by
  induction es with
  | nil => rfl
  | cons e es ih =>
    rw [strings, List.map_cons, List.filterMap_cons, List.filterMap_cons, ← strings, ih]
    cases e with
    | null | bool | number | string | array | object => simp [Json.meaning]

theorem map_elementsOf (j : Option Json) :
    (elementsOf j).map Json.meaning = match j.map Json.meaning with
      | some (.array vs) => vs
      | _ => [] := by
  match j with
  | some (.array es) =>
    rw [Option.map_some, Json.meaning_array]
    rfl
  | none | some .null | some (.bool _) | some (.number _) | some (.string _) | some (.object _) =>
    simp [elementsOf, Json.meaning]

theorem fieldValues_congr {g g' : Grant} {field : String} (hg : Once field g) (hg' : Once field g')
    (h : (Json.object g).meaning = (Json.object g').meaning) :
    g.fieldValues field = g'.fieldValues field := by
  rw [Grant.fieldValues, Grant.fieldValues, strings_eq, strings_eq, map_elementsOf, map_elementsOf,
    Props.lookup_eq_last hg, Props.lookup_eq_last hg', Json.meaning_object_inj.1 h field]

theorem Alike.grantElements (h : e.Alike e') (he : e.TidyGrants) (he' : e'.TidyGrants) :
    e.grantElements.map Json.meaning = e'.grantElements.map Json.meaning := by
  have hgrants := h "grants"
  rw [sectionOf_toText, sectionOf_toText, ← Props.lookup_eq_last he.grants,
    ← Props.lookup_eq_last he'.grants] at hgrants
  rw [PolicyEditor.grantElements, PolicyEditor.grantElements, map_elementsOf, map_elementsOf, hgrants]

/-- The members of the grants are a matter of what they mean. -/
theorem Alike.exists_grant (h : e.Alike e') (he : e.TidyGrants) (he' : e'.TidyGrants) {g : Grant}
    (hg : .object g ∈ e.grantElements) :
    ∃ g' : Grant, .object g' ∈ e'.grantElements ∧ g.src = g'.src ∧ g.dst = g'.dst := by
  have hmem : (Json.object g).meaning ∈ e'.grantElements.map Json.meaning := by
    rw [← h.grantElements he he']
    exact List.mem_map_of_mem hg
  obtain ⟨j, hj, hmeaning⟩ := List.mem_map.1 hmem
  match j, hj, hmeaning with
  | .object g', hj, hmeaning =>
    exact ⟨g', hj, fieldValues_congr (he.src g hg) (he'.src g' hj) hmeaning.symm,
      fieldValues_congr (he.dst g hg) (he'.dst g' hj) hmeaning.symm⟩
  | .null, _, hmeaning | .bool _, _, hmeaning | .number _, _, hmeaning | .string _, _, hmeaning
  | .array _, _, hmeaning => simp [Json.meaning] at hmeaning

/-- So is whether they are settled. -/
theorem Alike.settled (h : e.Alike e') (he : e.TidyGrants) (he' : e'.TidyGrants)
    (hsettled : e'.Settled groups) : e.Settled groups := by
  intro g hg
  obtain ⟨g', hg', hsrc, hdst⟩ := h.exists_grant he he' hg
  rw [Grant.Settled, hsrc, hdst]
  exact hsettled g' hg'

/-! ## Members that are spared -/

/-- Pruning for `groups'` takes no member away that pruning for `groups` would leave. -/
def Spares (groups' groups : List String) (e : PolicyEditor) : Prop :=
  ∀ g : Grant, .object g ∈ e.grantElements → ∀ m ∈ g.src ++ g.dst,
    isStale groups' m = true → isStale groups m = true

variable {groups' : List String}

theorem spares_rest : e.rest.Spares groups' groups ↔ e.Spares groups' groups := by
  rw [Spares, grantElements_rest, Spares]

theorem Alike.spares_members (h : e.Alike e') (he : e.TidyGrants) (he' : e'.TidyGrants)
    (hspares : e'.Spares groups' groups) : e.Spares groups' groups := by
  intro g hg
  obtain ⟨g', hg', hsrc, hdst⟩ := h.exists_grant he he' hg
  rw [hsrc, hdst]
  exact hspares g' hg'

/-- Pruning adds no member. -/
theorem Spares.filterMapGrants_prune {kept : List String} (h : e.Spares groups' groups) :
    (e.filterMapGrants (Grant.prune kept)).Spares groups' groups := by
  intro g hg
  rw [grantElements_filterMapGrants, List.mem_filterMap] at hg
  obtain ⟨j, hj, hchanged⟩ := hg
  match j, hj, hchanged with
  | .object g', hj, hchanged =>
    obtain ⟨g'', hprune, heq⟩ := Option.map_eq_some_iff.1 hchanged
    obtain rfl := Json.object.inj heq
    rw [Grant.prune_eq] at hprune
    split at hprune
    · cases hprune
    · obtain rfl := Option.some.inj hprune
      intro m hm
      rw [Grant.src_pruned, Grant.dst_pruned, ← List.filter_append] at hm
      exact h g' hj m (List.mem_of_mem_filter hm)

end PolicyEditor

end Headmaster.Policy
