import Headmaster.Policy.Editor
import Mathlib.Data.List.Perm.Subperm

/-!
# What policies mean

* `semanticallyEqual_iff`: two documents compare as equal exactly when they
  have the same meaning.
* `sectionOf`: the meaning of a top-level section of a policy text. The edits
  are characterised by what they do to the sections (`sectionOf_setGroups`,
  `sectionOf_filterMapGrants`, …).
-/

namespace Headmaster.Policy

open Props (last remove alter Once)

/-! ## The comparison -/

theorem toValues_eq (es : List Json) : toValues es = es.map toValue := by
  induction es with
  | nil => rfl
  | cons e es ih => rw [toValues, ih, List.map_cons]

theorem names_toMap (ps : List (String × Json)) (k : String) :
    k ∈ (toMap ps).map Prod.fst ↔ k ∈ ps.map Prod.fst := by
  induction ps with
  | nil => rfl
  | cons p ps ih =>
    obtain ⟨k', v⟩ := p
    rw [toMap]
    split
    · rename_i hk
      rw [ih, List.map_cons, List.mem_cons]
      exact ⟨.inr, fun h => h.elim (fun e => e ▸ ih.1 (e ▸ hk)) id⟩
    · rw [List.map_cons, List.map_cons, List.mem_cons, List.mem_cons, ih]

theorem nodup_toMap (ps : List (String × Json)) : ((toMap ps).map Prod.fst).Nodup := by
  induction ps with
  | nil => exact List.nodup_nil
  | cons p ps ih =>
    rw [toMap]
    split
    · exact ih
    · rename_i hk
      exact List.nodup_cons.2 ⟨hk, ih⟩

/-- The map of an object has the last property with each name. -/
theorem lookup_toMap (ps : List (String × Json)) (k : String) :
    (toMap ps).lookup k = (last ps k).map toValue := by
  rw [Props.lookup_eq_last (Props.once_of_nodup (nodup_toMap ps) k)]
  induction ps with
  | nil => rfl
  | cons p ps ih =>
    rw [toMap, Props.last_cons]
    split
    · rename_i hk
      rw [ih]
      cases h : last ps k with
      | some v => rfl
      | none =>
        have hne : p.1 ≠ k := by
          rintro rfl
          exact Props.last_eq_none_iff.1 h ((names_toMap _ _).1 hk)
        simp [hne]
    · rw [Props.last_cons, ih]
      cases last ps k
      · by_cases h : p.1 = k <;> simp [h]
      · rfl

/-- The value means what the document means. -/
theorem meaning_toValue (j : Json) : (toValue j).meaning = j.meaning := by
  induction j with
  | null | bool _ | number _ | string _ => rfl
  | array es ih =>
    rw [toValue, Json.meaning_array, Json.meaning_array, toValues_eq, List.map_map]
    exact congrArg Val.array (List.map_congr_left ih)
  | object ps ih =>
    rw [toValue, Json.meaning_object_inj]
    intro k
    rw [← Props.lookup_eq_last (Props.once_of_nodup (nodup_toMap ps) k), lookup_toMap]
    cases h : last ps k with
    | none => rfl
    | some v => exact congrArg some (ih _ (Props.mem_of_last h))

theorem entriesEqual_iff (as bs : List (String × Json)) : entriesEqual as bs = true ↔
    ∀ p ∈ as, ∃ v, bs.lookup p.1 = some v ∧ jsonValuesEqual p.2 v = true := by
  induction as with
  | nil => simp [entriesEqual]
  | cons a as ih =>
    rw [entriesEqual, Bool.and_eq_true, ih, List.forall_mem_cons]
    cases bs.lookup a.1 <;> simp

/-- Lists of documents are equal as values exactly when they mean the same, as
    far as their elements are. -/
theorem elementsEqual_map_iff {as : List Json}
    (ih : ∀ a ∈ as, ∀ b, jsonValuesEqual (toValue a) (toValue b) = true ↔ a.meaning = b.meaning)
    (bs : List Json) : as.length = bs.length ∧
      elementsEqual (as.map toValue) (bs.map toValue) = true ↔
        as.map Json.meaning = bs.map Json.meaning := by
  induction as generalizing bs with
  | nil => cases bs <;> simp [elementsEqual]
  | cons a as ih' =>
    cases bs with
    | nil => simp
    | cons b bs =>
      have hrest := ih' (fun a ha => ih a (List.mem_cons_of_mem _ ha)) bs
      simp only [List.length_cons, Nat.add_right_cancel_iff, List.map_cons, elementsEqual,
        Bool.and_eq_true, List.cons.injEq, ih a List.mem_cons_self b, ← hrest]
      exact and_left_comm

/-- The names of a map are among those of another that has as many exactly when
    they are the same. -/
theorem names_eq_of_subset {ps qs : List (String × Json)}
    (hlen : (toMap ps).length = (toMap qs).length)
    (hsub : ∀ k ∈ (toMap ps).map Prod.fst, k ∈ (toMap qs).map Prod.fst) (k : String) :
    k ∈ (toMap ps).map Prod.fst ↔ k ∈ (toMap qs).map Prod.fst :=
  ((nodup_toMap ps).subperm hsub |>.perm_of_length_le (by simp [hlen])).mem_iff

theorem mem_toMap_iff {ps : List (String × Json)} {k : String} {w : Json} :
    (k, w) ∈ toMap ps ↔ ∃ v, last ps k = some v ∧ toValue v = w := by
  rw [← Option.map_eq_some_iff, ← lookup_toMap]
  constructor
  · intro h
    rw [Props.lookup_eq_last (Props.once_of_nodup (nodup_toMap ps) k)]
    exact Props.last_of_mem (nodup_toMap ps) h
  · intro h
    rw [Props.lookup_eq_last (Props.once_of_nodup (nodup_toMap ps) k)] at h
    exact Props.mem_of_last h

/-- Objects are equal as values exactly when they mean the same, as far as
    their entries are. -/
theorem entriesEqual_toMap_iff {ps : List (String × Json)}
    (ih : ∀ p ∈ ps, ∀ b, jsonValuesEqual (toValue p.2) (toValue b) = true ↔
      p.2.meaning = b.meaning) (qs : List (String × Json)) :
    (toMap ps).length = (toMap qs).length ∧ entriesEqual (toMap ps) (toMap qs) = true ↔
      ∀ k, (last ps k).map Json.meaning = (last qs k).map Json.meaning := by
  rw [entriesEqual_iff]
  constructor
  · rintro ⟨hlen, hent⟩ k
    -- equal length and one inclusion give the same keys
    have hnames := names_eq_of_subset hlen fun k hk => by
      obtain ⟨p, hp, rfl⟩ := List.mem_map.1 hk
      obtain ⟨v, hv, _⟩ := hent p hp
      rw [Props.lookup_eq_last (Props.once_of_nodup (nodup_toMap qs) _)] at hv
      exact List.mem_map.2 ⟨(p.1, v), Props.mem_of_last hv, rfl⟩
    cases hv : last ps k with
    | none =>
      have hk : k ∉ (toMap qs).map Prod.fst := by
        rw [← hnames, names_toMap]
        exact Props.last_eq_none_iff.1 hv
      rw [Props.last_eq_none_iff.2 fun h => hk ((names_toMap _ _).2 h)]
    | some v =>
      obtain ⟨w', hw', heq⟩ := hent (k, toValue v) (mem_toMap_iff.2 ⟨v, hv, rfl⟩)
      rw [lookup_toMap] at hw'
      obtain ⟨w, hw, rfl⟩ := Option.map_eq_some_iff.1 hw'
      have := (ih _ (Props.mem_of_last hv) w).1 heq
      rw [hw, Option.map_some, Option.map_some, this]
  · intro h
    have hnames : ∀ k, k ∈ (toMap ps).map Prod.fst ↔ k ∈ (toMap qs).map Prod.fst := by
      intro k
      rw [names_toMap, names_toMap, ← not_iff_not, ← Props.last_eq_none_iff,
        ← Props.last_eq_none_iff, ← Option.map_eq_none_iff (f := Json.meaning), h,
        Option.map_eq_none_iff]
    constructor
    · have := ((List.perm_ext_iff_of_nodup (nodup_toMap ps) (nodup_toMap qs)).2 hnames).length_eq
      simpa using this
    · rintro ⟨k, w'⟩ hp
      obtain ⟨v, hv, rfl⟩ := mem_toMap_iff.1 hp
      have hk := h k
      rw [hv, Option.map_some] at hk
      obtain ⟨w, hw, hmean⟩ := Option.map_eq_some_iff.1 hk.symm
      exact ⟨toValue w, by rw [lookup_toMap, hw]; rfl,
        (ih _ (Props.mem_of_last hv) w).2 hmean.symm⟩

/-- Two documents are equal as values exactly when they have the same meaning. -/
theorem jsonValuesEqual_iff (a b : Json) :
    jsonValuesEqual (toValue a) (toValue b) = true ↔ a.meaning = b.meaning := by
  induction a generalizing b with
  | null => cases b <;> simp [toValue, jsonValuesEqual, Json.meaning]
  | bool x => cases b <;> simp [toValue, jsonValuesEqual, Json.meaning]
  | number x => cases b <;> simp [toValue, jsonValuesEqual, Json.meaning]
  | string x => cases b <;> simp [toValue, jsonValuesEqual, Json.meaning]
  | array as ih =>
    cases b with
    | array bs =>
      rw [Json.meaning_array, Json.meaning_array, Val.array.injEq, ← elementsEqual_map_iff ih,
        toValue, toValue, jsonValuesEqual, Bool.and_eq_true, toValues_eq, toValues_eq, beq_iff_eq,
        List.length_map, List.length_map]
    | _ => simp [toValue, jsonValuesEqual, Json.meaning]
  | object ps ih =>
    cases b with
    | object qs =>
      rw [Json.meaning_object_inj, ← entriesEqual_toMap_iff ih, toValue, toValue, jsonValuesEqual,
        Bool.and_eq_true, beq_iff_eq]
    | _ => simp [toValue, jsonValuesEqual, Json.meaning]

/-! ## Sections -/

/-- The meaning of a top-level section of a policy; a policy without a value
    has none. -/
def sectionOf (t : PolicyText) (k : String) : Option Val :=
  match t with
  | .document (.object ps) => (last ps k).map Json.meaning
  | _ => none

/-- The top-level key `k` does not repeat. -/
def PolicyText.Once (k : String) : PolicyText → Prop
  | .document (.object ps) => Props.Once k ps
  | _ => True

/-- Policies that compare as equal have the same sections. -/
theorem sectionOf_eq_of_semanticallyEqual {a b : PolicyText}
    (h : policiesAreSemanticallyEqual a b = true) (k : String) : sectionOf a k = sectionOf b k := by
  cases a with
  | document x =>
    cases b with
    | document y =>
      have hmean := (jsonValuesEqual_iff x y).1 h
      cases x <;> cases y <;> first
        | rfl
        | exact Json.meaning_object_inj.1 hmean k
        | simp [Json.meaning] at hmean
    | _ => cases h
  | _ => cases b <;> first | rfl | cases h

namespace PolicyEditor

variable (e : PolicyEditor)

theorem objectValueOrSet_of {e : PolicyEditor} {ps : List (String × Json)}
    (h : e.objectValue = some ps) : e.objectValueOrSet = ps := by
  rw [objectValueOrSet, h, Option.getD_some]

theorem sectionOf_toText (k : String) :
    sectionOf e.toText k = (last e.objectValueOrSet k).map Json.meaning := by
  match e with
  | valueless _ => rfl
  | value (.object _) => rfl
  | value .null | value (.bool _) | value (.number _) | value (.string _) | value (.array _) => rfl

theorem once_toText {k : String} (h : Props.Once k e.objectValueOrSet) : e.toText.Once k := by
  match e with
  | valueless _ => trivial
  | value (.object _) => exact h
  | value .null | value (.bool _) | value (.number _) | value (.string _) | value (.array _) =>
    trivial

/-- What is parsed has the sections of the text. -/
theorem parse_sections {t : PolicyText} {e : PolicyEditor} (h : parse t = .ok e) (k : String) :
    (last e.objectValueOrSet k).map Json.meaning = sectionOf t k := by
  cases t <;> cases h
  · rfl
  · rfl
  · exact (sectionOf_toText _ k).symm

theorem parse_once {t : PolicyText} {e : PolicyEditor} {k : String} (h : parse t = .ok e)
    (ht : t.Once k) : Props.Once k e.objectValueOrSet := by
  cases t <;> cases h
  · exact Nat.zero_le _
  · exact Nat.zero_le _
  · rename_i j
    cases j <;> first | exact ht | exact Nat.zero_le _

/-! ### Edits -/

theorem objectValueOrSet_setGroups (groups : List (String × List PolicyMember)) :
    (e.setGroups groups).objectValueOrSet = if groups.isEmpty then
      remove "groups" e.objectValueOrSet
    else
      alter "groups" (fun v => .object (propsOf v ++ groupProps groups))
        (remove "groups" e.objectValueOrSet) := by
  rw [setGroups]
  split <;> rfl

theorem once_setGroups (groups : List (String × List PolicyMember))
    (h : Props.Once "groups" e.objectValueOrSet) :
    Props.Once "groups" (e.setGroups groups).objectValueOrSet := by
  rw [objectValueOrSet_setGroups]
  split
  · exact Props.once_remove h
  · exact Props.once_alter _ (Props.once_remove h)

/-- `setGroups` leaves exactly the entries built from `groups`. -/
theorem last_setGroups (groups : List (String × List PolicyMember))
    (h : Props.Once "groups" e.objectValueOrSet) :
    last (e.setGroups groups).objectValueOrSet "groups" =
      if groups.isEmpty then none else some (.object (groupProps groups)) := by
  rw [objectValueOrSet_setGroups]
  split
  · exact Props.last_remove h
  · rw [Props.last_alter _ (Props.once_remove h), Props.last_remove h]
    rfl

theorem objectValueOrSet_filterMapGrants (f : Grant → Option Grant) :
    (e.filterMapGrants f).objectValueOrSet = Policy.filterMapGrants f e.objectValueOrSet := by
  rw [filterMapGrants]
  cases h : e.objectValue with
  | none => simp [objectValueOrSet, h, Policy.filterMapGrants]
  | some ps => rw [objectValueOrSet_of h, objectValueOrSet_of rfl]

/-- A change of the grants is a change of `grants` only. -/
theorem last_filterMapGrants_of_ne (f : Grant → Option Grant) {k : String} (h : k ≠ "grants") :
    last (e.filterMapGrants f).objectValueOrSet k = last e.objectValueOrSet k := by
  rw [objectValueOrSet_filterMapGrants, Policy.filterMapGrants]
  split
  · exact Props.last_alter_of_ne _ h
  · rfl

theorem names_filterMapGrants (f : Grant → Option Grant) :
    (e.filterMapGrants f).objectValueOrSet.map Prod.fst = e.objectValueOrSet.map Prod.fst := by
  rw [objectValueOrSet_filterMapGrants, Policy.filterMapGrants]
  split
  · rename_i es hes
    rw [Props.names_alter, if_pos (Props.mem_names_of_lookup hes)]
  · rfl

end PolicyEditor

/-! ## Groups -/

/-- What `groups` is to hold, as a map. -/
def entriesOf (groups : List (String × List PolicyMember)) (k : String) : Option Val :=
  (last (PolicyEditor.groupProps groups) k).map Json.meaning

/-- The entries of `groups` in a policy; none in a policy without the section,
    and no map at all when the section is not an object. -/
def groupEntries (t : PolicyText) : Option (String → Option Val) :=
  match sectionOf t "groups" with
  | none => some fun _ => none
  | some (.object get) => some get
  | some _ => none

/-- The tokens of one group, of some entries of `groups`. -/
def groupTokens (name : String) (entries : Option (String → Option Val)) : List String :=
  match entries.bind (· name) with
  | some (.array es) => es.filterMap fun
    | .string token => some token
    | _ => none
  | _ => []

theorem groupEntries_eq_of_semanticallyEqual {a b : PolicyText}
    (h : policiesAreSemanticallyEqual a b = true) : groupEntries a = groupEntries b := by
  unfold groupEntries
  rw [sectionOf_eq_of_semanticallyEqual h]

/-- A policy whose `groups` were just set has exactly the entries that were set,
    whatever was done to its grants. -/
theorem groupEntries_setGroups (e : PolicyEditor) (groups : List (String × List PolicyMember))
    (f : Grant → Option Grant) (h : Props.Once "groups" e.objectValueOrSet) :
    groupEntries ((e.setGroups groups).filterMapGrants f).toText = some (entriesOf groups) := by
  rw [groupEntries]
  rw [PolicyEditor.sectionOf_toText, PolicyEditor.last_filterMapGrants_of_ne _ _ (by decide),
    PolicyEditor.last_setGroups _ _ h]
  cases groups with
  | nil => rfl
  | cons g gs =>
    rw [if_neg (by simp), Option.map_some, Json.meaning_object]
    rfl

theorem once_setGroups_filterMapGrants (e : PolicyEditor)
    (groups : List (String × List PolicyMember)) (f : Grant → Option Grant)
    (h : Props.Once "groups" e.objectValueOrSet) :
    ((e.setGroups groups).filterMapGrants f).toText.Once "groups" := by
  refine PolicyEditor.once_toText _ ?_
  rw [Props.Once, PolicyEditor.names_filterMapGrants]
  exact PolicyEditor.once_setGroups e groups h

end Headmaster.Policy
