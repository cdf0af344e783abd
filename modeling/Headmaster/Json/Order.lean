import Headmaster.Json
import Mathlib.Data.List.Forall2
import Mathlib.Data.List.Perm.Basic

/-!
# Documents up to the order of properties

Two documents are the same but for the order of the properties in their objects,
at every depth (`Json.Reordered`). Where no name repeats, these are the documents
that mean the same (`reordered_iff`).
-/

namespace Json

/-- The same but for the order of the properties, at every depth. -/
inductive Reordered : Json → Json → Prop
  | null : Reordered .null .null
  | bool (b : Bool) : Reordered (.bool b) (.bool b)
  | number (t : String) : Reordered (.number t) (.number t)
  | string (s : String) : Reordered (.string s) (.string s)
  | array {es es' : List Json} (hlen : es.length = es'.length)
      (h : ∀ p ∈ es.zip es', Reordered p.1 p.2) : Reordered (.array es) (.array es')
  /-- `rs` has the properties of the second object in the order of the first. -/
  | object {ps qs rs : List (String × Json)} (hperm : rs.Perm qs)
      (hnames : ps.map Prod.fst = rs.map Prod.fst)
      (h : ∀ p ∈ ps.zip rs, Reordered p.1.2 p.2.2) : Reordered (.object ps) (.object qs)

section Lists

variable {α β : Type} {f : α → β}

/-- Lists have one image exactly when their elements, taken in pairs, have. -/
theorem map_eq_map_iff {xs ys : List α} : xs.map f = ys.map f ↔
    xs.length = ys.length ∧ ∀ p ∈ xs.zip ys, f p.1 = f p.2 := by
  rw [← List.forall₂_eq_eq_eq, List.forall₂_map_left_iff, List.forall₂_map_right_iff,
    List.forall₂_iff_zip]
  exact and_congr_right fun _ => ⟨fun h p hp => h hp, fun h _ _ hp => h _ hp⟩

/-- Where no name repeats, the order of the properties makes no difference to what is found. -/
theorem last_eq_of_perm {ps qs : List (String × α)} (hperm : ps.Perm qs)
    (hnodup : (qs.map Prod.fst).Nodup) (k : String) : Props.last ps k = Props.last qs k := by
  have hnodup' : (ps.map Prod.fst).Nodup := (hperm.map _).nodup_iff.2 hnodup
  rw [← Props.lookup_eq_last (Props.once_of_nodup hnodup k),
    ← Props.lookup_eq_last (Props.once_of_nodup hnodup' k)]
  ext v
  rw [← Props.mem_iff_lookup hnodup, ← Props.mem_iff_lookup hnodup', hperm.mem_iff]

end Lists

/-- Properties with the same names and the same meanings, each in its place. -/
theorem last_eq_of_zip {ps rs : List (String × Json)} (hnames : ps.map Prod.fst = rs.map Prod.fst)
    (h : ∀ p ∈ ps.zip rs, p.1.2.meaning = p.2.2.meaning) (k : String) :
    (Props.last ps k).map meaning = (Props.last rs k).map meaning := by
  obtain ⟨hlen, hnames⟩ := map_eq_map_iff.1 hnames
  have hmap : ps.map (fun p => (p.1, p.2.meaning)) = rs.map fun p => (p.1, p.2.meaning) :=
    map_eq_map_iff.2 ⟨hlen, fun p hp => Prod.ext (hnames p hp) (h p hp)⟩
  rw [← Props.last_map fun _ => meaning, hmap, Props.last_map fun _ => meaning]

/-- The order of the properties has no meaning. -/
theorem Reordered.meaning_eq {a b : Json} (h : a.Reordered b) (hb : b.Distinct) :
    a.meaning = b.meaning := by
  induction h with
  | null | bool _ | number _ | string _ => rfl
  | array hlen _ ih =>
    rw [meaning_array, meaning_array, map_eq_map_iff.2 ⟨hlen, fun p hp => ?_⟩]
    exact ih p hp (hb.of_mem (List.of_mem_zip hp).2)
  | object hperm hnames _ ih =>
    refine meaning_object_inj.2 fun k => ?_
    rw [← last_eq_of_perm hperm hb.nodup]
    refine last_eq_of_zip hnames (fun p hp => ih p hp ?_) k
    exact hb.of_prop (hperm.mem_iff.1 (List.of_mem_zip hp).2)

/-- A property, with the value that it has in another object. -/
def propIn (qs : List (String × Json)) (p : String × Json) : String × Json :=
  (p.1, (qs.lookup p.1).getD p.2)

theorem names_propIn (ps qs : List (String × Json)) :
    (ps.map (propIn qs)).map Prod.fst = ps.map Prod.fst := List.map_map

section SameMeaning

variable {ps qs : List (String × Json)} (hps : (object ps).Distinct) (hqs : (object qs).Distinct)
  (h : (object ps).meaning = (object qs).meaning)

include hps hqs h

/-- In an object with the same meaning, each name has a value with the same meaning. -/
theorem propIn_mem {p : String × Json} (hp : p ∈ ps) :
    propIn qs p ∈ qs ∧ p.2.meaning = (propIn qs p).2.meaning := by
  have hlast : Props.last ps p.1 = some p.2 := Props.last_of_mem hps.nodup hp
  have hname := meaning_object_inj.1 h p.1
  rw [hlast, Option.map_some] at hname
  obtain ⟨w, hw, hmeaning⟩ := Option.map_eq_some_iff.1 hname.symm
  rw [← Props.lookup_eq_last (hqs.once p.1)] at hw
  rw [propIn, hw]
  exact ⟨(Props.mem_iff_lookup hqs.nodup).2 hw, hmeaning.symm⟩

/-- The properties are those of the other object, but for their order. -/
theorem propIn_perm : (ps.map (propIn qs)).Perm qs := by
  have hnodup : ((ps.map (propIn qs)).map Prod.fst).Nodup := names_propIn ps qs ▸ hps.nodup
  refine (List.perm_ext_iff_of_nodup hnodup.of_map hqs.nodup.of_map).2 fun q => ⟨fun hq => ?_,
    fun hq => ?_⟩
  · obtain ⟨p, hp, rfl⟩ := List.mem_map.1 hq
    exact (propIn_mem hps hqs h hp).1
  · have hname := meaning_object_inj.1 h q.1
    rw [Props.last_of_mem hqs.nodup hq, Option.map_some] at hname
    obtain ⟨v, hv, _⟩ := Option.map_eq_some_iff.1 hname
    refine List.mem_map.2 ⟨(q.1, v), Props.mem_of_last hv, ?_⟩
    rw [propIn, (Props.mem_iff_lookup hqs.nodup).1 hq, Option.getD_some]

end SameMeaning

/-- Documents in which no name repeats are the same but for the order of properties exactly when
    they mean the same. -/
theorem reordered_iff {a b : Json} (ha : a.Distinct) (hb : b.Distinct) :
    a.Reordered b ↔ a.meaning = b.meaning := by
  refine ⟨fun h => h.meaning_eq hb, fun h => ?_⟩
  induction a generalizing b with
  | null => cases b <;> cases h; exact .null
  | bool _ => cases b <;> cases h; exact .bool _
  | number _ => cases b <;> cases h; exact .number _
  | string _ => cases b <;> cases h; exact .string _
  | array es ih =>
    cases b with
    | array es' =>
      rw [meaning_array, meaning_array, Val.array.injEq] at h
      obtain ⟨hlen, hmeaning⟩ := map_eq_map_iff.1 h
      refine .array hlen fun p hp => ?_
      obtain ⟨hmem, hmem'⟩ := List.of_mem_zip hp
      exact ih _ hmem (ha.of_mem hmem) (hb.of_mem hmem') (hmeaning p hp)
    | _ => simp [meaning] at h
  | object ps ih =>
    cases b with
    | object qs =>
      refine .object (propIn_perm ha hb h) (names_propIn ps qs).symm fun r hr => ?_
      rw [← List.map_prod_left_eq_zip] at hr
      obtain ⟨p, hp, rfl⟩ := List.mem_map.1 hr
      obtain ⟨hmem, hmeaning⟩ := propIn_mem ha hb h hp
      exact ih p hp (ha.of_prop hp) (hb.of_prop hmem) hmeaning
    | _ => simp [meaning] at h

end Json
