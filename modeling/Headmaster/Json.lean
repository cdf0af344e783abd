import Mathlib.Data.List.Basic
import Mathlib.Data.List.Nodup

/-!
# JSON documents

A JSON text as its syntax tree shows it is a tree whose objects are lists of
properties, in order and with names that may repeat (`Json`). What it means
(`Json.meaning`) is a value whose objects are maps (`Val`): the order of the
properties is lost, and of several properties with one name the last counts
(`Props.last`).

A list of properties is edited as in a syntax tree: the first property with a
name is the one read (`List.lookup`), removed (`Props.remove`) or given a new
value (`Props.alter`). The lemmas on `last` say what an edit does to the
meaning: it leaves the other names alone, and it sets its own when that name
does not repeat (`Props.Once`). In a `Json.Distinct` document no name repeats,
at any depth.
-/

/-! ## Lists of properties -/

namespace Props

variable {α β : Type} {k k' : String} {ps : List (String × α)}

/-- The last property with a name. -/
def last (ps : List (String × α)) (k : String) : Option α := ps.reverse.lookup k

/-- Remove the first property with a name. -/
def remove (k : String) : List (String × α) → List (String × α)
  | [] => []
  | p :: ps => if p.1 = k then ps else p :: remove k ps

/-- Give the first property with a name a new value, or append it. -/
def alter (k : String) (f : Option α → α) : List (String × α) → List (String × α)
  | [] => [(k, f none)]
  | p :: ps => if p.1 = k then (p.1, f (some p.2)) :: ps else p :: alter k f ps

/-- A name does not repeat. -/
def Once (k : String) (ps : List (String × α)) : Prop := (ps.map Prod.fst).count k ≤ 1

instance : Decidable (Once k ps) := inferInstanceAs (Decidable (_ ≤ 1))

theorem once_of_nodup (h : (ps.map Prod.fst).Nodup) (k : String) : Once k ps :=
  List.nodup_iff_count_le_one.1 h k

theorem Once.tail {p : String × α} (h : Once k (p :: ps)) : Once k ps :=
  Nat.le_trans List.count_le_count_cons h

theorem lookup_cons (p : String × α) :
    (p :: ps).lookup k = if p.1 = k then some p.2 else ps.lookup k := by
  rw [List.lookup_cons]
  by_cases h : p.1 = k
  · simp [h]
  · have hk : (k == p.1) = false := by simpa using Ne.symm h
    simp [h, hk]

@[simp]
theorem last_nil : last ([] : List (String × α)) k = none := rfl

theorem last_cons (p : String × α) :
    last (p :: ps) k = (last ps k).or (if p.1 = k then some p.2 else none) := by
  simp only [last, List.reverse_cons, List.lookup_append, lookup_cons, List.lookup_nil]

/-- The values changed, each under its name. -/
theorem last_map (f : String → α → β) :
    last (ps.map fun p => (p.1, f p.1 p.2)) k = (last ps k).map (f k) := by
  induction ps with
  | nil => rfl
  | cons p ps ih =>
    rw [List.map_cons, last_cons, last_cons, ih]
    match last ps k with
    | some v => rfl
    | none => by_cases h : p.1 = k <;> simp [h]

theorem last_eq_none_iff : last ps k = none ↔ k ∉ ps.map Prod.fst := by
  induction ps with
  | nil => simp
  | cons p ps ih =>
    rw [last_cons, Option.or_eq_none_iff, ih, List.map_cons, List.mem_cons, not_or, and_comm]
    by_cases h : p.1 = k
    · simp [h]
    · simp [h, Ne.symm h]

theorem mem_of_last {v : α} (h : last ps k = some v) : (k, v) ∈ ps := by
  induction ps with
  | nil => cases h
  | cons p ps ih =>
    rw [last_cons, Option.or_eq_some_iff] at h
    rcases h with h | ⟨_, h⟩
    · exact List.mem_cons_of_mem _ (ih h)
    · by_cases hk : p.1 = k
      · rw [if_pos hk, Option.some.injEq] at h
        subst hk h
        exact List.mem_cons_self
      · rw [if_neg hk] at h
        cases h

theorem last_of_mem {v : α} (hn : (ps.map Prod.fst).Nodup) (h : (k, v) ∈ ps) :
    last ps k = some v := by
  induction ps with
  | nil => cases h
  | cons p ps ih =>
    rw [List.map_cons, List.nodup_cons] at hn
    rw [last_cons]
    rcases List.mem_cons.1 h with rfl | h
    · simp [last_eq_none_iff.2 hn.1]
    · rw [ih hn.2 h, Option.some_or]

/-- A name that does not repeat is not met again. -/
theorem Once.last_tail {p : String × α} (h : Once k (p :: ps)) (hk : p.1 = k) : last ps k = none := by
  rw [Once, List.map_cons, List.count_cons, if_pos (by simpa using hk)] at h
  rw [last_eq_none_iff, ← List.count_eq_zero]
  omega

/-- The first property with a name that does not repeat is the last. -/
theorem lookup_eq_last (h : Once k ps) : ps.lookup k = last ps k := by
  induction ps with
  | nil => rfl
  | cons p ps ih =>
    rw [last_cons, lookup_cons]
    by_cases hk : p.1 = k
    · simp [hk, h.last_tail hk]
    · simp [hk, ih h.tail]

/-! ### Edits -/

theorem last_remove (h : Once k ps) : last (remove k ps) k = none := by
  induction ps with
  | nil => rfl
  | cons p ps ih =>
    rw [remove]
    by_cases hk : p.1 = k
    · rw [if_pos hk, h.last_tail hk]
    · rw [if_neg hk, last_cons, ih h.tail, if_neg hk]
      rfl

theorem last_alter_of_ne (f : Option α → α) (h : k' ≠ k) : last (alter k f ps) k' = last ps k' := by
  induction ps with
  | nil => simp [alter, last_cons, Ne.symm h]
  | cons p ps ih =>
    rw [alter]
    by_cases hk : p.1 = k
    · simp [hk, last_cons, Ne.symm h]
    · rw [if_neg hk, last_cons, last_cons, ih]

theorem last_alter (f : Option α → α) (h : Once k ps) :
    last (alter k f ps) k = some (f (last ps k)) := by
  induction ps with
  | nil => simp [alter, last_cons]
  | cons p ps ih =>
    rw [alter]
    by_cases hk : p.1 = k
    · simp [last_cons, hk, h.last_tail hk]
    · rw [if_neg hk, last_cons, last_cons, ih h.tail]
      simp [hk]

theorem names_remove_sublist : ((remove k ps).map Prod.fst).Sublist (ps.map Prod.fst) := by
  induction ps with
  | nil => exact List.Sublist.slnil
  | cons p ps ih =>
    rw [remove]
    split
    · exact List.sublist_cons_self _ _
    · exact ih.cons_cons _

theorem names_alter (f : Option α → α) : (alter k f ps).map Prod.fst =
    if k ∈ ps.map Prod.fst then ps.map Prod.fst else ps.map Prod.fst ++ [k] := by
  induction ps with
  | nil => rfl
  | cons p ps ih =>
    rw [alter]
    by_cases hk : p.1 = k
    · simp [hk]
    · rw [if_neg hk, List.map_cons, ih]
      by_cases hmem : k ∈ ps.map Prod.fst
      · rw [if_pos hmem, List.map_cons, if_pos (List.mem_cons_of_mem _ hmem)]
      · rw [if_neg hmem, List.map_cons,
          if_neg fun h => (List.mem_cons.1 h).elim (Ne.symm hk) hmem, List.cons_append]

theorem nodup_alter (f : Option α → α) (h : (ps.map Prod.fst).Nodup) :
    ((alter k f ps).map Prod.fst).Nodup := by
  rw [names_alter]
  split
  · exact h
  · rename_i hk
    rw [← List.concat_eq_append]
    exact h.concat hk

theorem once_remove (h : Once k ps) : Once k (remove k ps) :=
  Nat.le_trans (names_remove_sublist.count_le k) h

theorem once_alter (f : Option α → α) (h : Once k ps) : Once k (alter k f ps) := by
  rw [Once, names_alter]
  split
  · exact h
  · rename_i hk
    rw [List.count_append, List.count_eq_zero.2 hk]
    simp

theorem Once.alter (f : Option α → α) (h : Once k ps) : Once k (alter k' f ps) := by
  rcases eq_or_ne k k' with rfl | hne
  · exact once_alter f h
  · rw [Once, names_alter]
    split
    · exact h
    · rw [List.count_append, List.count_singleton, if_neg (by simpa using hne.symm)]
      exact h

theorem mem_names_of_lookup {v : α} (h : ps.lookup k = some v) : k ∈ ps.map Prod.fst := by
  rw [List.lookup_eq_some_iff] at h
  obtain ⟨l₁, l₂, rfl, _⟩ := h
  simp

/-! ### The properties of other names -/

/-- The properties with another name. -/
def others (k : String) (ps : List (String × α)) : List (String × α) := ps.filter (·.1 ≠ k)

theorem others_cons (p : String × α) :
    others k (p :: ps) = if p.1 = k then others k ps else p :: others k ps := by
  rw [others, List.filter_cons]
  by_cases h : p.1 = k <;> simp [h, others]

theorem others_concat (v : α) : others k (ps ++ [(k, v)]) = others k ps := by
  simp [others]

theorem lookup_others (h : k' ≠ k) : (others k ps).lookup k' = ps.lookup k' := by
  induction ps with
  | nil => rfl
  | cons p ps ih =>
    rw [others_cons, lookup_cons]
    by_cases hk : p.1 = k
    · rw [if_pos hk, ih, if_neg (hk ▸ Ne.symm h)]
    · rw [if_neg hk, lookup_cons, ih]

theorem last_others (h : k' ≠ k) : last (others k ps) k' = last ps k' := by
  induction ps with
  | nil => rfl
  | cons p ps ih =>
    rw [others_cons, last_cons]
    by_cases hk : p.1 = k
    · rw [if_pos hk, ih, if_neg (hk ▸ Ne.symm h), Option.or_none]
    · rw [if_neg hk, last_cons, ih]

theorem others_remove : others k (remove k ps) = others k ps := by
  induction ps with
  | nil => rfl
  | cons p ps ih =>
    rw [remove, others_cons]
    split
    · rfl
    · rename_i hk
      rw [others_cons, if_neg hk, ih]

theorem others_alter (f : Option α → α) : others k (alter k f ps) = others k ps := by
  induction ps with
  | nil => simp [alter, others]
  | cons p ps ih =>
    rw [alter, others_cons]
    split
    · rename_i hk
      rw [others_cons, if_pos hk]
    · rename_i hk
      rw [others_cons, if_neg hk, ih]

/-- An edit of another name is one of the properties of other names. -/
theorem others_alter_of_ne (f : Option α → α) (h : k' ≠ k) :
    others k (alter k' f ps) = alter k' f (others k ps) := by
  induction ps with
  | nil => simp [alter, others, h]
  | cons p ps ih =>
    rw [alter]
    by_cases hk' : p.1 = k'
    · rw [if_pos hk', others_cons, others_cons, if_neg (hk' ▸ h), if_neg (hk' ▸ h), alter,
        if_pos hk']
    · rw [if_neg hk', others_cons, others_cons, ih]
      split
      · rfl
      · rw [alter, if_neg hk']

theorem lookup_alter_of_ne (f : Option α → α) (h : k' ≠ k) :
    (alter k f ps).lookup k' = ps.lookup k' := by
  induction ps with
  | nil => simp [alter, h]
  | cons p ps ih =>
    rw [alter]
    by_cases hk : p.1 = k
    · rw [if_pos hk, lookup_cons, lookup_cons, hk, if_neg (Ne.symm h), if_neg (Ne.symm h)]
    · rw [if_neg hk, lookup_cons, lookup_cons, ih]

theorem lookup_alter (f : Option α → α) :
    (alter k f ps).lookup k = some (f (ps.lookup k)) := by
  induction ps with
  | nil => simp [alter]
  | cons p ps ih =>
    rw [alter, lookup_cons]
    by_cases hk : p.1 = k
    · rw [if_pos hk, lookup_cons, if_pos hk, if_pos hk]
    · rw [if_neg hk, lookup_cons, if_neg hk, if_neg hk, ih]

theorem alter_alter (f g : Option α → α) :
    alter k f (alter k g ps) = alter k (fun v => f (some (g v))) ps := by
  induction ps with
  | nil => simp [alter]
  | cons p ps ih =>
    rw [alter]
    by_cases hk : p.1 = k
    · rw [if_pos hk, alter, if_pos hk, alter, if_pos hk]
    · rw [if_neg hk, alter, if_neg hk, ih, alter, if_neg hk]

theorem alter_comm (f g : Option α → α) (h : k ≠ k') (hk : ps.lookup k ≠ none)
    (hk' : ps.lookup k' ≠ none) : alter k f (alter k' g ps) = alter k' g (alter k f ps) := by
  induction ps with
  | nil => exact absurd rfl hk
  | cons p ps ih =>
    rw [lookup_cons] at hk hk'
    rw [alter, alter]
    by_cases hp : p.1 = k
    · have hp' : p.1 ≠ k' := fun e => h (hp.symm.trans e)
      rw [if_neg hp', if_pos hp, alter, if_pos hp, alter, if_neg hp']
    · by_cases hp' : p.1 = k'
      · rw [if_pos hp', if_neg hp, alter, if_neg hp, alter, if_pos hp']
      · rw [if_neg hp] at hk
        rw [if_neg hp'] at hk'
        rw [if_neg hp', if_neg hp, alter, if_neg hp, alter, if_neg hp', ih hk hk']

theorem count_others (h : k' ≠ k) :
    ((others k ps).map Prod.fst).count k' = (ps.map Prod.fst).count k' := by
  induction ps with
  | nil => rfl
  | cons p ps ih =>
    rw [others_cons, List.map_cons, List.count_cons]
    split
    · rename_i hk
      rw [ih, if_neg (by simpa [hk] using Ne.symm h), Nat.add_zero]
    · rw [List.map_cons, List.count_cons, ih]

theorem once_others (h : k' ≠ k) : Once k' (others k ps) ↔ Once k' ps := by
  rw [Once, Once, count_others h]

/-- An edit that gives the first property with a name its own value changes nothing. -/
theorem alter_eq_self {f : Option α → α} {v : α} (h : ps.lookup k = some v)
    (hf : f (some v) = v) : alter k f ps = ps := by
  induction ps with
  | nil => cases h
  | cons p ps ih =>
    rw [lookup_cons] at h
    rw [alter]
    split
    · rename_i hk
      rw [if_pos hk, Option.some.injEq] at h
      rw [h, hf, ← h]
    · rename_i hk
      rw [if_neg hk] at h
      rw [ih h]

/-- Where no property has the name, there is none to map. -/
theorem map_of_absent {f : α → α} (h : k ∉ ps.map Prod.fst) :
    ps.map (fun p => (p.1, if p.1 = k then f p.2 else p.2)) = ps := by
  refine (List.map_congr_left fun p hp => ?_).trans (List.map_id ps)
  have hk : p.1 ≠ k := fun hk => h (hk ▸ List.mem_map_of_mem hp)
  rw [if_neg hk, id_eq]

/-- An edit of the one property with a name maps it, and no other. -/
theorem alter_eq_map {f : α → α} {v : α} (hOnce : Once k ps) (h : ps.lookup k = some v) :
    alter k (fun _ => f v) ps = ps.map fun p => (p.1, if p.1 = k then f p.2 else p.2) := by
  induction ps with
  | nil => cases h
  | cons p ps ih =>
    rw [lookup_cons] at h
    rw [alter, List.map_cons]
    split
    · rename_i hk
      rw [if_pos hk, Option.some.injEq] at h
      rw [map_of_absent (last_eq_none_iff.1 (hOnce.last_tail hk)), h]
    · rename_i hk
      rw [if_neg hk] at h
      rw [ih hOnce.tail h]

theorem lookup_eq_none_iff : ps.lookup k = none ↔ k ∉ ps.map Prod.fst := by
  induction ps with
  | nil => simp
  | cons p ps ih =>
    rw [lookup_cons, List.map_cons, List.mem_cons, not_or, ← ih]
    by_cases h : p.1 = k
    · simp [h]
    · simp [h, Ne.symm h]

/-- Where no name repeats, the properties are what is found under their names. -/
theorem mem_iff_lookup {v : α} (hn : (ps.map Prod.fst).Nodup) : (k, v) ∈ ps ↔ ps.lookup k = some v := by
  rw [lookup_eq_last (once_of_nodup hn k)]
  exact ⟨last_of_mem hn, mem_of_last⟩

/-! ### Maps -/

/-- Insert into a map. -/
def insert (k : String) (v : α) (ps : List (String × α)) : List (String × α) := alter k (fun _ => v) ps

/-- Insert all of another map. -/
def extend (ps qs : List (String × α)) : List (String × α) :=
  qs.foldl (fun ps q => insert q.1 q.2 ps) ps

theorem lookup_insert (v : α) :
    (insert k v ps).lookup k' = if k' = k then some v else ps.lookup k' := by
  rw [insert]
  split
  · rename_i h
    rw [h, lookup_alter]
  · rename_i h
    rw [lookup_alter_of_ne _ h]

theorem lookup_extend (qs : List (String × α)) :
    (extend ps qs).lookup k = (last qs k).or (ps.lookup k) := by
  induction qs generalizing ps with
  | nil => rfl
  | cons q qs ih =>
    rw [extend, List.foldl_cons, ← extend, ih, lookup_insert, last_cons]
    by_cases h : k = q.1
    · cases last qs k <;> simp [h]
    · cases last qs k <;> simp [h, Ne.symm h]

theorem nodup_extend (qs : List (String × α)) (h : (ps.map Prod.fst).Nodup) :
    ((extend ps qs).map Prod.fst).Nodup := by
  induction qs generalizing ps with
  | nil => exact h
  | cons q qs ih => exact ih (nodup_alter _ h)

/-- The names that are new come after those of before, in order. -/
theorem names_extend (qs : List (String × α)) : ∃ l, l.Sublist (qs.map Prod.fst) ∧
    (extend ps qs).map Prod.fst = ps.map Prod.fst ++ l := by
  induction qs generalizing ps with
  | nil => exact ⟨[], List.Sublist.slnil, (List.append_nil _).symm⟩
  | cons q qs ih =>
    obtain ⟨l, hsub, hl⟩ := @ih (insert q.1 q.2 ps)
    rw [extend, List.foldl_cons, ← extend, hl, insert, names_alter]
    split
    · exact ⟨l, hsub.cons _, rfl⟩
    · exact ⟨q.1 :: l, hsub.cons_cons _, by rw [List.append_assoc]; rfl⟩

/-- The last property with a name is the last of those that have it. -/
theorem last_eq_getLast?_filter :
    last ps k = ((ps.filter (·.1 = k)).getLast?).map Prod.snd := by
  induction ps with
  | nil => rfl
  | cons p ps ih =>
    rw [last_cons, ih, List.filter_cons]
    by_cases hk : p.1 = k
    · rw [if_pos hk, if_pos (decide_eq_true hk), List.getLast?_cons]
      cases (ps.filter (·.1 = k)).getLast? <;> rfl
    · rw [if_neg hk, if_neg (by simpa using hk), Option.or_none]

end Props

/-! ## Documents and their meaning -/

/-- A JSON document. A number is its text. -/
inductive Json
  | null
  | bool (b : Bool)
  | number (text : String)
  | string (s : String)
  | array (es : List Json)
  | object (ps : List (String × Json))

/-- What a document means: an object is a map. -/
inductive Val
  | null
  | bool (b : Bool)
  | number (text : String)
  | string (s : String)
  | array (es : List Val)
  | object (get : String → Option Val)

namespace Json

/-- Induction on a document, through the lists in it. -/
@[induction_eliminator]
theorem induct {P : Json → Prop} (null : P null) (bool : ∀ b, P (bool b))
    (number : ∀ t, P (number t)) (string : ∀ s, P (string s))
    (array : ∀ es, (∀ e ∈ es, P e) → P (array es))
    (object : ∀ ps, (∀ p ∈ ps, P p.2) → P (object ps)) (j : Json) : P j :=
  @Json.rec P (fun es => ∀ e ∈ es, P e) (fun ps => ∀ p ∈ ps, P p.2) (fun p => P p.2)
    null bool number string array object
    (fun _ h => absurd h List.not_mem_nil)
    (fun _ _ hj hes _ he => (List.mem_cons.1 he).elim (fun e => e ▸ hj) (hes _))
    (fun _ h => absurd h List.not_mem_nil)
    (fun _ _ hp hps _ hq => (List.mem_cons.1 hq).elim (fun e => e ▸ hp) (hps _))
    (fun _ _ h => h) j

mutual

/-- The meaning of a document. -/
def meaning : Json → Val
  | .null => .null
  | .bool b => .bool b
  | .number t => .number t
  | .string s => .string s
  | .array es => .array (meanings es)
  | .object ps => .object (entries ps)

def meanings : List Json → List Val
  | [] => []
  | e :: es => meaning e :: meanings es

def entries : List (String × Json) → String → Option Val
  | [], _ => none
  | (k', v) :: ps, k => (entries ps k).or (if k' = k then some (meaning v) else none)

end

theorem meanings_eq (es : List Json) : meanings es = es.map meaning := by
  induction es with
  | nil => rfl
  | cons e es ih => rw [meanings, ih, List.map_cons]

theorem entries_eq (ps : List (String × Json)) (k : String) :
    entries ps k = (Props.last ps k).map meaning := by
  induction ps with
  | nil => rfl
  | cons p ps ih =>
    obtain ⟨k', v⟩ := p
    rw [entries, ih, Props.last_cons]
    cases Props.last ps k
    · by_cases h : k' = k <;> simp [h]
    · rfl

@[simp]
theorem meaning_array (es : List Json) : (array es).meaning = .array (es.map meaning) := by
  rw [meaning, meanings_eq]

@[simp]
theorem meaning_object (ps : List (String × Json)) :
    (object ps).meaning = .object fun k => (Props.last ps k).map meaning := by
  rw [meaning]
  congr
  funext k
  exact entries_eq ps k

theorem meaning_object_inj {ps qs : List (String × Json)} :
    (object ps).meaning = (object qs).meaning ↔
      ∀ k, (Props.last ps k).map meaning = (Props.last qs k).map meaning := by
  rw [meaning_object, meaning_object, Val.object.injEq, funext_iff]

/-- No object in the document repeats a name. -/
inductive Distinct : Json → Prop
  | null : Distinct .null
  | bool (b : Bool) : Distinct (.bool b)
  | number (t : String) : Distinct (.number t)
  | string (s : String) : Distinct (.string s)
  | array {es : List Json} (h : ∀ e ∈ es, Distinct e) : Distinct (.array es)
  | object {ps : List (String × Json)} (hn : (ps.map Prod.fst).Nodup)
      (h : ∀ p ∈ ps, Distinct p.2) : Distinct (.object ps)

namespace Distinct

variable {ps : List (String × Json)} {k : String}

theorem nodup (h : (Json.object ps).Distinct) : (ps.map Prod.fst).Nodup := by
  cases h with
  | object hn _ => exact hn

theorem once (h : (Json.object ps).Distinct) (k : String) : Props.Once k ps :=
  Props.once_of_nodup h.nodup k

theorem of_prop (h : (Json.object ps).Distinct) {p : String × Json} (hp : p ∈ ps) :
    p.2.Distinct := by
  cases h with
  | object _ hps => exact hps p hp

theorem of_lookup (h : (Json.object ps).Distinct) {v : Json} (hv : ps.lookup k = some v) :
    v.Distinct := by
  rw [Props.lookup_eq_last (h.once k)] at hv
  exact h.of_prop (Props.mem_of_last hv)

theorem of_mem {es : List Json} (h : (Json.array es).Distinct) {e : Json} (he : e ∈ es) :
    e.Distinct := by
  cases h with
  | array hes => exact hes e he

end Distinct

end Json
