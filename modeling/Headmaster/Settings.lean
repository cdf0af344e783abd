import Headmaster.Json

/-!
# Reading settings by path

Settings are read from a document by their paths. Names are compared without
regard to case (`lower`), and a name with dots in it denotes a path, which is
found before the nested object (`reads`). Of names that are the same but for
case, any may be the one that is read: `reads` lists everything that may be.

`onlyReads_of_agrees` is the handle for proofs that a setting is read as it was
set: every value on the way agrees with that.
-/

namespace Settings

/-- The names of a path in one, with dots between them. -/
def dotted (key : String) (names : List String) : String :=
  names.foldl (fun key name => key ++ "." ++ name) key

variable (lower : String → String)

/-- The values under a name, but for case. -/
def valuesAt (key : String) (ps : List (String × Json)) : List Json :=
  (ps.filter fun p => lower p.1 == key).map Prod.snd

/-- What may be found under a name. -/
def choices (key : String) (ps : List (String × Json)) : List (Option Json) :=
  if (valuesAt lower key ps).isEmpty then [none] else (valuesAt lower key ps).map some

/-- What may be read at a path whose first names are joined in `key`. -/
def reads (key : String) (names : List String) (ps : List (String × Json)) : List (Option Json) :=
  match names with
  | [] => choices lower key ps
  | name :: names =>
    -- the longer name first, and then the object under the shorter one
    (reads (key ++ "." ++ name) names ps).flatMap fun
      | some v => [some v]
      | none => (choices lower key ps).flatMap fun
        | some (.object qs) => reads name names qs
        | _ => [none]

/-- Whatever is read at a path, it means the same as `v`. -/
def OnlyReads (key : String) (names : List String) (ps : List (String × Json)) (v : Json) : Prop :=
  ∀ r ∈ reads lower key names ps, r.map Json.meaning = some v.meaning

/-- All values on the way along a path agree with the value `v` at its end. -/
def Agrees (key : String) (names : List String) (ps : List (String × Json)) (v : Json) : Prop :=
  match names with
  | [] => ∀ v' ∈ valuesAt lower key ps, v'.meaning = v.meaning
  | name :: names =>
    Agrees (key ++ "." ++ name) names ps v ∧
      ∀ v' ∈ valuesAt lower key ps, ∃ qs, v' = .object qs ∧ OnlyReads lower name names qs v

variable {lower} {key name : String} {names : List String} {ps : List (String × Json)} {v : Json}

theorem mem_valuesAt : v ∈ valuesAt lower key ps ↔ ∃ k, (k, v) ∈ ps ∧ lower k = key := by
  simp [valuesAt]

theorem mem_choices {r : Option Json} : r ∈ choices lower key ps ↔
    (∃ v ∈ valuesAt lower key ps, r = some v) ∨ valuesAt lower key ps = [] ∧ r = none := by
  rw [choices]
  cases valuesAt lower key ps with
  | nil => simp
  | cons v vs => simp [eq_comm]

theorem choices_ne_nil : choices lower key ps ≠ [] := by
  rw [choices]
  cases valuesAt lower key ps <;> simp

/-- Something is read at every path, if only nothing. -/
theorem reads_ne_nil (key : String) (names : List String) (ps : List (String × Json)) :
    reads lower key names ps ≠ [] := by
  induction names generalizing key ps with
  | nil => exact choices_ne_nil
  | cons name names ih =>
    obtain ⟨r, hr⟩ := List.exists_mem_of_ne_nil _ (ih (key ++ "." ++ name) ps)
    rw [reads]
    match r with
    | some v => exact List.ne_nil_of_mem (List.mem_flatMap.2 ⟨_, hr, List.mem_singleton_self _⟩)
    | none =>
      obtain ⟨c, hc⟩ : ∃ c, c ∈ choices lower key ps := List.exists_mem_of_ne_nil _ choices_ne_nil
      match c with
      | some (.object qs) =>
        obtain ⟨r, hr'⟩ := List.exists_mem_of_ne_nil _ (ih name qs)
        exact List.ne_nil_of_mem (List.mem_flatMap.2 ⟨_, hr, List.mem_flatMap.2 ⟨_, hc, hr'⟩⟩)
      | none | some .null | some (.bool _) | some (.number _) | some (.string _)
      | some (.array _) =>
        exact List.ne_nil_of_mem (List.mem_flatMap.2 ⟨_, hr,
          List.mem_flatMap.2 ⟨_, hc, List.mem_singleton_self _⟩⟩)

/-- A value whose name is the whole path may be read. -/
theorem mem_reads_of_dotted (h : v ∈ valuesAt lower (dotted key names) ps) :
    some v ∈ reads lower key names ps := by
  induction names generalizing key with
  | nil => exact mem_choices.2 (.inl ⟨v, h, rfl⟩)
  | cons name names ih =>
    rw [reads]
    exact List.mem_flatMap.2 ⟨_, ih h, List.mem_singleton_self _⟩

/-- Where all values on the way agree with a value, it is read, or nothing is there. -/
theorem meaning_of_mem_reads (h : Agrees lower key names ps v) {r : Option Json}
    (hr : r ∈ reads lower key names ps) :
    r.map Json.meaning = some v.meaning ∨ r = none ∧ valuesAt lower key ps = [] := by
  induction names generalizing key r with
  | nil =>
    rcases mem_choices.1 hr with ⟨v', hv', rfl⟩ | ⟨hnone, rfl⟩
    · exact .inl (congrArg some (h v' hv'))
    · exact .inr ⟨rfl, hnone⟩
  | cons name names ih =>
    rw [reads] at hr
    obtain ⟨r', hr', hr⟩ := List.mem_flatMap.1 hr
    obtain ⟨hlonger, hhere⟩ := h
    rcases ih hlonger hr' with hread | ⟨rfl, _⟩
    · match r', hread with
      | some v', hread => exact .inl (List.mem_singleton.1 hr ▸ hread)
    · -- nothing under a longer name, so the object under this one is looked into
      obtain ⟨c, hc, hr⟩ := List.mem_flatMap.1 hr
      rcases mem_choices.1 hc with ⟨v', hv', rfl⟩ | ⟨hnone, rfl⟩
      · obtain ⟨qs, rfl, hreads⟩ := hhere v' hv'
        exact .inl (hreads r hr)
      · exact .inr ⟨List.mem_singleton.1 hr, hnone⟩

/-- A setting is read as it is set if all values on the way agree with that, and its
    first name is there. -/
theorem onlyReads_of_agrees (h : Agrees lower key names ps v) (hkey : valuesAt lower key ps ≠ []) :
    OnlyReads lower key names ps v :=
  fun _ hr => (meaning_of_mem_reads h hr).resolve_right fun hnone => hkey hnone.2

theorem onlyReads_nil_iff : OnlyReads lower key [] ps v ↔
    valuesAt lower key ps ≠ [] ∧ ∀ v' ∈ valuesAt lower key ps, v'.meaning = v.meaning := by
  constructor
  · intro h
    constructor
    · intro hnone
      cases h none (mem_choices.2 (.inr ⟨hnone, rfl⟩))
    · exact fun v' hv' => Option.some.inj (h _ (mem_choices.2 (.inl ⟨v', hv', rfl⟩)))
  · rintro ⟨hkey, h⟩
    exact onlyReads_of_agrees h hkey

theorem mem_reads_pair_of_none (hnone : valuesAt lower (key ++ "." ++ name) ps = [])
    {c r : Option Json} (hc : c ∈ choices lower key ps)
    (hr : r ∈ match c with
      | some (.object qs) => reads lower name [] qs
      | _ => [none]) : r ∈ reads lower key [name] ps := by
  rw [reads]
  exact List.mem_flatMap.2 ⟨none, mem_choices.2 (.inr ⟨hnone, rfl⟩), List.mem_flatMap.2 ⟨c, hc, hr⟩⟩

/-- What is read under one name, by the properties with that name but for case. -/
theorem onlyReads_nil_iff_forall : OnlyReads lower key [] ps v ↔
    (∃ p ∈ ps, lower p.1 = key) ∧ ∀ p ∈ ps, lower p.1 = key → p.2.meaning = v.meaning := by
  rw [onlyReads_nil_iff, ← List.length_pos_iff, List.length_pos_iff_exists_mem]
  simp only [mem_valuesAt]
  constructor
  · rintro ⟨⟨v', k, hmem, hk⟩, h⟩
    exact ⟨⟨_, hmem, hk⟩, fun p hp hkey => h p.2 ⟨p.1, hp, hkey⟩⟩
  · rintro ⟨⟨p, hp, hkey⟩, h⟩
    exact ⟨⟨p.2, p.1, hp, hkey⟩, fun v' ⟨k, hmem, hk⟩ => h _ hmem hk⟩

/-- A path of two names: what has the whole path for its name comes before the objects under the
    first name. -/
theorem onlyReads_pair_iff : OnlyReads lower key [name] ps v ↔
    (∀ v' ∈ valuesAt lower (key ++ "." ++ name) ps, v'.meaning = v.meaning) ∧
      (valuesAt lower (key ++ "." ++ name) ps ≠ [] ∨ valuesAt lower key ps ≠ [] ∧
        ∀ v' ∈ valuesAt lower key ps, ∃ qs, v' = .object qs ∧ OnlyReads lower name [] qs v) := by
  constructor
  · intro h
    refine ⟨fun v' hv' => Option.some.inj (h _ (mem_reads_of_dotted hv')), ?_⟩
    -- a dotted key shadows the nested object; without one the object decides
    by_cases hlonger : valuesAt lower (key ++ "." ++ name) ps = []
    · refine .inr ⟨fun hnone => ?_, fun v' hv' => ?_⟩
      · cases h none (mem_reads_pair_of_none hlonger (mem_choices.2 (.inr ⟨hnone, rfl⟩))
          (List.mem_singleton_self _))
      · have hc : some v' ∈ choices lower key ps := mem_choices.2 (.inl ⟨v', hv', rfl⟩)
        match v', hc with
        | .object qs, hc => exact ⟨qs, rfl, fun r hr => h r (mem_reads_pair_of_none hlonger hc hr)⟩
        | .null, hc | .bool _, hc | .number _, hc | .string _, hc | .array _, hc =>
          cases h none (mem_reads_pair_of_none hlonger hc (List.mem_singleton_self _))
    · exact .inl hlonger
  · rintro ⟨hagrees, hnested⟩ r hr
    rw [reads] at hr
    obtain ⟨r', hr', hr⟩ := List.mem_flatMap.1 hr
    rcases mem_choices.1 hr' with ⟨v', hv', rfl⟩ | ⟨hnone, rfl⟩
    · rw [List.mem_singleton.1 hr, Option.map_some, hagrees v' hv']
    · obtain ⟨hkey, hobjects⟩ := hnested.resolve_left fun h => h hnone
      obtain ⟨c, hc, hr⟩ := List.mem_flatMap.1 hr
      rcases mem_choices.1 hc with ⟨v', hv', rfl⟩ | ⟨hempty, _⟩
      · obtain ⟨qs, rfl, hreads⟩ := hobjects v' hv'
        exact hreads r hr
      · exact absurd hempty hkey

/-! ### Names that are in their case already -/

section Fixed

variable (hfixed : ∀ p ∈ ps, lower p.1 = p.1)

include hfixed

theorem mem_valuesAt_of_fixed : v ∈ valuesAt lower key ps ↔ (key, v) ∈ ps := by
  rw [mem_valuesAt]
  constructor
  · rintro ⟨k, hmem, rfl⟩
    rwa [hfixed _ hmem]
  · exact fun hmem => ⟨key, hmem, hfixed _ hmem⟩

theorem onlyReads_nil_of_fixed (hnodup : (ps.map Prod.fst).Nodup) (h : (key, v) ∈ ps) :
    OnlyReads lower key [] ps v := by
  refine onlyReads_nil_iff.2 ⟨List.ne_nil_of_mem ((mem_valuesAt_of_fixed hfixed).2 h), ?_⟩
  intro v' hv'
  have hlast := Props.last_of_mem hnodup ((mem_valuesAt_of_fixed hfixed).1 hv')
  rw [Props.last_of_mem hnodup h, Option.some.injEq] at hlast
  rw [hlast]

theorem onlyReads_pair_of_fixed (hnodup : (ps.map Prod.fst).Nodup) {qs : List (String × Json)}
    (h : (key, .object qs) ∈ ps) (hname : key ++ "." ++ name ∉ ps.map Prod.fst)
    (hreads : OnlyReads lower name [] qs v) : OnlyReads lower key [name] ps v := by
  refine onlyReads_pair_iff.2 ⟨fun v' hv' => ?_, .inr ⟨?_, fun v' hv' => ⟨qs, ?_, hreads⟩⟩⟩
  · exact absurd (List.mem_map_of_mem ((mem_valuesAt_of_fixed hfixed).1 hv')) hname
  · exact List.ne_nil_of_mem ((mem_valuesAt_of_fixed hfixed).2 h)
  · have hlast := Props.last_of_mem hnodup ((mem_valuesAt_of_fixed hfixed).1 hv')
    rw [Props.last_of_mem hnodup h, Option.some.injEq] at hlast
    exact hlast.symm

end Fixed

/-! ### Documents that mean the same -/

section Meaning

variable {qs : List (String × Json)}

/-- The values under a name mean the same in objects that do. -/
theorem exists_mem_valuesAt_of_meaning (hp : (Json.object ps).Distinct)
    (hq : (Json.object qs).Distinct) (h : (Json.object ps).meaning = (Json.object qs).meaning)
    (hv : v ∈ valuesAt lower key ps) :
    ∃ v' ∈ valuesAt lower key qs, v.meaning = v'.meaning ∧ v.Distinct ∧ v'.Distinct := by
  obtain ⟨k, hk, hkey⟩ := mem_valuesAt.1 hv
  have hget := Json.meaning_object_inj.1 h k
  rw [Props.last_of_mem hp.nodup hk, Option.map_some] at hget
  obtain ⟨v', hv', hmeaning⟩ := Option.map_eq_some_iff.1 hget.symm
  have hk' := Props.mem_of_last hv'
  exact ⟨v', mem_valuesAt.2 ⟨k, hk', hkey⟩, hmeaning.symm, hp.of_prop hk, hq.of_prop hk'⟩

/-- What is read means the same in objects that do. -/
theorem exists_mem_reads_of_meaning (hp : (Json.object ps).Distinct)
    (hq : (Json.object qs).Distinct) (h : (Json.object ps).meaning = (Json.object qs).meaning)
    {r : Option Json} (hr : r ∈ reads lower key names ps) :
    ∃ r' ∈ reads lower key names qs, r.map Json.meaning = r'.map Json.meaning := by
  have hchoices : ∀ {key ps qs}, (Json.object ps).Distinct → (Json.object qs).Distinct →
      (Json.object ps).meaning = (Json.object qs).meaning → ∀ c ∈ choices lower key ps,
      c = none ∧ none ∈ choices lower key qs ∨ ∃ v v', c = some v ∧ some v' ∈ choices lower key qs ∧
        v.meaning = v'.meaning ∧ v.Distinct ∧ v'.Distinct := by
    intro key ps qs hp hq h c hc
    rcases mem_choices.1 hc with ⟨v, hv, rfl⟩ | ⟨hnone, rfl⟩
    · obtain ⟨v', hv', hmeaning⟩ := exists_mem_valuesAt_of_meaning hp hq h hv
      exact .inr ⟨v, v', rfl, mem_choices.2 (.inl ⟨v', hv', rfl⟩), hmeaning⟩
    · refine .inl ⟨rfl, mem_choices.2 (.inr ⟨List.eq_nil_iff_forall_not_mem.2 fun v hv => ?_, rfl⟩)⟩
      obtain ⟨v', hv', _⟩ := exists_mem_valuesAt_of_meaning hq hp h.symm hv
      exact List.not_mem_nil (hnone ▸ hv')
  induction names generalizing key ps qs r with
  | nil =>
    rcases hchoices hp hq h r hr with ⟨rfl, hc⟩ | ⟨v, v', rfl, hc, hmeaning, _⟩
    · exact ⟨none, hc, rfl⟩
    · exact ⟨some v', hc, congrArg some hmeaning⟩
  | cons name names ih =>
    rw [reads] at hr ⊢
    obtain ⟨r', hr', hr⟩ := List.mem_flatMap.1 hr
    obtain ⟨s', hs', hmeaning⟩ := ih hp hq h hr'
    match r', s', hmeaning with
    | some v, some v', hmeaning =>
      obtain rfl := List.mem_singleton.1 hr
      exact ⟨some v', List.mem_flatMap.2 ⟨_, hs', List.mem_singleton_self _⟩, hmeaning⟩
    | none, none, _ =>
      obtain ⟨c, hc, hr⟩ := List.mem_flatMap.1 hr
      -- the same kind of value is found in both
      rcases hchoices hp hq h c hc with ⟨rfl, hc'⟩ | ⟨v, v', rfl, hc', hmeaning, hv, hv'⟩
      · obtain rfl := List.mem_singleton.1 hr
        exact ⟨none, List.mem_flatMap.2 ⟨_, hs', List.mem_flatMap.2 ⟨_, hc',
          List.mem_singleton_self _⟩⟩, rfl⟩
      · match v, v', hmeaning, hc', hr, hv, hv' with
        | .object ps', .object qs', hmeaning, hc', hr, hv, hv' =>
          obtain ⟨s, hs, hread⟩ := ih hv hv' hmeaning hr
          exact ⟨s, List.mem_flatMap.2 ⟨_, hs', List.mem_flatMap.2 ⟨_, hc', hs⟩⟩, hread⟩
        | .object ps', .null, hmeaning, _, _, _, _ | .object ps', .bool _, hmeaning, _, _, _, _
        | .object ps', .number _, hmeaning, _, _, _, _ | .object ps', .string _, hmeaning, _, _, _, _
        | .object ps', .array _, hmeaning, _, _, _, _ => simp [Json.meaning] at hmeaning
        | .null, v', hmeaning, hc', hr, _, _ | .bool _, v', hmeaning, hc', hr, _, _
        | .number _, v', hmeaning, hc', hr, _, _ | .string _, v', hmeaning, hc', hr, _, _
        | .array _, v', hmeaning, hc', hr, _, _ =>
          obtain rfl := List.mem_singleton.1 hr
          refine ⟨none, List.mem_flatMap.2 ⟨_, hs', List.mem_flatMap.2 ⟨_, hc', ?_⟩⟩, rfl⟩
          cases v' <;> first | exact List.mem_singleton_self _ | simp [Json.meaning] at hmeaning

theorem OnlyReads.of_meaning (hp : (Json.object ps).Distinct)
    (hq : (Json.object qs).Distinct) (h : (Json.object ps).meaning = (Json.object qs).meaning)
    (hreads : OnlyReads lower key names qs v) : OnlyReads lower key names ps v := by
  intro r hr
  obtain ⟨r', hr', hmeaning⟩ := exists_mem_reads_of_meaning hp hq h hr
  rw [hmeaning, hreads r' hr']

end Meaning

end Settings
