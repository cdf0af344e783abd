import Headmaster.Text

/-!
# Names in Kubernetes

The formats of names and of the values of labels that the API server accepts:
words of a few characters between a first and a last one (`framed`). Words that
go together (`framed_append`), and which formats are stricter than which.
-/

namespace Kubernetes

/-! ## Words -/

/-- A word is not empty, begins and ends as it is to, and has only the characters in between. -/
def framed (first inner last : Char → Bool) (cs : List Char) : Bool :=
  cs.head?.any first && cs.all inner && cs.getLast?.any last

section Framed

variable {first inner last first' inner' last' : Char → Bool} {cs ds : List Char}

theorem framed_iff : framed first inner last cs = true ↔
    (∃ c ∈ cs.head?, first c = true) ∧ (∀ c ∈ cs, inner c = true) ∧
      ∃ c ∈ cs.getLast?, last c = true := by
  simp [framed, and_assoc, Option.any_eq_true]

/-- The characters of a word are allowed in it. -/
theorem all_of_framed (h : framed first inner last cs = true) : ∀ c ∈ cs, inner c = true :=
  (framed_iff.1 h).2.1

theorem framed_mono (h : framed first inner last cs = true)
    (hfirst : ∀ c, first c = true → first' c = true) (hinner : ∀ c, inner c = true → inner' c = true)
    (hlast : ∀ c, last c = true → last' c = true) : framed first' inner' last' cs = true := by
  obtain ⟨⟨c, hc, hcfirst⟩, hall, d, hd, hdlast⟩ := framed_iff.1 h
  exact framed_iff.2 ⟨⟨c, hc, hfirst c hcfirst⟩, fun c hc => hinner c (hall c hc), d, hd,
    hlast d hdlast⟩

/-- What begins as a word, and then ends as one. -/
theorem framed_append (hcs : ∃ c ∈ cs.head?, first c = true) (hall : ∀ c ∈ cs ++ ds, inner c = true)
    (hds : ∃ c ∈ ds.getLast?, last c = true) : framed first inner last (cs ++ ds) = true := by
  obtain ⟨c, hc, hfirst⟩ := hcs
  obtain ⟨d, hd, hlast⟩ := hds
  refine framed_iff.2 ⟨⟨c, ?_, hfirst⟩, hall, d, ?_, hlast⟩
  · rw [List.head?_append, Option.mem_def, Option.mem_def.1 hc, Option.some_or]
  · rw [List.getLast?_append, Option.mem_def, Option.mem_def.1 hd, Option.some_or]

/-- Words that are joined by a character. -/
theorem framed_intercalate (sep : Char) {words : List (List Char)} (hne : words ≠ [])
    (h : ∀ w ∈ words, framed first inner last w = true) :
    framed first (fun c => inner c || c == sep) last ([sep].intercalate words) = true := by
  induction words with
  | nil => exact absurd rfl hne
  | cons w words ih =>
    have hw : framed first (fun c => inner c || c == sep) last w = true :=
      framed_mono (h w List.mem_cons_self) (fun _ => id)
        (fun _ hc => Bool.or_eq_true_iff.2 (.inl hc)) fun _ => id
    cases words with
    | nil => rwa [List.intercalate_singleton]
    | cons v words =>
      have hrest := ih (List.cons_ne_nil _ _) fun v hv => h v (List.mem_cons_of_mem _ hv)
      obtain ⟨hhead, hall, _⟩ := framed_iff.1 hw
      obtain ⟨_, hall', d, hd, hlast⟩ := framed_iff.1 hrest
      rw [List.intercalate_cons_cons, List.append_assoc, List.singleton_append]
      refine framed_append hhead (fun c hc => ?_) ⟨d, ?_, hlast⟩
      · rcases List.mem_append.1 hc with hc | hc
        · exact hall c hc
        · rcases List.mem_cons.1 hc with rfl | hc
          · exact Bool.or_eq_true_iff.2 (.inr (beq_self_eq_true _))
          · exact hall' c hc
      · rw [List.getLast?_cons, Option.mem_def.1 hd]
        rfl

end Framed

/-! ## The formats -/

def isLowerAlnum (c : Char) : Bool := c.isLower || c.isDigit

def isLabelChar (c : Char) : Bool := isLowerAlnum c || c == '-'

def isValueChar (c : Char) : Bool := c.isAlphanum || c == '-' || c == '_' || c == '.'

/-- The label of a host name, as RFC 1123 has it: a namespace is called so. -/
def isDns1123Label (s : String) : Bool :=
  s.length ≤ 63 && framed isLowerAlnum isLabelChar isLowerAlnum s.toList

/-- A host name: most objects are called so. Its labels are only bounded together. -/
def isDns1123Subdomain (s : String) : Bool :=
  s.length ≤ 253 &&
    (s.toList.splitOn '.').all fun cs => framed isLowerAlnum isLabelChar isLowerAlnum cs

/-- The label of a host name, as RFC 1035 has it: a Service is called so. -/
def isDns1035Label (s : String) : Bool :=
  s.length ≤ 63 && framed Char.isLower isLabelChar isLowerAlnum s.toList

/-- The value of a label of an object. -/
def isLabelValue (s : String) : Bool :=
  s.length ≤ 63 && (s.isEmpty || framed Char.isAlphanum isValueChar Char.isAlphanum s.toList)

section Formats

variable {s : String}

theorem isAlphanum_of_isLowerAlnum {c : Char} (h : isLowerAlnum c = true) : c.isAlphanum = true := by
  simp only [isLowerAlnum, Bool.or_eq_true] at h
  exact Bool.or_eq_true_iff.2 (h.imp_left fun h => Bool.or_eq_true_iff.2 (.inr h))

theorem isValueChar_of_isLabelChar {c : Char} (h : isLabelChar c = true) : isValueChar c = true := by
  simp only [isLabelChar, Bool.or_eq_true] at h
  simp only [isValueChar, Bool.or_eq_true]
  exact h.elim (fun h => .inl (.inl (.inl (isAlphanum_of_isLowerAlnum h)))) fun h => .inl (.inl (.inr h))

theorem isLowerAlnum_of_isLower {c : Char} (h : c.isLower = true) : isLowerAlnum c = true := by
  rw [isLowerAlnum, h, Bool.true_or]

theorem toNat_of_isLower {c : Char} (h : c.isLower = true) : 97 ≤ c.toNat ∧ c.toNat ≤ 122 := by
  obtain ⟨hmin, hmax⟩ := Bool.and_eq_true_iff.1 h
  exact ⟨UInt32.le_iff_toNat_le.1 (of_decide_eq_true hmin),
    UInt32.le_iff_toNat_le.1 (of_decide_eq_true hmax)⟩

theorem toNat_of_isDigit {c : Char} (h : c.isDigit = true) : 48 ≤ c.toNat ∧ c.toNat ≤ 57 := by
  obtain ⟨hmin, hmax⟩ := Bool.and_eq_true_iff.1 h
  exact ⟨UInt32.le_iff_toNat_le.1 (of_decide_eq_true hmin),
    UInt32.le_iff_toNat_le.1 (of_decide_eq_true hmax)⟩

theorem toNat_of_isLabelChar {c : Char} (h : isLabelChar c = true) :
    c.toNat = 45 ∨ (48 ≤ c.toNat ∧ c.toNat ≤ 57) ∨ (97 ≤ c.toNat ∧ c.toNat ≤ 122) := by
  simp only [isLabelChar, isLowerAlnum, Bool.or_eq_true, beq_iff_eq] at h
  obtain (h | h) | rfl := h
  · exact .inr (.inr (toNat_of_isLower h))
  · exact .inr (.inl (toNat_of_isDigit h))
  · exact .inl rfl

/-- The characters of labels are ASCII. -/
theorem utf8Size_of_isLabelChar {c : Char} (h : isLabelChar c = true) : c.utf8Size = 1 := by
  refine Char.utf8Size_eq_one_iff.2 (UInt32.le_iff_toNat_le.2 ?_)
  have hle : c.toNat ≤ 127 := by
    have := toNat_of_isLabelChar h
    omega
  exact hle

theorem chars_of_isDns1123Label (h : isDns1123Label s = true) :
    ∀ c ∈ s.toList, isLabelChar c = true :=
  all_of_framed (Bool.and_eq_true_iff.1 h).2

theorem chars_of_isDns1035Label (h : isDns1035Label s = true) :
    ∀ c ∈ s.toList, isLabelChar c = true :=
  all_of_framed (Bool.and_eq_true_iff.1 h).2

theorem chars_of_isDns1123Subdomain (h : isDns1123Subdomain s = true) :
    ∀ c ∈ s.toList, c = '.' ∨ isLabelChar c = true := fun c hc =>
  or_iff_not_imp_left.2 fun hdot =>
    have ⟨part, hpart, hmem⟩ := Text.exists_mem_splitOn hc hdot
    all_of_framed (List.all_eq_true.1 (Bool.and_eq_true_iff.1 h).2 part hpart) c hmem

/-- One label is a host name. -/
theorem isDns1123Subdomain_of_label (h : isDns1123Label s = true) : isDns1123Subdomain s = true := by
  obtain ⟨hlength, hframed⟩ := Bool.and_eq_true_iff.1 h
  have hdot : '.' ∉ s.toList := fun hmem => absurd (chars_of_isDns1123Label h _ hmem) (by decide)
  rw [isDns1123Subdomain, List.splitOn_eq_singleton hdot]
  simp only [Bool.and_eq_true, decide_eq_true_eq, List.all_cons, List.all_nil, and_true] at hlength ⊢
  exact ⟨by omega, hframed⟩

theorem isDns1123Label_of_1035 (h : isDns1035Label s = true) : isDns1123Label s = true := by
  obtain ⟨hlength, hframed⟩ := Bool.and_eq_true_iff.1 h
  exact Bool.and_eq_true_iff.2
    ⟨hlength, framed_mono hframed (fun _ => isLowerAlnum_of_isLower) (fun _ => id) fun _ => id⟩

/-- A host name is the value of a label if it is short enough. -/
theorem isLabelValue_of_subdomain (h : isDns1123Subdomain s = true) (hlength : s.length ≤ 63) :
    isLabelValue s = true := by
  have hparts := (Bool.and_eq_true_iff.1 h).2
  have hjoined := framed_intercalate '.' (List.splitOn_ne_nil _ _) (List.all_eq_true.1 hparts)
  rw [List.intercalate_splitOn] at hjoined
  refine Bool.and_eq_true_iff.2 ⟨decide_eq_true hlength, Bool.or_eq_true_iff.2 (.inr ?_)⟩
  refine framed_mono hjoined (fun _ => isAlphanum_of_isLowerAlnum) (fun c hc => ?_)
    fun _ => isAlphanum_of_isLowerAlnum
  rcases Bool.or_eq_true_iff.1 hc with hc | hc
  · exact isValueChar_of_isLabelChar hc
  · rw [isValueChar, hc, Bool.or_true]

theorem isLabelValue_of_label (h : isDns1123Label s = true) : isLabelValue s = true :=
  isLabelValue_of_subdomain (isDns1123Subdomain_of_label h)
    (of_decide_eq_true (Bool.and_eq_true_iff.1 h).1)

end Formats

end Kubernetes
