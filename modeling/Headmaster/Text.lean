import Mathlib.Algebra.Ring.Nat
import Mathlib.Data.List.Basic
import Mathlib.Data.List.Chain
import Mathlib.Data.List.DropRight

/-!
# Texts

A text falls into parts where a character separates them (`List.splitOn`), into
lines (`splitOn_lines`), and into fields between blanks (`fields`). Its white
space is trimmed (`trim`), and it is cut at the bytes of its encoding
(`slice`).
-/

namespace Text

variable {α : Type} {p : α → Bool} {x : α} {xs part : List α}

/-- What is checked one by one; unlike the characters of a text, all characters are too many. -/
theorem forall_mem_of_all {P : α → Prop} [DecidablePred P]
    (h : (xs.all fun x => decide (P x)) = true) : ∀ x ∈ xs, P x :=
  fun x hx => of_decide_eq_true (List.all_eq_true.1 h x hx)

/-! ## Parts -/

theorem exists_splitOnP (p : α → Bool) (xs : List α) : ∃ part parts, xs.splitOnP p = part :: parts :=
  List.exists_cons_of_ne_nil (List.splitOnP_ne_nil p xs)

/-- What is in a part is in the text, and separates nothing. -/
theorem mem_of_mem_splitOnP (hpart : part ∈ xs.splitOnP p) (hx : x ∈ part) :
    x ∈ xs ∧ p x = false := by
  induction xs generalizing part with
  | nil =>
    rw [List.splitOnP_nil, List.mem_singleton] at hpart
    rw [hpart] at hx
    cases hx
  | cons y ys ih =>
    obtain ⟨first, parts, hys⟩ := exists_splitOnP p ys
    rw [List.splitOnP_cons_eq_if_modifyHead, hys] at hpart
    rw [hys] at ih
    have hlater (hmem : part ∈ first :: parts) : x ∈ y :: ys ∧ p x = false :=
      (ih hmem hx).imp_left (List.mem_cons_of_mem y)
    split_ifs at hpart with hy
    · rcases List.mem_cons.1 hpart with rfl | hmem
      · cases hx
      · exact hlater hmem
    · rcases List.mem_cons.1 hpart with rfl | hmem
      · rcases List.mem_cons.1 hx with rfl | hx
        · exact ⟨List.mem_cons_self, Bool.eq_false_iff.2 hy⟩
        · exact (ih List.mem_cons_self hx).imp_left (List.mem_cons_of_mem y)
      · exact hlater (List.mem_cons_of_mem _ hmem)

/-- What separates nothing is in a part. -/
theorem exists_mem_splitOnP (hx : x ∈ xs) (hp : p x = false) : ∃ part ∈ xs.splitOnP p, x ∈ part := by
  induction xs with
  | nil => cases hx
  | cons y ys ih =>
    obtain ⟨first, parts, hys⟩ := exists_splitOnP p ys
    rw [List.splitOnP_cons_eq_if_modifyHead, hys]
    rw [hys] at ih
    split_ifs with hy
    · rcases List.mem_cons.1 hx with rfl | hx
      · rw [hp] at hy
        cases hy
      · obtain ⟨part, hpart, hmem⟩ := ih hx
        exact ⟨part, List.mem_cons_of_mem _ hpart, hmem⟩
    · rcases List.mem_cons.1 hx with rfl | hx
      · exact ⟨_, List.mem_cons_self, List.mem_cons_self⟩
      · obtain ⟨part, hpart, hmem⟩ := ih hx
        rcases List.mem_cons.1 hpart with rfl | hpart
        · exact ⟨_, List.mem_cons_self, List.mem_cons_of_mem _ hmem⟩
        · exact ⟨part, List.mem_cons_of_mem _ hpart, hmem⟩

/-! ## Fields -/

/-- The words of a text, where blanks separate them. -/
def fields (p : α → Bool) (xs : List α) : List (List α) := (xs.splitOnP p).filter (!·.isEmpty)

section Fields

variable {word : List α}

theorem mem_fields (h : word ∈ fields p xs) : word ≠ [] ∧ ∀ x ∈ word, p x = false := by
  obtain ⟨hmem, hne⟩ := List.mem_filter.1 h
  exact ⟨by simpa using hne, fun x hx => (mem_of_mem_splitOnP hmem hx).2⟩

theorem fields_word (hne : word ≠ []) (h : ∀ x ∈ word, p x = false) : fields p word = [word] := by
  rw [fields, List.splitOnP_eq_singleton h, List.filter_cons, if_pos (by simpa using hne),
    List.filter_nil]

/-- The first word, up to a blank. -/
theorem fields_append_cons (hne : word ≠ []) (h : ∀ x ∈ word, p x = false) {blank : α}
    (hblank : p blank = true) (rest : List α) :
    fields p (word ++ blank :: rest) = word :: fields p rest := by
  rw [fields, List.splitOnP_append_cons_of_forall_mem h _ hblank, List.filter_cons,
    if_pos (by simpa using hne), fields]

end Fields

/-! ## Lines -/

section Lines

variable [BEq α] [LawfulBEq α] {a : α}

theorem exists_mem_splitOn (hx : x ∈ xs) (hne : x ≠ a) : ∃ part ∈ xs.splitOn a, x ∈ part :=
  exists_mem_splitOnP hx (beq_eq_false_iff_ne.2 hne)

/-- Lines, each with what ends it, and what comes after. -/
theorem splitOn_lines {lines : List (List α)} {rest : List α} (h : ∀ line ∈ lines, a ∉ line) :
    (lines.flatMap (· ++ [a]) ++ rest).splitOn a = lines ++ rest.splitOn a := by
  induction lines with
  | nil => rfl
  | cons line lines ih =>
    rw [List.flatMap_cons, List.append_assoc, List.append_assoc, List.singleton_append,
      List.splitOn_append_cons_self_of_not_mem (h line List.mem_cons_self),
      ih fun l hl => h l (List.mem_cons_of_mem _ hl), List.cons_append]

end Lines

/-! ## Pairs -/

section Pairs

variable {a b s : α} {xs : List α}

/-- Nowhere in the text the two come one after the other. -/
def Avoids (a b : α) (xs : List α) : Prop := xs.IsChain fun x y => ¬(x = a ∧ y = b)

/-- The text with another in place of the two, wherever they come one after the other. -/
def replacePair [DecidableEq α] (a b : α) (new : List α) : List α → List α
  | [] => []
  | [x] => [x]
  | x :: y :: xs =>
    if x = a ∧ y = b then new ++ replacePair a b new xs else x :: replacePair a b new (y :: xs)

variable [DecidableEq α]

theorem head?_replacePair : (replacePair a b [a, s, b] xs).head? = xs.head? := by
  match xs with
  | [] | [_] => rfl
  | x :: y :: xs =>
    rw [replacePair]
    split_ifs with h
    · exact congrArg some h.1.symm
    · rfl

/-- The two are apart wherever they are replaced by themselves with something between them. -/
theorem avoids_replacePair (hab : a ≠ b) (ha : s ≠ a) (hb : s ≠ b) (xs : List α) :
    Avoids a b (replacePair a b [a, s, b] xs) := by
  induction xs using replacePair.induct a b with
  | case1 => exact .nil
  | case2 x => exact .singleton x
  | case3 x y xs h ih =>
    rw [replacePair, if_pos h]
    exact .cons_cons (fun h => hb h.2) (.cons_cons (fun h => ha h.1)
      (List.isChain_cons.2 ⟨fun _ _ h => hab h.1.symm, ih⟩))
  | case4 x y xs h ih =>
    rw [replacePair, if_neg h]
    refine List.isChain_cons.2 ⟨fun z hz => ?_, ih⟩
    rw [head?_replacePair, List.head?_cons, Option.mem_some_iff] at hz
    exact hz ▸ h

end Pairs

/-! ## White space -/

/-- The white space of Unicode. -/
def isSpace (c : Char) : Bool :=
  c.toNat ∈ [0x20, 0x85, 0xa0, 0x1680, 0x2028, 0x2029, 0x202f, 0x205f, 0x3000] ||
    (0x9 ≤ c.toNat && c.toNat ≤ 0xd) || (0x2000 ≤ c.toNat && c.toNat ≤ 0x200a)

/-- The text without the white space around it. -/
def trim (text : List Char) : List Char := (text.dropWhile isSpace).rdropWhile isSpace

theorem trim_ne_nil {text : List Char} {c : Char} (h : c ∈ text) (hc : isSpace c = false) :
    trim text ≠ [] := by
  intro hnil
  rw [trim, List.rdropWhile_eq_nil_iff] at hnil
  have hall : ∀ d ∈ text, isSpace d = true := by
    intro d hd
    rw [← List.takeWhile_append_dropWhile (p := isSpace) (l := text)] at hd
    exact (List.mem_append.1 hd).elim List.mem_takeWhile_imp (hnil d)
  rw [hall c h] at hc
  cases hc

/-! ## Bytes -/

/-- The bytes of the text in UTF-8. -/
def byteLength (text : List Char) : Nat := (text.map Char.utf8Size).sum

/-- The text from a byte on, if a character begins there. -/
def dropBytes : Nat → List Char → Option (List Char)
  | 0, text => some text
  | _ + 1, [] => none
  | n + 1, c :: text => if c.utf8Size ≤ n + 1 then dropBytes (n + 1 - c.utf8Size) text else none

/-- The text up to a byte, if a character ends there. -/
def takeBytes : Nat → List Char → Option (List Char)
  | 0, _ => some []
  | _ + 1, [] => none
  | n + 1, c :: text =>
    if c.utf8Size ≤ n + 1 then (takeBytes (n + 1 - c.utf8Size) text).map (c :: ·) else none

/-- The text from a byte up to another, if there are characters between them. -/
def slice (text : List Char) (first last : Nat) : Option (List Char) :=
  if first ≤ last then (takeBytes last text).bind (dropBytes first) else none

section Bytes

variable {c : Char} {text : List Char}

@[simp]
theorem byteLength_nil : byteLength [] = 0 := rfl

@[simp]
theorem byteLength_cons : byteLength (c :: text) = c.utf8Size + byteLength text := rfl

@[simp]
theorem byteLength_append (text text' : List Char) :
    byteLength (text ++ text') = byteLength text + byteLength text' := by
  rw [byteLength, List.map_append, List.sum_append, byteLength, byteLength]

theorem byteLength_of_ascii (h : ∀ c ∈ text, c.toNat < 0x80) : byteLength text = text.length := by
  induction text with
  | nil => rfl
  | cons c text ih =>
    have hc : c.utf8Size = 1 := by
      rw [Char.utf8Size_eq_one_iff, UInt32.le_iff_toNat_le]
      exact Nat.le_of_lt_succ (h c List.mem_cons_self)
    rw [byteLength_cons, hc, ih fun d hd => h d (List.mem_cons_of_mem _ hd), List.length_cons,
      Nat.add_comm]

theorem dropBytes_append (text text' : List Char) :
    dropBytes (byteLength text) (text ++ text') = some text' := by
  induction text with
  | nil => rw [byteLength_nil, List.nil_append, dropBytes]
  | cons c text ih =>
    obtain ⟨n, hn⟩ := Nat.exists_eq_add_of_lt c.utf8Size_pos
    rw [byteLength_cons, List.cons_append, show c.utf8Size = n + 1 by omega, Nat.add_right_comm,
      dropBytes, if_pos (by omega), show n + byteLength text + 1 - c.utf8Size = byteLength text by omega,
      ih]

theorem takeBytes_append (text text' : List Char) :
    takeBytes (byteLength text) (text ++ text') = some text := by
  induction text with
  | nil => rw [byteLength_nil, takeBytes]
  | cons c text ih =>
    obtain ⟨n, hn⟩ := Nat.exists_eq_add_of_lt c.utf8Size_pos
    rw [byteLength_cons, List.cons_append, show c.utf8Size = n + 1 by omega, Nat.add_right_comm,
      takeBytes, if_pos (by omega), show n + byteLength text + 1 - c.utf8Size = byteLength text by omega,
      ih, Option.map_some]

/-- What is between two parts. -/
theorem slice_append (first text last : List Char) :
    slice (first ++ text ++ last) (byteLength first) (byteLength first + byteLength text) =
      some text := by
  rw [slice, if_pos (Nat.le_add_right _ _), ← byteLength_append, takeBytes_append, Option.bind_some,
    dropBytes_append]

end Bytes

end Text
