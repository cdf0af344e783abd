import Headmaster.Text

/-!
# Lower case

The lower case of a text (`toLowercase`), as Unicode has it: character by
character (`lower`), but for a sigma, where the letters around it count. A text
may change its length there, in characters (`İ`) and in bytes (`K`, the Kelvin
sign).

Only `i` and `k` are in the lower case of characters that are not ASCII
(`ascii_of_mem_lower`): a text without these two is the lower case of ASCII
only (`exists_of_toLowercase`).
-/

namespace Text

/-! ## Characters -/

/-- Capital letters at regular steps, and the lower case of the first; that of the others follows
    at the same steps. -/
structure Capitals where
  first : Nat
  last : Nat
  step : Nat
  lower : Nat
  deriving DecidableEq

namespace Capitals

def contains (r : Capitals) (n : Nat) : Bool :=
  decide (r.first ≤ n) && decide (n ≤ r.last) && decide ((n - r.first) % r.step = 0)

/-- No lower case is ASCII, except that of the Kelvin sign, and each is a character. -/
def isForeign (r : Capitals) : Bool :=
  decide (r.first ≤ r.last) && decide (0x80 ≤ r.first) &&
    (decide (0x80 ≤ r.lower) || decide (r = ⟨0x212a, 0x212a, 1, 'k'.toNat⟩)) &&
    (decide (r.lower + (r.last - r.first) < 0xd800) ||
      (decide (0xdfff < r.lower) && decide (r.lower + (r.last - r.first) < 0x110000)))

end Capitals

/-- The capital letters beyond ASCII, of Unicode 17, with one character as their lower case. -/
def capitals : List Capitals := [
  ⟨0xc0, 0xd6, 1, 0xe0⟩, ⟨0xd8, 0xde, 1, 0xf8⟩, ⟨0x100, 0x12e, 2, 0x101⟩, ⟨0x132, 0x136, 2, 0x133⟩,
  ⟨0x139, 0x147, 2, 0x13a⟩, ⟨0x14a, 0x176, 2, 0x14b⟩, ⟨0x178, 0x178, 1, 0xff⟩,
  ⟨0x179, 0x17d, 2, 0x17a⟩, ⟨0x181, 0x181, 1, 0x253⟩, ⟨0x182, 0x184, 2, 0x183⟩,
  ⟨0x186, 0x186, 1, 0x254⟩, ⟨0x187, 0x187, 1, 0x188⟩, ⟨0x189, 0x18a, 1, 0x256⟩,
  ⟨0x18b, 0x18b, 1, 0x18c⟩, ⟨0x18e, 0x18e, 1, 0x1dd⟩, ⟨0x18f, 0x18f, 1, 0x259⟩,
  ⟨0x190, 0x190, 1, 0x25b⟩, ⟨0x191, 0x191, 1, 0x192⟩, ⟨0x193, 0x193, 1, 0x260⟩,
  ⟨0x194, 0x194, 1, 0x263⟩, ⟨0x196, 0x196, 1, 0x269⟩, ⟨0x197, 0x197, 1, 0x268⟩,
  ⟨0x198, 0x198, 1, 0x199⟩, ⟨0x19c, 0x19c, 1, 0x26f⟩, ⟨0x19d, 0x19d, 1, 0x272⟩,
  ⟨0x19f, 0x19f, 1, 0x275⟩, ⟨0x1a0, 0x1a4, 2, 0x1a1⟩, ⟨0x1a6, 0x1a6, 1, 0x280⟩,
  ⟨0x1a7, 0x1a7, 1, 0x1a8⟩, ⟨0x1a9, 0x1a9, 1, 0x283⟩, ⟨0x1ac, 0x1ac, 1, 0x1ad⟩,
  ⟨0x1ae, 0x1ae, 1, 0x288⟩, ⟨0x1af, 0x1af, 1, 0x1b0⟩, ⟨0x1b1, 0x1b2, 1, 0x28a⟩,
  ⟨0x1b3, 0x1b5, 2, 0x1b4⟩, ⟨0x1b7, 0x1b7, 1, 0x292⟩, ⟨0x1b8, 0x1b8, 1, 0x1b9⟩,
  ⟨0x1bc, 0x1bc, 1, 0x1bd⟩, ⟨0x1c4, 0x1c4, 1, 0x1c6⟩, ⟨0x1c5, 0x1c5, 1, 0x1c6⟩,
  ⟨0x1c7, 0x1c7, 1, 0x1c9⟩, ⟨0x1c8, 0x1c8, 1, 0x1c9⟩, ⟨0x1ca, 0x1ca, 1, 0x1cc⟩,
  ⟨0x1cb, 0x1db, 2, 0x1cc⟩, ⟨0x1de, 0x1ee, 2, 0x1df⟩, ⟨0x1f1, 0x1f1, 1, 0x1f3⟩,
  ⟨0x1f2, 0x1f4, 2, 0x1f3⟩, ⟨0x1f6, 0x1f6, 1, 0x195⟩, ⟨0x1f7, 0x1f7, 1, 0x1bf⟩,
  ⟨0x1f8, 0x21e, 2, 0x1f9⟩, ⟨0x220, 0x220, 1, 0x19e⟩, ⟨0x222, 0x232, 2, 0x223⟩,
  ⟨0x23a, 0x23a, 1, 0x2c65⟩, ⟨0x23b, 0x23b, 1, 0x23c⟩, ⟨0x23d, 0x23d, 1, 0x19a⟩,
  ⟨0x23e, 0x23e, 1, 0x2c66⟩, ⟨0x241, 0x241, 1, 0x242⟩, ⟨0x243, 0x243, 1, 0x180⟩,
  ⟨0x244, 0x244, 1, 0x289⟩, ⟨0x245, 0x245, 1, 0x28c⟩, ⟨0x246, 0x24e, 2, 0x247⟩,
  ⟨0x370, 0x372, 2, 0x371⟩, ⟨0x376, 0x376, 1, 0x377⟩, ⟨0x37f, 0x37f, 1, 0x3f3⟩,
  ⟨0x386, 0x386, 1, 0x3ac⟩, ⟨0x388, 0x38a, 1, 0x3ad⟩, ⟨0x38c, 0x38c, 1, 0x3cc⟩,
  ⟨0x38e, 0x38f, 1, 0x3cd⟩, ⟨0x391, 0x3a1, 1, 0x3b1⟩, ⟨0x3a3, 0x3ab, 1, 0x3c3⟩,
  ⟨0x3cf, 0x3cf, 1, 0x3d7⟩, ⟨0x3d8, 0x3ee, 2, 0x3d9⟩, ⟨0x3f4, 0x3f4, 1, 0x3b8⟩,
  ⟨0x3f7, 0x3f7, 1, 0x3f8⟩, ⟨0x3f9, 0x3f9, 1, 0x3f2⟩, ⟨0x3fa, 0x3fa, 1, 0x3fb⟩,
  ⟨0x3fd, 0x3ff, 1, 0x37b⟩, ⟨0x400, 0x40f, 1, 0x450⟩, ⟨0x410, 0x42f, 1, 0x430⟩,
  ⟨0x460, 0x480, 2, 0x461⟩, ⟨0x48a, 0x4be, 2, 0x48b⟩, ⟨0x4c0, 0x4c0, 1, 0x4cf⟩,
  ⟨0x4c1, 0x4cd, 2, 0x4c2⟩, ⟨0x4d0, 0x52e, 2, 0x4d1⟩, ⟨0x531, 0x556, 1, 0x561⟩,
  ⟨0x10a0, 0x10c5, 1, 0x2d00⟩, ⟨0x10c7, 0x10c7, 1, 0x2d27⟩, ⟨0x10cd, 0x10cd, 1, 0x2d2d⟩,
  ⟨0x13a0, 0x13ef, 1, 0xab70⟩, ⟨0x13f0, 0x13f5, 1, 0x13f8⟩, ⟨0x1c89, 0x1c89, 1, 0x1c8a⟩,
  ⟨0x1c90, 0x1cba, 1, 0x10d0⟩, ⟨0x1cbd, 0x1cbf, 1, 0x10fd⟩, ⟨0x1e00, 0x1e94, 2, 0x1e01⟩,
  ⟨0x1e9e, 0x1e9e, 1, 0xdf⟩, ⟨0x1ea0, 0x1efe, 2, 0x1ea1⟩, ⟨0x1f08, 0x1f0f, 1, 0x1f00⟩,
  ⟨0x1f18, 0x1f1d, 1, 0x1f10⟩, ⟨0x1f28, 0x1f2f, 1, 0x1f20⟩, ⟨0x1f38, 0x1f3f, 1, 0x1f30⟩,
  ⟨0x1f48, 0x1f4d, 1, 0x1f40⟩, ⟨0x1f59, 0x1f5f, 2, 0x1f51⟩, ⟨0x1f68, 0x1f6f, 1, 0x1f60⟩,
  ⟨0x1f88, 0x1f8f, 1, 0x1f80⟩, ⟨0x1f98, 0x1f9f, 1, 0x1f90⟩, ⟨0x1fa8, 0x1faf, 1, 0x1fa0⟩,
  ⟨0x1fb8, 0x1fb9, 1, 0x1fb0⟩, ⟨0x1fba, 0x1fbb, 1, 0x1f70⟩, ⟨0x1fbc, 0x1fbc, 1, 0x1fb3⟩,
  ⟨0x1fc8, 0x1fcb, 1, 0x1f72⟩, ⟨0x1fcc, 0x1fcc, 1, 0x1fc3⟩, ⟨0x1fd8, 0x1fd9, 1, 0x1fd0⟩,
  ⟨0x1fda, 0x1fdb, 1, 0x1f76⟩, ⟨0x1fe8, 0x1fe9, 1, 0x1fe0⟩, ⟨0x1fea, 0x1feb, 1, 0x1f7a⟩,
  ⟨0x1fec, 0x1fec, 1, 0x1fe5⟩, ⟨0x1ff8, 0x1ff9, 1, 0x1f78⟩, ⟨0x1ffa, 0x1ffb, 1, 0x1f7c⟩,
  ⟨0x1ffc, 0x1ffc, 1, 0x1ff3⟩, ⟨0x2126, 0x2126, 1, 0x3c9⟩, ⟨0x212a, 0x212a, 1, 0x6b⟩,
  ⟨0x212b, 0x212b, 1, 0xe5⟩, ⟨0x2132, 0x2132, 1, 0x214e⟩, ⟨0x2160, 0x216f, 1, 0x2170⟩,
  ⟨0x2183, 0x2183, 1, 0x2184⟩, ⟨0x24b6, 0x24cf, 1, 0x24d0⟩, ⟨0x2c00, 0x2c2f, 1, 0x2c30⟩,
  ⟨0x2c60, 0x2c60, 1, 0x2c61⟩, ⟨0x2c62, 0x2c62, 1, 0x26b⟩, ⟨0x2c63, 0x2c63, 1, 0x1d7d⟩,
  ⟨0x2c64, 0x2c64, 1, 0x27d⟩, ⟨0x2c67, 0x2c6b, 2, 0x2c68⟩, ⟨0x2c6d, 0x2c6d, 1, 0x251⟩,
  ⟨0x2c6e, 0x2c6e, 1, 0x271⟩, ⟨0x2c6f, 0x2c6f, 1, 0x250⟩, ⟨0x2c70, 0x2c70, 1, 0x252⟩,
  ⟨0x2c72, 0x2c72, 1, 0x2c73⟩, ⟨0x2c75, 0x2c75, 1, 0x2c76⟩, ⟨0x2c7e, 0x2c7f, 1, 0x23f⟩,
  ⟨0x2c80, 0x2ce2, 2, 0x2c81⟩, ⟨0x2ceb, 0x2ced, 2, 0x2cec⟩, ⟨0x2cf2, 0x2cf2, 1, 0x2cf3⟩,
  ⟨0xa640, 0xa66c, 2, 0xa641⟩, ⟨0xa680, 0xa69a, 2, 0xa681⟩, ⟨0xa722, 0xa72e, 2, 0xa723⟩,
  ⟨0xa732, 0xa76e, 2, 0xa733⟩, ⟨0xa779, 0xa77b, 2, 0xa77a⟩, ⟨0xa77d, 0xa77d, 1, 0x1d79⟩,
  ⟨0xa77e, 0xa786, 2, 0xa77f⟩, ⟨0xa78b, 0xa78b, 1, 0xa78c⟩, ⟨0xa78d, 0xa78d, 1, 0x265⟩,
  ⟨0xa790, 0xa792, 2, 0xa791⟩, ⟨0xa796, 0xa7a8, 2, 0xa797⟩, ⟨0xa7aa, 0xa7aa, 1, 0x266⟩,
  ⟨0xa7ab, 0xa7ab, 1, 0x25c⟩, ⟨0xa7ac, 0xa7ac, 1, 0x261⟩, ⟨0xa7ad, 0xa7ad, 1, 0x26c⟩,
  ⟨0xa7ae, 0xa7ae, 1, 0x26a⟩, ⟨0xa7b0, 0xa7b0, 1, 0x29e⟩, ⟨0xa7b1, 0xa7b1, 1, 0x287⟩,
  ⟨0xa7b2, 0xa7b2, 1, 0x29d⟩, ⟨0xa7b3, 0xa7b3, 1, 0xab53⟩, ⟨0xa7b4, 0xa7c2, 2, 0xa7b5⟩,
  ⟨0xa7c4, 0xa7c4, 1, 0xa794⟩, ⟨0xa7c5, 0xa7c5, 1, 0x282⟩, ⟨0xa7c6, 0xa7c6, 1, 0x1d8e⟩,
  ⟨0xa7c7, 0xa7c9, 2, 0xa7c8⟩, ⟨0xa7cb, 0xa7cb, 1, 0x264⟩, ⟨0xa7cc, 0xa7da, 2, 0xa7cd⟩,
  ⟨0xa7dc, 0xa7dc, 1, 0x19b⟩, ⟨0xa7f5, 0xa7f5, 1, 0xa7f6⟩, ⟨0xff21, 0xff3a, 1, 0xff41⟩,
  ⟨0x10400, 0x10427, 1, 0x10428⟩, ⟨0x104b0, 0x104d3, 1, 0x104d8⟩, ⟨0x10570, 0x1057a, 1, 0x10597⟩,
  ⟨0x1057c, 0x1058a, 1, 0x105a3⟩, ⟨0x1058c, 0x10592, 1, 0x105b3⟩, ⟨0x10594, 0x10595, 1, 0x105bb⟩,
  ⟨0x10c80, 0x10cb2, 1, 0x10cc0⟩, ⟨0x10d50, 0x10d65, 1, 0x10d70⟩, ⟨0x118a0, 0x118bf, 1, 0x118c0⟩,
  ⟨0x16e40, 0x16e5f, 1, 0x16e60⟩, ⟨0x16ea0, 0x16eb8, 1, 0x16ebb⟩, ⟨0x1e900, 0x1e921, 1, 0x1e922⟩]

/-- The lower case of a character, but for `Σ`, where it depends on the text. -/
def lower (c : Char) : List Char :=
  if c.toNat < 0x80 then [c.toLower]
  else if c = 'İ' then ['i', '\u0307']
  else match capitals.find? (·.contains c.toNat) with
    | some r => [Char.ofNat (r.lower + (c.toNat - r.first))]
    | none => [c]

section Characters

variable {c x : Char} {xs : List Char}

theorem toNat_ofNat {n : Nat} (h : n.isValidChar) : (Char.ofNat n).toNat = n := by
  rw [Char.ofNat, dif_pos h]
  rfl

theorem capitals_isForeign : ∀ r ∈ capitals, r.isForeign = true := by decide +kernel

variable {c x : Char} {xs : List Char}

/-- Only these two have ASCII in their lower case. -/
theorem ascii_of_mem_lower (hc : 0x80 ≤ c.toNat) (hx : x ∈ lower c) (hascii : x.toNat < 0x80) :
    x = 'i' ∨ x = 'k' := by
  rw [lower, if_neg (by omega)] at hx
  split_ifs at hx with hi
  · rcases List.mem_cons.1 hx with rfl | hx
    · exact .inl rfl
    · rw [List.mem_singleton.1 hx] at hascii
      exact absurd hascii (by decide)
  · split at hx
    · rename_i r hr
      have hcontains : r.first ≤ c.toNat ∧ c.toNat ≤ r.last := by
        have h := List.find?_some hr
        simp only [Capitals.contains, Bool.and_eq_true, decide_eq_true_eq] at h
        exact h.1
      have hforeign := capitals_isForeign r (List.mem_of_find?_eq_some hr)
      simp only [Capitals.isForeign, Bool.and_eq_true, Bool.or_eq_true, decide_eq_true_eq] at hforeign
      obtain ⟨⟨_, hlower | rfl⟩, hvalid⟩ := hforeign
      · have hchar : (r.lower + (c.toNat - r.first)).isValidChar := by
          rw [Nat.isValidChar]
          omega
        rw [List.mem_singleton.1 hx, toNat_ofNat hchar] at hascii
        omega
      · rw [List.mem_singleton.1 hx, Nat.le_antisymm hcontains.1 hcontains.2]
        exact .inr (by rw [Nat.sub_self]; rfl)
    · rw [List.mem_singleton.1 hx] at hascii
      omega

theorem lower_ne_nil : lower c ≠ [] := by
  rw [lower]
  split_ifs
  · exact List.cons_ne_nil _ _
  · exact List.cons_ne_nil _ _
  · split <;> exact List.cons_ne_nil _ _

theorem toLower_of_not_upper (h : ¬(c.val ≥ 'A'.val ∧ c.val ≤ 'Z'.val)) : c.toLower = c := dif_neg h

theorem val_toLower_of_upper (h : c.val ≥ 'A'.val ∧ c.val ≤ 'Z'.val) :
    c.toLower.val = c.val + ('a'.val - 'A'.val) :=
  congrArg Char.val (dif_pos h)

/-- What has ASCII as its lower case is ASCII. -/
theorem ascii_of_toLower (h : c.toLower.toNat < 0x80) : c.toNat < 0x80 := by
  by_cases hupper : c.val ≥ 'A'.val ∧ c.val ≤ 'Z'.val
  · exact Nat.lt_of_le_of_lt (UInt32.le_iff_toNat_le.1 hupper.2) (by decide)
  · rwa [toLower_of_not_upper hupper] at h

/-- What is no letter is its own lower case only. -/
theorem eq_of_toLower (h : c.toLower = x) (hx : x.isLower = false) : c = x := by
  by_cases hupper : c.val ≥ 'A'.val ∧ c.val ≤ 'Z'.val
  · -- the lower case of a letter is one
    subst h
    have hlower : ¬(c.toLower.val ≥ 'a'.val ∧ c.toLower.val ≤ 'z'.val) := fun hlower =>
      Bool.false_ne_true (hx.symm.trans (Bool.and_eq_true_iff.2
        ⟨decide_eq_true hlower.1, decide_eq_true hlower.2⟩))
    rw [val_toLower_of_upper hupper] at hlower
    simp only [ge_iff_le, UInt32.le_iff_toNat_le, UInt32.toNat_add, UInt32.toNat_sub] at hupper hlower
    change 65 ≤ c.val.toNat ∧ c.val.toNat ≤ 90 at hupper
    change ¬(97 ≤ (c.val.toNat + 32) % _ ∧ (c.val.toNat + 32) % _ ≤ 122) at hlower
    omega
  · rwa [toLower_of_not_upper hupper] at h

/-- What has ASCII but `i` and `k` in its lower case has nothing else there. -/
theorem lower_of_mem (h : x ∈ lower c) (hascii : x.toNat < 0x80) (hi : x ≠ 'i') (hk : x ≠ 'k') :
    lower c = [x] ∧ c.toLower = x := by
  have hc : c.toNat < 0x80 := by
    by_contra hc
    exact (ascii_of_mem_lower (Nat.le_of_not_lt hc) h hascii).elim hi hk
  rw [lower, if_pos hc, List.mem_singleton] at h
  rw [lower, if_pos hc, h]
  exact ⟨rfl, rfl⟩

end Characters

/-! ## Texts -/

section Texts

variable (cased caseIgnorable : Char → Bool)

/-- The next letter, past what is ignored, has a case. -/
def caseIgnorableThenCased (text : List Char) : Bool :=
  (text.dropWhile caseIgnorable).head?.any cased

/-- The lower case of a character between these; what is before it is in reverse. -/
def lowerBetween (before : List Char) (c : Char) (after : List Char) : List Char :=
  if c = 'Σ' then
    let isWordFinal := caseIgnorableThenCased cased caseIgnorable before &&
      !caseIgnorableThenCased cased caseIgnorable after
    [if isWordFinal then 'ς' else 'σ']
  else lower c

/-- The lower case of what comes after these, in reverse. -/
def toLowercaseFrom : List Char → List Char → List Char
  | _, [] => []
  | before, c :: after =>
    lowerBetween cased caseIgnorable before c after ++ toLowercaseFrom (c :: before) after

/-- The lower case of a text. Whether a sigma ends a word depends on which characters have a case
    and which do not count. -/
def toLowercase (text : List Char) : List Char := toLowercaseFrom cased caseIgnorable [] text

variable {cased caseIgnorable} {c x : Char} {xs before after text pre rest : List Char}

theorem lowerBetween_of_ascii (h : c.toNat < 0x80) :
    lowerBetween cased caseIgnorable before c after = [c.toLower] := by
  rw [lowerBetween, if_neg, lower, if_pos h]
  rintro rfl
  exact absurd h (by decide)

theorem lowerBetween_of_mem (h : x ∈ lowerBetween cased caseIgnorable before c after)
    (hascii : x.toNat < 0x80) (hi : x ≠ 'i') (hk : x ≠ 'k') :
    lowerBetween cased caseIgnorable before c after = [x] ∧ c.toLower = x := by
  rw [lowerBetween] at h ⊢
  split_ifs at h ⊢ with hsigma
  · rw [List.mem_singleton] at h
    rw [h] at hascii
    split at hascii <;> exact absurd hascii (by decide)
  · exact lower_of_mem h hascii hi hk

theorem lowerBetween_ne_nil : lowerBetween cased caseIgnorable before c after ≠ [] := by
  rw [lowerBetween]
  split_ifs
  · exact List.cons_ne_nil _ _
  · exact lower_ne_nil

/-- ASCII at the front is lowered on its own. -/
theorem toLowercaseFrom_append (h : ∀ c ∈ pre, c.toNat < 0x80) :
    toLowercaseFrom cased caseIgnorable before (pre ++ text) =
      pre.map Char.toLower ++ toLowercaseFrom cased caseIgnorable (pre.reverse ++ before) text := by
  induction pre generalizing before with
  | nil => rfl
  | cons c pre ih =>
    rw [List.cons_append, toLowercaseFrom, lowerBetween_of_ascii (h c List.mem_cons_self),
      ih fun d hd => h d (List.mem_cons_of_mem _ hd), List.map_cons, List.reverse_cons,
      List.append_assoc, List.singleton_append, List.singleton_append, List.cons_append]

/-- What begins, in lower case, with ASCII but `i` and `k`, begins with it in some case. -/
theorem exists_of_toLowercaseFrom (h : toLowercaseFrom cased caseIgnorable before text = xs ++ rest)
    (hxs : ∀ x ∈ xs, x.toNat < 0x80 ∧ x ≠ 'i' ∧ x ≠ 'k') :
    ∃ pre after, text = pre ++ after ∧ pre.map Char.toLower = xs ∧
      rest = toLowercaseFrom cased caseIgnorable (pre.reverse ++ before) after := by
  induction xs generalizing before text with
  | nil => exact ⟨[], text, rfl, rfl, h.symm⟩
  | cons x xs ih =>
    match text, h with
    | c :: text, h =>
      have hne : lowerBetween cased caseIgnorable before c text ≠ [] := lowerBetween_ne_nil
      obtain ⟨y, ys, hlower⟩ := List.exists_cons_of_ne_nil hne
      rw [toLowercaseFrom, hlower, List.cons_append, List.cons_append, List.cons.injEq] at h
      obtain ⟨rfl, h⟩ := h
      obtain ⟨hascii, hi, hk⟩ := hxs y List.mem_cons_self
      have hmem : y ∈ lowerBetween cased caseIgnorable before c text := hlower ▸ List.mem_cons_self
      obtain ⟨hsingle, hy⟩ := lowerBetween_of_mem hmem hascii hi hk
      obtain ⟨_, rfl⟩ := List.cons.inj (hlower.symm.trans hsingle)
      obtain ⟨pre, after, rfl, hpre, hrest⟩ := ih h fun x hx => hxs x (List.mem_cons_of_mem _ hx)
      refine ⟨c :: pre, after, rfl, by rw [List.map_cons, hy, hpre], ?_⟩
      rw [hrest, List.reverse_cons, List.append_assoc, List.singleton_append]

/-- The last character is lowered last. -/
theorem exists_toLowercaseFrom_concat (before text : List Char) (c : Char) :
    ∃ xs before', toLowercaseFrom cased caseIgnorable before (text ++ [c]) =
      xs ++ lowerBetween cased caseIgnorable before' c [] := by
  induction text generalizing before with
  | nil => exact ⟨[], before, List.append_nil _⟩
  | cons d text ih =>
    obtain ⟨xs, before', h⟩ := ih (d :: before)
    refine ⟨lowerBetween cased caseIgnorable before d (text ++ [c]) ++ xs, before', ?_⟩
    rw [List.cons_append, toLowercaseFrom, h, List.append_assoc]

end Texts

end Text
