import Mathlib.Algebra.Group.Nat.Defs
import Chip8.Text.Numeral

/-!
# Chip8.Proofs.Spelling

Which texts are integers, said as a grammar and without reading them.  `Digits` is a row of digits
with the number that it writes, place by place, and `Spells` an integer with all that may stand
around its digits.  Reading accepts exactly the spellings (`readInt?_eq_some_iff`), so a text that
can be read spells one integer only, and the decimal form of an integer is one of its spellings
(`spells_toString`).
-/

namespace Chip8

/-! ## the grammar -/

/-- `Digits s k n`: the text `s` writes the number `n` with `k` decimal digits, of any scripts, and
there may be an underscore between any two of them. -/
inductive Digits : List Char → Nat → Nat → Prop
  | last {c : Char} {d : Nat} (h : digitValue? c = some d) : Digits [c] 1 d
  | next {c : Char} {d : Nat} {s : List Char} {k n : Nat} (h : digitValue? c = some d)
      (rest : Digits s k n) : Digits (c :: s) (k + 1) (d * 10 ^ k + n)
  | apart {c : Char} {d : Nat} {s : List Char} {k n : Nat} (h : digitValue? c = some d)
      (rest : Digits s k n) : Digits (c :: '_' :: s) (k + 1) (d * 10 ^ k + n)

/-- The signs, and what they make of a number. -/
inductive Sign : List Char → Nat → Int → Prop
  | unsigned (n : Nat) : Sign [] n n
  | plus (n : Nat) : Sign ['+'] n n
  | minus (n : Nat) : Sign ['-'] n (-n)

/-- A text of blanks. -/
def Blanks (s : List Char) : Prop := ∀ c ∈ s, isBlank c = true

/-- `Spells s z`: the text `s` is the integer `z`, written as blanks, one sign or none, digits that
are not too many, and blanks. -/
inductive Spells : List Char → Int → Prop
  | mk {front sign digits back : List Char} {k n : Nat} {z : Int} (hfront : Blanks front)
      (hsign : Sign sign n z) (hdigits : Digits digits k n) (hfew : k ≤ maxDigits)
      (hback : Blanks back) : Spells (front ++ (sign ++ digits) ++ back) z

/-! ## digits -/

/-- A digit is no blank: their ranges are apart. -/
theorem isBlank_of_digit {c : Char} {d : Nat} (h : digitValue? c = some d) : isBlank c = false := by
  have hapart : ∀ z ∈ digitZeros, ∀ range ∈ blankRanges, z + 9 < range.1 ∨ range.2 < z := by
    decide
  obtain ⟨z, hfind, -⟩ := Option.map_eq_some_iff.1 h
  have hz := hapart z (List.mem_of_find?_eq_some hfind)
  have hin := List.find?_some hfind
  simp only [Bool.and_eq_true, decide_eq_true_eq] at hin
  simp only [isBlank, List.any_eq_false, Bool.and_eq_true, decide_eq_true_eq, not_and]
  intro range hrange
  have := hz range hrange
  omega

theorem foldl_ofDigits (ds : List Nat) (m : Nat) :
    ds.foldl (fun n d => 10 * n + d) m = m * 10 ^ ds.length + ofDigits ds := by
  unfold ofDigits
  induction ds generalizing m with
  | nil => simp
  | cons d rest ih =>
      rw [List.foldl_cons, List.foldl_cons, ih, ih (10 * 0 + d), List.length_cons, Nat.pow_succ',
        ← Nat.mul_assoc, Nat.mul_comm m 10, Nat.mul_zero, Nat.zero_add, Nat.add_mul, Nat.add_assoc]

/-- The first digit counts with the place that it has. -/
theorem ofDigits_cons (d : Nat) (ds : List Nat) :
    ofDigits (d :: ds) = d * 10 ^ ds.length + ofDigits ds := by
  rw [← foldl_ofDigits, ofDigits, List.foldl_cons, Nat.mul_zero, Nat.zero_add]

/-- A row of digits starts with a digit. -/
theorem Digits.exists_cons {s : List Char} {k n : Nat} (h : Digits s k n) :
    ∃ c rest d, s = c :: rest ∧ digitValue? c = some d := by
  cases h with
  | last h | next h _ | apart h _ => exact ⟨_, _, _, rfl, h⟩

/-- It ends with one, too. -/
theorem Digits.exists_concat {s : List Char} {k n : Nat} (h : Digits s k n) :
    ∃ front c d, s = front ++ [c] ∧ digitValue? c = some d := by
  induction h with
  | last h => exact ⟨[], _, _, rfl, h⟩
  | @next first _ _ _ _ _ _ ih =>
      obtain ⟨front, c, d, rfl, hc⟩ := ih
      exact ⟨first :: front, c, d, rfl, hc⟩
  | @apart first _ _ _ _ _ _ ih =>
      obtain ⟨front, c, d, rfl, hc⟩ := ih
      exact ⟨first :: '_' :: front, c, d, rfl, hc⟩

/-- One row of digits after another. -/
theorem Digits.append {s t : List Char} {j k m n : Nat} (hs : Digits s j m) (ht : Digits t k n) :
    Digits (s ++ t) (j + k) (m * 10 ^ k + n) := by
  have hplace (d i m : Nat) :
      (d * 10 ^ i + m) * 10 ^ k + n = d * 10 ^ (i + k) + (m * 10 ^ k + n) := by
    rw [Nat.add_mul, Nat.mul_assoc, ← Nat.pow_add, Nat.add_assoc]
  induction hs with
  | last h =>
      rw [Nat.add_comm]
      exact .next h ht
  | next h _ ih =>
      rw [hplace, Nat.add_right_comm]
      exact .next h ih
  | apart h _ ih =>
      rw [hplace, Nat.add_right_comm]
      exact .apart h ih

/-- What is read as digits is a row of them. -/
theorem digits_of_digitValues? {s : List Char} {ds : List Nat} (h : digitValues? s = some ds) :
    Digits s ds.length (ofDigits ds) := by
  induction s using digitValues?.induct generalizing ds with
  | case1 => cases h
  | case2 c =>
      obtain ⟨d, hd, rfl⟩ := Option.map_eq_some_iff.1 h
      have hvalue : ofDigits [d] = d := by simp [ofDigits]
      rw [hvalue]
      exact .last hd
  | case3 c rest ih =>
      simp only [digitValues?, Option.bind_eq_bind, Option.bind_eq_some_iff] at h
      obtain ⟨d, hd, tail, htail, ⟨⟩⟩ := h
      rw [ofDigits_cons]
      exact .apart hd (ih htail)
  | case4 c e rest hne ih =>
      simp only [digitValues?, Option.bind_eq_bind, Option.bind_eq_some_iff] at h
      obtain ⟨d, hd, tail, htail, ⟨⟩⟩ := h
      rw [ofDigits_cons]
      exact .next hd (ih htail)

theorem digitValue?_underscore : digitValue? '_' = none := by decide

/-- Every row of digits is read. -/
theorem Digits.digitValues? {s : List Char} {k n : Nat} (h : Digits s k n) :
    ∃ ds, Chip8.digitValues? s = some ds ∧ ds.length = k ∧ ofDigits ds = n := by
  induction h with
  | @last c d h =>
      refine ⟨[d], ?_, rfl, ?_⟩
      · rw [Chip8.digitValues?, h, Option.map_some]
      · simp [ofDigits]
  | @next c d s k n h rest ih =>
      obtain ⟨ds, hread, rfl, rfl⟩ := ih
      obtain ⟨e, s, v, rfl, he⟩ := rest.exists_cons
      -- What follows is a digit, so it is no underscore.
      have hne : e ≠ '_' := by
        rintro rfl
        rw [digitValue?_underscore] at he
        cases he
      refine ⟨d :: ds, ?_, rfl, ofDigits_cons d ds⟩
      rw [Chip8.digitValues?, h, hread]
      · rfl
      · exact hne
  | @apart c d s k n h rest ih =>
      obtain ⟨ds, hread, rfl, rfl⟩ := ih
      refine ⟨d :: ds, ?_, rfl, ofDigits_cons d ds⟩
      rw [Chip8.digitValues?, h, hread]
      rfl

theorem readNat?_eq_some_iff {s : List Char} {n : Nat} :
    readNat? s = some n ↔ ∃ k ≤ maxDigits, Digits s k n := by
  unfold readNat?
  constructor
  · intro h
    split at h
    · cases h
    · rename_i ds hread
      obtain ⟨hfew, ⟨⟩⟩ := Option.ite_none_right_eq_some.1 h
      exact ⟨ds.length, hfew, digits_of_digitValues? hread⟩
  · rintro ⟨k, hfew, hdigits⟩
    obtain ⟨ds, hread, rfl, rfl⟩ := hdigits.digitValues?
    rw [hread]
    exact if_pos hfew

/-! ## blanks and signs -/

/-- What is left without the blanks, and that only blanks have gone. -/
theorem exists_trimBlanks (s : List Char) :
    ∃ front back, Blanks front ∧ Blanks back ∧ s = front ++ trimBlanks s ++ back := by
  have hdrop (t : List Char) : ∃ blanks, Blanks blanks ∧ t = blanks ++ dropBlanks t :=
    ⟨t.takeWhile isBlank, fun c hc => List.all_eq_true.1 List.all_takeWhile c hc,
      List.takeWhile_append_dropWhile.symm⟩
  obtain ⟨front, hfront, hs⟩ := hdrop s
  obtain ⟨back, hback, hrest⟩ := hdrop (dropBlanks s).reverse
  refine ⟨front, back.reverse, hfront, fun c hc => hback c (List.mem_reverse.1 hc), ?_⟩
  have hcore : dropBlanks s = trimBlanks s ++ back.reverse := by
    rw [trimBlanks, ← List.reverse_append, ← hrest, List.reverse_reverse]
  rw [List.append_assoc, ← hcore]
  exact hs

theorem dropBlanks_append {blanks : List Char} (h : Blanks blanks) (s : List Char) :
    dropBlanks (blanks ++ s) = dropBlanks s :=
  List.dropWhile_append_of_pos h

/-- Blanks go away on both sides of a text that neither starts nor ends with one. -/
theorem trimBlanks_append {front back core : List Char} {a b : Char} {s t : List Char}
    (hfront : Blanks front) (hback : Blanks back) (hstart : core = a :: s)
    (ha : isBlank a = false) (hend : core = t ++ [b]) (hb : isBlank b = false) :
    trimBlanks (front ++ core ++ back) = core := by
  have hback' : Blanks back.reverse := fun c hc => hback c (List.mem_reverse.1 hc)
  have hcore : dropBlanks core.reverse = core.reverse := by
    rw [hend, List.reverse_append]
    exact dropBlanks_cons hb
  rw [trimBlanks, List.append_assoc, dropBlanks_append hfront, hstart, List.cons_append,
    dropBlanks_cons ha, ← List.cons_append, ← hstart, List.reverse_append,
    dropBlanks_append hback', hcore, List.reverse_reverse]

/-- A number without blanks around it starts and ends with characters that are none. -/
theorem trimBlanks_spelling {front sign digits back : List Char} {k n : Nat} {z : Int}
    (hfront : Blanks front) (hsign : Sign sign n z) (hdigits : Digits digits k n)
    (hback : Blanks back) : trimBlanks (front ++ (sign ++ digits) ++ back) = sign ++ digits := by
  obtain ⟨most, b, e, hconcat, hb⟩ := hdigits.exists_concat
  have hend : sign ++ digits = (sign ++ most) ++ [b] := by rw [hconcat, List.append_assoc]
  cases hsign with
  | unsigned =>
      obtain ⟨a, rest, d, hcons, ha⟩ := hdigits.exists_cons
      exact trimBlanks_append hfront hback hcons (isBlank_of_digit ha) hend (isBlank_of_digit hb)
  | plus | minus =>
      exact trimBlanks_append hfront hback rfl (by decide) hend (isBlank_of_digit hb)

/-- **Reading accepts exactly the spellings of an integer**, and gives the integer that they
spell. -/
theorem readInt?_eq_some_iff {s : List Char} {z : Int} : readInt? s = some z ↔ Spells s z := by
  unfold readInt?
  constructor
  · intro h
    obtain ⟨front, back, hfront, hback, hs⟩ := exists_trimBlanks s
    rw [hs]
    generalize trimBlanks s = core at h
    split at h <;> obtain ⟨_, hnumber, rfl⟩ := Option.map_eq_some_iff.1 h <;>
      obtain ⟨n, hn, ⟨⟩⟩ := Option.bind_eq_some_iff.1 hnumber <;>
      obtain ⟨k, hfew, hdigits⟩ := readNat?_eq_some_iff.1 hn
    · exact .mk hfront (.minus n) hdigits hfew hback
    · exact .mk hfront (.plus n) hdigits hfew hback
    · exact .mk hfront (.unsigned n) hdigits hfew hback
  · rintro ⟨hfront, hsign, hdigits, hfew, hback⟩
    have hread := readNat?_eq_some_iff.2 ⟨_, hfew, hdigits⟩
    rw [trimBlanks_spelling hfront hsign hdigits hback]
    cases hsign with
    | unsigned =>
        obtain ⟨c, rest, d, rfl, hc⟩ := hdigits.exists_cons
        -- A digit is no sign, so the digits are read as they are.
        have hsigns : digitValue? '-' = none ∧ digitValue? '+' = none := by decide
        rw [List.nil_append]
        split
        · rename_i hcons
          cases hcons
          cases hsigns.1.symm.trans hc
        · rename_i hcons
          cases hcons
          cases hsigns.2.symm.trans hc
        · rw [hread]
          rfl
    | plus | minus =>
        simp only [List.singleton_append, hread]
        rfl

/-! ## the decimal form -/

/-- The decimal form of a number is a row of digits that writes it. -/
theorem digits_toDigits (n : Nat) : Digits (Nat.toDigits 10 n) (Nat.toDigits 10 n).length n := by
  induction n using Nat.strongRecOn with
  | ind n ih =>
      rw [Nat.toDigits_eq_if (by decide)]
      split
      · rename_i hsmall
        exact .last (digitValue?_digitChar hsmall)
      · rename_i hlarge
        have hlast : digitValue? (Nat.digitChar (n % 10)) = some (n % 10) :=
          digitValue?_digitChar (Nat.mod_lt n (by decide))
        have happend := (ih (n / 10) (by omega)).append (.last hlast)
        rw [Nat.pow_one, Nat.mul_comm, Nat.div_add_mod] at happend
        rw [List.length_append]
        exact happend

/-- The decimal form of an integer. -/
theorem toList_toString_int (z : Int) :
    (toString z).toList = (if 0 ≤ z then [] else ['-']) ++ Nat.toDigits 10 z.natAbs := by
  rw [Int.toString_eq_repr, Int.repr_eq_if]
  split
  · have habs : z.toNat = z.natAbs := by omega
    rw [Nat.toList_repr, habs, List.nil_append]
  · have habs : (-z).toNat = z.natAbs := by omega
    rw [String.toList_append, Nat.toList_repr, habs]
    rfl

/-- An integer that has not too many digits is spelt by its decimal form. -/
theorem spells_toString {z : Int} (hfew : (Nat.toDigits 10 z.natAbs).length ≤ maxDigits) :
    Spells (toString z).toList z := by
  have hblanks : Blanks [] := fun c hc => absurd hc List.not_mem_nil
  have hsign : Sign (if 0 ≤ z then [] else ['-']) z.natAbs z := by
    split
    · have h := Sign.unsigned z.natAbs
      rwa [Int.natAbs_of_nonneg (by omega)] at h
    · have h := Sign.minus z.natAbs
      rwa [Int.ofNat_natAbs_of_nonpos (by omega), Int.neg_neg] at h
  have hspelt := Spells.mk hblanks hsign (digits_toDigits z.natAbs) hfew hblanks
  rw [List.nil_append, List.append_nil, ← toList_toString_int] at hspelt
  exact hspelt

/-- There is no comma in it. -/
theorem comma_not_mem_toString (z : Int) : ',' ∉ (toString z).toList := by
  rw [toList_toString_int, List.mem_append]
  rintro (hsign | hdigit)
  · split at hsign <;> simp at hsign
  · have := Nat.isDigit_of_mem_toDigits (by decide) (by decide) hdigit
    exact absurd this (by decide)

end Chip8
