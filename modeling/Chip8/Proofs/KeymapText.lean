import Chip8.Proofs.KeyEvents
import Chip8.Proofs.Spelling

/-!
# Chip8.Proofs.KeymapText

Which texts are keymaps.  A text is taken apart at its commas, and the items are read one after the
other.  `parse_eq_ok_iff` says what comes of that for the whole of it: a keymap is read exactly if
the items spell its codes.  As no two codes of a keymap are the same, a text is refused exactly if
its items are too many or too few, or one spells nothing, or two spell the same
(`keymap_text_exact`), whichever of these is found first.
-/

namespace Chip8

namespace Keymap

/-! ## items -/

/-- The items of a text, which are what its commas leave. -/
def items (s : String) : List (List Char) := s.toList.splitOn ','

/-- The item at the place `k` of a text spells the code `z`. -/
def Denotes (s : String) (k : Nat) (z : Int) : Prop :=
  ∃ item, (items s)[k]? = some item ∧ Spells item z

/-- Items that spell codes, place by place, spell no others. -/
theorem denotes_iff {s : String} {codes : List Int}
    (hread : (items s).map readInt? = codes.map some) {k : Nat} {z : Int} :
    Denotes s k z ↔ codes[k]? = some z := by
  have hplace : ((items s)[k]?).map readInt? = (codes[k]?).map some := by
    rw [← List.getElem?_map, ← List.getElem?_map, hread]
  unfold Denotes
  constructor
  · rintro ⟨item, hitem, hspelt⟩
    rw [hitem, Option.map_some, readInt?_eq_some_iff.2 hspelt] at hplace
    obtain ⟨code, hcode, ⟨⟩⟩ := Option.map_eq_some_iff.1 hplace.symm
    exact hcode
  · intro hcode
    rw [hcode, Option.map_some] at hplace
    obtain ⟨item, hitem, hspelt⟩ := Option.map_eq_some_iff.1 hplace
    exact ⟨item, hitem, readInt?_eq_some_iff.1 hspelt⟩

/-! ## reading the items -/

/-- Codes that are read are what the items spell. -/
theorem readings_of_readCodes {seen codes : List Int} {pieces : List (List Char)}
    (h : readCodes seen pieces = .ok codes) : pieces.map readInt? = codes.map some := by
  induction pieces generalizing seen codes with
  | nil =>
      cases h
      rfl
  | cons piece rest ih =>
      unfold readCodes at h
      split at h
      · cases h
      · rename_i code hpiece
        split at h
        · cases h
        · cases hrest : readCodes (code :: seen) rest with
          | error e =>
              rw [hrest] at h
              cases h
          | ok tail =>
              rw [hrest] at h
              cases h
              rw [List.map_cons, List.map_cons, hpiece, ih hrest]

/-- Codes that the items spell are read, if none comes twice or was seen before. -/
theorem readCodes_of_readings {seen codes : List Int} {pieces : List (List Char)}
    (hread : pieces.map readInt? = codes.map some) (hnodup : codes.Nodup)
    (hfresh : ∀ code ∈ codes, code ∉ seen) : readCodes seen pieces = .ok codes := by
  induction pieces generalizing seen codes with
  | nil =>
      obtain rfl := List.map_eq_nil_iff.1 hread.symm
      rfl
  | cons piece rest ih =>
      cases codes with
      | nil => cases hread
      | cons code tail =>
          obtain ⟨hpiece, hread_rest⟩ := List.cons.inj hread
          obtain ⟨hnew, hnodup_tail⟩ := List.nodup_cons.1 hnodup
          obtain ⟨hcode, hfresh_tail⟩ := List.forall_mem_cons.1 hfresh
          have hfresh_rest : ∀ c ∈ tail, c ∉ code :: seen := by
            intro c hc
            have hne : c ≠ code := fun heq => hnew (heq ▸ hc)
            exact List.not_mem_cons_of_ne_of_not_mem hne (hfresh_tail c hc)
          rw [readCodes, hpiece]
          simp only [if_neg hcode, ih hread_rest hnodup_tail hfresh_rest]
          rfl

/-- A text is read as a keymap exactly if its items spell the codes of the keymap. -/
theorem parse_eq_ok_iff {s : String} {keymap : Keymap} :
    parse s = .ok keymap ↔ (items s).map readInt? = keymap.codes.map some := by
  unfold parse
  change (if hlen : (items s).length = 16 then _ else _) = _ ↔ _
  constructor
  · intro h
    split at h
    · split at h
      · cases h
      · rename_i hcodes
        cases h
        exact readings_of_readCodes hcodes
    · cases h
  · intro hread
    have hlen : (items s).length = 16 := by
      have := congrArg List.length hread
      rwa [List.length_map, List.length_map, keymap.length_codes] at this
    have hcodes : readCodes [] (items s) = .ok keymap.codes :=
      readCodes_of_readings hread keymap.nodup_codes fun _ _ => List.not_mem_nil
    rw [dif_pos hlen]
    split
    · rename_i h
      cases hcodes.symm.trans h
    · rename_i h
      cases hcodes.symm.trans h
      rfl

/-- Items that spell something can be read one by one. -/
theorem exists_readings {pieces : List (List Char)} (h : ∀ piece ∈ pieces, ∃ z, Spells piece z) :
    ∃ codes : List Int, pieces.map readInt? = codes.map some := by
  induction pieces with
  | nil => exact ⟨[], rfl⟩
  | cons piece rest ih =>
      obtain ⟨⟨z, hz⟩, hrest⟩ := List.forall_mem_cons.1 h
      obtain ⟨codes, hcodes⟩ := ih hrest
      exact ⟨z :: codes, by rw [List.map_cons, readInt?_eq_some_iff.2 hz, hcodes, List.map_cons]⟩

/-- A text is read as some keymap exactly if sixteen items spell codes of which no two are the
same. -/
theorem exists_parse_iff {s : String} :
    (∃ keymap, parse s = .ok keymap) ↔
      (items s).length = 16 ∧ (∀ item ∈ items s, ∃ z, Spells item z) ∧
        ∀ j k z, Denotes s j z → Denotes s k z → j = k := by
  constructor
  · rintro ⟨keymap, hparse⟩
    have hread := parse_eq_ok_iff.1 hparse
    refine ⟨?_, ?_, ?_⟩
    · have := congrArg List.length hread
      rwa [List.length_map, List.length_map, keymap.length_codes] at this
    · intro item hitem
      have hmem : readInt? item ∈ keymap.codes.map some := hread ▸ List.mem_map_of_mem hitem
      obtain ⟨z, -, hz⟩ := List.mem_map.1 hmem
      exact ⟨z, readInt?_eq_some_iff.1 hz.symm⟩
    · intro j k z hj hk
      rw [denotes_iff hread] at hj hk
      have hplace := (List.getElem?_eq_some_iff.1 hj).1
      exact (List.getElem?_inj hplace keymap.nodup_codes).1 (hj.trans hk.symm)
  · rintro ⟨hlen, hspelt, hdistinct⟩
    obtain ⟨codes, hread⟩ := exists_readings hspelt
    have hcodes : codes.length = 16 := by
      have := congrArg List.length hread
      rwa [List.length_map, List.length_map, hlen, eq_comm] at this
    have hnodup : codes.Nodup := by
      rw [List.nodup_iff_pairwise_ne, List.pairwise_iff_getElem]
      intro j k hj hk hlt heq
      have hj' : Denotes s j codes[j] := (denotes_iff hread).2 (List.getElem?_eq_getElem hj)
      have hk' : Denotes s k codes[j] :=
        (denotes_iff hread).2 (heq ▸ List.getElem?_eq_getElem hk)
      exact absurd (hdistinct j k _ hj' hk') (by omega)
    exact ⟨⟨codes, hcodes, hnodup⟩, parse_eq_ok_iff.2 hread⟩

/-! ## what is refused, and what is read -/

/-- A text is refused if and only if it is not read as a keymap. -/
theorem exists_error_iff {s : String} :
    (∃ e, parse s = .error e) ↔ ¬∃ keymap, parse s = .ok keymap := by
  cases parse s <;> simp

/-- The decimal forms of codes, with commas between them, have the codes as their readings. -/
theorem readings_intercalate {codes : List Int} (hne : codes ≠ [])
    (hfew : ∀ z ∈ codes, (Nat.toDigits 10 z.natAbs).length ≤ maxDigits) :
    (items (",".intercalate (codes.map toString))).map readInt? = codes.map some := by
  have hitems : items (",".intercalate (codes.map toString)) =
      (codes.map toString).map String.toList := by
    unfold items
    rw [String.toList_intercalate]
    refine List.splitOn_intercalate ',' ?_ (by simpa using hne)
    simp only [List.map_map, List.mem_map, Function.comp_apply, forall_exists_index, and_imp,
      forall_apply_eq_imp_iff₂]
    exact fun z _ => comma_not_mem_toString z
  rw [hitems, List.map_map, List.map_map]
  refine List.map_congr_left fun z hz => ?_
  exact readInt?_eq_some_iff.2 (spells_toString (hfew z hz))

/-- **Keymaps are read exactly.**  A text is refused if and only if its items are not sixteen, or
some item spells no integer, or two items spell the same one, however it is spelt.  What is read
otherwise has sixteen entries, no code twice and each of the sixteen keys once, and it is the code
at the place of a key that stands for the key.  In particular, the decimal forms of sixteen
different codes that have not too many digits are read as these codes. -/
theorem keymap_text_exact :
    (∀ s, (∃ e, parse s = .error e) ↔
      (items s).length ≠ 16 ∨ (∃ item ∈ items s, ∀ z, ¬Spells item z) ∨
        ∃ j k z, Denotes s j z ∧ Denotes s k z ∧ j ≠ k) ∧
    (∀ s keymap, parse s = .ok keymap →
      keymap.toPairs.length = 16 ∧ (keymap.toPairs.map Prod.fst).Nodup ∧
        keymap.toPairs.map Prod.snd = List.range 16 ∧
        (∀ z k, (z, k) ∈ keymap.toPairs ↔ Denotes s k z) ∧
        ∀ z k, keymap.key? z = some k ↔ (z, k.val) ∈ keymap.toPairs) ∧
    ∀ codes : List Int, codes.length = 16 → codes.Nodup →
      (∀ z ∈ codes, (Nat.toDigits 10 z.natAbs).length ≤ 4300) →
      ∃ keymap, parse (",".intercalate (codes.map toString)) = .ok keymap ∧
        keymap.toPairs = codes.zipIdx := by
  refine ⟨?_, ?_, ?_⟩
  · intro s
    rw [exists_error_iff, exists_parse_iff]
    simp only [Classical.not_and_iff_not_or_not, Classical.not_forall, not_exists, exists_prop,
      ne_eq]
  · intro s keymap hparse
    have hread := parse_eq_ok_iff.1 hparse
    refine ⟨?_, ?_, ?_, ?_, ?_⟩
    · rw [toPairs, List.length_zipIdx, keymap.length_codes]
    · rw [toPairs, List.zipIdx_map_fst]
      exact keymap.nodup_codes
    · rw [toPairs, List.zipIdx_map_snd, keymap.length_codes, List.range_eq_range']
    · intro z k
      rw [toPairs, List.mem_zipIdx_iff_getElem?, denotes_iff hread]
    · intro z k
      have hplace : k.val < keymap.codes.length := keymap.length_codes.symm ▸ k.isLt
      rw [toPairs, List.mem_zipIdx_iff_getElem?, key?_eq_some_iff, code,
        List.getElem?_eq_getElem hplace, List.get_eq_getElem, Option.some.injEq]
  · intro codes hlen hnodup hfew
    have hne : codes ≠ [] := by
      rintro rfl
      cases hlen
    exact ⟨⟨codes, hlen, hnodup⟩, parse_eq_ok_iff.2 (readings_intercalate hne hfew), rfl⟩

/-- A keymap in unusual spellings: blanks, signs, zeros in front, underscores, other scripts. -/
def spelled : String :=
  " 120\t,+49,0_5_0,\u0665\u0661,-113,0,1,2,3,4,5,6,7,8,\u00a09,1_0"

/-- Codes of which one has as many digits as there may be, and most are negative. -/
def widest : List Int :=
  ((10 ^ 4300 - 1 : Nat) : Int) :: (List.range 15).map fun k : Nat => -(k : Int)

/-- The unusual spellings are read; one code in two spellings is refused; the widest codes are read
back from their decimal forms. -/
theorem keymap_text_exact_spelled :
    (∃ keymap, parse spelled = .ok keymap ∧ Denotes spelled 3 51 ∧ keymap.key? 51 = some 3) ∧
      (∃ e, parse "7,007,2,3,4,5,6,1,8,9,10,11,12,13,14,15" = .error e) ∧
      widest.length = 16 ∧ widest.Nodup ∧
      (∀ z ∈ widest, (Nat.toDigits 10 z.natAbs).length ≤ 4300) ∧
      ∃ keymap, parse (",".intercalate (widest.map toString)) = .ok keymap ∧
        keymap.toPairs = widest.zipIdx := by
  obtain ⟨hrefused, hread, hdecimal⟩ := keymap_text_exact
  have hcodes : ((parse spelled).toOption.map (·.key? 51)) = some (some 3) := by decide +kernel
  have hlength : widest.length = 16 := by decide +kernel
  have hnodup : widest.Nodup := by decide +kernel
  have hfew : ∀ z ∈ widest, (Nat.toDigits 10 z.natAbs).length ≤ 4300 := by
    simp only [Nat.length_toDigits_le_iff (by decide : 1 < 10) (by decide : 0 < 4300)]
    decide +kernel
  refine ⟨?_, ?_, hlength, hnodup, hfew, hdecimal widest hlength hnodup hfew⟩
  · cases hparse : parse spelled with
    | error e =>
        rw [hparse] at hcodes
        cases hcodes
    | ok keymap =>
        obtain ⟨-, -, -, hdenotes, hkey⟩ := hread spelled keymap hparse
        rw [hparse] at hcodes
        have h51 : keymap.key? 51 = some 3 := Option.some.inj hcodes
        exact ⟨keymap, rfl, (hdenotes 51 3).1 ((hkey 51 3).1 h51), h51⟩
  · refine (hrefused _).2 (.inr (.inr ⟨0, 1, 7, ⟨['7'], by decide +kernel, ?_⟩,
      ⟨['0', '0', '7'], by decide +kernel, ?_⟩, by decide⟩))
    · exact readInt?_eq_some_iff.1 (by decide +kernel)
    · exact readInt?_eq_some_iff.1 (by decide +kernel)

end Keymap

end Chip8
