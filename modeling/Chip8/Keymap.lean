import Chip8.Keypad
import Chip8.Text.Numeral

/-!
# Chip8.Keymap

Which host key stands for which key of the keypad: sixteen host key codes, for
the keys 0 to F in order, no code twice.  A keymap is written as the codes with
commas between them.
-/

namespace Chip8

/-- Sixteen different key codes, in the order of the keys. -/
structure Keymap where
  codes : List Int
  length_codes : codes.length = 16
  nodup_codes : codes.Nodup

/-- What is wrong with the text of a keymap. -/
inductive KeymapError
  | wrongCount
  | notInteger
  | duplicate
  deriving DecidableEq, Repr

def KeymapError.message : KeymapError → String
  | wrongCount =>
    "Incorrect number of keys defined -- 16 required.  Use commas to split numbers"
  | notInteger => "Defined keys are not all integer values"
  | duplicate => "Duplicate keys defined"

namespace Keymap

/-- Reads one code after the other, after those already `seen`.  The first
piece that is no number, or is a number seen before, is what counts. -/
def readCodes (seen : List Int) : List (List Char) → Except KeymapError (List Int)
  | [] => .ok []
  | piece :: rest =>
    match readInt? piece with
    | none => .error .notInteger
    | some code =>
      if code ∈ seen then .error .duplicate
      else (readCodes (code :: seen) rest).map (code :: ·)

/-- There are as many codes as pieces. -/
theorem length_of_readCodes {seen codes : List Int} {pieces : List (List Char)}
    (h : readCodes seen pieces = .ok codes) : codes.length = pieces.length := by
  induction pieces generalizing seen codes with
  | nil => cases h; rfl
  | cons piece rest ih =>
    unfold readCodes at h
    split at h
    · simp at h
    · split at h
      · simp at h
      · rename_i code _ _
        cases hr : readCodes (code :: seen) rest with
        | error e => simp [hr, Except.map] at h
        | ok tail =>
          simp only [hr, Except.map, Except.ok.injEq] at h
          subst h
          simp [ih hr]

/-- No code comes twice, nor after it was seen. -/
theorem nodup_of_readCodes {seen codes : List Int} {pieces : List (List Char)}
    (h : readCodes seen pieces = .ok codes) :
    codes.Nodup ∧ ∀ c ∈ codes, c ∉ seen := by
  induction pieces generalizing seen codes with
  | nil => cases h; simp
  | cons piece rest ih =>
    unfold readCodes at h
    split at h
    · simp at h
    · split at h
      · simp at h
      · rename_i code _ hnew
        cases hr : readCodes (code :: seen) rest with
        | error e => simp [hr, Except.map] at h
        | ok tail =>
          simp only [hr, Except.map, Except.ok.injEq] at h
          subst h
          obtain ⟨hnodup, hfresh⟩ := ih hr
          constructor
          · refine List.nodup_cons.2 ⟨?_, hnodup⟩
            intro hmem
            exact hfresh code hmem (by simp)
          · intro c hc
            rcases List.mem_cons.1 hc with rfl | hc
            · exact hnew
            · intro hs
              exact hfresh c hc (by simp [hs])

/-- Reads a keymap. -/
def parse (s : String) : Except KeymapError Keymap :=
  let pieces := s.toList.splitOn ','
  if hlen : pieces.length = 16 then
    match h : readCodes [] pieces with
    | .error e => .error e
    | .ok codes =>
      .ok ⟨codes, by rw [length_of_readCodes h, hlen], (nodup_of_readCodes h).1⟩
  else .error .wrongCount

/-- The key that a code stands for. -/
def key? (k : Keymap) (code : Int) : Option Key :=
  if h : k.codes.idxOf code < 16 then some ⟨k.codes.idxOf code, h⟩ else none

/-- The codes with their keys. -/
def toPairs (k : Keymap) : List (Int × Nat) := k.codes.zipIdx

/-- The keymap that is used unless another is asked for: the keys 1234, qwer,
asdf and zxcv, in the places of the keypad. -/
def defaultText : String := "120,49,50,51,113,119,101,97,115,100,122,99,52,114,102,118"

end Keymap

end Chip8
