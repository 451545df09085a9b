import Mathlib.Tactic.SplitIfs
import SceneScript.Text.Utf8

/-!
# UTF-8 reads back

The machine takes one character from the front of bytes that a character was written to, whatever
follows (`run_encodeChar_append`). The first byte tells how many more it waits for and how far the
next one may range; every written byte lies in that range.

Main statement: decoding what was encoded gives the text back (`decodeLossy_encode`).
-/

namespace SceneScript.Text.Utf8

theorem toNat_ofNat {n : Nat} (h : n < 256) : (UInt8.ofNat n).toNat = n := by
  simp [UInt8.toNat_ofNat', h]

/-- The code points that characters have. -/
theorem toNat_valid (c : Char) : c.toNat < 0xD800 ∨ 0xDFFF < c.toNat ∧ c.toNat < 0x110000 :=
  c.valid

/-! ## Bytes inside a character -/

variable {value low high b : Nat} {read bytes : List UInt8}

theorem run_inside_last (hb : b < 256) (hlow : low ≤ b) (hhigh : b ≤ high) :
    run (.inside 0 value low high read) (UInt8.ofNat b :: bytes) =
      .char (Char.ofNat (value * 64 + (b - 0x80))) (read ++ [UInt8.ofNat b]) ::
        run .start bytes := by
  simp [run, step, toNat_ofNat hb, hlow, hhigh]

theorem run_inside_next {more : Nat} (hb : b < 256) (hlow : low ≤ b) (hhigh : b ≤ high) :
    run (.inside (more + 1) value low high read) (UInt8.ofNat b :: bytes) =
      run (.inside more (value * 64 + (b - 0x80)) 0x80 0xBF (read ++ [UInt8.ofNat b])) bytes := by
  simp [run, step, toNat_ofNat hb, hlow, hhigh]

theorem run_start {pieces : List Piece} {state : State}
    (h : first (UInt8.ofNat b) = (pieces, state)) :
    run .start (UInt8.ofNat b :: bytes) = pieces ++ run state bytes := by
  simp [run, step, h]

/-! ## First bytes -/

theorem first_ascii (h : b < 0x80) :
    first (UInt8.ofNat b) = ([.char (Char.ofNat b) [UInt8.ofNat b]], .start) := by
  simp [first, toNat_ofNat (show b < 256 by omega), h]

theorem first_two (hlow : 0xC2 ≤ b) (hhigh : b < 0xE0) :
    first (UInt8.ofNat b) = ([], .inside 0 (b - 0xC0) 0x80 0xBF [UInt8.ofNat b]) := by
  simp only [first, toNat_ofNat (show b < 256 by omega)]
  rw [if_neg (by omega), if_neg (by omega), if_pos (by omega)]

/-- The least byte that may follow the first one of three or four. -/
def lowAfter (b : Nat) : Nat := if b = 0xE0 then 0xA0 else if b = 0xF0 then 0x90 else 0x80

/-- The greatest byte that may follow the first one of three or four. -/
def highAfter (b : Nat) : Nat := if b = 0xED then 0x9F else if b = 0xF4 then 0x8F else 0xBF

theorem first_three (hlow : 0xE0 ≤ b) (hhigh : b < 0xF0) :
    first (UInt8.ofNat b) =
      ([], .inside 1 (b - 0xE0) (lowAfter b) (highAfter b) [UInt8.ofNat b]) := by
  have hb := toNat_ofNat (show b < 256 by omega)
  simp only [first, hb, lowAfter, highAfter]
  rw [if_neg (by omega), if_neg (by omega), if_neg (by omega)]
  by_cases h₀ : b = 0xE0
  · subst h₀; rfl
  by_cases h₁ : b = 0xED
  · subst h₁; rfl
  simp only [h₀, h₁, hhigh, if_true, if_false, show b ≠ 0xF0 by omega, show b ≠ 0xF4 by omega]

theorem first_four (hlow : 0xF0 ≤ b) (hhigh : b < 0xF5) :
    first (UInt8.ofNat b) =
      ([], .inside 2 (b - 0xF0) (lowAfter b) (highAfter b) [UInt8.ofNat b]) := by
  have hb := toNat_ofNat (show b < 256 by omega)
  simp only [first, hb, lowAfter, highAfter]
  rw [if_neg (by omega), if_neg (by omega), if_neg (by omega), if_neg (by omega),
    if_neg (by omega), if_neg (by omega)]
  by_cases h₀ : b = 0xF0
  · subst h₀; rfl
  by_cases h₁ : b = 0xF4
  · subst h₁; rfl
  simp only [h₀, h₁, if_false, show b < 0xF4 by omega, if_true, show b ≠ 0xE0 by omega,
    show b ≠ 0xED by omega]

/-! ## Characters -/

/-- A written character is read from the front of some bytes. -/
theorem run_encodeChar_append (c : Char) (bytes : List UInt8) :
    run .start (encodeChar c ++ bytes) = .char c (encodeChar c) :: run .start bytes := by
  have hvalid := toNat_valid c
  have hc : Char.ofNat c.toNat = c := Char.ofNat_toNat c
  unfold encodeChar
  dsimp only
  generalize c.toNat = n at hvalid hc ⊢
  split
  · next h => rw [List.singleton_append, run_start (first_ascii h), hc]; rfl
  split
  · next h₁ h₂ =>
    have hn : (0xC0 + n / 64 - 0xC0) * 64 + (0x80 + n % 64 - 0x80) = n := by omega
    rw [List.cons_append, List.singleton_append, run_start (first_two (by omega) (by omega)),
      List.nil_append, run_inside_last (by omega) (by omega) (by omega), hn, hc]
    rfl
  split
  · next h₁ h₂ h₃ =>
    have hn : ((0xE0 + n / 4096 - 0xE0) * 64 + (0x80 + n / 64 % 64 - 0x80)) * 64 +
        (0x80 + n % 64 - 0x80) = n := by omega
    have hlow : lowAfter (0xE0 + n / 4096) ≤ 0x80 + n / 64 % 64 := by
      unfold lowAfter
      split_ifs <;> omega
    have hhigh : 0x80 + n / 64 % 64 ≤ highAfter (0xE0 + n / 4096) := by
      unfold highAfter
      split_ifs <;> omega
    rw [List.cons_append, List.cons_append, List.singleton_append,
      run_start (first_three (by omega) (by omega)), List.nil_append,
      run_inside_next (by omega) hlow hhigh, run_inside_last (by omega) (by omega) (by omega), hn,
      hc]
    rfl
  · next h₁ h₂ h₃ =>
    have hn : (((0xF0 + n / 262144 - 0xF0) * 64 + (0x80 + n / 4096 % 64 - 0x80)) * 64 +
        (0x80 + n / 64 % 64 - 0x80)) * 64 + (0x80 + n % 64 - 0x80) = n := by omega
    have hlow : lowAfter (0xF0 + n / 262144) ≤ 0x80 + n / 4096 % 64 := by
      unfold lowAfter
      split_ifs <;> omega
    have hhigh : 0x80 + n / 4096 % 64 ≤ highAfter (0xF0 + n / 262144) := by
      unfold highAfter
      split_ifs <;> omega
    rw [List.cons_append, List.cons_append, List.cons_append, List.singleton_append,
      run_start (first_four (by omega) (by omega)), List.nil_append,
      run_inside_next (by omega) hlow hhigh, run_inside_next (by omega) (by omega) (by omega),
      run_inside_last (by omega) (by omega) (by omega), hn, hc]
    rfl

/-- Decoding what was encoded gives the text back. -/
theorem decodeLossy_encode (s : List Char) : decodeLossy (encode s) = s := by
  unfold decodeLossy pieces
  induction s with
  | nil => rfl
  | cons c s ih =>
    rw [encode, List.flatMap_cons, run_encodeChar_append, List.map_cons]
    exact congrArg (c :: ·) ih

theorem collect_run_encode (position : Nat) (s : List Char) :
    collect position (run .start (encode s)) = .ok s := by
  induction s generalizing position with
  | nil => rfl
  | cons c s ih =>
    rw [encode, List.flatMap_cons, run_encodeChar_append, collect]
    exact congrArg (Except.map (c :: ·)) (ih _)

/-- What was encoded is well formed and decodes to the text. -/
theorem decode_encode (s : List Char) : decode (encode s) = .ok s := collect_run_encode 0 s

/-! ## Pieces -/

theorem run_inside_ne_nil (more value low high : Nat) (read bytes : List UInt8) :
    run (.inside more value low high read) bytes ≠ [] := by
  induction bytes generalizing more value low high read with
  | nil => simp [run]
  | cons b bytes ih =>
    by_cases hb : low ≤ b.toNat ∧ b.toNat ≤ high
    · cases more with
      | zero => simp [run, step, hb]
      | succ more =>
        simp only [run, step, if_pos hb, List.nil_append]
        exact ih more _ _ _ _
    · simp [run, step, hb]

/-- Bytes make pieces. -/
theorem run_start_ne_nil {bytes : List UInt8} (h : bytes ≠ []) : run .start bytes ≠ [] := by
  obtain ⟨b, bytes, rfl⟩ := List.exists_cons_of_ne_nil h
  simp only [run, step, first]
  split_ifs <;> simp [run_inside_ne_nil]

end SceneScript.Text.Utf8
