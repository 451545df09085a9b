import Mathlib.Data.List.SplitBy
import SceneScript.Proofs.Text.Utf8
import SceneScript.Text.Blank
import SceneScript.Text.Percent

/-!
# Percent encoding reads back

Every byte is written with ASCII characters other than blanks (`isBlank_of_mem_encode`), so the
encoded text is one run for the reader, whatever the name.

Main statement: decoding what was encoded gives the text back (`decode_encode`).
-/

namespace SceneScript.Text

theorem hexValue?_hexDigitUpper : ∀ n < 16, hexValue? (hexDigitUpper n) = some n := by decide

namespace Percent

/-! ## Single bytes -/

theorem ofNat_toNat (b : UInt8) : UInt8.ofNat b.toNat = b := by simp

/-- What holds of the first 256 numbers holds of every byte. -/
theorem forall_byte {p : UInt8 → Prop} (h : ∀ n < 256, p (UInt8.ofNat n)) (b : UInt8) : p b := by
  have := h b.toNat b.toNat_lt
  rwa [ofNat_toNat] at this

theorem mem_encodeByte (b : UInt8) : ∀ c ∈ encodeByte b, isAscii c = true ∧ isBlank c = false := by
  refine forall_byte (p := fun b => ∀ c ∈ encodeByte b, isAscii c = true ∧ isBlank c = false) ?_ b
  decide +kernel

theorem encodeByte_ne_nil (b : UInt8) : encodeByte b ≠ [] := by
  unfold encodeByte
  split <;> simp

/-- What stands for itself is no percent sign. -/
theorem plain_byte (b : UInt8) (h : isPlain b = true) :
    Char.ofNat b.toNat ≠ '%' ∧ UInt8.ofNat (Char.ofNat b.toNat).toNat = b := by
  refine forall_byte (p := fun b => isPlain b = true →
    Char.ofNat b.toNat ≠ '%' ∧ UInt8.ofNat (Char.ofNat b.toNat).toNat = b) ?_ b h
  decide +kernel

theorem bytes_cons {c : Char} (h : c ≠ '%') (s : List Char) :
    bytes (c :: s) = UInt8.ofNat c.toNat :: bytes s := by
  rw [bytes]
  intro a b t he
  simp_all

/-- A written byte is read from the front of a text. -/
theorem bytes_encodeByte_append (b : UInt8) (s : List Char) :
    bytes (encodeByte b ++ s) = b :: bytes s := by
  unfold encodeByte
  split
  · next h =>
    obtain ⟨hne, hb⟩ := plain_byte b h
    rw [List.singleton_append, bytes_cons hne, hb]
  · next h =>
    have hlt := b.toNat_lt
    have hhigh := hexValue?_hexDigitUpper (b.toNat / 16) (by omega)
    have hlow := hexValue?_hexDigitUpper (b.toNat % 16) (by omega)
    have hsum : 16 * (b.toNat / 16) + b.toNat % 16 = b.toNat := Nat.div_add_mod _ _
    simp only [List.cons_append, List.nil_append, bytes, hhigh, hlow, hsum, ofNat_toNat]

/-! ## Texts -/

theorem bytes_flatMap_encodeByte (bs : List UInt8) : bytes (bs.flatMap encodeByte) = bs := by
  induction bs with
  | nil => rfl
  | cons b bs ih => rw [List.flatMap_cons, bytes_encodeByte_append, ih]

theorem mem_encode {s : List Char} {c : Char} (h : c ∈ encode s) :
    isAscii c = true ∧ isBlank c = false := by
  obtain ⟨b, -, hc⟩ := List.mem_flatMap.1 h
  exact mem_encodeByte b c hc

/-- An encoded text holds no blank. -/
theorem isBlank_of_mem_encode {s : List Char} {c : Char} (h : c ∈ encode s) : isBlank c = false :=
  (mem_encode h).2

theorem encode_ne_nil {s : List Char} (h : s ≠ []) : encode s ≠ [] := by
  obtain ⟨c, s, rfl⟩ := List.exists_cons_of_ne_nil h
  have hbytes : Utf8.encode (c :: s) ≠ [] := by
    rw [Utf8.encode, List.flatMap_cons, Utf8.encodeChar]
    split_ifs <;> simp
  obtain ⟨b, bs, hb⟩ := List.exists_cons_of_ne_nil hbytes
  rw [encode, hb, List.flatMap_cons]
  exact List.append_ne_nil_of_left_ne_nil (encodeByte_ne_nil b) _

theorem decode_of_ascii {s : List Char} (h : ∀ c ∈ s, isAscii c = true) :
    decode s = Utf8.decodeLossy (bytes s) := by
  by_cases hs : s = []
  · subst hs; rfl
  have hchain : s.IsChain (fun a b => (isAscii a == isAscii b) = true) := by
    refine List.Pairwise.isChain (List.pairwise_of_forall_mem_list ?_)
    intro a ha b hb
    rw [h a ha, h b hb, beq_self_eq_true]
  rw [decode, List.splitBy_of_isChain hs hchain, List.flatMap_singleton, decodeRun,
    if_pos (List.all_eq_true.2 h)]

/-- Decoding what was encoded gives the text back. -/
theorem decode_encode (s : List Char) : decode (encode s) = s := by
  rw [decode_of_ascii fun c hc => (mem_encode hc).1, encode, bytes_flatMap_encodeByte,
    Utf8.decodeLossy_encode]

/-! ## Decoded texts -/

theorem bytes_ne_nil {s : List Char} (h : s ≠ []) : bytes s ≠ [] := by
  fun_cases bytes s <;> simp_all

theorem decodeRun_ne_nil {run : List Char} (h : run ≠ []) : decodeRun run ≠ [] := by
  unfold decodeRun
  split
  · rw [Utf8.decodeLossy, Ne, List.map_eq_nil_iff]
    exact Utf8.run_start_ne_nil (bytes_ne_nil h)
  · exact h

/-- What is not empty is decoded to what is not. -/
theorem decode_ne_nil {s : List Char} (h : s ≠ []) : decode s ≠ [] := by
  obtain ⟨run, runs, hruns⟩ := List.exists_cons_of_ne_nil
    (List.splitBy_ne_nil (r := fun a b => isAscii a == isAscii b).2 h)
  have hrun : run ≠ [] := List.ne_nil_of_mem_splitBy (hruns ▸ List.mem_cons_self)
  rw [decode, hruns, List.flatMap_cons]
  exact List.append_ne_nil_of_left_ne_nil (decodeRun_ne_nil hrun) _

end Percent

end SceneScript.Text
