import SceneScript.Identity.Allocator
import SceneScript.Proofs.Text.Blank
import SceneScript.Proofs.Validation.Check

/-!
# What ids are made of

An id that is cut from a long hexadecimal text is made of hexadecimal digits, and there is at least
one of them when the length leaves something of the text.

Main statement: what the allocator hands out may be the id of an element of a document, and it goes
on from a source of the same kind (`IdSource.handsOut_allocate`).
-/

namespace SceneScript

open Text

/-- What an allocator hands out has a property, as long as its state has one, which it keeps. -/
def Allocator.HandsOut {σ : Type} (P : String → Prop) (Q : σ → Prop) (a : Allocator σ) : Prop :=
  ∀ used state, Q state → P (a used state).1 ∧ Q (a used state).2

/-! ## Hexadecimal digits -/

theorem isAlphanum_of_hexValue? {c : Char} (h : (hexValue? c).isSome = true) :
    c.isAlphanum = true := by
  have hall : ∀ n < 0x67, (hexValue? (Char.ofNat n)).isSome = true →
      (Char.ofNat n).isAlphanum = true := by decide +kernel
  have hlt : c.toNat < 0x67 := by
    unfold hexValue? at h
    grind
  have hc := hall _ hlt
  rw [Char.ofNat_toNat] at hc
  exact hc h

theorem isBlank_of_hexValue? {c : Char} (h : (hexValue? c).isSome = true) : isBlank c = false :=
  isBlank_of_isWord (isWord_of_isAlphanum (isAlphanum_of_hexValue? h))

theorem hexValue?_hexDigit {n : ℕ} (h : n < 16) : (hexValue? (hexDigit n)).isSome = true := by
  revert n
  decide

/-- A text of hexadecimal digits, at least one of them. -/
def IsHex (s : List Char) : Prop := s ≠ [] ∧ ∀ c ∈ s, (hexValue? c).isSome = true

theorem IsHex.solid {s : List Char} (h : IsHex s) : Validation.Solid (String.ofList s) :=
  ⟨s, h.1, fun c hc => isBlank_of_hexValue? (h.2 c hc), .inl (String.toList_ofList)⟩

namespace IdSource

/-- The texts given are of thirty-two hexadecimal digits each. -/
def Hexadecimal (source : IdSource) : Prop :=
  ∀ text ∈ source.given, text.length = 32 ∧ ∀ c ∈ text.toList, (hexValue? c).isSome = true

instance (source : IdSource) : Decidable source.Hexadecimal :=
  inferInstanceAs (Decidable (∀ text ∈ source.given,
    text.length = 32 ∧ ∀ c ∈ text.toList, (hexValue? c).isSome = true))

/-- A length that leaves something of thirty-two characters. -/
def Leaves (length : ℤ) : Prop := length ≠ 0 ∧ -32 < length

instance (length : ℤ) : Decidable (Leaves length) :=
  inferInstanceAs (Decidable (length ≠ 0 ∧ -32 < length))

/-! ## Drawing -/

theorem mem_repeated {n : ℕ} {c : Char} (h : c ∈ repeated n) : (hexValue? c).isSome = true := by
  obtain ⟨digits, hdigits, hc⟩ := List.mem_flatten.1 h
  obtain rfl := List.eq_of_mem_replicate hdigits
  obtain ⟨i, -, rfl⟩ := List.mem_map.1 hc
  exact hexValue?_hexDigit (Nat.mod_lt _ (by decide))

theorem length_repeated (n : ℕ) : (repeated n).length = 32 := by
  simp [repeated, hexPad]

/-- What is drawn is hexadecimal, and so is the source afterwards. -/
theorem Hexadecimal.draw {source : IdSource} (h : source.Hexadecimal) :
    (source.draw.1.length = 32 ∧ ∀ c ∈ source.draw.1, (hexValue? c).isSome = true) ∧
      source.draw.2.Hexadecimal := by
  unfold IdSource.draw
  split
  · next text rest hgiven =>
    have hall : ∀ t ∈ text :: rest, t.length = 32 ∧
        ∀ c ∈ t.toList, (hexValue? c).isSome = true := fun t ht => h t (hgiven ▸ ht)
    exact ⟨hall text List.mem_cons_self, fun t ht => hall t (List.mem_cons_of_mem _ ht)⟩
  · next hgiven =>
    exact ⟨⟨length_repeated _, fun c hc => mem_repeated hc⟩, fun t ht => h t ht⟩

/-- A length that leaves something cuts a hexadecimal text into one. -/
theorem isHex_cut {length : ℤ} (hlength : Leaves length) {s : List Char} (hs : s.length = 32)
    (h : ∀ c ∈ s, (hexValue? c).isSome = true) : IsHex (cut length s) := by
  have htake : ∀ n, 0 < n → IsHex (s.take n) := by
    refine fun n hn => ⟨fun hnil => ?_, fun c hc => h c (List.mem_of_mem_take hc)⟩
    have := congrArg List.length hnil
    rw [List.length_take, List.length_nil] at this
    omega
  obtain ⟨hzero, hleast⟩ := hlength
  unfold cut
  split
  · exact htake _ (by omega)
  · exact htake _ (by omega)

/-- The id found by a search is hexadecimal, and so is the source afterwards. -/
theorem isHex_search {length : ℤ} (hlength : Leaves length) (used : List String) (draws : ℕ)
    {source : IdSource} (h : source.Hexadecimal) :
    IsHex (search length used draws source).1.toList ∧
      (search length used draws source).2.Hexadecimal := by
  induction draws generalizing source with
  | zero =>
    refine ⟨?_, h⟩
    simp only [search, longer, String.toList_ofList]
    refine ⟨by simp, fun c hc => ?_⟩
    obtain rfl := List.eq_of_mem_replicate hc
    decide
  | succ draws ih =>
    obtain ⟨⟨hlen, hhex⟩, hrest⟩ := h.draw
    simp only [search]
    split
    · exact ih hrest
    · rw [String.toList_ofList]
      exact ⟨isHex_cut hlength hlen hhex, hrest⟩

/-- What is handed out may be the id of an element, as long as the source is hexadecimal. -/
theorem handsOut_allocate {length : ℤ} (hlength : Leaves length) :
    (allocate length).HandsOut Validation.Solid Hexadecimal := by
  intro used source h
  obtain ⟨hhex, hrest⟩ := isHex_search hlength used (source.draws used) h
  have hsolid := hhex.solid
  rw [String.ofList_toList] at hsolid
  exact ⟨hsolid, hrest⟩

end IdSource

end SceneScript
