import Mathlib.Data.List.Basic

/-!
# Go Strings as Bytes

A Go string is a sequence of bytes, by convention the UTF-8 encoding of a text. A message of a
protobuf library refuses a string that is not valid UTF-8; `range` over a string, and the JSON
decoder, read U+FFFD for every byte that is not part of a character.

## Main results

* `ofUtf8_utf8`, `utf8_of_ofUtf8`: the text of the bytes of a text, and the bytes of a text.
* `ascii_mem_utf8`: where an ASCII byte stands in them.
* `runes_utf8`: its characters.
-/

namespace Golang

/-- The bytes of a text. -/
def utf8 (s : String) : List UInt8 := s.toByteArray.data.toList

/-- The text with these bytes, if they are valid UTF-8. -/
def ofUtf8 (b : List UInt8) : Option String := String.fromUTF8? ⟨b.toArray⟩

/-- **The text of the bytes of a text.** -/
@[simp] theorem ofUtf8_utf8 (s : String) : ofUtf8 (utf8 s) = some s := by
  have hbytes : (⟨(utf8 s).toArray⟩ : ByteArray) = s.toByteArray := by
    rw [utf8, Array.toArray_toList]
  rw [ofUtf8, hbytes, String.fromUTF8?, dif_pos s.isValidUTF8]
  rfl

/-- **The bytes of the text of some bytes.** -/
theorem utf8_of_ofUtf8 {b : List UInt8} {s : String} (h : ofUtf8 b = some s) : utf8 s = b := by
  rw [ofUtf8, String.fromUTF8?] at h
  split at h
  · obtain rfl := Option.some.inj h
    rfl
  · exact absurd h (by simp)

/-- Texts are told apart by their bytes. -/
theorem utf8_inj {s t : String} : utf8 s = utf8 t ↔ s = t := by
  refine ⟨fun h => ?_, congrArg utf8⟩
  have hread := congrArg ofUtf8 h
  rwa [ofUtf8_utf8, ofUtf8_utf8, Option.some.injEq] at hread

/-- The bytes of a text are those of its characters. -/
theorem utf8_ofList (cs : List Char) : utf8 (.ofList cs) = cs.flatMap String.utf8EncodeChar := by
  rw [utf8, String.toByteArray_ofList, List.utf8Encode]
  simp

/-- The bytes of two texts, one after the other. -/
theorem utf8_append (s t : String) : utf8 (s ++ t) = utf8 s ++ utf8 t := by
  obtain ⟨cs, rfl⟩ := s.exists_eq_ofList
  obtain ⟨ds, rfl⟩ := t.exists_eq_ofList
  rw [← String.ofList_append, utf8_ofList, utf8_ofList, utf8_ofList, List.flatMap_append]

/-- **An ASCII byte** stands in the bytes of the ASCII character alone. -/
theorem ascii_mem_encode {c d : Char} (hd : d.toNat < 0x80) :
    UInt8.ofNat d.toNat ∈ String.utf8EncodeChar c ↔ c = d := by
  have hhigh : ∀ m : ℕ, 128 ≤ m → m < 256 → UInt8.ofNat d.toNat ≠ UInt8.ofNat m := by
    intro m hlow hhigh heq
    have hmod := congrArg UInt8.toNat heq
    rw [UInt8.toNat_ofNat', UInt8.toNat_ofNat'] at hmod
    omega
  have hval : c.val.toNat = c.toNat := rfl
  unfold String.utf8EncodeChar
  by_cases hascii : c.val.toNat ≤ 127
  · rw [if_pos hascii, List.mem_singleton, ← Char.toNat_inj]
    constructor
    · intro heq
      have hmod := congrArg UInt8.toNat heq
      rw [UInt8.toNat_ofNat', UInt8.toNat_ofNat'] at hmod
      omega
    · intro heq
      rw [hval, heq]
  · have hne : c ≠ d := fun heq => by
      subst heq
      omega
    refine iff_of_false (fun hmem => ?_) hne
    simp only [if_neg hascii] at hmem
    split at hmem
    · simp only [List.mem_cons, List.not_mem_nil, or_false] at hmem
      rcases hmem with h | h <;> exact hhigh _ (by omega) (by omega) h
    · split at hmem
      · simp only [List.mem_cons, List.not_mem_nil, or_false] at hmem
        rcases hmem with h | h | h <;> exact hhigh _ (by omega) (by omega) h
      · simp only [List.mem_cons, List.not_mem_nil, or_false] at hmem
        rcases hmem with h | h | h | h <;> exact hhigh _ (by omega) (by omega) h

/-- An ASCII byte stands in the bytes of a text where its character stands in the text. -/
theorem ascii_mem_utf8 {s : String} {d : Char} (hd : d.toNat < 0x80) :
    UInt8.ofNat d.toNat ∈ utf8 s ↔ d ∈ s.toList := by
  obtain ⟨cs, rfl⟩ := s.exists_eq_ofList
  rw [utf8_ofList, String.toList_ofList, List.mem_flatMap]
  simp only [ascii_mem_encode hd, exists_eq_right]

/-- The first bytes are those of this character. -/
def decodeRune (b : List UInt8) : Option Char := (⟨b.toArray⟩ : ByteArray).utf8DecodeChar? 0

/-- The characters of a string; the first argument bounds their number. -/
def runesFuel : ℕ → List UInt8 → List Char
  | _, [] => []
  | 0, _ :: _ => []
  | fuel + 1, b :: rest =>
      match decodeRune (b :: rest) with
      | some c => c :: runesFuel fuel ((b :: rest).drop c.utf8Size)
      | none => '�' :: runesFuel fuel rest

/-- The characters of a string, with U+FFFD for every byte that is not part of one. -/
def runes (b : List UInt8) : List Char := runesFuel b.length b

/-- The bytes of a character are read as the character. -/
theorem decodeRune_encode (c : Char) (rest : List UInt8) :
    decodeRune (String.utf8EncodeChar c ++ rest) = some c := by
  have hbytes : (⟨(String.utf8EncodeChar c ++ rest).toArray⟩ : ByteArray) =
      (String.utf8EncodeChar c).toByteArray ++ ⟨rest.toArray⟩ := by
    ext1
    simp
  rw [decodeRune, hbytes, ByteArray.utf8DecodeChar?_utf8EncodeChar_append]

theorem runesFuel_encode {fuel : ℕ} {cs : List Char}
    (h : (cs.flatMap String.utf8EncodeChar).length ≤ fuel) :
    runesFuel fuel (cs.flatMap String.utf8EncodeChar) = cs := by
  induction cs generalizing fuel with
  | nil => cases fuel <;> rfl
  | cons c cs ih =>
      rw [List.flatMap_cons, List.length_append, String.length_utf8EncodeChar] at h
      have hpos := c.utf8Size_pos
      obtain ⟨fuel, rfl⟩ : ∃ k, fuel = k + 1 := ⟨fuel - 1, by omega⟩
      have hrune := decodeRune_encode c (cs.flatMap String.utf8EncodeChar)
      have hdrop : (String.utf8EncodeChar c ++ cs.flatMap String.utf8EncodeChar).drop c.utf8Size =
          cs.flatMap String.utf8EncodeChar := List.drop_left' (String.length_utf8EncodeChar c)
      rcases hb : String.utf8EncodeChar c ++ cs.flatMap String.utf8EncodeChar with _ | ⟨b, rest⟩
      · have hlen := congrArg List.length hb
        rw [List.length_append, String.length_utf8EncodeChar, List.length_nil] at hlen
        omega
      rw [hb] at hrune hdrop
      rw [List.flatMap_cons, hb, runesFuel, hrune]
      simp only [hdrop]
      rw [ih (by omega)]

/-- **The characters of the bytes of a text.** -/
@[simp] theorem runes_utf8 (s : String) : runes (utf8 s) = s.toList := by
  obtain ⟨cs, rfl⟩ := s.exists_eq_ofList
  rw [runes, utf8_ofList, runesFuel_encode (Nat.le_refl _), String.toList_ofList]

end Golang
