import DistSql.Marshal
import DistSql.Scanner
import Mathlib.Tactic.Ring

/-!
# What Is Printed Is Read

The two halves of Go's `encoding/json` against each other: the text that a document is printed
as is in the grammar of the scanner, and denotes the document again. A number may come back in
another form of the same value, because a whole number is printed with all its zeros
(`Number.readBack`); no `float64` is read differently for that.

## Main results

* `isString_quote`, `isNumber_text`: the literals.
* `Json.denotes_text`: **the text of a document denotes it**.
* `parseJson_text`: it is read from the bytes of its text.
* `compactHTML_text`: escaping a text for HTML afterwards is the same as doing so at once.
-/

namespace Golang

/-! ### Numbers -/

/-- The number has a text: a zero has no zeros behind it. -/
def Number.Printable (n : Number) : Prop := n.mantissa = 0 → n.exponent ≤ 0

/-- What is read from the text of a number: its zeros are digits, unless it is printed with an
exponent. -/
def Number.readBack (n : Number) : Number :=
  if 0 < n.exponent ∧ (Nat.toDigits 10 n.mantissa).length + n.exponent ≤ 21 then
    ⟨n.negative, n.mantissa * 10 ^ n.exponent.toNat, 0⟩
  else n

/-- The digits of a number. -/
theorem digits_toDigits (m : ℕ) : Digits (Nat.toDigits 10 m) := fun _ hc =>
  Nat.isDigit_of_mem_toDigits (by decide) (Nat.le_refl 10) hc

@[simp] theorem digitsValue_toDigits (m : ℕ) : digitsValue (Nat.toDigits 10 m) = m :=
  Nat.ofDigitChars_ten_toDigits

/-- The first digit of a number is not a zero. -/
theorem toDigits_head {m : ℕ} (hm : m ≠ 0) :
    ∃ c cs, Nat.toDigits 10 m = c :: cs ∧ c ≠ '0' := by
  induction m using Nat.strong_induction_on with
  | _ m ih =>
      by_cases hlt : m < 10
      · exact ⟨m.digitChar, [], Nat.toDigits_of_lt_base hlt, by simpa using hm⟩
      · obtain ⟨c, cs, hcs, hc⟩ := ih (m / 10) (by omega) (by omega)
        refine ⟨c, cs ++ [(m % 10).digitChar], ?_, hc⟩
        rw [Nat.toDigits_of_base_le (by decide) (by omega), hcs]
        rfl

/-- Digits behind a first one that is not a zero are a whole part. -/
theorem IntText.of_head {c : Char} {cs : List Char} (hc : c ≠ '0') (h : Digits (c :: cs)) :
    IntText (c :: cs) :=
  .digits hc (h c List.mem_cons_self) fun d hd => h d (List.mem_cons_of_mem c hd)

/-- The exponent of a number. -/
theorem expText_toDigits (x : ℤ) :
    ExpText ('e' :: (if x < 0 then '-' else '+') :: Nat.toDigits 10 x.natAbs) x := by
  have hne : Nat.toDigits 10 x.natAbs ≠ [] := Nat.toDigits_ne_nil
  have hdigits := digits_toDigits x.natAbs
  split
  · have h := ExpText.minus (.inl rfl) hne hdigits
    rw [digitsValue_toDigits] at h
    rwa [show -(x.natAbs : ℤ) = x by omega] at h
  · have h := ExpText.plus (.inl rfl) hne hdigits
    rw [digitsValue_toDigits] at h
    rwa [show (x.natAbs : ℤ) = x by omega] at h

/-- A number with an exponent. -/
theorem exponentText_parts {m : ℕ} (hm : m ≠ 0) (point : ℤ) :
    ∃ i f fs e, IntText i ∧ FracText f fs ∧ ExpText e (point - 1) ∧
      exponentText (Nat.toDigits 10 m) point = i ++ (f ++ e) ∧ digitsValue (i ++ fs) = m ∧
      (fs.length : ℤ) = (Nat.toDigits 10 m).length - 1 := by
  have hvalue := digitsValue_toDigits m
  have hdigits := digits_toDigits m
  obtain ⟨c, cs, hcs, hc⟩ := toDigits_head hm
  rw [hcs] at hvalue hdigits ⊢
  have hint : IntText [c] :=
    .of_head hc fun d hd => hdigits d (List.mem_cons.mpr (.inl (List.mem_singleton.mp hd)))
  have hrest : Digits cs := fun d hd => hdigits d (List.mem_cons_of_mem c hd)
  cases cs with
  | nil =>
      refine ⟨[c], [], [], _, hint, .absent, expText_toDigits (point - 1), ?_, hvalue, by simp⟩
      simp [exponentText]
  | cons d ds =>
      refine ⟨[c], '.' :: d :: ds, d :: ds, _, hint, .present (by simp) hrest,
        expText_toDigits (point - 1), ?_, hvalue, by simp⟩
      simp [exponentText]

/-- A number without an exponent: all digits are behind the point, the point is among the digits,
or the zeros behind them are printed. -/
theorem fixedText_parts {m : ℕ} {x : ℤ} (h : m = 0 → x ≤ 0) :
    ∃ i f fs, IntText i ∧ FracText f fs ∧
      fixedText (Nat.toDigits 10 m) ((Nat.toDigits 10 m).length + x) = i ++ f ∧
      digitsValue (i ++ fs) = m * 10 ^ x.toNat ∧ (fs.length : ℤ) = (-x).toNat := by
  have hdigits := digits_toDigits m
  have hvalue := digitsValue_toDigits m
  have hpos : 0 < (Nat.toDigits 10 m).length := Nat.length_toDigits_pos
  have hhead := @toDigits_head m
  have hzero : m = 0 → Nat.toDigits 10 m = ['0'] := by
    rintro rfl
    rfl
  generalize Nat.toDigits 10 m = ds at *
  have hzeros : ∀ k, Digits (List.replicate k '0') := fun k c hc => by
    rw [List.eq_of_mem_replicate hc]
    decide
  rw [fixedText]
  by_cases hpoint : (ds.length + x : ℤ) ≤ 0
  · refine ⟨['0'], '.' :: (List.replicate (-(ds.length + x : ℤ)).toNat '0' ++ ds),
      List.replicate (-(ds.length + x : ℤ)).toNat '0' ++ ds, .zero, .present ?_ ?_, ?_, ?_, ?_⟩
    · simp [List.ne_nil_of_length_pos hpos]
    · exact fun c hc => (List.mem_append.mp hc).elim (hzeros _ c) (hdigits c)
    · rw [if_pos hpoint]
      rfl
    · have hx : x.toNat = 0 := by omega
      rw [digitsValue, Nat.ofDigitChars_append, Nat.ofDigitChars_append,
        Nat.ofDigitChars_replicate_zero, hx, Nat.pow_zero, Nat.mul_one]
      exact hvalue
    · rw [List.length_append, List.length_replicate]
      omega
  rw [if_neg hpoint]
  by_cases hamong : (ds.length + x : ℤ).toNat < ds.length
  · rw [if_pos hamong]
    obtain ⟨c, cs, rfl, hc⟩ := hhead fun hm => by
      rw [hzero hm, List.length_singleton] at hamong hpoint
      omega
    obtain ⟨k, hk⟩ : ∃ k, ((c :: cs).length + x : ℤ).toNat = k + 1 :=
      ⟨((c :: cs).length + x : ℤ).toNat - 1, by omega⟩
    rw [hk] at hamong ⊢
    have hint : IntText ((c :: cs).take (k + 1)) :=
      .of_head hc fun d hd =>
        hdigits d (List.mem_of_mem_take (show d ∈ (c :: cs).take (k + 1) from hd))
    have hfrac : FracText ('.' :: (c :: cs).drop (k + 1)) ((c :: cs).drop (k + 1)) :=
      .present (by rw [ne_eq, List.drop_eq_nil_iff]; omega) fun d hd =>
        hdigits d (List.mem_of_mem_drop hd)
    refine ⟨_, _, _, hint, hfrac, rfl, ?_, ?_⟩
    · have hx : x.toNat = 0 := by omega
      rw [List.take_append_drop, hvalue, hx, Nat.pow_zero, Nat.mul_one]
    · rw [List.length_drop]
      omega
  · rw [if_neg hamong]
    have hlen : (ds.length + x : ℤ).toNat - ds.length = x.toNat := by omega
    rw [hlen]
    have hall : Digits (ds ++ List.replicate x.toNat '0') := fun c hc =>
      (List.mem_append.mp hc).elim (hdigits c) (hzeros _ c)
    refine ⟨ds ++ List.replicate x.toNat '0', [], [], ?_, .absent, by rw [List.append_nil], ?_, ?_⟩
    · by_cases hm : m = 0
      · have hx : x.toNat = 0 := by
          have := h hm
          omega
        rw [hx, hzero hm]
        exact .zero
      · obtain ⟨c, cs, rfl, hc⟩ := hhead hm
        exact .of_head hc hall
    · have hm : Nat.ofDigitChars 10 ds 0 = m := hvalue
      rw [List.append_nil, digitsValue, Nat.ofDigitChars_append, Nat.ofDigitChars_replicate_zero,
        hm, Nat.mul_comm]
    · simp only [List.length_nil]
      omega

/-- **The text of a number is a literal** for the number that is read back. -/
theorem isNumber_text {n : Number} (h : n.Printable) : IsNumber n.text n.readBack := by
  obtain ⟨negative, m, x⟩ := n
  rw [Number.text, Number.readBack]
  have hpos : 0 < (Nat.toDigits 10 m).length := Nat.length_toDigits_pos
  by_cases hexp : m ≠ 0 ∧
      ((Nat.toDigits 10 m).length + x < -5 ∨ 21 < (Nat.toDigits 10 m).length + x)
  · obtain ⟨i, f, fs, e, hi, hf, he, htext, hval, hlen⟩ :=
      exponentText_parts hexp.1 ((Nat.toDigits 10 m).length + x)
    refine ⟨negative, i, f, fs, e, _, hi, hf, he, ?_, ?_⟩
    · simp only [if_pos hexp, htext]
    · rw [hval]
      simp only
      rw [if_neg (by omega)]
      simp only [Number.mk.injEq, true_and]
      omega
  · obtain ⟨i, f, fs, hi, hf, htext, hval, hlen⟩ := @fixedText_parts m x h
    refine ⟨negative, i, f, fs, [], 0, hi, hf, .absent, ?_, ?_⟩
    · simp only [if_neg hexp, htext, List.append_nil]
    · rw [hval]
      simp only
      split
      · simp only [Number.mk.injEq, true_and]
        omega
      · rename_i hsmall
        have hx : x ≤ 0 := by
          by_contra hx
          exact hexp ⟨fun hm => hx (h hm), by omega⟩
        rw [Int.toNat_of_nonpos hx, Nat.pow_zero, Nat.mul_one]
        simp only [Number.mk.injEq, true_and]
        omega

/-- **No `float64` is read differently** from a number that was printed. -/
theorem parseFloat_readBack (n : Number) :
    Binary64.parseFloat n.readBack = Binary64.parseFloat n := by
  rw [Number.readBack]
  split
  · rename_i h
    have hneg : (-n.exponent).toNat = 0 := by omega
    simp only [Binary64.parseFloat, Int.toNat_zero, Int.neg_zero, Nat.pow_zero, Nat.mul_one, hneg]
  · rfl

/-! ### Strings -/

/-- The piece that a character is printed as. -/
def unitOf (html : Bool) (c : Char) : StrUnit :=
  if c = '"' ∨ c = '\\' ∨ c = '\n' ∨ c = '\r' ∨ c = '\t' then .rune c
  else if c.toNat < 0x20 ∨ isSeparator c ∨ html ∧ isHTML c then .escape c.toNat
  else .rune c

/-- A hexadecimal digit is read. -/
theorem hexVal_digitChar {k : ℕ} (hk : k < 16) : hexVal k.digitChar = some k := by
  have hall : ∀ i : Fin 16, hexVal (i : ℕ).digitChar = some (i : ℕ) := by decide
  exact hall ⟨k, hk⟩

/-- The number of a character is read from its escape. -/
theorem spells_unicodeEscape {c : Char} (hc : c.toNat < 0x10000) :
    Spells (unicodeEscape c) (.escape c.toNat) := by
  refine .number ?_
  simp only [hex4, hexVal_digitChar (Nat.mod_lt _ (by decide : 0 < 16)), Option.bind_some,
    Option.map_some, Option.some.injEq]
  omega

/-- The characters that are escaped with their number are not surrogates. -/
theorem escaped_lt {html : Bool} {c : Char}
    (h : c.toNat < 0x20 ∨ isSeparator c = true ∨ html = true ∧ isHTML c = true) :
    c.toNat < 0xD800 := by
  rcases h with h | h | ⟨-, h⟩
  · omega
  · simp only [isSeparator, Bool.or_eq_true, decide_eq_true_eq] at h
    omega
  · simp only [isHTML, Bool.or_eq_true, decide_eq_true_eq] at h
    rcases h with (rfl | rfl) | rfl <;> decide

/-- A character is printed as its piece. -/
theorem spells_quoteChar (html : Bool) (c : Char) : Spells (quoteChar html c) (unitOf html c) := by
  rw [quoteChar, unitOf]
  by_cases hquote : c = '"' ∨ c = '\\'
  · rw [if_pos hquote, if_pos (by tauto)]
    refine .simple ?_
    rcases hquote with rfl | rfl <;> rfl
  rw [if_neg hquote]
  by_cases hn : c = '\n'
  · rw [if_pos hn, if_pos (by tauto), hn]
    exact .simple rfl
  by_cases hr : c = '\r'
  · rw [if_neg hn, if_pos hr, if_pos (by tauto), hr]
    exact .simple rfl
  by_cases ht : c = '\t'
  · rw [if_neg hn, if_neg hr, if_pos ht, if_pos (by tauto), ht]
    exact .simple rfl
  have hnone : ¬(c = '"' ∨ c = '\\' ∨ c = '\n' ∨ c = '\r' ∨ c = '\t') := by tauto
  rw [if_neg hn, if_neg hr, if_neg ht, if_neg hnone]
  split
  · rename_i hescape
    exact spells_unicodeEscape (by have := escaped_lt hescape; omega)
  · rename_i hplain
    obtain ⟨hctl, -⟩ := not_or.mp hplain
    exact .plain (Nat.not_lt.mp hctl) (fun h => hquote (.inl h)) fun h => hquote (.inr h)

/-- The pieces of a text are put together to the text. -/
theorem joinUnits_unitOf (html : Bool) (s : String) :
    joinUnits (s.toList.map (unitOf html)) = s := by
  have hchars : ∀ cs : List Char, joinUnitsFrom false (cs.map (unitOf html)) = cs := by
    intro cs
    induction cs with
    | nil => rfl
    | cons c cs ih =>
        rw [List.map_cons, unitOf]
        split
        · rw [joinUnitsFrom, ih]
        · split
          · rename_i hescape
            rw [joinUnitsFrom, if_pos (.inl (escaped_lt hescape)), ih, Char.ofNat_toNat]
          · rw [joinUnitsFrom, ih]
  rw [joinUnits, hchars, String.ofList_toList]

/-- **The text of a string is a literal** for it. -/
theorem isString_quote (html : Bool) (s : String) : IsString (quote html s) s := by
  have hbody : ∀ cs : List Char,
      StrBody (cs.flatMap (quoteChar html)) (cs.map (unitOf html)) := by
    intro cs
    induction cs with
    | nil => exact .nil
    | cons c cs ih => exact .cons (spells_quoteChar html c) ih
  exact ⟨_, _, rfl, hbody s.toList, (joinUnits_unitOf html s).symm⟩

/-! ### Documents -/

mutual

/-- The nesting of a document. -/
def Json.depth : Json → ℕ
  | .null | .bool _ | .num _ | .str _ => 0
  | .arr elems => depths elems + 1
  | .obj members => memberDepths members + 1

/-- The nesting of the elements of an array. -/
def Json.depths : List Json → ℕ
  | [] => 0
  | j :: rest => max (depth j) (depths rest)

/-- The nesting of the members of an object. -/
def Json.memberDepths : List (String × Json) → ℕ
  | [] => 0
  | (_, j) :: rest => max (depth j) (memberDepths rest)

end

mutual

/-- The numbers of a document. -/
def Json.numbers : Json → List Number
  | .null | .bool _ | .str _ => []
  | .num n => [n]
  | .arr elems => allNumbers elems
  | .obj members => memberNumbers members

/-- The numbers of the elements of an array. -/
def Json.allNumbers : List Json → List Number
  | [] => []
  | j :: rest => numbers j ++ allNumbers rest

/-- The numbers of the members of an object. -/
def Json.memberNumbers : List (String × Json) → List Number
  | [] => []
  | (_, j) :: rest => numbers j ++ memberNumbers rest

end

mutual

/-- What is read from the text of a document. -/
def Json.readBack : Json → Json
  | .null => .null
  | .bool b => .bool b
  | .num n => .num n.readBack
  | .str s => .str s
  | .arr elems => .arr (readBacks elems)
  | .obj members => .obj (memberReadBacks members)

/-- What is read from the texts of the elements of an array. -/
def Json.readBacks : List Json → List Json
  | [] => []
  | j :: rest => readBack j :: readBacks rest

/-- What is read from the texts of the members of an object. -/
def Json.memberReadBacks : List (String × Json) → List (String × Json)
  | [] => []
  | (key, j) :: rest => (key, readBack j) :: memberReadBacks rest

end

/-- A document **can be printed**: its numbers can, and its nesting is bounded. -/
structure Json.Printable (d : ℕ) (j : Json) : Prop where
  depth : j.depth ≤ d
  numbers : ∀ n ∈ j.numbers, n.Printable

/-- A document that can be printed has room for more nesting. -/
theorem Json.Printable.mono {d e : ℕ} {j : Json} (h : j.Printable d) (hde : d ≤ e) :
    j.Printable e := ⟨h.depth.trans hde, h.numbers⟩

/-- An array can be printed if its elements can. -/
theorem Json.Printable.arr {d : ℕ} {js : List Json} (h : ∀ j ∈ js, j.Printable d) :
    (Json.arr js).Printable (d + 1) := by
  induction js with
  | nil => exact ⟨Nat.le_add_left 1 d, fun n hn => absurd hn List.not_mem_nil⟩
  | cons j js ih =>
      obtain ⟨hdepth, hnumbers⟩ := h j List.mem_cons_self
      have hrest := ih fun k hk => h k (List.mem_cons_of_mem j hk)
      refine ⟨Nat.succ_le_succ (Nat.max_le.mpr ⟨hdepth, Nat.le_of_succ_le_succ hrest.depth⟩), ?_⟩
      intro n hn
      rcases List.mem_append.mp hn with hn | hn
      · exact hnumbers n hn
      · exact hrest.numbers n hn

/-- An object can be printed if the values of its members can. -/
theorem Json.Printable.obj {d : ℕ} {ms : List (String × Json)} (h : ∀ m ∈ ms, m.2.Printable d) :
    (Json.obj ms).Printable (d + 1) := by
  induction ms with
  | nil => exact ⟨Nat.le_add_left 1 d, fun n hn => absurd hn List.not_mem_nil⟩
  | cons m ms ih =>
      obtain ⟨hdepth, hnumbers⟩ := h m List.mem_cons_self
      have hrest := ih fun k hk => h k (List.mem_cons_of_mem m hk)
      refine ⟨Nat.succ_le_succ (Nat.max_le.mpr ⟨hdepth, Nat.le_of_succ_le_succ hrest.depth⟩), ?_⟩
      intro n hn
      rcases List.mem_append.mp hn with hn | hn
      · exact hnumbers n hn
      · exact hrest.numbers n hn

/-- No blank is one. -/
theorem blank_nil : Blank [] := fun _ hc => by cases hc

mutual

/-- **The text of a document denotes it**, as it is read back. -/
theorem Json.denotes_text (html : Bool) : ∀ (j : Json) {d : ℕ}, j.depth ≤ d →
    (∀ n ∈ j.numbers, n.Printable) → Denotes d (j.text html) (.value j.readBack)
  | .null, _, _, _ => .null
  | .bool true, _, _, _ => .yes
  | .bool false, _, _, _ => .no
  | .num n, _, _, hn => .num (isNumber_text (hn n List.mem_cons_self))
  | .str s, _, _, _ => .str (isString_quote html s)
  | .arr [], d, hd, _ => by
      obtain ⟨d, rfl⟩ : ∃ k, d = k + 1 := ⟨d - 1, by simp [depth] at hd; omega⟩
      exact .emptyArr blank_nil
  | .arr (j :: rest), d, hd, hn => by
      rw [depth] at hd
      obtain ⟨d, rfl⟩ : ∃ k, d = k + 1 := ⟨d - 1, by omega⟩
      exact .arr blank_nil (denotes_texts html j rest (Nat.le_of_succ_le_succ hd) hn)
  | .obj [], d, hd, _ => by
      obtain ⟨d, rfl⟩ : ∃ k, d = k + 1 := ⟨d - 1, by simp [depth] at hd; omega⟩
      exact .emptyObj blank_nil
  | .obj (m :: rest), d, hd, hn => by
      rw [depth] at hd
      obtain ⟨d, rfl⟩ : ∃ k, d = k + 1 := ⟨d - 1, by omega⟩
      exact .obj blank_nil (denotes_memberTexts html m rest (Nat.le_of_succ_le_succ hd) hn)

/-- The texts of the elements of an array. -/
theorem Json.denotes_texts (html : Bool) : ∀ (j : Json) (js : List Json) {d : ℕ},
    depths (j :: js) ≤ d → (∀ n ∈ allNumbers (j :: js), n.Printable) →
      Denotes d (texts html (j :: js)) (.elems (readBacks (j :: js)))
  | j, [], d, hd, hn => by
      rw [depths, Nat.max_le] at hd
      have h := denotes_text html j hd.1 fun n hmem => hn n (List.mem_append_left _ hmem)
      rw [texts, ← List.append_nil (text html j)]
      exact .elem h blank_nil
  | j, k :: rest, d, hd, hn => by
      rw [depths, Nat.max_le] at hd
      have h := denotes_text html j hd.1 fun n hmem => hn n (List.mem_append_left _ hmem)
      have hrest := denotes_texts html k rest hd.2 fun n hmem => hn n (List.mem_append_right _ hmem)
      rw [texts]
      exact .elems h blank_nil blank_nil hrest

/-- The texts of the members of an object. -/
theorem Json.denotes_memberTexts (html : Bool) : ∀ (m : String × Json) (ms : List (String × Json))
    {d : ℕ}, memberDepths (m :: ms) ≤ d → (∀ n ∈ memberNumbers (m :: ms), n.Printable) →
      Denotes d (memberTexts html (m :: ms)) (.members (memberReadBacks (m :: ms)))
  | (key, j), [], d, hd, hn => by
      rw [memberDepths, Nat.max_le] at hd
      have h := denotes_text html j hd.1 fun n hmem => hn n (List.mem_append_left _ hmem)
      have hmember : Denotes d (quote html key ++ ([] ++ ':' :: ([] ++ text html j)))
          (.member (key, readBack j)) := .member (isString_quote html key) blank_nil blank_nil h
      rw [memberTexts, ← List.append_nil (quote html key ++ _)]
      exact .lastMember hmember blank_nil
  | (key, j), m :: rest, d, hd, hn => by
      rw [memberDepths, Nat.max_le] at hd
      have h := denotes_text html j hd.1 fun n hmem => hn n (List.mem_append_left _ hmem)
      have hmember : Denotes d (quote html key ++ ([] ++ ':' :: ([] ++ text html j)))
          (.member (key, readBack j)) := .member (isString_quote html key) blank_nil blank_nil h
      have hrest := denotes_memberTexts html m rest hd.2 fun n hmem =>
        hn n (List.mem_append_right _ hmem)
      have hall := Denotes.members hmember blank_nil blank_nil hrest
      simp only [List.nil_append, List.append_assoc, List.cons_append] at hall
      rw [memberTexts, memberReadBacks]
      simpa only [List.append_assoc, List.cons_append] using hall

end

/-- **A document is read from the bytes of its text.** -/
theorem parseJson_text (html : Bool) {j : Json} (h : j.Printable maxNestingDepth) :
    parseJson (utf8 (.ofList (j.text html))) = some j.readBack := by
  refine parseJson_iff.mpr ⟨[], j.text html, [], ?_, blank_nil, blank_nil,
    j.denotes_text html h.depth h.numbers⟩
  rw [runes_utf8, String.toList_ofList, List.append_nil, List.nil_append]

/-- The elements of an array that were read back. -/
theorem Json.readBacks_eq_map (js : List Json) : readBacks js = js.map readBack := by
  induction js with
  | nil => rfl
  | cons j rest ih => rw [readBacks, ih, List.map_cons]

/-! ### Escaping for HTML -/

/-- Nothing of a character is left to be escaped. -/
def Inert (c : Char) : Prop := (isSeparator c || isHTML c) = false

/-- A character is inert or not. -/
instance (c : Char) : Decidable (Inert c) := inferInstanceAs (Decidable (_ = false))

/-- Escaping piece by piece. -/
theorem compactHTML_append (s t : List Char) :
    compactHTML (s ++ t) = compactHTML s ++ compactHTML t := List.flatMap_append

/-- A character with nothing to escape stays as it is. -/
theorem compactHTML_cons {c : Char} (hc : Inert c) (s : List Char) :
    compactHTML (c :: s) = c :: compactHTML s := by
  rw [compactHTML, List.flatMap_cons, hc]
  rfl

/-- A text with nothing to escape stays as it is. -/
theorem compactHTML_of_inert {s : List Char} (h : ∀ c ∈ s, Inert c) : compactHTML s = s := by
  induction s with
  | nil => rfl
  | cons c s ih =>
      rw [compactHTML_cons (h c List.mem_cons_self), ih fun d hd => h d (List.mem_cons_of_mem c hd)]

/-- An escape has nothing to escape. -/
theorem compactHTML_unicodeEscape (c : Char) : compactHTML (unicodeEscape c) = unicodeEscape c := by
  have hdigit : ∀ k, Inert (k % 16).digitChar := by
    intro k
    have hall : ∀ i : Fin 16, Inert (i : ℕ).digitChar := by decide
    exact hall ⟨k % 16, Nat.mod_lt _ (by decide)⟩
  refine compactHTML_of_inert ?_
  simp only [unicodeEscape, List.mem_cons, List.not_mem_nil, or_false, forall_eq_or_imp, forall_eq]
  exact ⟨by decide, by decide, hdigit _, hdigit _, hdigit _, hdigit _⟩

/-- A number has nothing to escape. -/
theorem compactHTML_number (n : Number) : compactHTML n.text = n.text := by
  refine compactHTML_of_inert fun c hc => ?_
  by_contra hinert
  simp only [Inert, isSeparator, isHTML, Bool.not_eq_false, Bool.or_eq_true,
    decide_eq_true_eq] at hinert
  have hchar : c = '\u2028' ∨ c = '\u2029' ∨ c = '<' ∨ c = '>' ∨ c = '&' := by
    rcases hinert with (h | h) | (h | h) | h
    · exact .inl (Char.toNat_inj.mp h)
    · exact .inr (.inl (Char.toNat_inj.mp h))
    all_goals tauto
  refine not_mem_numberText ?_ ?_ n hc
  · rcases hchar with rfl | rfl | rfl | rfl | rfl <;> decide
  · rcases hchar with rfl | rfl | rfl | rfl | rfl <;> decide

/-- A character that was printed without escapes for HTML. -/
theorem compactHTML_quoteChar (c : Char) : compactHTML (quoteChar false c) = quoteChar true c := by
  rw [quoteChar, quoteChar]
  split
  · rename_i h
    rcases h with rfl | rfl <;> rfl
  split
  · rfl
  split
  · rfl
  split
  · rfl
  by_cases hesc : c.toNat < 0x20 ∨ isSeparator c = true
  · rw [if_pos (by tauto), if_pos (by tauto), compactHTML_unicodeEscape]
  · obtain ⟨hctl, hsep⟩ := not_or.mp hesc
    rw [if_neg (by simp [hctl, hsep])]
    simp only [compactHTML, List.flatMap_cons, List.flatMap_nil, List.append_nil, hctl, hsep,
      Bool.false_or, false_or, true_and, Bool.false_eq_true]

/-- A string that was printed without escapes for HTML. -/
theorem compactHTML_quote (s : String) : compactHTML (quote false s) = quote true s := by
  have hchars : ∀ cs : List Char,
      compactHTML (cs.flatMap (quoteChar false)) = cs.flatMap (quoteChar true) := by
    intro cs
    induction cs with
    | nil => rfl
    | cons c cs ih =>
        rw [List.flatMap_cons, List.flatMap_cons, compactHTML_append, compactHTML_quoteChar, ih]
  rw [quote, quote, List.cons_append, compactHTML_cons (by decide), compactHTML_append, hchars]
  rfl

mutual

/-- **Escaping a text for HTML afterwards** is the same as printing it so. -/
theorem Json.compactHTML_text : ∀ j : Json, compactHTML (j.text false) = j.text true
  | .null => rfl
  | .bool true => rfl
  | .bool false => rfl
  | .num n => compactHTML_number n
  | .str s => compactHTML_quote s
  | .arr elems => by
      rw [text, text, List.cons_append, compactHTML_cons (by decide), compactHTML_append,
        compactHTML_texts elems]
      rfl
  | .obj members => by
      rw [text, text, List.cons_append, compactHTML_cons (by decide), compactHTML_append,
        compactHTML_memberTexts members]
      rfl

/-- The texts of the elements of an array. -/
theorem Json.compactHTML_texts : ∀ js : List Json, compactHTML (texts false js) = texts true js
  | [] => rfl
  | [j] => compactHTML_text j
  | j :: k :: rest => by
      rw [texts, texts, compactHTML_append, compactHTML_text j, compactHTML_cons (by decide),
        compactHTML_texts (k :: rest)]

/-- The texts of the members of an object. -/
theorem Json.compactHTML_memberTexts : ∀ ms : List (String × Json),
    compactHTML (memberTexts false ms) = memberTexts true ms
  | [] => rfl
  | [(key, j)] => by
      rw [memberTexts, memberTexts, compactHTML_append, compactHTML_quote,
        compactHTML_cons (by decide), compactHTML_text j]
  | (key, j) :: m :: rest => by
      rw [memberTexts, memberTexts, compactHTML_append, compactHTML_append, compactHTML_quote,
        compactHTML_cons (by decide), compactHTML_text j, compactHTML_cons (by decide),
        compactHTML_memberTexts (m :: rest)]

end

/-! ### How a `float64` is printed -/

/-- What `strconv` is for: **the number that it writes for a finite `float64`** can be printed,
and is read as the `float64` again. -/
structure Formats (float : UInt64 → Number) : Prop where
  printable : ∀ d, Binary64.Finite d → (float d).Printable
  readBack : ∀ d, Binary64.Finite d → Binary64.parseFloat (float d) = some d

namespace Binary64

/-- The exact decimal number of a finite `float64`. -/
def exact (d : UInt64) : Number :=
  ⟨2 ^ 63 ≤ d.toNat, magnitude (d.toNat % 2 ^ 63) * 5 ^ digits, -digits⟩

/-- A quotient without a remainder is a number of units. -/
theorem nearestBits_mul {q : ℕ} (hq : 0 < q) (m : ℕ) :
    nearestBits (m * q) q = nearestBits m 1 := by
  have hspacing : spacing (m * q) q = spacing m 1 := by
    rw [spacing, spacing, Nat.mul_div_cancel _ hq, Nat.div_one]
  have hround : ∀ s, roundHalfEven (m * q) (q * s) = roundHalfEven m (1 * s) := by
    intro s
    rw [roundHalfEven, roundHalfEven, Nat.mul_comm m q, Nat.mul_mod_mul_left,
      Nat.mul_div_mul_left _ _ hq, Nat.one_mul]
    have hlt : 2 * (q * (m % s)) < q * s ↔ 2 * (m % s) < s := by
      rw [Nat.mul_left_comm, Nat.mul_lt_mul_left hq]
    have heq : 2 * (q * (m % s)) = q * s ↔ 2 * (m % s) = s := by
      rw [Nat.mul_left_comm, Nat.mul_right_inj hq.ne']
    simp only [hlt, heq]
  rw [nearestBits, nearestBits, hspacing, hround]

/-- **The bits nearest to a magnitude** are those it belongs to. -/
theorem nearestBits_magnitude (b : ℕ) : nearestBits (magnitude b) 1 = b := by
  have hround : ∀ m k, roundHalfEven (m * 2 ^ k) (2 ^ k) = m := by
    intro m k
    have h := roundHalfEven_of_dvd (Nat.two_pow_pos k) (Nat.dvd_mul_left (2 ^ k) m)
    exact Nat.eq_of_mul_eq_mul_right (Nat.two_pow_pos k) h
  rw [magnitude, nearestBits, spacing, Nat.div_one, Nat.one_mul]
  split
  · rename_i hlt
    have hlog : Nat.log2 b - 52 = 0 := by
      rcases Nat.eq_zero_or_pos b with rfl | hpos
      · rfl
      · have := (Nat.log2_lt hpos.ne').mpr hlt
        omega
    rw [hlog]
    simpa using hround b 0
  · rename_i hge
    have hlog : ∀ m k, 2 ^ 52 ≤ m → m < 2 ^ 53 → Nat.log2 (m * 2 ^ k) = 52 + k := by
      intro m k hle hlt
      have hpos := Nat.two_pow_pos k
      rw [Nat.log2_eq_iff (Nat.mul_pos (by omega) hpos).ne', Nat.pow_add, Nat.add_right_comm,
        Nat.pow_add]
      exact ⟨Nat.mul_le_mul_right _ hle, Nat.mul_lt_mul_of_pos_right hlt hpos⟩
    rw [hlog _ _ (by omega) (by omega), Nat.add_sub_cancel_left, hround]
    omega

/-- **The exact number is read** as the `float64` again. -/
theorem parseFloat_exact {d : UInt64} (hd : Finite d) : parseFloat (exact d) = some d := by
  have hq : 0 < 10 ^ digits := Nat.pow_pos (by decide)
  have hscale : 5 ^ digits * scale = 10 ^ digits := by rw [scale, ← Nat.mul_pow]
  have hbits : nearestBits (magnitude (d.toNat % 2 ^ 63) * 5 ^ digits * scale) (10 ^ digits) =
      d.toNat % 2 ^ 63 := by
    rw [Nat.mul_assoc, hscale, nearestBits_mul hq, nearestBits_magnitude]
  have hpos : (-(digits : ℤ)).toNat = 0 := by omega
  have hfin : d.toNat % 2 ^ 63 < infinity := hd
  simp only [parseFloat, exact, hpos, Nat.pow_zero, Nat.mul_one, Int.neg_neg, Int.toNat_natCast,
    hbits, if_pos hfin]
  congr 1
  rw [withSign, ← UInt64.toNat_inj, UInt64.toNat_ofNat']
  have hlt := d.toNat_lt
  by_cases hneg : 2 ^ 63 ≤ d.toNat
  · simp only [hneg, decide_true, if_true]
    omega
  · simp only [hneg, decide_false, Bool.false_eq_true, if_false]
    omega

/-- The exact numbers are a way to print. -/
theorem formats_exact : Formats exact where
  printable d _ := fun _ => by
    show -(digits : ℤ) ≤ 0
    omega
  readBack _ := parseFloat_exact

end Binary64

end Golang
