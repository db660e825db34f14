import Mathlib.Data.List.Basic
import Mathlib.Data.List.TakeWhile

/-!
# URLs

The part of Go's `net/url` that a redirect goes through, on byte strings: percent coding,
the path of a URL and its escaped form, the removal of dot segments, and the parsing of an
absolute `http` URL and of a request target.

## Main results

* `unescape_encode`: what is percent-encoded decodes to what it was.
* `unescape_length`: decoding shortens a byte string by two bytes per escape.
* `unescape_escapedPath`: the escaped form of a path decodes to the path.
* `resolvePath_of_noDots`, `resolvePath_shortens`: a path without dot segments is left
  alone, and any other one decodes to something shorter.
-/

namespace Url

/-- A byte string. -/
abbrev Bytes := List UInt8

/-- The percent sign. -/
def percent : UInt8 := 0x25
/-- The slash. -/
def slash : UInt8 := 0x2F
/-- The dot. -/
def dot : UInt8 := 0x2E
/-- The question mark. -/
def question : UInt8 := 0x3F
/-- The number sign. -/
def hash : UInt8 := 0x23
/-- The space. -/
def space : UInt8 := 0x20

/-- A control byte. -/
def isCTL (b : UInt8) : Bool := b < 0x20 || b = 0x7F

/-! ### Percent coding -/

/-- The value of a hexadecimal digit. -/
def unhex (b : UInt8) : Option ℕ :=
  if 0x30 ≤ b ∧ b ≤ 0x39 then some (b.toNat - 0x30)
  else if 0x61 ≤ b ∧ b ≤ 0x66 then some (b.toNat - 0x61 + 10)
  else if 0x41 ≤ b ∧ b ≤ 0x46 then some (b.toNat - 0x41 + 10)
  else none

/-- The hexadecimal digit of a value, in upper or lower case. -/
def hexDigit (upper : Bool) (n : ℕ) : UInt8 :=
  .ofNat (if n < 10 then 0x30 + n else (if upper then 0x41 else 0x61) + (n - 10))

/-- `unescape`: decode the escapes of a byte string; an escape that is not one makes the
whole string invalid. -/
def unescape : Bytes → Option Bytes
  | [] => some []
  | b :: rest =>
      if b = percent then
        match rest with
        | h :: l :: rest' =>
            match unhex h, unhex l with
            | some x, some y => (unescape rest').map (.ofNat (16 * x + y) :: ·)
            | _, _ => none
        | _ => none
      else (unescape rest).map (b :: ·)

/-- Percent-encode the bytes that must be. -/
def encode (upper : Bool) (must : UInt8 → Bool) (s : Bytes) : Bytes :=
  s.flatMap fun b =>
    if must b then [percent, hexDigit upper (b.toNat / 16), hexDigit upper (b.toNat % 16)]
    else [b]

/-- A digit has its value. -/
theorem unhex_hexDigit (upper : Bool) {n : ℕ} (h : n < 16) :
    unhex (hexDigit upper n) = some n := by
  have hall : ∀ (upper : Bool) (n : Fin 16), unhex (hexDigit upper n) = some n.val := by decide
  exact hall upper ⟨n, h⟩

/-- A hexadecimal digit is a plain byte. -/
theorem hexDigit_plain (upper : Bool) {n : ℕ} (h : n < 16) :
    hexDigit upper n ≠ percent ∧ hexDigit upper n ≠ slash ∧ hexDigit upper n ≠ question ∧
      hexDigit upper n ≠ hash ∧ space < hexDigit upper n ∧ hexDigit upper n < 0x7F := by
  have hall : ∀ (upper : Bool) (n : Fin 16),
      hexDigit upper n ≠ percent ∧ hexDigit upper n ≠ slash ∧ hexDigit upper n ≠ question ∧
        hexDigit upper n ≠ hash ∧ space < hexDigit upper n ∧ hexDigit upper n < 0x7F := by
    decide
  exact hall upper ⟨n, h⟩

/-- A byte is given by its two digits. -/
theorem ofNat_digits (b : UInt8) : UInt8.ofNat (16 * (b.toNat / 16) + b.toNat % 16) = b := by
  rw [Nat.div_add_mod]
  exact UInt8.ofNat_toNat

@[simp] theorem unescape_nil : unescape [] = some [] := rfl

/-- A byte that starts no escape stands for itself. -/
theorem unescape_cons_of_ne {b : UInt8} (h : b ≠ percent) (rest : Bytes) :
    unescape (b :: rest) = (unescape rest).map (b :: ·) := by
  rw [unescape.eq_def]
  exact if_neg h

/-- An escape stands for its byte. -/
theorem unescape_escape {h l : UInt8} {x y : ℕ} (hx : unhex h = some x) (hy : unhex l = some y)
    (rest : Bytes) :
    unescape (percent :: h :: l :: rest) = (unescape rest).map (.ofNat (16 * x + y) :: ·) := by
  rw [unescape, if_pos rfl]
  simp only [hx, hy]

/-- The first escape of a string that decodes is one. -/
theorem unescape_percent {rest t : Bytes} (h : unescape (percent :: rest) = some t) :
    ∃ a l rest' x y t', rest = a :: l :: rest' ∧ unhex a = some x ∧ unhex l = some y ∧
      unescape rest' = some t' ∧ t = .ofNat (16 * x + y) :: t' := by
  rw [unescape.eq_def] at h
  simp only [if_true] at h
  split at h
  · rename_i a l rest'
    split at h
    · rename_i x y hx hy
      obtain ⟨t', ht', rfl⟩ := Option.map_eq_some_iff.mp h
      exact ⟨a, l, rest', x, y, t', rfl, hx, hy, ht', rfl⟩
    · exact absurd h (by simp)
  · exact absurd h (by simp)

/-- **What is encoded decodes to what it was**, if percent signs are encoded. -/
theorem unescape_encode {upper : Bool} {must : UInt8 → Bool} {s : Bytes}
    (h : ∀ b ∈ s, b = percent → must b = true) : unescape (encode upper must s) = some s := by
  induction s with
  | nil => rfl
  | cons b rest ih =>
      have ih' := ih fun b' hb' => h b' (List.mem_cons_of_mem b hb')
      have hb := h b List.mem_cons_self
      by_cases hmust : must b = true
      · have hcons : encode upper must (b :: rest) = percent :: hexDigit upper (b.toNat / 16) ::
            hexDigit upper (b.toNat % 16) :: encode upper must rest := by
          simp [encode, hmust]
        have hlt : b.toNat < 256 := b.toNat_lt
        rw [hcons, unescape_escape (unhex_hexDigit upper (by omega))
          (unhex_hexDigit upper (by omega)), ih', Option.map_some, ofNat_digits]
      · have hcons : encode upper must (b :: rest) = b :: encode upper must rest := by
          simp [encode, hmust]
        rw [hcons, unescape_cons_of_ne (fun hp => hmust (hb hp)), ih', Option.map_some]

/-- The digits of an escape are not percent signs. -/
theorem ne_percent_of_unhex {b : UInt8} {x : ℕ} (h : unhex b = some x) : b ≠ percent := by
  rintro rfl
  have hnone : unhex percent = none := by decide
  exact absurd (hnone.symm.trans h) (by simp)

/-- **The induction rule of decoding**: what holds of the empty string, and is kept by an
escape and by any other byte, holds of every string that decodes and what it decodes
to. -/
theorem unescape_induction {P : Bytes → Bytes → Prop} (nil : P [] [])
    (escape : ∀ a l x y s t, unhex a = some x → unhex l = some y → unescape s = some t →
      P s t → P (percent :: a :: l :: s) (.ofNat (16 * x + y) :: t))
    (byte : ∀ b s t, b ≠ percent → unescape s = some t → P s t → P (b :: s) (b :: t)) :
    ∀ {s t : Bytes}, unescape s = some t → P s t := by
  intro s
  induction s using unescape.induct with
  | case1 => intro t h; rw [← Option.some.inj h]; exact nil
  | case2 a l rest x y hy hx ih =>
      intro t h
      rw [unescape_escape hx hy] at h
      obtain ⟨t', ht', rfl⟩ := Option.map_eq_some_iff.mp h
      exact escape a l x y rest t' hx hy ht' (ih ht')
  | case3 a l rest hbad =>
      intro t h
      obtain ⟨a', l', rest', x, y, t', hrest, hx, hy, -⟩ := unescape_percent h
      obtain ⟨rfl, hrest'⟩ := List.cons.inj hrest
      obtain ⟨rfl, -⟩ := List.cons.inj hrest'
      exact absurd hy (hbad x y hx)
  | case4 rest hshort =>
      intro t h
      obtain ⟨a, l, rest', x, y, t', hrest, -⟩ := unescape_percent h
      exact absurd hrest (hshort a l rest')
  | case5 b rest hb ih =>
      intro t h
      rw [unescape_cons_of_ne hb] at h
      obtain ⟨t', ht', rfl⟩ := Option.map_eq_some_iff.mp h
      exact byte b rest t' hb ht' (ih ht')

/-- **Decoding shortens** a string by two bytes per percent sign. -/
theorem unescape_length {s t : Bytes} (h : unescape s = some t) :
    t.length + 2 * s.count percent = s.length := by
  refine unescape_induction (P := fun s t => t.length + 2 * s.count percent = s.length) rfl ?_ ?_ h
  · intro a l x y s t hx hy _ ih
    rw [List.count_cons_self, List.count_cons_of_ne (ne_percent_of_unhex hx),
      List.count_cons_of_ne (ne_percent_of_unhex hy)]
    simp only [List.length_cons]
    omega
  · intro b s t hb _ ih
    rw [List.count_cons_of_ne hb]
    simp only [List.length_cons]
    omega

/-- Decoding a string that starts with one that decodes. -/
theorem unescape_append {s t : Bytes} (h : unescape s = some t) (rest : Bytes) :
    unescape (s ++ rest) = (unescape rest).map (t ++ ·) := by
  refine unescape_induction (P := fun s t => unescape (s ++ rest) = (unescape rest).map (t ++ ·))
    ?_ ?_ ?_ h
  · simp
  · intro a l x y s t hx hy _ ih
    rw [List.cons_append, List.cons_append, List.cons_append, unescape_escape hx hy, ih,
      Option.map_map]
    rfl
  · intro b s t hb _ ih
    rw [List.cons_append, unescape_cons_of_ne hb, ih, Option.map_map]
    rfl

/-- A slash is in no escape: a string that decodes does so on both sides of one. -/
theorem unescape_slash {s t : Bytes} (h : unescape s = some t) :
    ∀ a b, s = a ++ slash :: b →
      ∃ x y, unescape a = some x ∧ unescape b = some y ∧ t = x ++ slash :: y := by
  refine unescape_induction (P := fun s t => ∀ a b, s = a ++ slash :: b →
    ∃ x y, unescape a = some x ∧ unescape b = some y ∧ t = x ++ slash :: y) ?_ ?_ ?_ h
  · intro a b hs
    exact absurd hs (by simp)
  · intro d l x y s t hx hy _ ih a b hs
    have hslash : unhex slash = none := by decide
    -- neither the percent sign nor a digit is the slash
    rcases a with _ | ⟨c, _ | ⟨d', _ | ⟨l', a'⟩⟩⟩
    · exact absurd (List.cons.inj hs).1 (by decide)
    · obtain ⟨rfl, -⟩ := List.cons.inj (List.cons.inj hs).2
      exact absurd (hslash.symm.trans hx) (by simp)
    · obtain ⟨rfl, -⟩ := List.cons.inj (List.cons.inj (List.cons.inj hs).2).2
      exact absurd (hslash.symm.trans hy) (by simp)
    · obtain ⟨rfl, hs₁⟩ := List.cons.inj hs
      obtain ⟨rfl, hs₂⟩ := List.cons.inj hs₁
      obtain ⟨rfl, hs₃⟩ := List.cons.inj hs₂
      obtain ⟨u, v, hu, hv, rfl⟩ := ih a' b hs₃
      refine ⟨.ofNat (16 * x + y) :: u, v, ?_, hv, rfl⟩
      rw [unescape_escape hx hy, hu, Option.map_some]
  · intro c s t hc hst ih a b hs
    rcases a with _ | ⟨c', a'⟩
    · obtain ⟨rfl, rfl⟩ := List.cons.inj hs
      exact ⟨[], t, rfl, hst, rfl⟩
    · obtain ⟨rfl, hs'⟩ := List.cons.inj hs
      obtain ⟨u, v, hu, hv, rfl⟩ := ih a' b hs'
      refine ⟨c :: u, v, ?_, hv, rfl⟩
      rw [unescape_cons_of_ne hc, hu, Option.map_some]

/-- The parts of a string between its slashes decode if the string does. -/
theorem unescape_splitOn {s t : Bytes} (h : unescape s = some t) :
    ∀ part ∈ s.splitOn slash, ∃ x, unescape part = some x := by
  have hall : ∀ (parts : List Bytes) (t : Bytes), parts ≠ [] →
      unescape ([slash].intercalate parts) = some t →
        ∀ part ∈ parts, ∃ x, unescape part = some x := by
    intro parts
    induction parts with
    | nil => intro t hne; exact absurd rfl hne
    | cons first rest ih =>
        intro t _ ht part hpart
        rcases rest with _ | ⟨second, rest⟩
        · rw [List.intercalate_singleton] at ht
          rw [List.mem_singleton.mp hpart]
          exact ⟨t, ht⟩
        · rw [List.intercalate_cons_cons, List.append_assoc] at ht
          obtain ⟨x, y, hx, hy, -⟩ := unescape_slash ht first _ rfl
          rcases List.mem_cons.mp hpart with rfl | hrest
          · exact ⟨x, hx⟩
          · exact ih y (by simp) hy part hrest
  exact hall _ t (List.splitOn_ne_nil _ _) (by rwa [List.intercalate_splitOn])

/-! ### Paths -/

/-- `shouldEscape` for paths. -/
def shouldEscape (b : UInt8) : Bool :=
  !((0x61 ≤ b && b ≤ 0x7A) || (0x41 ≤ b && b ≤ 0x5A) || (0x30 ≤ b && b ≤ 0x39) ||
    b ∈ ([0x2D, 0x5F, 0x2E, 0x7E, 0x24, 0x26, 0x2B, 0x2C, 0x2F, 0x3A, 0x3B, 0x3D, 0x40] : Bytes))

/-- `escape` for paths. -/
def escape (s : Bytes) : Bytes := encode true shouldEscape s

/-- `validEncoded` for paths. -/
def validEncoded (s : Bytes) : Bool :=
  s.all fun b =>
    b ∈ ([0x21, 0x24, 0x26, 0x27, 0x28, 0x29, 0x2A, 0x2B, 0x2C, 0x3B, 0x3D, 0x3A, 0x40, 0x5B, 0x5D,
      percent] : Bytes) || !shouldEscape b

/-- The path of a URL: decoded, and as it was written where that is not the standard
form. -/
structure Path where
  path : Bytes
  rawPath : Bytes
  deriving DecidableEq, Repr

/-- `setPath`. -/
def setPath (p : Bytes) : Option Path :=
  (unescape p).map fun path => ⟨path, if p = escape path then [] else p⟩

/-- `EscapedPath`. -/
def Path.escapedPath (u : Path) : Bytes :=
  if u.rawPath ≠ [] ∧ validEncoded u.rawPath ∧ unescape u.rawPath = some u.path then u.rawPath
  else if u.path = [0x2A] then [0x2A]
  else escape u.path

/-- The standard form decodes to the path. -/
theorem unescape_escape_path (s : Bytes) : unescape (escape s) = some s :=
  unescape_encode fun b _ hb => by rw [hb]; decide

/-- **The escaped form of a path decodes to the path.** -/
theorem unescape_escapedPath (u : Path) : unescape u.escapedPath = some u.path := by
  rw [Path.escapedPath]
  split
  · rename_i h
    exact h.2.2
  split
  · rename_i h
    rw [h]
    decide
  · exact unescape_escape_path u.path

/-- The escaped form of a path is the one it was written in, or the standard one. -/
theorem escapedPath_cases {p : Bytes} {u : Path} (h : setPath p = some u)
    (hstar : u.path ≠ [0x2A]) : u.escapedPath = p ∨ u.escapedPath = escape u.path := by
  obtain ⟨path, hpath, hu⟩ := Option.map_eq_some_iff.mp h
  have hraw : u.rawPath ≠ [] → u.rawPath = p := by
    rw [← hu]
    intro hne
    exact if_neg fun hp => hne (if_pos hp)
  unfold Path.escapedPath
  by_cases hc : u.rawPath ≠ [] ∧ validEncoded u.rawPath ∧ unescape u.rawPath = some u.path
  · rw [if_pos hc]
    exact .inl (hraw hc.1)
  · rw [if_neg hc, if_neg hstar]
    exact .inr rfl

/-- The bytes that the escaped form of a path can have: none of them ends the path or the
request line. -/
def PathByte (b : UInt8) : Prop := b ≠ question ∧ b ≠ hash ∧ b ≠ space ∧ isCTL b = false

instance (b : UInt8) : Decidable (PathByte b) := inferInstanceAs (Decidable (_ ∧ _))

/-- What holds of every value below 256 holds of every byte. -/
theorem forall_byte {P : UInt8 → Prop} (h : ∀ n : Fin 256, P (.ofNat n)) (b : UInt8) : P b := by
  have hb := h ⟨b.toNat, b.toNat_lt⟩
  rwa [UInt8.ofNat_toNat] at hb

/-- A byte that need not be escaped is one of them. -/
theorem pathByte_of_not_shouldEscape {b : UInt8} (h : shouldEscape b = false) : PathByte b := by
  simp only [shouldEscape, Bool.not_eq_false', Bool.or_eq_true, Bool.and_eq_true,
    decide_eq_true_eq, List.mem_cons, List.not_mem_nil, or_false, UInt8.le_iff_toNat_le,
    ← UInt8.toNat_inj, UInt8.reduceToNat] at h
  simp only [PathByte, question, hash, space, isCTL, Bool.or_eq_false_iff,
    decide_eq_false_iff_not, ne_eq, UInt8.lt_iff_toNat_lt, ← UInt8.toNat_inj, UInt8.reduceToNat]
  omega

/-- Percent signs and digits are. -/
theorem pathByte_hexDigit (upper : Bool) {n : ℕ} (h : n < 16) : PathByte (hexDigit upper n) := by
  have hall : ∀ (upper : Bool) (n : Fin 16), PathByte (hexDigit upper n) := by decide
  exact hall upper ⟨n, h⟩

/-- The bytes of an encoded string are digits, percent signs, and bytes that need not be
encoded. -/
theorem mem_encode {upper : Bool} {must : UInt8 → Bool} {s : Bytes} {b : UInt8}
    (h : b ∈ encode upper must s) :
    b = percent ∨ (∃ n < 16, b = hexDigit upper n) ∨ b ∈ s ∧ must b = false := by
  obtain ⟨c, hc, hb⟩ := List.mem_flatMap.mp h
  have hlt : c.toNat < 256 := c.toNat_lt
  by_cases hmust : must c = true
  · rw [if_pos hmust] at hb
    simp only [List.mem_cons, List.not_mem_nil, or_false] at hb
    rcases hb with rfl | rfl | rfl
    · exact .inl rfl
    · exact .inr (.inl ⟨_, by omega, rfl⟩)
    · exact .inr (.inl ⟨_, by omega, rfl⟩)
  · rw [if_neg hmust] at hb
    rw [List.mem_singleton.mp hb]
    exact .inr (.inr ⟨hc, by simpa using hmust⟩)

/-- **The escaped form of a path** ends neither the path nor the request line. -/
theorem escapedPath_pathByte (u : Path) : ∀ b ∈ u.escapedPath, PathByte b := by
  intro b hb
  rw [Path.escapedPath] at hb
  split at hb
  · rename_i h
    have hvalid := List.all_eq_true.mp h.2.1 b hb
    rcases Bool.or_eq_true_iff.mp hvalid with hmem | hesc
    · have hall : ∀ b ∈ ([0x21, 0x24, 0x26, 0x27, 0x28, 0x29, 0x2A, 0x2B, 0x2C, 0x3B, 0x3D, 0x3A,
          0x40, 0x5B, 0x5D, percent] : Bytes), PathByte b := by decide +kernel
      exact hall b (by simpa using hmem)
    · exact pathByte_of_not_shouldEscape (by simpa using hesc)
  split at hb
  · rw [List.mem_singleton.mp hb]
    decide
  · rcases mem_encode hb with rfl | ⟨n, hn, rfl⟩ | ⟨-, hesc⟩
    · decide
    · exact pathByte_hexDigit true hn
    · exact pathByte_of_not_shouldEscape hesc

/-! ### Dot segments -/

/-- A dot segment. -/
def IsDots (elem : Bytes) : Prop := elem = [dot] ∨ elem = [dot, dot]

instance (elem : Bytes) : Decidable (IsDots elem) := inferInstanceAs (Decidable (_ ∨ _))

/-- A path has a dot segment. -/
def HasDots (p : Bytes) : Prop := ∃ elem ∈ p.splitOn slash, IsDots elem

instance (p : Bytes) : Decidable (HasDots p) := inferInstanceAs (Decidable (∃ elem ∈ _, _))

/-- One step of `resolvePath`: what an element does to the segments so far. -/
def resolveStep (segs : List Bytes) (elem : Bytes) : List Bytes :=
  if elem = [dot] then (if segs = [] then [[]] else segs)
  else if elem = [dot, dot] then segs.dropLast
  else segs ++ [elem]

/-- `resolvePath` of an absolute reference: the path without its dot segments. -/
def resolvePath (full : Bytes) : Bytes :=
  if full = [] then []
  else
    let elems := full.splitOn slash
    let segs := elems.foldl resolveStep []
    let slashed := [slash].intercalate segs ++
      if IsDots (elems.getLast?.getD []) then [slash] else []
    if slashed.head? = some slash then slashed else slash :: slashed

/-- Elements that are no dot segments are all kept. -/
theorem foldl_resolveStep {elems : List Bytes} (h : ∀ elem ∈ elems, ¬IsDots elem) :
    ∀ segs, elems.foldl resolveStep segs = segs ++ elems := by
  induction elems with
  | nil => intro segs; simp
  | cons elem elems ih =>
      intro segs
      have helem := h elem (List.mem_cons_self ..)
      have hstep : resolveStep segs elem = segs ++ [elem] := by
        rw [resolveStep, if_neg fun hd => helem (.inl hd), if_neg fun hd => helem (.inr hd)]
      rw [List.foldl_cons, hstep, ih fun e he => h e (List.mem_cons_of_mem _ he),
        List.append_assoc, List.singleton_append]

/-- **A path without dot segments is left alone.** -/
theorem resolvePath_of_noDots {p : Bytes} (hdots : ¬HasDots (slash :: p)) :
    resolvePath (slash :: p) = slash :: p := by
  have h : ∀ elem ∈ (slash :: p).splitOn slash, ¬IsDots elem :=
    fun elem helem hd => hdots ⟨elem, helem, hd⟩
  have hlast : ¬IsDots (((slash :: p).splitOn slash).getLast?.getD []) := by
    rw [List.getLast?_eq_some_getLast (List.splitOn_ne_nil _ _)]
    exact h _ (List.getLast_mem _)
  rw [resolvePath, if_neg (by simp)]
  simp only [foldl_resolveStep h, List.nil_append, List.intercalate_splitOn, if_neg hlast,
    List.append_nil, List.head?_cons, if_true]

/-- The room that segments take up: their decoded lengths, and a slash for each. -/
def room : List Bytes → ℕ
  | [] => 0
  | s :: segs => ((unescape s).getD []).length + 1 + room segs

@[simp] theorem room_nil : room [] = 0 := rfl

@[simp] theorem room_cons (s : Bytes) (segs : List Bytes) :
    room (s :: segs) = ((unescape s).getD []).length + 1 + room segs := rfl

@[simp] theorem room_append (segs more : List Bytes) :
    room (segs ++ more) = room segs + room more := by
  induction segs with
  | nil => simp
  | cons s segs ih =>
      rw [List.cons_append, room_cons, room_cons, ih]
      omega

/-- **Segments joined by slashes** decode together, to their room less one byte. -/
theorem unescape_intercalate {segs : List Bytes} (hne : segs ≠ [])
    (h : ∀ s ∈ segs, ∃ x, unescape s = some x) :
    ∃ t, unescape ([slash].intercalate segs) = some t ∧ t.length + 1 = room segs := by
  induction segs with
  | nil => exact absurd rfl hne
  | cons s rest ih =>
      obtain ⟨x, hx⟩ := h s (List.mem_cons_self ..)
      rcases rest with _ | ⟨s', rest⟩
      · exact ⟨x, by rw [List.intercalate_singleton, hx], by simp [hx]⟩
      · obtain ⟨t, ht, hroom⟩ := ih (by simp) fun e he => h e (List.mem_cons_of_mem _ he)
        refine ⟨x ++ slash :: t, ?_, ?_⟩
        · rw [List.intercalate_cons_cons, List.append_assoc, unescape_append hx,
            List.singleton_append, unescape_cons_of_ne (by decide), ht]
          rfl
        · rw [room_cons, hx, ← hroom]
          simp only [Option.getD_some, List.length_append, List.length_cons]
          omega

/-- The budget of a removal that has read elements of room `total`: **either the path's
leading slash is still there and two bytes are gone since a dot segment was seen, or four
bytes are gone.** -/
structure Budget (seen : Prop) (segs : List Bytes) (total : ℕ) : Prop where
  decodes : ∀ s ∈ segs, ∃ x, unescape s = some x
  room_le : (∃ rest, segs = [] :: rest) ∧ room segs ≤ total ∧ (seen → room segs + 2 ≤ total) ∨
    room segs + 4 ≤ total

/-- What dropping the last segment leaves. -/
theorem room_dropLast (segs : List Bytes) : room segs.dropLast ≤ room segs := by
  rcases List.eq_nil_or_concat segs with rfl | ⟨front, s, rfl⟩
  · exact Nat.le_refl _
  · rw [List.concat_eq_append, List.dropLast_concat, room_append]
    omega

/-- An element keeps the budget. -/
theorem Budget.step {seen : Prop} {segs : List Bytes} {total : ℕ} (h : Budget seen segs total)
    {elem : Bytes} (helem : ∃ x, unescape elem = some x) :
    Budget (seen ∨ IsDots elem) (resolveStep segs elem) (total + room [elem]) := by
  have hdot : room [[dot]] = 2 := by decide
  have hdots : room [[dot, dot]] = 3 := by decide
  have hbudget := h.room_le
  unfold resolveStep
  by_cases h₁ : elem = [dot]
  · rw [if_pos h₁, h₁, hdot]
    by_cases hnil : segs = []
    · rw [if_pos hnil]
      refine ⟨by simp, .inr ?_⟩
      rcases hbudget with ⟨⟨rest, hrest⟩, -⟩ | hroom
      · exact absurd (hnil.symm.trans hrest) (by simp)
      · rw [hnil, room_nil] at hroom
        rw [room_cons, room_nil, unescape_nil]
        simp only [Option.getD_some, List.length_nil]
        omega
    · rw [if_neg hnil]
      refine ⟨h.decodes, ?_⟩
      rcases hbudget with ⟨hroot, hroom, -⟩ | hroom
      · exact .inl ⟨hroot, by omega, fun _ => by omega⟩
      · exact .inr (by omega)
  rw [if_neg h₁]
  by_cases h₂ : elem = [dot, dot]
  · rw [if_pos h₂, h₂, hdots]
    refine ⟨fun s hs => h.decodes s (List.dropLast_subset _ hs), ?_⟩
    have hdrop := room_dropLast segs
    rcases hbudget with ⟨⟨rest, hrest⟩, hroom, -⟩ | hroom
    · rcases rest with _ | ⟨s, rest⟩
      · -- the leading slash itself is dropped
        refine .inr ?_
        rw [hrest] at hroom ⊢
        simp only [room_cons, room_nil, List.dropLast_singleton, unescape_nil, Option.getD_some,
          List.length_nil] at hroom ⊢
        omega
      · refine .inl ⟨⟨(s :: rest).dropLast, ?_⟩, by omega, fun _ => by omega⟩
        rw [hrest, List.dropLast_cons_of_ne_nil (by simp)]
    · exact .inr (by omega)
  · rw [if_neg h₂]
    refine ⟨?_, ?_⟩
    · intro s hs
      rcases List.mem_append.mp hs with hs | hs
      · exact h.decodes s hs
      · rw [List.mem_singleton.mp hs]
        exact helem
    · rw [room_append]
      rcases hbudget with ⟨⟨rest, hrest⟩, hroom, hseen⟩ | hroom
      · refine .inl ⟨⟨rest ++ [elem], by rw [hrest]; rfl⟩, by omega, ?_⟩
        rintro (hs | hd)
        · have := hseen hs
          omega
        · exact absurd hd (not_or.mpr ⟨h₁, h₂⟩)
      · exact .inr (by omega)

/-- **Any elements keep the budget.** -/
theorem Budget.foldl {elems : List Bytes} (helems : ∀ e ∈ elems, ∃ x, unescape e = some x) :
    ∀ {seen : Prop} {segs : List Bytes} {total : ℕ}, Budget seen segs total →
      Budget (seen ∨ ∃ e ∈ elems, IsDots e) (elems.foldl resolveStep segs)
        (total + room elems) := by
  induction elems with
  | nil =>
      intro seen segs total h
      simpa using h
  | cons elem elems ih =>
      intro seen segs total h
      have hstep := ih (fun e he => helems e (List.mem_cons_of_mem _ he))
        (h.step (helems elem (List.mem_cons_self ..)))
      have hroom : total + room [elem] + room elems = total + room (elem :: elems) := by
        simp only [room_cons, room_nil]
        omega
      rw [List.foldl_cons, ← hroom]
      refine ⟨hstep.decodes, hstep.room_le.imp_left fun ⟨hroot, hle, hseen⟩ => ⟨hroot, hle, ?_⟩⟩
      rintro (hs | ⟨e, he, hd⟩)
      · exact hseen (.inl (.inl hs))
      · rcases List.mem_cons.mp he with rfl | he
        · exact hseen (.inl (.inr hd))
        · exact hseen (.inr ⟨e, he, hd⟩)

/-- A leading slash ends an empty element. -/
theorem splitOn_cons_slash (p : Bytes) : (slash :: p).splitOn slash = [] :: p.splitOn slash := by
  simp [List.splitOn, List.splitOnP_cons_eq_if_modifyHead]

/-- What the segments are printed to, with at most a slash at the end, is shorter than what
they were read from. -/
theorem unescape_slashed {segs : List Bytes} {len : ℕ} {seen : Prop}
    (h : Budget (False ∨ seen) segs (len + 1)) (hseen : seen) {tail : Bytes}
    (htail : tail = [] ∨ tail = [slash]) :
    ∃ t', unescape (if ([slash].intercalate segs ++ tail).head? = some slash then
        [slash].intercalate segs ++ tail
        else slash :: ([slash].intercalate segs ++ tail)) = some t' ∧
      t'.length < len := by
  obtain ⟨t, ht, hroom⟩ : ∃ t, unescape ([slash].intercalate segs) = some t ∧
      t.length ≤ room segs ∧ (segs ≠ [] → t.length + 1 = room segs) := by
    by_cases hnil : segs = []
    · rw [hnil]
      exact ⟨[], by simp, by simp, fun hne => absurd rfl hne⟩
    · obtain ⟨t, ht, hlen⟩ := unescape_intercalate hnil h.decodes
      exact ⟨t, ht, by omega, fun _ => hlen⟩
  have hlen : tail.length ≤ 1 := by
    rcases htail with rfl | rfl <;> simp
  have hslashed : unescape ([slash].intercalate segs ++ tail) = some (t ++ tail) := by
    rw [unescape_append ht]
    rcases htail with rfl | rfl <;> rfl
  rcases h.room_le with ⟨⟨rest, rfl⟩, -, hle⟩ | hle
  · have hle := hle (.inr hseen)
    have hroom := hroom.2 (by simp)
    rcases rest with _ | ⟨s, rest⟩
    · -- nothing but the leading slash is left
      rw [List.intercalate_singleton, List.nil_append]
      rw [room_cons, room_nil, unescape_nil] at hle
      simp only [Option.getD_some, List.length_nil] at hle
      refine ⟨[slash], ?_, by simp only [List.length_singleton]; omega⟩
      rcases htail with rfl | rfl <;> decide
    · have hhead : ([slash].intercalate ([] :: s :: rest) ++ tail).head? = some slash := by
        rw [List.intercalate_cons_cons]
        rfl
      rw [if_pos hhead]
      refine ⟨t ++ tail, hslashed, ?_⟩
      rw [List.length_append]
      omega
  · split
    · refine ⟨t ++ tail, hslashed, ?_⟩
      rw [List.length_append]
      omega
    · refine ⟨slash :: (t ++ tail), ?_, ?_⟩
      · rw [unescape_cons_of_ne (by decide), hslashed, Option.map_some]
      · rw [List.length_cons, List.length_append]
        omega

/-- **A path with a dot segment decodes to something shorter** once it is removed. -/
theorem resolvePath_shortens {p t : Bytes} (h : unescape (slash :: p) = some t)
    (hdots : HasDots (slash :: p)) :
    ∃ t', unescape (resolvePath (slash :: p)) = some t' ∧ t'.length < t.length := by
  have hparts := unescape_splitOn h
  obtain ⟨t₀, ht₀, hroom₀⟩ := unescape_intercalate (List.splitOn_ne_nil _ _) hparts
  rw [List.intercalate_splitOn, h] at ht₀
  obtain rfl := Option.some.inj ht₀
  have helems : (slash :: p).splitOn slash = [] :: p.splitOn slash := splitOn_cons_slash p
  -- the first element is empty, the others are what the removal goes through
  have hstart : Budget False [[]] 1 :=
    ⟨by simp, .inl ⟨⟨[], rfl⟩, by decide, False.elim⟩⟩
  have hseen : ∃ elem ∈ p.splitOn slash, IsDots elem := by
    obtain ⟨elem, helem, hd⟩ := hdots
    rw [helems] at helem
    rcases List.mem_cons.mp helem with rfl | helem
    · exact absurd hd (by decide)
    · exact ⟨elem, helem, hd⟩
  have hbudget := hstart.foldl fun e he =>
    hparts e (by rw [helems]; exact List.mem_cons_of_mem _ he)
  have htotal : 1 + room (p.splitOn slash) = t.length + 1 := by
    rw [hroom₀, helems]
    rfl
  rw [htotal] at hbudget
  have hfold : ((slash :: p).splitOn slash).foldl resolveStep [] =
      (p.splitOn slash).foldl resolveStep [[]] := by
    rw [helems]
    rfl
  rw [resolvePath, if_neg (by simp)]
  simp only [hfold]
  generalize (p.splitOn slash).foldl resolveStep [[]] = segs at hbudget ⊢
  generalize htail :
    (if IsDots (((slash :: p).splitOn slash).getLast?.getD []) then [slash] else []) = tail
  refine unescape_slashed hbudget hseen ?_
  rw [← htail]
  split
  · exact .inr rfl
  · exact .inl rfl

/-- A path stays rooted. -/
theorem resolvePath_slash (p : Bytes) : ∃ r, resolvePath (slash :: p) = slash :: r := by
  rw [resolvePath, if_neg (by simp)]
  extract_lets elems segs slashed
  by_cases h : slashed.head? = some slash
  · rw [if_pos h]
    exact ⟨_, (List.cons_head?_tail h).symm⟩
  · rw [if_neg h]
    exact ⟨_, rfl⟩

/-! ### Encoded paths -/

/-- Encoding element by element. -/
theorem encode_append (upper : Bool) (must : UInt8 → Bool) (s t : Bytes) :
    encode upper must (s ++ t) = encode upper must s ++ encode upper must t :=
  List.flatMap_append

/-- Encoding a byte and what follows. -/
theorem encode_cons (upper : Bool) (must : UInt8 → Bool) (b : UInt8) (s : Bytes) :
    encode upper must (b :: s) = encode upper must [b] ++ encode upper must s :=
  encode_append upper must [b] s

/-- A byte that need not be encoded stays. -/
theorem encode_singleton {upper : Bool} {must : UInt8 → Bool} {b : UInt8} (h : must b = false) :
    encode upper must [b] = [b] := by
  simp [encode, h]

/-- Bytes that need not be encoded stay. -/
theorem encode_of_plain {upper : Bool} {must : UInt8 → Bool} {s : Bytes}
    (h : ∀ b ∈ s, must b = false) : encode upper must s = s := by
  induction s with
  | nil => rfl
  | cons b s ih =>
      rw [encode_cons, encode_singleton (h b (List.mem_cons_self ..)),
        ih fun c hc => h c (List.mem_cons_of_mem _ hc), List.singleton_append]

/-- Encoding brings in no slash. -/
theorem slash_notMem_encode {upper : Bool} {must : UInt8 → Bool} {s : Bytes} (h : slash ∉ s) :
    slash ∉ encode upper must s := by
  intro hmem
  rcases mem_encode hmem with hb | ⟨n, hn, hb⟩ | ⟨hb, -⟩
  · exact absurd hb (by decide)
  · exact (hexDigit_plain upper hn).2.1 hb.symm
  · exact h hb

/-- Bytes other than a slash go to the first element. -/
theorem splitOn_append_plain {w : Bytes} (h : slash ∉ w) (s : Bytes) :
    (w ++ s).splitOn slash = (s.splitOn slash).modifyHead (w ++ ·) := by
  induction w with
  | nil => exact (congrFun List.modifyHead_id _).symm
  | cons b w ih =>
      have hb : (b == slash) = false := beq_false_of_ne fun hb => h (by simp [hb])
      have hstep :
          (b :: (w ++ s)).splitOn slash = ((w ++ s).splitOn slash).modifyHead (b :: ·) := by
        simp only [List.splitOn, List.splitOnP_cons_eq_if_modifyHead, hb]
        rfl
      rw [List.cons_append, hstep, ih fun hw => h (List.mem_cons_of_mem _ hw),
        List.modifyHead_modifyHead]
      rfl

/-- **The elements of an encoded path** are the encoded elements. -/
theorem splitOn_encode {upper : Bool} {must : UInt8 → Bool} (hslash : must slash = false)
    (p : Bytes) :
    (encode upper must p).splitOn slash = (p.splitOn slash).map (encode upper must) := by
  induction p with
  | nil => rfl
  | cons b p ih =>
      rw [encode_cons]
      by_cases hb : b = slash
      · rw [hb, encode_singleton hslash, List.singleton_append, splitOn_cons_slash,
          splitOn_cons_slash, ih]
        rfl
      · have hnot : slash ∉ [b] := fun hmem => hb (List.mem_singleton.mp hmem).symm
        have hhead : (b :: p).splitOn slash = (p.splitOn slash).modifyHead ([b] ++ ·) :=
          splitOn_append_plain hnot p
        rw [splitOn_append_plain (slash_notMem_encode hnot), ih, hhead]
        rcases p.splitOn slash with _ | ⟨first, rest⟩
        · rfl
        · simp only [List.modifyHead_cons, List.map_cons, encode_append]

/-- What is encoded without an escape was left as it is. -/
theorem encode_eq_self {upper : Bool} {must : UInt8 → Bool} {s : Bytes}
    (h : percent ∉ encode upper must s) : encode upper must s = s := by
  refine encode_of_plain fun b hb => ?_
  by_contra hmust
  refine h (List.mem_flatMap.mpr ⟨b, hb, ?_⟩)
  rw [if_pos (by simpa using hmust)]
  exact List.mem_cons_self ..

/-- **Encoding keeps dot segments**, and makes none. -/
theorem hasDots_encode_iff {upper : Bool} {must : UInt8 → Bool} (hslash : must slash = false)
    (hdot : must dot = false) (p : Bytes) : HasDots (encode upper must p) ↔ HasDots p := by
  rw [HasDots, splitOn_encode hslash]
  constructor
  · rintro ⟨_, hmem, hd⟩
    obtain ⟨elem, helem, rfl⟩ := List.mem_map.mp hmem
    have hself : encode upper must elem = elem := by
      refine encode_eq_self fun hp => ?_
      rcases hd with hd | hd
      · exact absurd (hd ▸ hp) (by decide)
      · exact absurd (hd ▸ hp) (by decide)
    exact ⟨elem, helem, hself ▸ hd⟩
  · rintro ⟨elem, helem, hd⟩
    refine ⟨elem, List.mem_map.mpr ⟨elem, helem, encode_of_plain ?_⟩, hd⟩
    rcases hd with rfl | rfl <;> simp [hdot]

/-- The escaped form of a rooted path is rooted. -/
theorem escapedPath_slash {p : Bytes} {u : Path} (h : setPath (slash :: p) = some u) :
    ∃ e, u.escapedPath = slash :: e := by
  obtain ⟨path, hpath, rfl⟩ := Option.map_eq_some_iff.mp h
  rw [unescape_cons_of_ne (by decide)] at hpath
  obtain ⟨path', -, rfl⟩ := Option.map_eq_some_iff.mp hpath
  rcases escapedPath_cases h (by simp [slash]) with he | he
  · exact ⟨p, he⟩
  · refine ⟨escape path', he.trans ?_⟩
    exact (encode_cons ..).trans (congrArg (· ++ escape path') (encode_singleton (by decide)))

/-! ### Parsing -/

/-- `strings.Cut` at a byte. -/
def cut (sep : UInt8) (s : Bytes) : Bytes × Bytes :=
  (s.takeWhile (· != sep), (s.dropWhile (· != sep)).drop 1)

/-- A string is cut in its second half if the byte is not in its first. -/
theorem cut_append {sep : UInt8} {a : Bytes} (h : sep ∉ a) (rest : Bytes) :
    cut sep (a ++ rest) = (a ++ (cut sep rest).1, (cut sep rest).2) := by
  have hall : ∀ b ∈ a, (b != sep) = true := by
    intro b hb
    exact bne_iff_ne.mpr fun heq => h (heq ▸ hb)
  rw [cut, cut, List.takeWhile_append_of_pos hall, List.dropWhile_append_of_pos hall]

/-- A string is cut at its first separator. -/
@[simp] theorem cut_cons_self (sep : UInt8) (rest : Bytes) :
    cut sep (sep :: rest) = ([], rest) := by
  simp [cut]

@[simp] theorem cut_nil (sep : UInt8) : cut sep [] = ([], []) := rfl

/-- What is cut off a string is part of it. -/
theorem mem_cut {sep b : UInt8} {s : Bytes} :
    (b ∈ (cut sep s).1 → b ∈ s ∧ b ≠ sep) ∧ (b ∈ (cut sep s).2 → b ∈ s) := by
  refine ⟨fun h => ⟨List.takeWhile_subset _ h, ?_⟩, fun h => ?_⟩
  · simpa using List.mem_takeWhile_imp h
  · exact List.dropWhile_subset _ (List.drop_subset _ _ h)

/-- A string without the separator is not cut. -/
theorem cut_of_notMem {sep : UInt8} {a : Bytes} (h : sep ∉ a) : cut sep a = (a, []) := by
  simpa using cut_append h []

/-- The query of a URL: what follows the question mark, unless that is its last byte and the
only one. -/
def splitQuery (s : Bytes) : Bytes × Bytes × Bool :=
  if s.getLast? = some question ∧ s.count question = 1 then (s.dropLast, [], true)
  else ((cut question s).1, (cut question s).2, false)

/-- **Both ways to split off a query** cut at the first question mark. -/
theorem splitQuery_eq_cut (s : Bytes) :
    (splitQuery s).1 = (cut question s).1 ∧ (splitQuery s).2.1 = (cut question s).2 := by
  unfold splitQuery
  split
  · rename_i h
    obtain ⟨hlast, hcount⟩ := h
    obtain ⟨front, rfl⟩ := List.getLast?_eq_some_iff.mp hlast
    have hnot : question ∉ front := by
      intro hmem
      have := List.count_pos_iff.mpr hmem
      rw [List.count_append, List.count_singleton_self] at hcount
      omega
    rw [List.dropLast_concat, cut_append hnot, cut_cons_self, List.append_nil]
    exact ⟨rfl, rfl⟩
  · exact ⟨rfl, rfl⟩

/-- A URL with the scheme `http`. -/
structure URL where
  host : Bytes
  path : Path
  rawQuery : Bytes
  forceQuery : Bool
  deriving DecidableEq, Repr

/-- The scheme of such a URL. -/
def http : Bytes := [0x68, 0x74, 0x74, 0x70, 0x3A]

/-- `Parse`, for URLs with a host and the scheme `http`; the host is parsed by
`parseAuthority`. -/
def parse (parseAuthority : Bytes → Option Bytes) (rawURL : Bytes) : Option URL :=
  let (u, frag) := cut hash rawURL
  if u.any isCTL then none
  else if u.take 5 ≠ http then none
  else
    let (rest, rawQuery, forceQuery) := splitQuery (u.drop 5)
    if rest.take 2 ≠ [slash, slash] then none
    else do
      let host ← parseAuthority ((rest.drop 2).takeWhile (· != slash))
      let path ← setPath ((rest.drop 2).dropWhile (· != slash))
      let _ ← unescape frag
      some ⟨host, path, rawQuery, forceQuery⟩

/-- A host that can stand in a URL as it is: it ends at the first slash. -/
def HostByte (b : UInt8) : Prop := PathByte b ∧ b ≠ slash ∧ b < 0x80

instance (b : UInt8) : Decidable (HostByte b) := inferInstanceAs (Decidable (_ ∧ _))

/-- **What a URL is parsed to**, given its host: the text after it is cut at the number
sign, then at the question mark. -/
theorem parse_http {parseAuthority : Bytes → Option Bytes} {host : Bytes}
    (hhost : ∀ b ∈ host, HostByte b) (hauth : parseAuthority host = some host) (x : Bytes) :
    parse parseAuthority (http ++ (slash :: slash :: (host ++ slash :: x))) =
      let text := (cut hash (slash :: x)).1
      if text.any isCTL then none
      else (setPath (cut question text).1).bind fun path =>
        (unescape (cut hash (slash :: x)).2).bind fun _ =>
          some ⟨host, path, (cut question text).2,
            (splitQuery (slash :: slash :: (host ++ text))).2.2⟩ := by
  have hcons : ∀ (sep : UInt8) (y : Bytes), sep ≠ slash →
      cut sep (slash :: y) = (slash :: (cut sep y).1, (cut sep y).2) := fun sep y hne =>
    @cut_append sep [slash] (by simpa using hne) y
  have hfront : ∀ sep : UInt8, sep ≠ slash → sep ∉ host → ∀ y : Bytes,
      cut sep (slash :: slash :: (host ++ y)) =
        (slash :: slash :: (host ++ (cut sep y).1), (cut sep y).2) := fun sep hne hnot y => by
    rw [hcons sep _ hne, hcons sep _ hne, cut_append hnot]
  have hhash : cut hash (http ++ (slash :: slash :: (host ++ slash :: x))) =
      (http ++ (slash :: slash :: (host ++ slash :: (cut hash x).1)), (cut hash x).2) := by
    rw [cut_append (by decide),
      hfront hash (by decide) (fun h => (hhost _ h).1.2.1 rfl), hcons hash x (by decide)]
  have hctl : (http ++ (slash :: slash :: (host ++ slash :: (cut hash x).1))).any isCTL =
      (slash :: (cut hash x).1).any isCTL := by
    have hplain : host.any isCTL = false := by
      rw [List.any_eq_false]
      intro b hb
      simp [(hhost b hb).1.2.2.2]
    have hslash : isCTL slash = false := by decide
    have hhttp : http.any isCTL = false := by decide
    simp only [List.any_append, List.any_cons, hplain, hslash, hhttp, Bool.false_or]
  have hsplit := splitQuery_eq_cut (slash :: slash :: (host ++ slash :: (cut hash x).1))
  rw [hfront question (by decide) (fun h => (hhost _ h).1.1 rfl)] at hsplit
  have hall : ∀ b ∈ host, (b != slash) = true := fun b hb => bne_iff_ne.mpr (hhost b hb).2.1
  obtain ⟨y, hy⟩ : ∃ y, (cut question (slash :: (cut hash x).1)).1 = slash :: y :=
    ⟨_, congrArg Prod.fst (hcons question (cut hash x).1 (by decide))⟩
  have htake : ∀ z : Bytes, (http ++ z).take 5 = http := fun _ => rfl
  have hdrop : ∀ z : Bytes, (http ++ z).drop 5 = z := fun _ => rfl
  simp only [parse, hhash, hctl, hcons hash x (by decide)]
  split
  · rfl
  · have hhost' : (host ++ slash :: y).takeWhile (· != slash) = host := by
      rw [List.takeWhile_append_of_pos hall]
      simp
    have hpath' : (host ++ slash :: y).dropWhile (· != slash) = slash :: y := by
      rw [List.dropWhile_append_of_pos hall]
      simp
    simp only [htake, hdrop, hsplit.1, hsplit.2, hy, List.take_succ_cons, List.take_zero,
      List.drop_succ_cons, List.drop_zero, hhost', hpath', hauth, ne_eq, not_true_eq_false,
      if_false, Option.bind_eq_bind, Option.bind_some]

/-- `ResolveReference`, for a URL with a scheme: its path loses its dot segments. -/
def resolveReference (ref : URL) : URL :=
  { ref with path := (setPath (resolvePath ref.path.escapedPath)).getD ref.path }

/-- `RequestURI`: the target of a request to a URL. -/
def requestURI (u : URL) : Bytes :=
  (if u.path.escapedPath = [] then [slash] else u.path.escapedPath) ++
    if u.forceQuery ∨ u.rawQuery ≠ [] then question :: u.rawQuery else []

/-- A byte that can stand in a request line without ending the target. -/
def TargetByte (b : UInt8) : Prop := b ≠ space ∧ isCTL b = false

instance (b : UInt8) : Decidable (TargetByte b) := inferInstanceAs (Decidable (_ ∧ _))

instance (s : Bytes) : Decidable (∀ b ∈ s, TargetByte b) :=
  decidable_of_iff (s.all fun b => decide (TargetByte b)) (by simp)

/-- The target of a request as its server sees it: the decoded path and the raw query. -/
structure Target where
  path : Bytes
  rawQuery : Bytes
  clean : ∀ b ∈ rawQuery, TargetByte b
  deriving DecidableEq

/-- The target with a query, unless that would end the request line. -/
def Target.of (path rawQuery : Bytes) : Option Target :=
  if h : ∀ b ∈ rawQuery, TargetByte b then some ⟨path, rawQuery, h⟩ else none

/-- `ParseRequestURI`, for a target that is a path and a query. -/
def parseRequestURI (target : Bytes) : Option Target :=
  let (rest, rawQuery, _) := splitQuery target
  if rest.head? = some slash ∧ ∀ b ∈ rest, TargetByte b then
    (setPath rest).bind fun p => Target.of p.path rawQuery
  else none

/-- **What a server receives** of a request to a URL: its path and its query. -/
theorem parseRequestURI_requestURI {u : URL} {e : Bytes} (h : u.path.escapedPath = slash :: e) :
    parseRequestURI (requestURI u) = Target.of u.path.path u.rawQuery := by
  have hbyte := escapedPath_pathByte u.path
  have hquestion : question ∉ u.path.escapedPath := fun hq => (hbyte _ hq).1 rfl
  have hcut : cut question (requestURI u) = (u.path.escapedPath, u.rawQuery) := by
    rw [requestURI, if_neg (by rw [h]; simp), cut_append hquestion]
    split
    · rw [cut_cons_self, List.append_nil]
    · rename_i hq
      rw [cut_nil, List.append_nil]
      simp only [not_or, not_not] at hq
      rw [hq.2]
  have hsplit := splitQuery_eq_cut (requestURI u)
  rw [hcut] at hsplit
  have hclean : u.path.escapedPath.head? = some slash ∧
      ∀ b ∈ u.path.escapedPath, TargetByte b :=
    ⟨by rw [h]; rfl, fun b hb => ⟨(hbyte b hb).2.2.1, (hbyte b hb).2.2.2⟩⟩
  simp only [parseRequestURI, hsplit.1, hsplit.2]
  rw [if_pos hclean, setPath, unescape_escapedPath]
  rfl

/-- **What a server receives of a resolved URL**: the path as it was if it has no dot
segments, and otherwise a shorter one. -/
theorem received_resolveReference {u : URL} {p : Bytes} (h : setPath (slash :: p) = some u.path) :
    ∃ path, parseRequestURI (requestURI (resolveReference u)) = Target.of path u.rawQuery ∧
      (HasDots u.path.escapedPath → path.length < u.path.path.length) ∧
      (¬HasDots u.path.escapedPath → path = u.path.path) := by
  obtain ⟨e, he⟩ := escapedPath_slash h
  have hdecode := unescape_escapedPath u.path
  obtain ⟨r, hr⟩ := resolvePath_slash e
  rw [he] at hdecode
  obtain ⟨path, hpath, hshort, hkeep⟩ : ∃ path, unescape (resolvePath (slash :: e)) = some path ∧
      (HasDots (slash :: e) → path.length < u.path.path.length) ∧
      (¬HasDots (slash :: e) → path = u.path.path) := by
    by_cases hdots : HasDots (slash :: e)
    · obtain ⟨path, hpath, hlt⟩ := resolvePath_shortens hdecode hdots
      exact ⟨path, hpath, fun _ => hlt, fun hno => absurd hdots hno⟩
    · refine ⟨u.path.path, ?_, fun hd => absurd hd hdots, fun _ => rfl⟩
      rw [resolvePath_of_noDots hdots, hdecode]
  have hset : setPath (resolvePath (slash :: e)) =
      some ⟨path,
        if resolvePath (slash :: e) = escape path then [] else resolvePath (slash :: e)⟩ := by
    rw [setPath, hpath]
    rfl
  have hresolved : (resolveReference u).path =
      ⟨path, if resolvePath (slash :: e) = escape path then [] else resolvePath (slash :: e)⟩ := by
    rw [resolveReference, he, hset]
    rfl
  rw [hr] at hset
  obtain ⟨e', he'⟩ := escapedPath_slash hset
  refine ⟨path, ?_, by rwa [he], by rwa [he]⟩
  rw [@parseRequestURI_requestURI (resolveReference u) e' (by rw [hresolved, hr]; exact he'),
    hresolved]
  rfl

/-! ### Queries -/

/-- The ampersand. -/
def ampersand : UInt8 := 0x26
/-- The semicolon. -/
def semicolon : UInt8 := 0x3B
/-- The equals sign. -/
def equals : UInt8 := 0x3D
/-- The plus sign. -/
def plus : UInt8 := 0x2B

/-- `QueryUnescape`: a plus sign stands for a space. -/
def queryUnescape (s : Bytes) : Option Bytes :=
  unescape (s.map fun b => if b = plus then space else b)

/-- One part of a query: nothing, a key with its value, or an error. -/
def queryPart (part : Bytes) : Option (Option (Bytes × Bytes)) :=
  if semicolon ∈ part then none
  else if part = [] then some none
  else
    let (key, value) := cut equals part
    (queryUnescape key).bind fun key => (queryUnescape value).map fun value => some (key, value)

/-- The values of a query, by key and in order. -/
abbrev Values := List (Bytes × Bytes)

/-- `ParseQuery`: the values of the parts that are valid, and whether all are. -/
def parseQuery (query : Bytes) : Values × Bool :=
  let parts := (query.splitOn ampersand).map queryPart
  (parts.filterMap Option.join, parts.all Option.isSome)

/-- `Get`: the first value of a key. -/
def Values.get (values : Values) (key : Bytes) : Bytes := (values.lookup key).getD []

@[simp] theorem parseQuery_nil : parseQuery [] = ([], true) := by decide

end Url
