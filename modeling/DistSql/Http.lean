import DistSql.Url

/-!
# Requests and Redirects

The part of Go's `net/http` that a redirect goes through: the request as a handler sees
it, the `Location` that `Redirect` writes and that travels in a header, and what a client
that follows it makes the next server receive. The URL in a `Location` is printed by the
server and parsed by the client, and its path and query reach the next server only after
the client has printed them again.

## Main results

* `received_iff`: **what survives the way**, exactly. The path must have no percent sign,
  question mark, number sign, control byte or dot segment, and the query no number sign and
  no byte beyond ASCII.
-/

open Url

namespace Http

/-- What `mime.ParseMediaType` makes of a `Content-Type`: whether it names a URL-encoded
form, and whether it is valid. -/
structure Media where
  form : Bool
  valid : Bool
  deriving DecidableEq, Repr

/-- A request as a handler sees it. The body is what reading it to its end gives. -/
structure Request where
  method : String
  target : Target
  contentType : Media
  body : Except String Bytes
  deriving DecidableEq

/-! ### The header of a redirect -/

/-- `hexEscapeNonASCII`. -/
def hexEscapeNonASCII (s : Bytes) : Bytes := encode false (0x80 ≤ ·) s

/-- A line break becomes a space in a header. -/
def newlineToSpace (b : UInt8) : UInt8 := if b = 0x0A ∨ b = 0x0D then space else b

/-- A byte that is trimmed at both ends of a header. -/
def isBlank (b : UInt8) : Bool := b = space || b = 0x09 || b = 0x0A || b = 0x0D

/-- `TrimString`. -/
def trimString (s : Bytes) : Bytes := ((s.dropWhile isBlank).reverse.dropWhile isBlank).reverse

/-- The header that `Redirect` sends for a URL, as the client reads it. -/
def location (url : Bytes) : Bytes := trimString ((hexEscapeNonASCII url).map newlineToSpace)

/-- Nothing is trimmed between two bytes that are not blank. -/
theorem trimString_of_ends {a c : UInt8} (ha : isBlank a = false) (hc : isBlank c = false)
    (s : Bytes) : trimString (a :: (s ++ [c])) = a :: (s ++ [c]) := by
  have hrev : (a :: (s ++ [c])).reverse = c :: (s.reverse ++ [a]) := by simp
  rw [trimString, List.dropWhile_cons_of_neg (by simp [ha]), hrev,
    List.dropWhile_cons_of_neg (by simp [hc]), ← hrev, List.reverse_reverse]

/-- Escaping byte by byte. -/
theorem hexEscapeNonASCII_cons (b : UInt8) (s : Bytes) :
    hexEscapeNonASCII (b :: s) = hexEscapeNonASCII [b] ++ hexEscapeNonASCII s :=
  encode_cons ..

/-- Escaping piece by piece. -/
theorem hexEscapeNonASCII_append (s t : Bytes) :
    hexEscapeNonASCII (s ++ t) = hexEscapeNonASCII s ++ hexEscapeNonASCII t :=
  encode_append ..

/-- An ASCII string is not escaped. -/
theorem hexEscapeNonASCII_of_ascii {s : Bytes} (h : ∀ b ∈ s, b < 0x80) : hexEscapeNonASCII s = s :=
  encode_of_plain fun b hb => by simpa using h b hb

/-- Escaping and breaking lines concern different bytes. -/
theorem map_newlineToSpace_hexEscapeNonASCII (s : Bytes) :
    (hexEscapeNonASCII s).map newlineToSpace = hexEscapeNonASCII (s.map newlineToSpace) := by
  have hbyte : ∀ b : UInt8, (hexEscapeNonASCII [b]).map newlineToSpace =
      hexEscapeNonASCII [newlineToSpace b] := forall_byte (by decide +kernel)
  induction s with
  | nil => rfl
  | cons b s ih =>
      rw [hexEscapeNonASCII_cons, List.map_append, hbyte, ih, List.map_cons,
        ← hexEscapeNonASCII_cons]

/-- A control byte is in the ASCII range. -/
theorem lt_of_isCTL {b : UInt8} (h : isCTL b = true) : b < 0x80 := by
  simp only [isCTL, Bool.or_eq_true, decide_eq_true_eq, UInt8.lt_iff_toNat_lt, ← UInt8.toNat_inj,
    UInt8.reduceToNat] at h ⊢
  omega

/-- A byte of a target is not trimmed: the blanks are the space and control bytes. -/
theorem isBlank_of_targetByte {b : UInt8} (h : TargetByte b) : isBlank b = false := by
  obtain ⟨hspace, hctl⟩ := h
  simp only [isCTL, Bool.or_eq_false_iff, decide_eq_false_iff_not, UInt8.lt_iff_toNat_lt,
    ← UInt8.toNat_inj, UInt8.reduceToNat] at hctl
  simp only [isBlank, Bool.or_eq_false_iff, decide_eq_false_iff_not, ← UInt8.toNat_inj,
    UInt8.reduceToNat]
  rw [ne_eq, ← UInt8.toNat_inj] at hspace
  omega

/-- A string without line breaks keeps its bytes. -/
theorem map_newlineToSpace_of_clean {s : Bytes} (h : ∀ b ∈ s, isCTL b = false) :
    s.map newlineToSpace = s := by
  refine (List.map_congr_left fun b hb => ?_).trans (List.map_id s)
  have hnot : ¬(b = 0x0A ∨ b = 0x0D) := by
    rintro (rfl | rfl)
    · exact absurd (h _ hb) (by decide)
    · exact absurd (h _ hb) (by decide)
  exact if_neg hnot

/-- Escaping adds two bytes per percent sign that it brings in. -/
theorem length_hexEscapeNonASCII (s : Bytes) :
    (hexEscapeNonASCII s).length + 2 * s.count percent =
      s.length + 2 * (hexEscapeNonASCII s).count percent := by
  have hbyte : ∀ b : UInt8, (hexEscapeNonASCII [b]).length + 2 * [b].count percent =
      1 + 2 * (hexEscapeNonASCII [b]).count percent := forall_byte (by decide +kernel)
  induction s with
  | nil => rfl
  | cons b s ih =>
      have hb := hbyte b
      have hcount : (b :: s).count percent = [b].count percent + s.count percent := by
        rw [← List.count_append, List.singleton_append]
      rw [hexEscapeNonASCII_cons, List.length_append, List.count_append, List.length_cons, hcount]
      omega

/-- What is escaped decodes to what it was, if it had no percent sign. -/
theorem unescape_hexEscapeNonASCII {s : Bytes} (h : percent ∉ s) :
    unescape (hexEscapeNonASCII s) = some s :=
  unescape_encode fun _ hb heq => absurd (heq ▸ hb) h

/-- Escaping brings in no byte that ends a request line. -/
theorem targetByte_hexEscapeNonASCII {s : Bytes} (h : ∀ b ∈ s, TargetByte b) :
    ∀ b ∈ hexEscapeNonASCII s, TargetByte b := by
  intro b hb
  rcases mem_encode hb with rfl | ⟨n, hn, rfl⟩ | ⟨hb, -⟩
  · decide
  · have := pathByte_hexDigit false hn
    exact ⟨this.2.2.1, this.2.2.2⟩
  · exact h b hb

/-- **A redirect URL with a query travels whole**: it has no blank at its ends. -/
theorem location_eq {host p q : Bytes} (hhost : ∀ b ∈ host, HostByte b) (hq : q ≠ [])
    (hclean : ∀ b ∈ q, TargetByte b) :
    location (http ++ (slash :: slash :: (host ++ (p ++ question :: q)))) =
      http ++ (slash :: slash :: (host ++
        (hexEscapeNonASCII (p.map newlineToSpace) ++ question :: hexEscapeNonASCII q))) := by
  have hlines : (http ++ (slash :: slash :: (host ++ (p ++ question :: q)))).map newlineToSpace =
      (http ++ slash :: slash :: host) ++ (p.map newlineToSpace ++ question :: q) := by
    rw [List.map_append, List.map_cons, List.map_cons, List.map_append, List.map_append,
      List.map_cons, map_newlineToSpace_of_clean fun b hb => (hhost b hb).1.2.2.2,
      map_newlineToSpace_of_clean fun b hb => (hclean b hb).2, List.append_assoc]
    rfl
  have hfront : ∀ b ∈ http ++ slash :: slash :: host, b < 0x80 := by
    intro b hb
    rcases List.mem_append.mp hb with hb | hb
    · exact (by decide +kernel : ∀ b ∈ http, b < 0x80) b hb
    · rcases List.mem_cons.mp hb with rfl | hb
      · decide
      rcases List.mem_cons.mp hb with rfl | hb
      · decide
      · exact (hhost b hb).2.2
  have htext : (hexEscapeNonASCII (http ++ (slash :: slash :: (host ++ (p ++ question :: q))))).map
      newlineToSpace = http ++ (slash :: slash :: (host ++
        (hexEscapeNonASCII (p.map newlineToSpace) ++ question :: hexEscapeNonASCII q))) := by
    rw [map_newlineToSpace_hexEscapeNonASCII, hlines, hexEscapeNonASCII_append,
      hexEscapeNonASCII_of_ascii hfront, hexEscapeNonASCII_append, hexEscapeNonASCII_cons,
      List.append_assoc]
    rfl
  -- the last byte is one of the query's, so only the first and the last byte matter
  have hblank : ∀ b : UInt8, TargetByte b → isBlank b = false :=
    fun b hb => isBlank_of_targetByte hb
  rw [location, htext]
  rcases List.eq_nil_or_concat (hexEscapeNonASCII q) with hnil | ⟨front, c, hconcat⟩
  · have hself : hexEscapeNonASCII q = q := encode_eq_self (by
      rw [← hexEscapeNonASCII, hnil]
      exact List.not_mem_nil)
    exact absurd (hself.symm.trans hnil) hq
  · have hc : isBlank c = false :=
      hblank c (targetByte_hexEscapeNonASCII hclean c (by rw [hconcat]; simp))
    rw [hconcat, List.concat_eq_append]
    have hends := @trimString_of_ends 0x68 c (by decide) hc
      (http.tail ++ (slash :: slash :: (host ++
        (hexEscapeNonASCII (p.map newlineToSpace) ++ question :: front))))
    simpa [http, List.append_assoc] using hends

/-- A URL that needs no escapes stands in a header as it is. -/
theorem location_of_plain {s : Bytes} (hs : ∀ b ∈ s, TargetByte b ∧ b < 0x80) : location s = s := by
  have htrim : ∀ {t : Bytes}, (∀ b ∈ t, isBlank b = false) → t.dropWhile isBlank = t := by
    intro t ht
    cases t with
    | nil => rfl
    | cons b t => exact List.dropWhile_cons_of_neg (by simp [ht b List.mem_cons_self])
  have hblank : ∀ b ∈ s, isBlank b = false := fun b hb => isBlank_of_targetByte (hs b hb).1
  rw [location, hexEscapeNonASCII_of_ascii fun b hb => (hs b hb).2,
    map_newlineToSpace_of_clean fun b hb => (hs b hb).1.2, trimString, htrim hblank,
    htrim fun b hb => hblank b (List.mem_reverse.mp hb), List.reverse_reverse]

/-! ### What the next server receives -/

/-- The target that a client which follows a `Location` sends to the server it names. -/
def received (parseAuthority : Bytes → Option Bytes) (loc : Bytes) : Option Target :=
  (parse parseAuthority loc).bind fun u => parseRequestURI (requestURI (resolveReference u))

/-- A path and a query **survive** being printed into a URL as they are. -/
structure Survives (path rawQuery : Bytes) : Prop where
  plain : ∀ b ∈ path, b ≠ percent ∧ b ≠ question ∧ b ≠ hash ∧ isCTL b = false
  noDots : ¬HasDots path
  ascii : ∀ b ∈ rawQuery, b ≠ hash ∧ b < 0x80

/-- A path up to its first question mark or number sign. -/
theorem split_at_stop (p : Bytes) :
    ∃ front back, p = front ++ back ∧ hash ∉ front ∧ question ∉ front ∧
      (back = [] ∨ ∃ c tail, back = c :: tail ∧ (c = hash ∨ c = question)) := by
  induction p with
  | nil => exact ⟨[], [], rfl, by simp, by simp, .inl rfl⟩
  | cons b p ih =>
      by_cases hb : b = hash ∨ b = question
      · exact ⟨[], b :: p, rfl, by simp, by simp, .inr ⟨b, p, rfl, hb⟩⟩
      · obtain ⟨front, back, rfl, hhash, hquestion, hback⟩ := ih
        simp only [not_or] at hb
        refine ⟨b :: front, back, rfl, ?_, ?_, hback⟩
        · simp [hhash, Ne.symm hb.1]
        · simp [hquestion, Ne.symm hb.2]

/-- **The path that a client reads** from a printed URL ends there. -/
theorem cut_both {s : Bytes} (hhash : hash ∉ s) (hquestion : question ∉ s) {c : UInt8}
    (hc : c = hash ∨ c = question) (tail : Bytes) :
    (cut question (cut hash (s ++ c :: tail)).1).1 = s := by
  rw [cut_append hhash, cut_append hquestion]
  rcases hc with rfl | rfl
  · rw [cut_cons_self, cut_nil, List.append_nil]
  · have hcut : cut hash (question :: tail) = (question :: (cut hash tail).1, (cut hash tail).2) :=
      @cut_append hash [question] (by decide) tail
    rw [hcut, cut_cons_self, List.append_nil]

/-- Escaping and breaking lines make no question mark and no number sign. -/
theorem notMem_printed {c : UInt8} (hc : c = hash ∨ c = question) {s : Bytes} (h : c ∉ s) :
    c ∉ hexEscapeNonASCII (s.map newlineToSpace) := by
  intro hmem
  have hlines : ∀ b : UInt8, newlineToSpace b = c → b = c := by
    intro b hb
    rw [newlineToSpace] at hb
    split at hb
    · rcases hc with rfl | rfl <;> exact absurd hb (by decide)
    · exact hb
  rcases mem_encode hmem with heq | ⟨n, hn, heq⟩ | ⟨hmap, -⟩
  · rcases hc with rfl | rfl <;> exact absurd heq (by decide)
  · have hplain := hexDigit_plain false hn
    rcases hc with rfl | rfl
    · exact hplain.2.2.2.1 heq.symm
    · exact hplain.2.2.1 heq.symm
  · obtain ⟨b, hb, heq⟩ := List.mem_map.mp hmap
    exact h (hlines b heq ▸ hb)

/-- The bytes of an escaped string are ASCII. -/
theorem ascii_hexEscapeNonASCII (s : Bytes) : ∀ b ∈ hexEscapeNonASCII s, b < 0x80 := by
  intro b hb
  rcases mem_encode hb with rfl | ⟨n, hn, rfl⟩ | ⟨-, hb⟩
  · decide
  · exact UInt8.lt_trans (hexDigit_plain false hn).2.2.2.2.2 (by decide)
  · simpa using hb

/-- An ASCII byte is still there after escaping. -/
theorem mem_hexEscapeNonASCII {s : Bytes} {b : UInt8} (h : b ∈ s) (hb : b < 0x80) :
    b ∈ hexEscapeNonASCII s := by
  refine List.mem_flatMap.mpr ⟨b, h, ?_⟩
  rw [if_neg (by simpa using hb)]
  exact List.mem_singleton_self b

section Redirect

variable {parseAuthority : Bytes → Option Bytes} {host : Bytes}

/-- The URL with a path and a query at a host. -/
def printURL (host path rawQuery : Bytes) : Bytes :=
  http ++ (slash :: slash :: (host ++ (path ++ question :: rawQuery)))

/-- **What the client reads** of a printed URL: its path ends at the first question mark or
number sign, and all that it reads is free of control bytes. -/
theorem parse_location (hhost : ∀ b ∈ host, HostByte b) (hauth : parseAuthority host = some host)
    {front back q : Bytes} (hq : q ≠ []) (hclean : ∀ b ∈ q, TargetByte b)
    (hhash : hash ∉ front) (hquestion : question ∉ front)
    (hback : back = [] ∨ ∃ c tail, back = c :: tail ∧ (c = hash ∨ c = question)) {u : URL}
    (h : parse parseAuthority (location (printURL host (slash :: (front ++ back)) q)) = some u) :
    setPath (hexEscapeNonASCII ((slash :: front).map newlineToSpace)) = some u.path ∧
      (∀ b ∈ hexEscapeNonASCII ((slash :: front).map newlineToSpace), isCTL b = false) ∧
      ∀ b ∈ u.rawQuery, b ≠ hash ∧ b < 0x80 := by
  obtain ⟨x, c, tail, hx, hc, htext⟩ : ∃ x c tail,
      hexEscapeNonASCII ((slash :: (front ++ back)).map newlineToSpace) ++
          question :: hexEscapeNonASCII q = slash :: x ∧ (c = hash ∨ c = question) ∧
        slash :: x = hexEscapeNonASCII ((slash :: front).map newlineToSpace) ++ c :: tail := by
    have hslash : ∀ s : Bytes, hexEscapeNonASCII ((slash :: s).map newlineToSpace) =
        slash :: hexEscapeNonASCII (s.map newlineToSpace) := fun s => hexEscapeNonASCII_cons slash _
    rw [hslash, hslash, List.map_append, hexEscapeNonASCII_append]
    rcases hback with rfl | ⟨c, tail, rfl, hc⟩
    · exact ⟨_, question, hexEscapeNonASCII q, rfl, .inr rfl, by simp [hexEscapeNonASCII, encode]⟩
    · refine ⟨_, c, hexEscapeNonASCII (tail.map newlineToSpace) ++ question :: hexEscapeNonASCII q,
        rfl, hc, ?_⟩
      have hcons : hexEscapeNonASCII ((c :: tail).map newlineToSpace) =
          c :: hexEscapeNonASCII (tail.map newlineToSpace) := by
        rw [List.map_cons, hexEscapeNonASCII_cons]
        rcases hc with rfl | rfl <;> rfl
      rw [hcons]
      simp
  have hnotHash : hash ∉ hexEscapeNonASCII ((slash :: front).map newlineToSpace) :=
    notMem_printed (.inl rfl) (by simp [hhash]; decide)
  have hnotQuestion : question ∉ hexEscapeNonASCII ((slash :: front).map newlineToSpace) :=
    notMem_printed (.inr rfl) (by simp [hquestion]; decide)
  have hascii : ∀ b ∈ slash :: x, b < 0x80 := by
    rw [← hx]
    intro b hb
    rcases List.mem_append.mp hb with hb | hb
    · exact ascii_hexEscapeNonASCII _ b hb
    · rcases List.mem_cons.mp hb with rfl | hb
      · decide
      · exact ascii_hexEscapeNonASCII _ b hb
  rw [printURL, location_eq hhost hq hclean, hx, parse_http hhost hauth] at h
  have hpath := cut_both hnotHash hnotQuestion hc tail
  rw [← htext] at hpath
  simp only at h
  split at h
  · exact absurd h (by simp)
  rename_i hctl
  obtain ⟨path, hset, h⟩ := Option.bind_eq_some_iff.mp h
  obtain ⟨frag, -, h⟩ := Option.bind_eq_some_iff.mp h
  obtain rfl := Option.some.inj h
  refine ⟨hpath ▸ hset, fun b hb => ?_, fun b hb => ?_⟩
  · have hmem : b ∈ (cut hash (slash :: x)).1 := by
      rw [htext, cut_append hnotHash]
      exact List.mem_append_left _ hb
    by_contra hb'
    exact hctl (List.any_eq_true.mpr ⟨b, hmem, by simpa using hb'⟩)
  · have hmem := mem_cut.1 (mem_cut.2 hb)
    exact ⟨hmem.2, hascii b hmem.1⟩

/-- The escaped form of a path that was printed has the path's dot segments. -/
theorem hasDots_printed {p : Bytes} {u : Path}
    (hset : setPath (hexEscapeNonASCII (slash :: p)) = some u)
    (hpath : u.path = slash :: p) : HasDots u.escapedPath ↔ HasDots (slash :: p) := by
  have hslash : (fun b : UInt8 => decide (0x80 ≤ b)) slash = false := by decide
  have hdot : (fun b : UInt8 => decide (0x80 ≤ b)) dot = false := by decide
  rcases escapedPath_cases hset (by rw [hpath]; simp [slash]) with he | he
  · rw [he]
    exact hasDots_encode_iff hslash hdot _
  · rw [he, hpath]
    exact hasDots_encode_iff (by decide) (by decide) _

/-- A path that the next server receives as it was printed **was printed whole**, without
percent signs, line breaks and dot segments. -/
theorem plain_of_read {front back : Bytes} {u : URL}
    (hset : setPath (hexEscapeNonASCII ((slash :: front).map newlineToSpace)) = some u.path)
    (hshort : HasDots u.path.escapedPath → (slash :: (front ++ back)).length < u.path.path.length)
    (hkeep : ¬HasDots u.path.escapedPath → slash :: (front ++ back) = u.path.path) :
    back = [] ∧ percent ∉ slash :: front ∧ (slash :: front).map newlineToSpace = slash :: front ∧
      ¬HasDots (slash :: front) := by
  obtain ⟨decoded, hdecode, hu⟩ := Option.map_eq_some_iff.mp hset
  have hdecoded : u.path.path = decoded := by rw [← hu]
  -- decoding gives back no more bytes than were printed, and two less per percent sign
  have hlen := unescape_length hdecode
  have hesc := length_hexEscapeNonASCII ((slash :: front).map newlineToSpace)
  rw [List.length_map, List.length_cons] at hesc
  rw [hdecoded, List.length_cons, List.length_append] at hshort
  have hnoDots : ¬HasDots u.path.escapedPath := by
    intro hdots
    have := hshort hdots
    omega
  have hsame := hkeep hnoDots
  have hbytes : front.length + back.length + 1 = decoded.length := by
    rw [← hdecoded, ← hsame]
    simp
  have hnil : back = [] := by
    rw [← List.length_eq_zero_iff]
    omega
  have hcount : ((slash :: front).map newlineToSpace).count percent = 0 := by omega
  have hpercent := List.count_eq_zero.mp hcount
  rw [hnil, List.append_nil] at hsame
  have hlines : (slash :: front).map newlineToSpace = slash :: front := by
    rw [unescape_hexEscapeNonASCII hpercent] at hdecode
    rw [Option.some.inj hdecode, ← hdecoded, ← hsame]
  rw [hlines] at hpercent hset
  exact ⟨hnil, hpercent, hlines, fun hd => hnoDots ((hasDots_printed hset hsame.symm).mpr hd)⟩

/-- **What reaches the next server as it was has survived.** -/
theorem survives_of_received (hhost : ∀ b ∈ host, HostByte b)
    (hauth : parseAuthority host = some host) {target : Target} {p : Bytes}
    (hpath : target.path = slash :: p) (hq : target.rawQuery ≠ [])
    (h : received parseAuthority (location (printURL host target.path target.rawQuery)) =
      some target) : Survives target.path target.rawQuery := by
  obtain ⟨u, hparse, h⟩ := Option.bind_eq_some_iff.mp h
  obtain ⟨front, back, rfl, hhash, hquestion, hback⟩ := split_at_stop p
  rw [hpath] at hparse
  obtain ⟨hset, hctl, hquery⟩ :=
    parse_location hhost hauth hq target.clean hhash hquestion hback hparse
  have hrooted : setPath (slash :: hexEscapeNonASCII (front.map newlineToSpace)) = some u.path := by
    rw [← hset, List.map_cons, hexEscapeNonASCII_cons]
    rfl
  obtain ⟨path, hreceived, hshort, hkeep⟩ := received_resolveReference hrooted
  rw [hreceived, Target.of] at h
  split at h
  · obtain rfl := Option.some.inj h
    obtain rfl : path = slash :: (front ++ back) := hpath
    obtain ⟨rfl, hpercent, hlines, hnoDots⟩ := plain_of_read hset hshort hkeep
    rw [hlines] at hctl
    have hslash : slash ≠ question ∧ slash ≠ hash := by decide
    have hlow : ∀ b : UInt8, isCTL b = true → b < 0x80 := fun b hb => lt_of_isCTL hb
    refine ⟨fun b hb => ?_, by rwa [List.append_nil], hquery⟩
    rw [List.append_nil] at hb
    refine ⟨fun heq => hpercent (heq ▸ hb), fun heq => ?_, fun heq => ?_, ?_⟩
    · rcases List.mem_cons.mp hb with hb | hb
      · exact hslash.1 (hb.symm.trans heq)
      · exact hquestion (heq ▸ hb)
    · rcases List.mem_cons.mp hb with hb | hb
      · exact hslash.2 (hb.symm.trans heq)
      · exact hhash (heq ▸ hb)
    · by_contra hctl'
      have hctl' : isCTL b = true := by simpa using hctl'
      exact absurd (hctl b (mem_hexEscapeNonASCII hb (hlow b hctl'))) (by simp [hctl'])
  · exact absurd h (by simp)

/-- **What survives is read back** by the client. -/
theorem parse_of_survives (hhost : ∀ b ∈ host, HostByte b) (hauth : parseAuthority host = some host)
    {p q : Bytes} (hq : q ≠ []) (hclean : ∀ b ∈ q, TargetByte b) (h : Survives (slash :: p) q) :
    ∃ u, parse parseAuthority (location (printURL host (slash :: p) q)) = some u ∧
      setPath (hexEscapeNonASCII (slash :: p)) = some u.path ∧ u.path.path = slash :: p ∧
      u.rawQuery = q := by
  have hrooted : slash :: (hexEscapeNonASCII p ++ question :: q) =
      hexEscapeNonASCII (slash :: p) ++ question :: q := by
    rw [hexEscapeNonASCII_cons slash p]
    rfl
  have hprinted : ∀ b ∈ hexEscapeNonASCII (slash :: p),
      b ≠ question ∧ b ≠ hash ∧ isCTL b = false := by
    intro b hb
    rcases mem_encode hb with rfl | ⟨n, hn, rfl⟩ | ⟨hb, -⟩
    · decide
    · have := pathByte_hexDigit false hn
      exact ⟨this.1, this.2.1, this.2.2.2⟩
    · exact (h.plain b hb).2
  have hcutHash : cut hash (hexEscapeNonASCII (slash :: p) ++ question :: q) =
      (hexEscapeNonASCII (slash :: p) ++ question :: q, []) := by
    refine cut_of_notMem fun hmem => ?_
    rcases List.mem_append.mp hmem with hb | hb
    · exact (hprinted _ hb).2.1 rfl
    · rcases List.mem_cons.mp hb with hb | hb
      · exact absurd hb (by decide)
      · exact (h.ascii _ hb).1 rfl
  have hcutQuestion : cut question (hexEscapeNonASCII (slash :: p) ++ question :: q) =
      (hexEscapeNonASCII (slash :: p), q) := by
    rw [cut_append fun hb => (hprinted _ hb).1 rfl, cut_cons_self, List.append_nil]
  have hctl : (hexEscapeNonASCII (slash :: p) ++ question :: q).any isCTL = false := by
    rw [List.any_eq_false]
    intro b hb
    rcases List.mem_append.mp hb with hb | hb
    · simp [(hprinted b hb).2.2]
    · rcases List.mem_cons.mp hb with rfl | hb
      · decide
      · simp [(hclean b hb).2]
  have hset : setPath (hexEscapeNonASCII (slash :: p)) = some ⟨slash :: p,
      if hexEscapeNonASCII (slash :: p) = escape (slash :: p) then []
      else hexEscapeNonASCII (slash :: p)⟩ := by
    rw [setPath, unescape_hexEscapeNonASCII fun hb => (h.plain _ hb).1 rfl]
    rfl
  have hparse := parse_http hhost hauth (hexEscapeNonASCII p ++ question :: q)
  rw [hrooted] at hparse
  simp only [hcutHash, hctl, hcutQuestion, unescape_nil, Bool.false_eq_true, if_false] at hparse
  rw [hset, Option.bind_some, Option.bind_some] at hparse
  have hloc : location (printURL host (slash :: p) q) =
      http ++ (slash :: slash :: (host ++ (hexEscapeNonASCII (slash :: p) ++ question :: q))) := by
    rw [printURL, location_eq hhost hq hclean,
      map_newlineToSpace_of_clean fun b hb => (h.plain b hb).2.2.2,
      hexEscapeNonASCII_of_ascii fun b hb => (h.ascii b hb).2]
  exact ⟨_, hloc ▸ hparse, hset, rfl, rfl⟩

/-- **What survives reaches the next server as it was.** -/
theorem received_of_survives (hhost : ∀ b ∈ host, HostByte b)
    (hauth : parseAuthority host = some host) {target : Target} {p : Bytes}
    (hpath : target.path = slash :: p) (hq : target.rawQuery ≠ [])
    (h : Survives target.path target.rawQuery) :
    received parseAuthority (location (printURL host target.path target.rawQuery)) =
      some target := by
  rw [hpath] at h ⊢
  obtain ⟨u, hparse, hset, hu, hquery⟩ := parse_of_survives hhost hauth hq target.clean h
  have hrooted : setPath (slash :: hexEscapeNonASCII p) = some u.path := by
    rw [← hset, hexEscapeNonASCII_cons]
    rfl
  obtain ⟨path, hreceived, -, hkeep⟩ := received_resolveReference hrooted
  have hsame : path = target.path := by
    rw [hkeep fun hd => h.noDots ((hasDots_printed hset hu).mp hd), hu, hpath]
  rw [received, hparse, Option.bind_some, hreceived, hsame, hquery, Target.of, dif_pos target.clean]

/-- **What survives the way to the next server**, exactly. -/
theorem received_iff (hhost : ∀ b ∈ host, HostByte b) (hauth : parseAuthority host = some host)
    {target : Target} {p : Bytes} (hpath : target.path = slash :: p) (hq : target.rawQuery ≠ []) :
    received parseAuthority (location (printURL host target.path target.rawQuery)) = some target ↔
      Survives target.path target.rawQuery :=
  ⟨survives_of_received hhost hauth hpath hq, received_of_survives hhost hauth hpath hq⟩

end Redirect

/-! ### The client -/

/-- `redirectBehavior`, for the answers that are followed: the method of the next request,
and whether the body is sent again. -/
def redirectBehavior (status : ℕ) (method : String) : String × Bool :=
  if status = 301 ∨ status = 302 ∨ status = 303 then
    (if method = "GET" ∨ method = "HEAD" then method else "GET", false)
  else (method, true)

/-- The request that the server named by a `Location` receives from a client that follows
it. -/
def follow (parseAuthority : Bytes → Option Bytes) (status : ℕ) (loc : Bytes) (r : Request) :
    Option Request :=
  (received parseAuthority loc).map fun target =>
    let (method, includeBody) := redirectBehavior status r.method
    ⟨method, target, r.contentType, if includeBody then r.body else .ok []⟩

/-! ### Forms -/

/-- The largest form that is read. -/
def maxFormSize : ℕ := 10485760

/-- `parsePostForm`: the values in the body, if it is a form, and the request with the body
read. -/
def parsePostForm (r : Request) : Option (Values × Request) :=
  if r.contentType.form then
    match r.body with
    | .error _ => none
    | .ok b =>
        if maxFormSize < b.length then none
        else if (parseQuery b).2 then some ((parseQuery b).1, { r with body := .ok [] })
        else none
  else some ([], r)

/-- `ParseForm`: the values in the body, where the method has one, and those in the query.
Without a result it failed. -/
def parseForm (r : Request) : Option (Values × Request) :=
  let post :=
    if r.method = "POST" ∨ r.method = "PUT" ∨ r.method = "PATCH" then
      if r.contentType.valid then parsePostForm r else none
    else some ([], r)
  post.bind fun (values, r') =>
    if (parseQuery r.target.rawQuery).2 then some (values ++ (parseQuery r.target.rawQuery).1, r')
    else none

/-- Reading a form leaves the method and the target alone. -/
theorem parseForm_keeps {r r' : Request} {values : Values} (h : parseForm r = some (values, r')) :
    r'.method = r.method ∧ r'.target = r.target := by
  have hpost : ∀ {values r'}, parsePostForm r = some (values, r') →
      r'.method = r.method ∧ r'.target = r.target := by
    intro values r' h
    unfold parsePostForm at h
    split at h
    · split at h
      · exact absurd h (by simp)
      split at h
      · exact absurd h (by simp)
      split at h
      · obtain rfl := congrArg Prod.snd (Option.some.inj h)
        exact ⟨rfl, rfl⟩
      · exact absurd h (by simp)
    · obtain rfl := congrArg Prod.snd (Option.some.inj h)
      exact ⟨rfl, rfl⟩
  unfold parseForm at h
  obtain ⟨⟨post, r''⟩, hread, h⟩ := Option.bind_eq_some_iff.mp h
  simp only at h
  split at h
  · obtain rfl : r'' = r' := congrArg Prod.snd (Option.some.inj h)
    split at hread
    · split at hread
      · exact hpost hread
      · exact absurd hread (by simp)
    · obtain rfl := congrArg Prod.snd (Option.some.inj hread)
      exact ⟨rfl, rfl⟩
  · exact absurd h (by simp)

end Http
