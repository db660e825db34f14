import Mathlib.Data.Int.Notation
import Mathlib.Data.List.Basic

/-!
# Addresses with a Port

`net.SplitHostPort` takes an address of the form `host:port`, `[host]:port` or
`[host%zone]:port` apart: the port stands behind the last colon, and a host with colons of
its own needs the brackets, which are not part of it.

## Main results

* `splitHostPort_host`: a host that was split off has no brackets.
* `splitHostPort_joined_iff`: **a host and a port joined by a colon** are split into what
  they were exactly when the host has no colon.
* `toString_port`: a number can be a port.
-/

namespace Golang

/-! ### Splitting -/

/-- The position of the last `c` in a text. -/
def lastIndex (c : Char) : List Char → Option ℕ
  | [] => none
  | x :: rest =>
      match lastIndex c rest with
      | some i => some (i + 1)
      | none => if x = c then some 0 else none

/-- The text of a `net.AddrError`. -/
def addrErr (addr why : String) : String :=
  if addr = "" then why else "address " ++ addr ++ ": " ++ why

/-- Two of the errors of `net.SplitHostPort`. -/
def missingPort : String := "missing port in address"

@[inherit_doc missingPort]
def tooManyColons : String := "too many colons in address"

/-- The end of `net.SplitHostPort`: there is no bracket behind the positions `j` and `k`,
and the port starts behind position `i`. -/
def splitPort (hostport : String) (host : List Char) (i j k : ℕ) :
    Except String (String × String) :=
  if '[' ∈ hostport.toList.drop j then .error (addrErr hostport "unexpected '[' in address")
  else if ']' ∈ hostport.toList.drop k then
    .error (addrErr hostport "unexpected ']' in address")
  else .ok (String.ofList host, String.ofList (hostport.toList.drop (i + 1)))

/-- `net.SplitHostPort`. -/
def splitHostPort (hostport : String) : Except String (String × String) :=
  let s := hostport.toList
  match lastIndex ':' s with
  | none => .error (addrErr hostport missingPort)
  | some i =>
      if s.head? = some '[' then
        -- the first `]` is expected just before the last colon
        match s.idxOf? ']' with
        | none => .error (addrErr hostport "missing ']' in address")
        | some e =>
            if e + 1 = s.length then .error (addrErr hostport missingPort)
            else if e + 1 = i then splitPort hostport ((s.take e).drop 1) i 1 (e + 1)
            else if s[e + 1]? = some ':' then .error (addrErr hostport tooManyColons)
            else .error (addrErr hostport missingPort)
      else if ':' ∈ s.take i then .error (addrErr hostport tooManyColons)
      else splitPort hostport (s.take i) i 0 0

/-! ### The last position -/

/-- The position behind which there is no other. -/
theorem lastIndex_append {c : Char} (a : List Char) {b : List Char} (hb : c ∉ b) :
    lastIndex c (a ++ c :: b) = some a.length := by
  have hnone : lastIndex c b = none := by
    induction b with
    | nil => rfl
    | cons x b ih =>
        rw [List.mem_cons, not_or] at hb
        rw [lastIndex, ih hb.2, if_neg fun h => hb.1 h.symm]
  induction a with
  | nil => rw [List.nil_append, lastIndex, hnone, if_pos rfl, List.length_nil]
  | cons x a ih => rw [List.cons_append, lastIndex, ih, List.length_cons]

/-! ### What is split off -/

/-- Neither bracket occurs in the text. -/
def Unbracketed (s : List Char) : Prop := '[' ∉ s ∧ ']' ∉ s

/-- What the last checks let through. -/
theorem splitPort_ok {hostport : String} {host : List Char} {i j k : ℕ} {p : String × String}
    (h : splitPort hostport host i j k = .ok p) :
    '[' ∉ hostport.toList.drop j ∧ ']' ∉ hostport.toList.drop k ∧
      p.1 = String.ofList host := by
  rw [splitPort] at h
  split at h
  · cases h
  split at h
  · cases h
  rename_i hopen hclose
  obtain rfl := Except.ok.inj h
  exact ⟨hopen, hclose, rfl⟩

/-- Before the first position of a character it does not occur. -/
theorem not_mem_take_of_idxOf? {c : Char} {s : List Char} {e : ℕ} (h : s.idxOf? c = some e) :
    c ∉ s.take e := by
  obtain ⟨hlt, -, hbefore⟩ := List.idxOf?_eq_some_iff.mp h
  intro hmem
  obtain ⟨k, hk, heq⟩ := List.mem_take_iff_getElem.mp hmem
  exact hbefore k (by omega) heq

/-- **A host that was split off has no brackets.** -/
theorem splitHostPort_host {hostport host port : String}
    (h : splitHostPort hostport = .ok (host, port)) : Unbracketed host.toList := by
  simp only [splitHostPort] at h
  split at h
  · cases h
  split at h
  · split at h
    · cases h
    rename_i e he
    split at h
    · cases h
    split at h
    · -- the host stands between the brackets
      obtain ⟨hopen, -, rfl⟩ := splitPort_ok h
      rw [String.toList_ofList]
      refine ⟨fun hmem => hopen ?_, fun hmem => ?_⟩
      · rw [List.drop_take] at hmem
        exact List.mem_of_mem_take hmem
      · exact not_mem_take_of_idxOf? he (List.mem_of_mem_drop hmem)
    · split at h <;> cases h
  · split at h
    · cases h
    · obtain ⟨hopen, hclose, rfl⟩ := splitPort_ok h
      rw [String.toList_ofList]
      exact ⟨fun hmem => hopen (List.mem_of_mem_take hmem),
        fun hmem => hclose (List.mem_of_mem_take hmem)⟩

/-! ### Joining -/

/-- How an address that was put together from a host and a port is read. -/
theorem splitHostPort_joined {host port : String} (hhost : Unbracketed host.toList)
    (hport : Unbracketed port.toList) (hcolon : ':' ∉ port.toList) :
    splitHostPort (host ++ ":" ++ port) =
      if ':' ∈ host.toList then .error (addrErr (host ++ ":" ++ port) tooManyColons)
      else .ok (host, port) := by
  have hlist : (host ++ ":" ++ port).toList = host.toList ++ ':' :: port.toList := by simp
  have hlast := lastIndex_append host.toList hcolon
  have hhead : (host.toList ++ ':' :: port.toList).head? ≠ some '[' := by
    intro hhead
    rcases hcs : host.toList with _ | ⟨x, cs⟩
    · rw [hcs] at hhead
      cases hhead
    · rw [hcs] at hhead
      obtain rfl := Option.some.inj hhead
      exact hhost.1 (hcs ▸ List.mem_cons_self)
  have htake : (host.toList ++ ':' :: port.toList).take host.toList.length = host.toList :=
    List.take_left
  have hdrop : (host.toList ++ ':' :: port.toList).drop (host.toList.length + 1) =
      port.toList := by
    rw [List.drop_append]
    simp
  have hopen : '[' ∉ host.toList ++ ':' :: port.toList := by
    simp [hhost.1, hport.1]
  have hclose : ']' ∉ host.toList ++ ':' :: port.toList := by
    simp [hhost.2, hport.2]
  simp only [splitHostPort, hlist, hlast, if_neg hhead, htake]
  split
  · rfl
  · rw [splitPort, hlist, List.drop_zero, if_neg hopen, if_neg hclose, hdrop,
      String.ofList_toList, String.ofList_toList]

/-- **A host and a port joined by a colon** are split into what they were exactly when the
host has no colon. -/
theorem splitHostPort_joined_iff {host port : String} (hhost : Unbracketed host.toList)
    (hport : Unbracketed port.toList) (hcolon : ':' ∉ port.toList) :
    splitHostPort (host ++ ":" ++ port) = .ok (host, port) ↔ ':' ∉ host.toList := by
  rw [splitHostPort_joined hhost hport hcolon]
  split
  · rename_i hmem
    exact ⟨fun h => (nomatch h), fun h => absurd hmem h⟩
  · rename_i hmem
    exact ⟨fun _ => hmem, fun _ => rfl⟩

/-! ### Port numbers -/

/-- A decimal number is written with digits. -/
theorem isDigit_of_mem_toString {n : ℕ} {c : Char} (h : c ∈ (toString n).toList) :
    c.isDigit = true := by
  rw [Nat.toString_eq_ofList_toDigits, String.toList_ofList] at h
  exact Nat.isDigit_of_mem_toDigits (by decide) (Nat.le_refl 10) h

/-- A number is written with digits, and a minus sign if it needs one. -/
theorem digit_or_minus_of_mem_toString {n : ℤ} {c : Char} (h : c ∈ (toString n).toList) :
    c.isDigit = true ∨ c = '-' := by
  cases n with
  | ofNat n => exact .inl (isDigit_of_mem_toString h)
  | negSucc n =>
      have happend : (toString (Int.negSucc n)).toList = '-' :: (toString (n + 1)).toList := by
        have htext : toString (Int.negSucc n) = "-" ++ toString (n + 1) := rfl
        rw [htext, String.toList_append]
        rfl
      rw [happend, List.mem_cons] at h
      exact h.symm.imp isDigit_of_mem_toString id

/-- **A number can be a port**: it is written without brackets and colons. -/
theorem toString_port (n : ℤ) :
    Unbracketed (toString n).toList ∧ ':' ∉ (toString n).toList := by
  have hother : ∀ c : Char, c.isDigit = false → c ≠ '-' → c ∉ (toString n).toList := by
    intro c hdigit hminus hmem
    rcases digit_or_minus_of_mem_toString hmem with h | h
    · rw [hdigit] at h
      cases h
    · exact hminus h
  exact ⟨⟨hother '[' (by decide) (by decide), hother ']' (by decide) (by decide)⟩,
    hother ':' (by decide) (by decide)⟩

end Golang
