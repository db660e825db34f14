import Mathlib.Data.List.Perm.Basic
import DistSql.Service

/-!
# The Grammar of a Request

Which bodies `parseStatements` accepts, and what it reads from them. The grammar is stated on
JSON documents, with no reference to the Go types that the function decodes into: a request is a
list of texts, or a list of lists that each begin with a text and go on with parameters. A
parameter is a text, a truth value or a number, given by itself or as a member of an object.

`parseStatements` finds its way by trying: it decodes into a list of texts, and if that fails into
a list of lists. The theorem says that nothing is lost between the two.

An object with several members of one key is where a document says more than a Go map can
hold. The grammar is stated with the choice of the members that count, and `lastMembers` is the
choice that the code makes.

## Main results

* `constructParam_ok_iff`: the values that become parameters are the scalars.
* `parseStatements_sound`: what is read is what the document says.
* `parseStatements_complete`: every document of the grammar is accepted.
* `parse_iff_grammar`: the two together.
-/

open Golang Url

namespace DistSql

/-! ### The grammar -/

section Grammar

variable (float : Number → Option UInt64)
  (counts : List (String × Json) → List (String × Json))

/-- A **scalar** and the value that it stands for. -/
inductive Scalar : Json → ParamValue → Prop
  | str (s : String) : Scalar (.str s) (.s s)
  | bool (b : Bool) : Scalar (.bool b) (.b b)
  | num {n : Number} {d : UInt64} (h : float n = some d) : Scalar (.num n) (.d d)

/-- A member of an object whose value is a scalar gives a parameter of its name. -/
def Named (m : String × Json) (p : Parameter) : Prop :=
  ∃ v, Scalar float m.2 v ∧ p = ⟨some v, m.1⟩

/-- An **item** and its parameters: a scalar gives one without a name, an object one for each
member that counts, in any order. The numbers of the other members have to be in range. -/
inductive Item : Json → List Parameter → Prop
  | scalar {j : Json} {v : ParamValue} (h : Scalar float j v) : Item j [⟨some v, ""⟩]
  | object {ms : List (String × Json)} {ps qs : List Parameter}
      (hrange : (Json.obj ms).inRange float = true)
      (h : List.Forall₂ (Named float) (counts ms) qs) (hperm : ps.Perm qs) : Item (.obj ms) ps

/-- A statement that is a text alone; `null` is the empty one. -/
inductive BareText : Json → Statement → Prop
  | null : BareText .null ⟨"", []⟩
  | str (s : String) : BareText (.str s) ⟨s, []⟩

/-- A statement with items: its parameters are theirs, in order. -/
inductive WithItems : Json → Statement → Prop
  | intro {sql : String} {items : List Json} {pss : List (List Parameter)}
      (h : List.Forall₂ (Item float counts) items pss) :
      WithItems (.arr (.str sql :: items)) ⟨sql, pss.flatten⟩

/-- A document **means** statements: it is a list of texts or a list of statements with items,
not empty, and there is one statement for each element, in order. -/
inductive Means : Json → List Statement → Prop
  | texts {elems : List Json} {sts : List Statement} (hne : elems ≠ [])
      (h : List.Forall₂ BareText elems sts) : Means (.arr elems) sts
  | withItems {elems : List Json} {sts : List Statement} (hne : elems ≠ [])
      (h : List.Forall₂ (WithItems float counts) elems sts) : Means (.arr elems) sts

/-- A body **is in the grammar**: it is a document that means statements. -/
def InGrammar (lib : Library) (counts : List (String × Json) → List (String × Json)) (b : Bytes) :
    Prop :=
  ∃ doc, lib.json b = some doc ∧ ∃ sts, Means lib.float counts doc sts

end Grammar

/-! ### Parameters -/

section Parse

variable {float : Number → Option UInt64} {lib : Library} {i k : ℕ}

/-- **The values that become parameters are the scalars.** -/
theorem constructParam_ok_iff {j : Json} {v : Any} (hv : j.toAny float = some v) {name : String}
    {p : Parameter} :
    constructParam name v = .ok p ↔ ∃ pv, Scalar float j pv ∧ p = ⟨some pv, name⟩ := by
  constructor
  · intro h
    cases j with
    | null =>
        obtain rfl := Option.some.inj hv
        simp [constructParam] at h
    | bool b =>
        obtain rfl := Option.some.inj hv
        exact ⟨_, .bool b, (Except.ok.inj h).symm⟩
    | num n =>
        obtain ⟨d, hd, rfl⟩ := Option.map_eq_some_iff.mp hv
        exact ⟨_, .num hd, (Except.ok.inj h).symm⟩
    | str s =>
        obtain rfl := Option.some.inj hv
        exact ⟨_, .str s, (Except.ok.inj h).symm⟩
    | arr elems =>
        obtain ⟨vs, -, rfl⟩ := Option.map_eq_some_iff.mp hv
        simp [constructParam] at h
    | obj ms =>
        obtain ⟨m, -, rfl⟩ := Option.map_eq_some_iff.mp hv
        simp [constructParam] at h
  · rintro ⟨pv, hscalar, rfl⟩
    cases hscalar with
    | str s | bool b =>
        obtain rfl := Option.some.inj hv
        rfl
    | num hd =>
        simp only [Json.toAny, hd, Option.map_some, Option.some.injEq] at hv
        rw [← hv]
        rfl

/-- The members of a map become the parameters of the members that count. -/
theorem constructParam_members {ms : List (String × Json)} {m : List (String × Any)}
    (hm : Json.toMembers float [] ms = some m) {qs : List Parameter} :
    List.Forall₂ (fun (a : String × Any) q => constructParam a.1 a.2 = .ok q) m qs →
      List.Forall₂ (Named float) (lastMembers ms) qs := by
  refine forall₂_trans (fun a b q hab hq => ?_) (Json.toMembers_nil hm)
  obtain ⟨pv, hscalar, rfl⟩ := (constructParam_ok_iff hab.2).mp hq
  exact ⟨pv, hscalar, by rw [hab.1]⟩

/-- Only an object becomes a map. -/
theorem toAny_eq_map {j : Json} {m : List (String × Any)} (h : j.toAny float = some (.map m)) :
    ∃ ms, j = .obj ms ∧ Json.toMembers float [] ms = some m := by
  cases j <;> simp_all [Json.toAny]

/-- An item that is not an object is a parameter without a name. -/
theorem itemParams_single {v : Any} (hv : ¬∃ m, v = .map m) :
    itemParams lib i k v = (constructParam "" v).map fun p => [p] := by
  cases v with
  | map m => exact absurd ⟨m, rfl⟩ hv
  | _ => rfl

/-- What is read from an item is what it says. -/
theorem itemParams_sound {j : Json} {v : Any} (hv : j.toAny lib.float = some v)
    {ps : List Parameter} (h : itemParams lib i k v = .ok ps) :
    Item lib.float lastMembers j ps := by
  by_cases hmap : ∃ m, v = .map m
  · obtain ⟨m, rfl⟩ := hmap
    obtain ⟨ms, rfl, hms⟩ := toAny_eq_map hv
    -- the members in Go's order, and then in the order of the document
    have hordered := mapM_eq_ok_iff.mp h
    obtain ⟨qs, hqs, hperm⟩ := List.perm_comp_forall₂ (lib.order_perm i k m).symm hordered
    refine .object ?_ (constructParam_members hms hqs) hperm.symm
    rw [← Json.isSome_toAny, hv]
    rfl
  · rw [itemParams_single hmap] at h
    rcases hp : constructParam "" v with e | p
    · simp [hp, Except.map] at h
    · obtain ⟨pv, hscalar, rfl⟩ := (constructParam_ok_iff hv).mp hp
      rw [hp] at h
      obtain rfl := Except.ok.inj h
      exact .scalar hscalar

/-- Every item of the grammar is decoded, and its parameters are read. -/
theorem itemParams_complete {j : Json} {ps : List Parameter}
    (h : Item lib.float lastMembers j ps) :
    ∃ v, j.toAny lib.float = some v ∧ ∀ i k, ∃ ps', itemParams lib i k v = .ok ps' := by
  cases h with
  | scalar hscalar =>
      cases hscalar with
      | str s => exact ⟨_, rfl, fun i k => ⟨_, rfl⟩⟩
      | bool b => exact ⟨_, rfl, fun i k => ⟨_, rfl⟩⟩
      | num hd => exact ⟨.float64 _, by rw [Json.toAny, hd]; rfl, fun i k => ⟨_, rfl⟩⟩
  | @object ms _ qs hrange hqs hperm =>
      rw [← Json.isSome_toAny] at hrange
      obtain ⟨v, hv⟩ := Option.isSome_iff_exists.mp hrange
      obtain ⟨m, hm, rfl⟩ := Option.map_eq_some_iff.mp hv
      refine ⟨_, hv, fun i k => exists_mapM_ok fun a ha => ?_⟩
      -- a member of the map comes from one that counts, and that one is a scalar
      have hmem : a ∈ m := (lib.order_perm i k m).mem_iff.mp ha
      obtain ⟨b, hb, hba⟩ := exists_of_forall₂_right (Json.toMembers_nil hm) hmem
      obtain ⟨q, -, pv, hscalar, -⟩ := exists_of_forall₂_left hqs hb
      exact ⟨_, (constructParam_ok_iff hba.2).mpr ⟨pv, hscalar, rfl⟩⟩

/-! ### Statements -/

/-- What `parseStatement` reads. -/
theorem parseStatement_ok_iff {items : List Any} {st : Statement} :
    parseStatement lib i items = .ok st ↔ ∃ sql rest pss, items = .string sql :: rest ∧
      (rest.zipIdx.mapM fun x => itemParams lib i x.2 x.1) = .ok pss ∧ st = ⟨sql, pss.flatten⟩ := by
  constructor
  · intro h
    unfold parseStatement at h
    split at h
    · simp at h
    · rename_i sql rest
      rcases hpss : rest.zipIdx.mapM fun x => itemParams lib i x.2 x.1 with e | pss
      · simp [hpss, Except.map] at h
      · rw [hpss] at h
        exact ⟨sql, rest, pss, rfl, hpss, (Except.ok.inj h).symm⟩
    · simp at h
  · rintro ⟨sql, rest, pss, rfl, hpss, rfl⟩
    rw [parseStatement, hpss]
    rfl

/-- What is read from a statement with items is what it says. -/
theorem parseStatement_sound {j : Json} {items : List Any}
    (hitems : j.toSlice lib.float = some items) {st : Statement}
    (h : parseStatement lib i items = .ok st) : WithItems lib.float lastMembers j st := by
  obtain ⟨sql, vs, pss, rfl, hpss, rfl⟩ := parseStatement_ok_iff.mp h
  cases j with
  | arr elems =>
      rcases elems with _ | ⟨head, rest⟩
      · cases hitems
      obtain ⟨v, hv, hrest⟩ := Option.bind_eq_some_iff.mp hitems
      obtain ⟨vs, hvs, heq⟩ := Option.map_eq_some_iff.mp hrest
      obtain ⟨rfl, rfl⟩ := List.cons.inj heq
      obtain rfl : head = .str sql := by cases head <;> simp_all [Json.toAny]
      rw [Json.toAnys_eq_mapM] at hvs
      exact .intro (forall₂_of_two_loops (fun a b k ps ha hps => itemParams_sound ha hps) hvs hpss)
  | null => cases hitems
  | bool | num | str | obj => simp [Json.toSlice] at hitems

/-- Every statement of the grammar is decoded and read. -/
theorem parseStatement_complete {j : Json} {st : Statement}
    (h : WithItems lib.float lastMembers j st) :
    ∃ items, j.toSlice lib.float = some items ∧
      ∀ i, ∃ st', parseStatement lib i items = .ok st' := by
  obtain ⟨hitems⟩ := h
  rename_i sql items pss
  have hread : ∀ i, ∃ vs, items.mapM (Json.toAny lib.float) = some vs ∧
      ∃ pss', (vs.zipIdx.mapM fun (v, k) => itemParams lib i k v) = .ok pss' := by
    refine fun i => exists_two_loops fun a ha => ?_
    obtain ⟨ps, -, hps⟩ := exists_of_forall₂_left hitems ha
    obtain ⟨v, hv, hread⟩ := itemParams_complete hps
    exact ⟨v, hv, hread i⟩
  obtain ⟨vs, hvs, -⟩ := hread 0
  refine ⟨.string sql :: vs, ?_, fun i => ?_⟩
  · rw [Json.toSlice, Json.toAnys, Json.toAnys_eq_mapM, hvs]
    rfl
  · obtain ⟨vs', hvs', pss', hpss'⟩ := hread i
    obtain rfl : vs = vs' := Option.some.inj (hvs.symm.trans hvs')
    exact ⟨_, parseStatement_ok_iff.mpr ⟨sql, vs, pss', rfl, hpss', rfl⟩⟩

/-- A text alone. -/
theorem bareText_iff {j : Json} {st : Statement} :
    BareText j st ↔ ∃ s, j.toText = some s ∧ st = ⟨s, []⟩ := by
  constructor
  · rintro (_ | s)
    · exact ⟨"", rfl, rfl⟩
    · exact ⟨s, rfl, rfl⟩
  · rintro ⟨s, hs, rfl⟩
    cases j with
    | null =>
        obtain rfl := Option.some.inj hs
        exact .null
    | str t =>
        obtain rfl := Option.some.inj hs
        exact .str t
    | bool | num | arr | obj => simp [Json.toText] at hs

/-- A statement with items is not a text. -/
theorem WithItems.toText_eq_none {counts : List (String × Json) → List (String × Json)}
    {j : Json} {st : Statement} (h : WithItems float counts j st) : j.toText = none := by
  obtain ⟨-⟩ := h
  rfl

/-! ### Bodies -/

/-- **What is read from a body is what its document says.** -/
theorem parseStatements_sound {b : Bytes} {sts : List Statement}
    (h : parseStatements lib b = .ok sts) :
    ∃ doc, lib.json b = some doc ∧ Means lib.float lastMembers doc sts := by
  rcases hdoc : lib.json b with _ | doc
  · simp [parseStatements, hdoc] at h
  refine ⟨doc, rfl, ?_⟩
  simp only [parseStatements, hdoc, Option.bind_some] at h
  rcases htexts : doc.toTexts with _ | texts
  · simp only [htexts] at h
    rcases hslices : doc.toSlices lib.float with _ | slices
    · simp [hslices] at h
    simp only [hslices] at h
    cases doc with
    | arr elems =>
        refine .withItems ?_ (forall₂_of_two_loops
          (fun a b k st ha hst => parseStatement_sound ha hst) hslices h)
        rintro rfl
        simp [Json.toTexts] at htexts
    | null => simp [Json.toTexts] at htexts
    | bool | num | str | obj => simp [Json.toSlices] at hslices
  · simp only [htexts] at h
    split at h
    · simp at h
    rename_i hne
    obtain rfl := Except.ok.inj h
    cases doc with
    | arr elems =>
        have hloop := mapM_eq_some_iff.mp htexts
        refine .texts ?_ ?_
        · rintro rfl
          exact hne (List.forall₂_nil_left_iff.mp hloop)
        · rw [List.forall₂_map_right_iff]
          exact hloop.imp fun j s hs => bareText_iff.mpr ⟨s, hs, rfl⟩
    | null =>
        obtain rfl := Option.some.inj htexts
        exact absurd rfl hne
    | bool | num | str | obj => simp [Json.toTexts] at htexts

/-- **Every document of the grammar is accepted.** -/
theorem parseStatements_complete {b : Bytes} {doc : Json} (hdoc : lib.json b = some doc)
    {sts : List Statement} (h : Means lib.float lastMembers doc sts) :
    ∃ sts', parseStatements lib b = .ok sts' := by
  simp only [parseStatements, hdoc, Option.bind_some]
  cases h with
  | @texts elems _ hne helems =>
      obtain ⟨texts, htexts⟩ := exists_mapM_some (f := Json.toText) fun j hj => by
        obtain ⟨st, -, hst⟩ := exists_of_forall₂_left helems hj
        obtain ⟨s, hs, -⟩ := bareText_iff.mp hst
        exact ⟨s, hs⟩
      have hnil : texts ≠ [] := by
        rintro rfl
        exact hne (List.forall₂_nil_right_iff.mp (mapM_eq_some_iff.mp htexts))
      simp only [Json.toTexts, htexts, if_neg hnil]
      exact ⟨_, rfl⟩
  | @withItems elems _ hne helems =>
      have htexts : (Json.arr elems).toTexts = none := by
        obtain ⟨j, rest, rfl⟩ := List.exists_cons_of_ne_nil hne
        obtain ⟨st, -, hst, -, -⟩ := List.forall₂_cons_left_iff.mp helems
        simp [Json.toTexts, List.mapM_cons, hst.toText_eq_none]
      obtain ⟨slices, hslices, sts', hsts'⟩ :=
        exists_two_loops (g := Json.toSlice lib.float)
          (f := fun p => parseStatement lib p.2 p.1) fun j hj => by
            obtain ⟨st, -, hst⟩ := exists_of_forall₂_left helems hj
            exact parseStatement_complete hst
      simp only [htexts, Json.toSlices, hslices]
      exact ⟨sts', hsts'⟩

end Parse

/-- **`parseStatements` accepts exactly its grammar**, and reads what the document says: one
statement for each element, in order, with its text and its parameters. Any other body is an
error. -/
theorem parse_iff_grammar (lib : Library) (b : Bytes) :
    ((∃ sts, parseStatements lib b = .ok sts) ↔ InGrammar lib lastMembers b) ∧
      (∀ sts, parseStatements lib b = .ok sts →
        ∃ doc, lib.json b = some doc ∧ Means lib.float lastMembers doc sts) ∧
      (¬InGrammar lib lastMembers b → ∃ e, parseStatements lib b = .error e) := by
  have hiff : (∃ sts, parseStatements lib b = .ok sts) ↔ InGrammar lib lastMembers b := by
    constructor
    · rintro ⟨sts, h⟩
      obtain ⟨doc, hdoc, hmeans⟩ := parseStatements_sound h
      exact ⟨doc, hdoc, sts, hmeans⟩
    · rintro ⟨doc, hdoc, sts, hmeans⟩
      exact parseStatements_complete hdoc hmeans
  refine ⟨hiff, fun sts => parseStatements_sound, fun hnot => ?_⟩
  rcases h : parseStatements lib b with e | sts
  · exact ⟨e, rfl⟩
  · exact absurd (hiff.mp ⟨sts, h⟩) hnot

/-- A body with two members of one key, of which the first is not a scalar. -/
def repeatedKey : Bytes := ascii "[[\"SELECT ?\", \x7b\"k\": [], \"k\": true\x7d]]"

/-- The library for that body. -/
def repeatedLibrary : Library :=
  oneDocument repeatedKey (by decide)
    (.arr [.arr [.str "SELECT ?", .obj [("k", .arr []), ("k", .bool true)]]])

/-- **An object may have a member that is not a scalar**, if a later member has its key: the
body is accepted, with one parameter for the two members. -/
theorem repeated_key_accepted :
    parseStatements repeatedLibrary repeatedKey =
        .ok [⟨"SELECT ?", [⟨some (.b true), "k"⟩]⟩] ∧
      ¬InGrammar repeatedLibrary id repeatedKey := by
  refine ⟨rfl, ?_⟩
  rintro ⟨doc, hdoc, sts, hmeans⟩
  obtain rfl := Option.some.inj ((oneDocument_json repeatedKey _ _).symm.trans hdoc)
  cases hmeans with
  | texts _ h =>
      obtain ⟨st, -, hst, -, -⟩ := List.forall₂_cons_left_iff.mp h
      cases hst
  | withItems _ h =>
      obtain ⟨st, -, hst, -, -⟩ := List.forall₂_cons_left_iff.mp h
      obtain ⟨hitems⟩ := hst
      obtain ⟨ps, -, hps, -, -⟩ := List.forall₂_cons_left_iff.mp hitems
      cases hps with
      | scalar hscalar => cases hscalar
      | object _ hall _ =>
          obtain ⟨q, -, hq, -, -⟩ := List.forall₂_cons_left_iff.mp hall
          obtain ⟨v, hscalar, -⟩ := hq
          cases hscalar

end DistSql
