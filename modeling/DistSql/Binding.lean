import DistSql.Integers
import DistSql.Placeholder

/-!
# The Order of a Map

A Go map has no order, and a `range` over one takes its members in another order each time.
`parseStatements` ranges over the objects among the parameters of a statement, so the list of
parameters that it makes of one body is not the same list each time. What counts is what the
list **binds**: a parameter with a name is bound by its name, and one without a name is bound at
its position in the list.

The positions are where the order shows. An object may have the empty key, and the parameter of
that member has no name. Its position depends on the members that are ranged over before it.

## Main results

* `parseStatement_reachAlike`: a statement without a mixed object binds alike in any order.
* `not_mixed_of_reaching`: one with a mixed object does not.
* `order_independent_iff`: **what a body binds does not depend on the order** exactly when no
  object among its parameters has the empty key next to another key.
-/

open Golang Url Sqlite

namespace DistSql

/-! ### Orders -/

/-- The order in which each map of a request is ranged over: a permutation of its members. -/
structure MapOrder where
  order : ℕ → ℕ → List (String × Any) → List (String × Any)
  perm : ∀ i j m, (order i j m).Perm m

/-- The same library, with another order of the maps. -/
def Library.withOrder (lib : Library) (o : MapOrder) : Library :=
  { lib with order := o.order, order_perm := o.perm }

/-- The order that a library has. -/
def Library.mapOrder (lib : Library) : MapOrder := ⟨lib.order, lib.order_perm⟩

/-- The order with the empty key first. -/
def emptyFirst : MapOrder where
  order _ _ m := m.filter (·.1 == "") ++ m.filter fun a => !(a.1 == "")
  perm _ _ m := List.filter_append_perm _ m

/-- The order with the empty key last. -/
def emptyLast : MapOrder where
  order _ _ m := (m.filter fun a => !(a.1 == "")) ++ m.filter (·.1 == "")
  perm _ _ m := List.perm_append_comm.trans (List.filter_append_perm _ m)

/-! ### What a request binds -/

/-- The value that arguments bind to a placeholder: that of the last one that reaches it. The
first position is 1. -/
def bound (args : List NamedArg) (ph : Placeholder) : Option Value :=
  ((reaching NamedArg.name ph 1 args).getLast?).map NamedArg.value

/-- Statements that **bind the same values**: they have one text, their parameters can be
bound, and they bind the same value to every placeholder. -/
def BindSame (st st' : Statement) : Prop :=
  st.sql = st'.sql ∧ ∃ args args', convertParamsToSQL st.params = .ok args ∧
    convertParamsToSQL st'.params = .ok args' ∧ ∀ ph, bound args ph = bound args' ph

/-- What a body binds **does not depend on the order** of its maps: in any two orders it is
accepted, and the statements that are read bind the same values. -/
def OrderIndependent (lib : Library) (b : Bytes) : Prop :=
  ∀ o o' : MapOrder, ∃ sts sts', parseStatements (lib.withOrder o) b = .ok sts ∧
    parseStatements (lib.withOrder o') b = .ok sts' ∧ List.Forall₂ BindSame sts sts'

/-- An item that is an object. -/
def objectOf : Any → Option (List (String × Any))
  | .map m => some m
  | _ => none

/-- The objects among the parameters of a body. -/
def paramObjects (lib : Library) (b : Bytes) : List (List (String × Any)) :=
  match (lib.json b).bind Json.toTexts with
  | some _ => []
  | none =>
      (((lib.json b).bind (Json.toSlices lib.float)).getD []).flatMap fun items =>
        items.tail.filterMap objectOf

/-- A **mixed** object has the empty key next to another key. -/
def Mixed (m : List (String × Any)) : Prop :=
  "" ∈ m.map Prod.fst ∧ ∃ key ∈ m.map Prod.fst, key ≠ ""

instance : DecidablePred Mixed := fun m =>
  inferInstanceAs (Decidable ("" ∈ m.map Prod.fst ∧ ∃ key ∈ m.map Prod.fst, key ≠ ""))

section Orders

variable {lib : Library} {o o' : MapOrder} {b : Bytes} {i j : ℕ}

/-! ### Parameters -/

/-- A parameter has the name that it is given, and a value. -/
theorem constructParam_name {name : String} {v : Any} {p : Parameter}
    (h : constructParam name v = .ok p) : p.name = name ∧ ∃ pv, p.value = some pv := by
  cases v with
  | int64 | float64 | bool | bytes | string =>
      obtain rfl := Except.ok.inj h
      exact ⟨rfl, _, rfl⟩
  | _ => simp [constructParam] at h

/-- The parameters of an object have its keys as names. -/
theorem constructParams_names {m : List (String × Any)} {ps : List Parameter}
    (h : m.mapM (fun (a : String × Any) => constructParam a.1 a.2) = .ok ps) :
    ps.map Parameter.name = m.map Prod.fst := by
  have hnames := (mapM_eq_ok_iff.mp h).imp fun a p hp => (constructParam_name hp).1
  rw [← List.forall₂_eq_eq_eq, List.forall₂_map_left_iff, List.forall₂_map_right_iff]
  exact hnames.flip

/-- **The parameters of an item in another order** are the same ones, permuted. -/
theorem itemParams_perm {v : Any} {ps : List Parameter}
    (h : itemParams (lib.withOrder o) i j v = .ok ps) :
    ∃ ps', itemParams (lib.withOrder o') i j v = .ok ps' ∧ ps.Perm ps' := by
  by_cases hmap : ∃ m, v = .map m
  · obtain ⟨m, rfl⟩ := hmap
    exact mapM_ok_perm ((o.perm i j m).trans (o'.perm i j m).symm) h
  · rw [itemParams_single hmap] at h ⊢
    exact ⟨ps, h, .refl ps⟩

/-- An item that is not a mixed object binds alike in any order. -/
theorem itemParams_reachAlike {v : Any}
    (hv : ∀ m, v = .map m → (m.map Prod.fst).Nodup ∧ ¬Mixed m) {ps : List Parameter}
    (h : itemParams (lib.withOrder o) i j v = .ok ps) :
    ∃ ps', itemParams (lib.withOrder o') i j v = .ok ps' ∧ ReachAlike Parameter.name ps ps' := by
  by_cases hmap : ∃ m, v = .map m
  · obtain ⟨m, rfl⟩ := hmap
    obtain ⟨ps', hps', hperm⟩ := @itemParams_perm lib o o' i j _ _ h
    refine ⟨ps', hps', ?_⟩
    obtain ⟨hnodup, hmixed⟩ := hv m rfl
    have hkeys : (ps.map Parameter.name).Perm (m.map Prod.fst) := by
      rw [constructParams_names h]
      exact (o.perm i j m).map Prod.fst
    have hnames := hkeys.nodup_iff.mpr hnodup
    by_cases hempty : "" ∈ m.map Prod.fst
    · -- the empty key is alone, so there is one order
      have hall : ∀ name ∈ ps.map Parameter.name, name = "" := fun name hname =>
        by_contra fun hne => hmixed ⟨hempty, name, hkeys.mem_iff.mp hname, hne⟩
      have hlen : ps.length ≤ 1 := by
        rw [List.eq_replicate_of_mem hall, List.nodup_replicate, List.length_map] at hnames
        exact hnames
      rw [eq_of_perm_of_length_le hperm hlen]
      exact .refl ps'
    · refine reachAlike_of_perm hperm (fun p hp hname => hempty ?_) hnames
      exact hkeys.mem_iff.mp (hname ▸ List.mem_map_of_mem hp)
  · rw [itemParams_single hmap] at h ⊢
    exact ⟨ps, h, .refl ps⟩

/-! ### Statements -/

/-- **A statement without a mixed object** has one text and binds alike in any order. -/
theorem parseStatement_reachAlike {items : List Any}
    (hitems : ∀ m, Any.map m ∈ items.tail → (m.map Prod.fst).Nodup ∧ ¬Mixed m) {st : Statement}
    (h : parseStatement (lib.withOrder o) i items = .ok st) :
    ∃ st', parseStatement (lib.withOrder o') i items = .ok st' ∧
      st.sql = st'.sql ∧ ReachAlike Parameter.name st.params st'.params := by
  obtain ⟨sql, rest, pss, rfl, hpss, rfl⟩ := parseStatement_ok_iff.mp h
  obtain ⟨pss', hpss', halike⟩ :=
    mapM_ok_related (g := fun x => itemParams (lib.withOrder o') i x.2 x.1)
      (fun x hx ps hps => itemParams_reachAlike
        (fun m hm => hitems m (hm ▸ List.fst_mem_of_mem_zipIdx hx)) hps) hpss
  exact ⟨_, parseStatement_ok_iff.mpr ⟨sql, rest, pss', rfl, hpss', rfl⟩, rfl, .flatten halike⟩

/-- A bound argument has the name of its parameter. -/
theorem convertParam_name {p : Parameter} {arg : NamedArg} (h : convertParam p = .ok arg) :
    p.name = arg.name := by
  unfold convertParam at h
  split at h
  all_goals first
    | exact (Except.ok.inj h) ▸ rfl
    | exact absurd h (by simp)

/-- The arguments of the parameters that reach a placeholder are those that reach it. -/
theorem convertParamsToSQL_reaching {ps : List Parameter} {args : List NamedArg}
    (h : convertParamsToSQL ps = .ok args) (ph : Placeholder) :
    convertParamsToSQL (reaching Parameter.name ph 1 ps) =
      .ok (reaching NamedArg.name ph 1 args) :=
  mapM_eq_ok_iff.mpr (reaching_forall₂ (fun _ _ hp => convertParam_name hp) (mapM_eq_ok_iff.mp h) 1)

/-- Statements whose parameters reach alike bind the same values. -/
theorem bindSame_of_reachAlike {st st' : Statement} (hsql : st.sql = st'.sql)
    (halike : ReachAlike Parameter.name st.params st'.params)
    (hargs : ∃ args, convertParamsToSQL st.params = .ok args)
    (hargs' : ∃ args', convertParamsToSQL st'.params = .ok args') : BindSame st st' := by
  obtain ⟨args, hargs⟩ := hargs
  obtain ⟨args', hargs'⟩ := hargs'
  refine ⟨hsql, args, args', hargs, hargs', fun ph => ?_⟩
  have hreach := convertParamsToSQL_reaching hargs ph
  rw [halike.2, convertParamsToSQL_reaching hargs' ph] at hreach
  rw [bound, bound, Except.ok.inj hreach]

/-- Statements that bind the same values have parameters for the same placeholders. -/
theorem BindSame.reaching_iff {st st' : Statement} (h : BindSame st st') (ph : Placeholder) :
    reaching Parameter.name ph 1 st.params = [] ↔ reaching Parameter.name ph 1 st'.params = [] := by
  obtain ⟨-, args, args', hargs, hargs', hbound⟩ := h
  have hempty : ∀ {ps : List Parameter} {args : List NamedArg},
      convertParamsToSQL ps = .ok args →
        (reaching Parameter.name ph 1 ps = [] ↔ bound args ph = none) := by
    intro ps args hps
    have hlen := (mapM_eq_ok_iff.mp (convertParamsToSQL_reaching hps ph)).length_eq
    rw [bound, Option.map_eq_none_iff, List.getLast?_eq_none_iff, ← List.length_eq_zero_iff, hlen,
      List.length_eq_zero_iff]
  rw [hempty hargs, hempty hargs', hbound]

/-! ### A mixed object -/

/-- The first name, where the members that pass a test are ranged over first. -/
theorem name_of_filter_first {m r : List (String × Any)} {test : String × Any → Bool}
    {ps : List Parameter} (hps : ps.map Parameter.name = (m.filter test ++ r).map Prod.fst)
    (hm : ∃ a ∈ m, test a = true) :
    ∃ p rest, ps = p :: rest ∧ ∃ a, test a = true ∧ p.name = a.1 := by
  obtain ⟨a, ha, htest⟩ := hm
  have hmem : a ∈ m.filter test := List.mem_filter.mpr ⟨ha, htest⟩
  obtain ⟨a', rest, hfilter⟩ := List.exists_cons_of_ne_nil (List.ne_nil_of_mem hmem)
  have hpass : test a' = true := (List.mem_filter.mp (hfilter ▸ List.mem_cons_self)).2
  rw [hfilter, List.cons_append, List.map_cons, List.map_eq_cons_iff] at hps
  obtain ⟨p, ps', rfl, hname, -⟩ := hps
  exact ⟨p, ps', rfl, a', hpass, hname⟩

/-- The first parameter of a mixed object, in the two orders. -/
theorem itemParams_first {m : List (String × Any)} (hmixed : Mixed m) {ps ps' : List Parameter}
    (h : itemParams (lib.withOrder emptyFirst) i j (.map m) = .ok ps)
    (h' : itemParams (lib.withOrder emptyLast) i j (.map m) = .ok ps') :
    (∃ p rest, ps = p :: rest ∧ p.name = "") ∧ ∃ p rest, ps' = p :: rest ∧ p.name ≠ "" := by
  obtain ⟨hempty, key, hkey, hne⟩ := hmixed
  obtain ⟨a, ha, ha'⟩ := List.mem_map.mp hempty
  obtain ⟨c, hc, rfl⟩ := List.mem_map.mp hkey
  obtain ⟨p, rest, hps, e, he, hp⟩ :=
    name_of_filter_first (constructParams_names h) ⟨a, ha, beq_iff_eq.mpr ha'⟩
  obtain ⟨p', rest', hps', e', he', hp'⟩ :=
    name_of_filter_first (constructParams_names h') ⟨c, hc, by simpa using hne⟩
  refine ⟨⟨p, rest, hps, hp.trans (beq_iff_eq.mp he)⟩, p', rest', hps', ?_⟩
  rw [hp']
  simpa using he'

/-- **A mixed object is bound at different positions.** Where the parameters of items reach the
same positions with the empty key first and with the empty key last, no item is a mixed
object. -/
theorem not_mixed_of_reaching {xs : List (Any × ℕ)} {pss pss' : List (List Parameter)} {k : ℕ}
    (h : List.Forall₂ (fun x ps => itemParams (lib.withOrder emptyFirst) i x.2 x.1 = .ok ps) xs pss)
    (h' : List.Forall₂ (fun x ps => itemParams (lib.withOrder emptyLast) i x.2 x.1 = .ok ps) xs
      pss')
    (hsame : ∀ q, reaching Parameter.name ⟨q, none⟩ k pss.flatten = [] ↔
      reaching Parameter.name ⟨q, none⟩ k pss'.flatten = []) :
    ∀ m, Any.map m ∈ xs.map Prod.fst → ¬Mixed m := by
  induction h generalizing pss' k with
  | nil => simp
  | @cons x ps xs pss hps _ ih =>
      obtain ⟨ps', pss', hps', hpss', rfl⟩ := List.forall₂_cons_left_iff.mp h'
      intro m hm hmixed
      rcases List.mem_cons.mp hm with hx | hm
      · obtain ⟨v, j⟩ := x
        obtain rfl : Any.map m = v := hx
        obtain ⟨⟨p, rest, rfl, hp⟩, p', rest', rfl, hp'⟩ := itemParams_first hmixed hps hps'
        have hfirst := hsame k
        rw [List.flatten_cons, List.flatten_cons, List.cons_append, List.cons_append,
          reaching_first, reaching_first] at hfirst
        exact hfirst.mpr hp' hp
      · -- the head takes as many positions in both orders
        obtain ⟨qs, hqs, hperm⟩ := @itemParams_perm lib emptyFirst emptyLast _ _ _ _ hps
        obtain rfl : qs = ps' := Except.ok.inj (hqs.symm.trans hps')
        refine ih hpss' (k := k + ps.length) (fun q => ?_) m hm hmixed
        by_cases hq : q < k + ps.length
        · rw [reaching_outside (.inl hq), reaching_outside (.inl hq)]
        · have hlen := hperm.length_eq
          have hps : reaching Parameter.name ⟨q, none⟩ k ps = [] :=
            reaching_outside (.inr (by omega))
          have hqs : reaching Parameter.name ⟨q, none⟩ k qs = [] :=
            reaching_outside (.inr (by omega))
          have htail := hsame q
          rw [List.flatten_cons, List.flatten_cons, reaching_append, reaching_append, hps, hqs,
            ← hlen] at htail
          exact htail

/-! ### Bodies -/

/-- A list of texts has no order to depend on. -/
theorem parseStatements_texts {texts : List String}
    (htexts : (lib.json b).bind Json.toTexts = some texts) (o : MapOrder) :
    parseStatements (lib.withOrder o) b = parseStatements lib b := by
  simp only [parseStatements, Library.withOrder, htexts]

/-- A list of statements with items is read in some order. -/
theorem parseStatements_slices {slices : List (List Any)}
    (htexts : (lib.json b).bind Json.toTexts = none)
    (hslices : (lib.json b).bind (Json.toSlices lib.float) = some slices) (o : MapOrder) :
    parseStatements (lib.withOrder o) b =
      slices.zipIdx.mapM fun x => parseStatement (lib.withOrder o) x.2 x.1 := by
  simp only [parseStatements, Library.withOrder, htexts, hslices]

/-- The objects of a list of statements with items. -/
theorem mem_paramObjects {slices : List (List Any)} {m : List (String × Any)}
    (htexts : (lib.json b).bind Json.toTexts = none)
    (hslices : (lib.json b).bind (Json.toSlices lib.float) = some slices) :
    m ∈ paramObjects lib b ↔ ∃ items ∈ slices, Any.map m ∈ items.tail := by
  have hobject : ∀ v, objectOf v = some m ↔ v = .map m := by
    intro v
    cases v <;> simp [objectOf]
  simp only [paramObjects, htexts, hslices, Option.getD_some, List.mem_flatMap,
    List.mem_filterMap, hobject, exists_eq_right]

/-- The keys of an object among the items are distinct. -/
theorem nodup_of_mem_slices {float : Number → Option UInt64} {doc : Json}
    {slices : List (List Any)} (h : doc.toSlices float = some slices) {items : List Any}
    (hitems : items ∈ slices) {m : List (String × Any)} (hm : Any.map m ∈ items) :
    (m.map Prod.fst).Nodup := by
  cases doc with
  | null =>
      obtain rfl := Option.some.inj h
      simp at hitems
  | arr elems =>
      obtain ⟨elem, -, helem⟩ := exists_of_forall₂_right (mapM_eq_some_iff.mp h) hitems
      cases elem with
      | null =>
          obtain rfl := Option.some.inj helem
          simp at hm
      | arr js =>
          rw [Json.toSlice, Json.toAnys_eq_mapM] at helem
          obtain ⟨item, -, hitem⟩ := exists_of_forall₂_right (mapM_eq_some_iff.mp helem) hm
          obtain ⟨ms, -, hms⟩ := toAny_eq_map hitem
          exact Json.nodup_toMembers hms List.nodup_nil
      | bool | num | str | obj => simp [Json.toSlice] at helem
  | bool | num | str | obj => simp [Json.toSlices] at h

/-- The parameters of every statement can be bound. -/
theorem parseStatements_bindable {sts : List Statement} (h : parseStatements lib b = .ok sts)
    {st : Statement} (hst : st ∈ sts) : ∃ args, convertParamsToSQL st.params = .ok args := by
  obtain ⟨doc, -, hmeans⟩ := parseStatements_sound h
  cases hmeans with
  | texts _ hall =>
      obtain ⟨j, -, hj⟩ := exists_of_forall₂_right hall hst
      cases hj <;> exact ⟨[], rfl⟩
  | withItems _ hall =>
      obtain ⟨j, -, hj⟩ := exists_of_forall₂_right hall hst
      obtain ⟨hitems⟩ := hj
      exact convertParamsToSQL_ok hitems

/-- Lists of statements that reach alike bind the same values, if they were read. -/
theorem forall₂_bindSame {sts sts' : List Statement}
    (h : parseStatements (lib.withOrder o) b = .ok sts)
    (h' : parseStatements (lib.withOrder o') b = .ok sts')
    (halike : List.Forall₂ (fun st st' => st.sql = st'.sql ∧
      ReachAlike Parameter.name st.params st'.params) sts sts') :
    List.Forall₂ BindSame sts sts' := by
  rw [List.forall₂_iff_zip] at halike ⊢
  refine ⟨halike.1, fun {st st'} hmem => ?_⟩
  obtain ⟨hsql, hreach⟩ := halike.2 hmem
  obtain ⟨hst, hst'⟩ := List.of_mem_zip hmem
  exact bindSame_of_reachAlike hsql hreach (parseStatements_bindable h hst)
    (parseStatements_bindable h' hst')

/-- What a body without a mixed object binds does not depend on the order. -/
theorem orderIndependent_of_not_mixed {slices : List (List Any)} {sts : List Statement}
    (htexts : (lib.json b).bind Json.toTexts = none)
    (hslices : (lib.json b).bind (Json.toSlices lib.float) = some slices)
    (h : parseStatements lib b = .ok sts) (hmixed : ∀ m ∈ paramObjects lib b, ¬Mixed m) :
    OrderIndependent lib b := by
  obtain ⟨doc, -, hdoc⟩ := Option.bind_eq_some_iff.mp hslices
  have hread := parseStatements_slices htexts hslices
  have hstep : ∀ o o' : MapOrder, ∀ x ∈ slices.zipIdx, ∀ st,
      parseStatement (lib.withOrder o) x.2 x.1 = .ok st →
        ∃ st', parseStatement (lib.withOrder o') x.2 x.1 = .ok st' ∧
          st.sql = st'.sql ∧ ReachAlike Parameter.name st.params st'.params := by
    intro o o' x hx st hst
    have hitems : x.1 ∈ slices := List.fst_mem_of_mem_zipIdx hx
    refine parseStatement_reachAlike (fun m hm => ⟨?_, ?_⟩) hst
    · exact nodup_of_mem_slices hdoc hitems (List.mem_of_mem_tail hm)
    · exact hmixed m ((mem_paramObjects htexts hslices).mpr ⟨x.1, hitems, hm⟩)
  intro o o'
  -- the body is accepted in the order that the library has, so in the first, so in the second
  have hown : slices.zipIdx.mapM (fun x => parseStatement (lib.withOrder lib.mapOrder) x.2 x.1) =
      .ok sts := (hread lib.mapOrder).symm.trans h
  obtain ⟨sts₁, h₁, -⟩ := mapM_ok_related (hstep lib.mapOrder o) hown
  obtain ⟨sts₂, h₂, halike⟩ := mapM_ok_related (hstep o o') h₁
  rw [← hread] at h₁ h₂
  exact ⟨sts₁, sts₂, h₁, h₂, forall₂_bindSame h₁ h₂ halike⟩

/-- What a body with a mixed object binds depends on the order. -/
theorem not_mixed_of_orderIndependent {slices : List (List Any)}
    (htexts : (lib.json b).bind Json.toTexts = none)
    (hslices : (lib.json b).bind (Json.toSlices lib.float) = some slices)
    (h : OrderIndependent lib b) : ∀ m ∈ paramObjects lib b, ¬Mixed m := by
  intro m hm
  obtain ⟨items, hitems, hm⟩ := (mem_paramObjects htexts hslices).mp hm
  obtain ⟨sts, sts', hsts, hsts', hbind⟩ := h emptyFirst emptyLast
  rw [parseStatements_slices htexts hslices, mapM_eq_ok_iff] at hsts hsts'
  -- the two statements that are read from the items of the object
  have hboth : List.Forall₂ (fun x st' => ∃ st,
      parseStatement (lib.withOrder emptyFirst) x.2 x.1 = .ok st ∧ BindSame st st')
      slices.zipIdx sts' :=
    forall₂_trans (fun x st st' hst hsame => ⟨st, hst, hsame⟩) hsts hbind
  rw [← List.zipIdx_map_fst 0 slices] at hitems
  obtain ⟨⟨items, i⟩, hi, rfl⟩ := List.mem_map.mp hitems
  obtain ⟨st', -, ⟨st, hst, hsame⟩, hst'⟩ := exists_of_forall₂_left (forall₂_and hboth hsts') hi
  obtain ⟨sql, rest, pss, rfl, hpss, rfl⟩ := parseStatement_ok_iff.mp hst
  obtain ⟨sql', rest', pss', hrest, hpss', rfl⟩ := parseStatement_ok_iff.mp hst'
  obtain ⟨-, rfl⟩ := List.cons.inj hrest
  refine not_mixed_of_reaching (mapM_eq_ok_iff.mp hpss) (mapM_eq_ok_iff.mp hpss')
    (fun q => hsame.reaching_iff ⟨q, none⟩) m ?_
  rwa [List.zipIdx_map_fst]

end Orders

/-- **What an accepted body binds does not depend on the order of its maps** exactly when no
object among its parameters has the empty key next to another key. -/
theorem order_independent_iff {lib : Library} {b : Bytes} {sts : List Statement}
    (h : parseStatements lib b = .ok sts) :
    OrderIndependent lib b ↔ ∀ m ∈ paramObjects lib b, ¬Mixed m := by
  rcases htexts : (lib.json b).bind Json.toTexts with _ | texts
  · rcases hslices : (lib.json b).bind (Json.toSlices lib.float) with _ | slices
    · simp [parseStatements, htexts, hslices] at h
    · exact ⟨not_mixed_of_orderIndependent htexts hslices,
        orderIndependent_of_not_mixed htexts hslices h⟩
  · refine iff_of_true (fun o o' => ?_) (by simp [paramObjects, htexts])
    have ho := (parseStatements_texts htexts o).trans h
    have ho' := (parseStatements_texts htexts o').trans h
    exact ⟨sts, sts, ho, ho',
      forall₂_bindSame ho ho' (List.forall₂_same.mpr fun st _ => ⟨rfl, .refl st.params⟩)⟩

/-- A body with an object whose keys are names. -/
def namedBody : Bytes :=
  ascii "[[\"INSERT INTO t VALUES (:k, :l)\", \x7b\"k\": true, \"l\": \"x\"\x7d]]"

/-- The library for that body. -/
def namedLibrary : Library :=
  oneDocument namedBody (by decide +kernel)
    (.arr [.arr [.str "INSERT INTO t VALUES (:k, :l)", .obj [("k", .bool true), ("l", .str "x")]]])

/-- The items of its statement. -/
def namedItems : List Any :=
  [.string "INSERT INTO t VALUES (:k, :l)", .map [("k", .bool true), ("l", .string "x")]]

theorem texts_namedBody : (namedLibrary.json namedBody).bind Json.toTexts = none := by
  rw [namedLibrary, oneDocument_json]
  rfl

theorem slices_namedBody :
    (namedLibrary.json namedBody).bind (Json.toSlices namedLibrary.float) =
      some [namedItems] := by
  rw [namedLibrary, oneDocument_json]
  rfl

/-- It binds the same values in any order. -/
theorem names_order_independent :
    parseStatements namedLibrary namedBody = .ok [⟨"INSERT INTO t VALUES (:k, :l)",
        [⟨some (.b true), "k"⟩, ⟨some (.s "x"), "l"⟩]⟩] ∧
      OrderIndependent namedLibrary namedBody := by
  have hparse : parseStatements namedLibrary namedBody = .ok
      [⟨"INSERT INTO t VALUES (:k, :l)", [⟨some (.b true), "k"⟩, ⟨some (.s "x"), "l"⟩]⟩] :=
    parseStatements_slices texts_namedBody slices_namedBody namedLibrary.mapOrder
  refine ⟨hparse, (order_independent_iff hparse).mpr fun m hm => ?_⟩
  obtain ⟨items, hitems, hm⟩ := (mem_paramObjects texts_namedBody slices_namedBody).mp hm
  obtain rfl := List.mem_singleton.mp hitems
  obtain rfl := Any.map.inj (List.mem_singleton.mp hm)
  decide

/-- A body with a mixed object. -/
def mixedBody : Bytes :=
  ascii "[[\"INSERT INTO t VALUES (?, :k)\", \x7b\"\": \"x\", \"k\": true\x7d]]"

/-- The library for that body. -/
def mixedLibrary : Library :=
  oneDocument mixedBody (by decide +kernel)
    (.arr [.arr [.str "INSERT INTO t VALUES (?, :k)", .obj [("", .str "x"), ("k", .bool true)]]])

/-- The items of its statement. -/
def mixedItems : List Any :=
  [.string "INSERT INTO t VALUES (?, :k)", .map [("", .string "x"), ("k", .bool true)]]

theorem texts_mixedBody : (mixedLibrary.json mixedBody).bind Json.toTexts = none := by
  rw [mixedLibrary, oneDocument_json]
  rfl

theorem slices_mixedBody :
    (mixedLibrary.json mixedBody).bind (Json.toSlices mixedLibrary.float) =
      some [mixedItems] := by
  rw [mixedLibrary, oneDocument_json]
  rfl

/-- **A mixed object is bound in two ways.** With the empty key first, the row is `x` and true.
With the empty key last, its value is bound at the position of `:k`, in place of the value of
that name, and the first column has none. -/
theorem mixed_object_bound_two_ways :
    parseStatements (mixedLibrary.withOrder emptyFirst) mixedBody =
        .ok [⟨"INSERT INTO t VALUES (?, :k)", [⟨some (.s "x"), ""⟩, ⟨some (.b true), "k"⟩]⟩] ∧
      parseStatements (mixedLibrary.withOrder emptyLast) mixedBody =
        .ok [⟨"INSERT INTO t VALUES (?, :k)", [⟨some (.b true), "k"⟩, ⟨some (.s "x"), ""⟩]⟩] ∧
      [(⟨1, none⟩ : Placeholder), ⟨2, some "k"⟩].map
          (bound [⟨"", .text "x"⟩, ⟨"k", .bool true⟩]) = [some (.text "x"), some (.bool true)] ∧
      [(⟨1, none⟩ : Placeholder), ⟨2, some "k"⟩].map
          (bound [⟨"k", .bool true⟩, ⟨"", .text "x"⟩]) = [none, some (.text "x")] ∧
      ¬OrderIndependent mixedLibrary mixedBody := by
  have hread := parseStatements_slices texts_mixedBody slices_mixedBody
  refine ⟨hread emptyFirst, hread emptyLast, rfl, rfl, fun h => ?_⟩
  have hmem : [("", Any.string "x"), ("k", .bool true)] ∈ paramObjects mixedLibrary mixedBody :=
    (mem_paramObjects texts_mixedBody slices_mixedBody).mpr
      ⟨mixedItems, List.mem_singleton_self _, List.mem_singleton_self _⟩
  exact not_mixed_of_orderIndependent texts_mixedBody slices_mixedBody h _ hmem (by decide)

end DistSql
