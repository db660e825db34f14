import DistSql.Binding
import DistSql.Grammar
import DistSql.Reprint
import DistSql.WritePath

/-!
# Bodies as Bytes

The bodies that go over HTTP, with Go's own scanner and printer in the place of the library that
the handlers were given so far (`goLibrary`). A client that prints its statements as JSON, in
either of the two forms that `parseStatements` knows, has them run by the engine of every replica
as it wrote them, except for two kinds of values: JSON has no integers besides its numbers, which
are read as `float64`, and no bytes, which are read as the text that they were printed as
(`ParamValue.received`). What the client receives in turn is a document again, which says what
the results are.

## Main results

* `parseStatements_posted`: **what is printed is read**.
* `posted_statements_run`: **the engine runs the statements that a client has printed**.
* `answer_read_back`: **every answer with data is a document** that mirrors the results.
-/

open Golang Sqlite Url

namespace DistSql

/-! ### Go's library -/

/-- **Go's library itself**, for an order in which it ranges over maps. A text that is not valid
has replacement characters. -/
def goLibrary (rg : MapOrder) : Library where
  text b := .ofList (runes b)
  text_nil := rfl
  json := parseJson
  json_nil := by simp [parseJson, runes, runesFuel, skipSpace, scanValue]
  float := Binary64.parseFloat
  order := rg.order
  order_perm := rg.perm

/-- The bytes of a document that is printed. -/
def printed (html : Bool) (doc : Json) : Bytes := utf8 (.ofList (doc.text html))

/-! ### The statements of a client -/

/-- What arrives of a value. -/
def ParamValue.received : ParamValue → ParamValue
  | .i n => .d ((Binary64.parseFloat (.ofInt n.toInt)).getD 0)
  | .y bytes => .s (.ofList (base64 bytes))
  | v => v

/-- What arrives of a parameter. -/
def Parameter.received (p : Parameter) : Parameter := { p with value := p.value.map .received }

/-- What arrives of a statement. -/
def Statement.received (st : Statement) : Statement :=
  { st with params := st.params.map Parameter.received }

/-- A parameter has a value, and a number that is finite. -/
def Parameter.Sendable (p : Parameter) : Prop :=
  ∃ v, p.value = some v ∧ ∀ d, v = .d d → Binary64.Finite d

section Client

variable (float : UInt64 → Number)

/-- A parameter as a document: its value, or an object with its name. -/
def Parameter.doc (p : Parameter) : Json :=
  match p.value with
  | none => .null
  | some v =>
      if p.name = "" then Encoding.jsonForm float v
      else .obj [(p.name, Encoding.jsonForm float v)]

/-- A statement as a document. -/
def Statement.doc (st : Statement) : Json :=
  .arr (.str st.sql :: st.params.map (Parameter.doc float))

/-- **A document that a client posts**, and the statements that arrive: a list of texts, or a list
of statements with their parameters. -/
inductive Posted : Json → List Statement → Prop
  | texts {texts : List String} (hne : texts ≠ []) :
      Posted (.arr (texts.map .str)) (texts.map fun s => ⟨s, []⟩)
  | statements {sts : List Statement} (hne : sts ≠ [])
      (hsend : ∀ st ∈ sts, ∀ p ∈ st.params, p.Sendable) :
      Posted (.arr (sts.map (Statement.doc float))) (sts.map Statement.received)

end Client

/-! ### Printing -/

section Read

variable {float : UInt64 → Number}

/-- An integer is in the range of `float64`. -/
theorem parseFloat_ofInt (n : Int64) :
    Binary64.parseFloat (.ofInt n.toInt) =
      some ((Binary64.parseFloat (.ofInt n.toInt)).getD 0) := by
  have hsize : n.toInt.natAbs < 2 ^ 64 := by
    have := n.toInt_lt
    have := n.le_toInt
    omega
  have hbits : Binary64.nearestBits (n.toInt.natAbs * Binary64.scale) 1 < Binary64.infinity := by
    refine Binary64.nearestBits_lt_infinity ?_
    rw [Nat.pow_add]
    exact Nat.mul_lt_mul_of_pos_right hsize Binary64.scale_pos
  simp [Binary64.parseFloat, Number.ofInt, hbits]

/-- What is read from the document of a value. -/
theorem scalar_jsonForm_iff (hfloat : Formats float) {v v' : ParamValue}
    (hv : ∀ d, v = .d d → Binary64.Finite d) :
    Scalar Binary64.parseFloat (Encoding.jsonForm float v).readBack v' ↔ v' = v.received := by
  have hnum : ∀ {n : Number} {d : UInt64}, Binary64.parseFloat n = some d →
      (Scalar Binary64.parseFloat (.num n.readBack) v' ↔ v' = .d d) := by
    intro n d hd
    rw [← parseFloat_readBack] at hd
    constructor
    · intro h
      cases h with
      | num hd' => rw [Option.some.inj (hd'.symm.trans hd)]
    · rintro rfl
      exact .num hd
  cases v with
  | i n => exact hnum (parseFloat_ofInt n)
  | d d => exact hnum (hfloat.readBack d (hv d rfl))
  | b b =>
      refine ⟨fun h => by cases h; rfl, ?_⟩
      rintro rfl
      exact .bool b
  | y bytes =>
      refine ⟨fun h => by cases h; rfl, ?_⟩
      rintro rfl
      exact .str _
  | s s =>
      refine ⟨fun h => by cases h; rfl, ?_⟩
      rintro rfl
      exact .str s

/-- The number of a scalar is in range. -/
theorem Scalar.inRange {float : Number → Option UInt64} {j : Json} {v : ParamValue}
    (h : Scalar float j v) : j.inRange float = true := by
  cases h with
  | str | bool => rfl
  | num hd => simp [Json.inRange, hd]

/-- The document of a value is a scalar. -/
theorem jsonForm_ne_obj (v : ParamValue) (ms : List (String × Json)) :
    (Encoding.jsonForm float v).readBack ≠ .obj ms := by
  cases v <;> simp [Encoding.jsonForm, Json.readBack]

/-- What is read from the document of a parameter. -/
theorem item_doc_iff (hfloat : Formats float) {p : Parameter} (hp : p.Sendable)
    {ps : List Parameter} :
    Item Binary64.parseFloat lastMembers (p.doc float).readBack ps ↔ ps = [p.received] := by
  obtain ⟨⟨_, name⟩, rfl⟩ : ∃ q, p = q := ⟨p, rfl⟩
  obtain ⟨v, rfl, hv⟩ := hp
  have hscalar : ∀ {v'}, Scalar Binary64.parseFloat (Encoding.jsonForm float v).readBack v' ↔
      v' = v.received := scalar_jsonForm_iff hfloat hv
  simp only [Parameter.doc, Parameter.received, Option.map_some]
  split
  · rename_i hname
    obtain rfl : name = "" := hname
    constructor
    · intro h
      generalize hj : (Encoding.jsonForm float v).readBack = j at h
      cases h with
      | @scalar _ v' h =>
          obtain rfl : v' = v.received := hscalar.mp (hj ▸ h)
          rfl
      | object => exact absurd hj (jsonForm_ne_obj v _)
    · rintro rfl
      exact .scalar (hscalar.mpr rfl)
  · simp only [Json.readBack, Json.memberReadBacks]
    constructor
    · intro h
      cases h with
      | scalar h => cases h
      | object _ h hperm =>
          obtain ⟨q, qs, ⟨v', hv', rfl⟩, hnil, rfl⟩ := List.forall₂_cons_left_iff.mp h
          obtain rfl := List.forall₂_nil_left_iff.mp hnil
          obtain rfl := hscalar.mp hv'
          exact List.perm_singleton.mp hperm
    · rintro rfl
      have hrange := (hscalar.mpr rfl).inRange
      exact .object (by simp [Json.inRange, Json.membersInRange, hrange])
        (.cons ⟨_, hscalar.mpr rfl, rfl⟩ .nil) (.refl _)

/-- What is read from the document of a statement. -/
theorem withItems_doc_iff (hfloat : Formats float) {st st' : Statement}
    (hst : ∀ p ∈ st.params, p.Sendable) :
    WithItems Binary64.parseFloat lastMembers (st.doc float).readBack st' ↔ st' = st.received := by
  have hitems : ∀ {pss}, List.Forall₂ (Item Binary64.parseFloat lastMembers)
      ((st.params.map (Parameter.doc float)).map Json.readBack) pss ↔
        pss = st.params.map fun p => [p.received] := by
    intro pss
    rw [List.forall₂_map_left_iff, List.forall₂_map_left_iff]
    exact forall₂_iff_eq_map fun p hp ps => item_doc_iff hfloat (hst p hp)
  have hflat : (st.params.map fun p => [p.received]).flatten =
      st.params.map Parameter.received := by
    rw [← List.flatMap_def, List.map_eq_flatMap]
  simp only [Statement.doc, Json.readBack, Json.readBacks, Json.readBacks_eq_map]
  constructor
  · intro h
    cases h with
    | intro h =>
        obtain rfl := hitems.mp h
        rw [hflat]
        rfl
  · rintro rfl
    rw [Statement.received, ← hflat]
    exact .intro (hitems.mpr rfl)

/-- What a posted document means, when it was read back. -/
theorem Posted.means_iff (hfloat : Formats float) {doc : Json} {sts sts' : List Statement}
    (h : Posted float doc sts) :
    Means Binary64.parseFloat lastMembers doc.readBack sts' ↔ sts' = sts := by
  cases h with
  | @texts texts hne =>
      have hbare : List.Forall₂ BareText ((texts.map Json.str).map Json.readBack) sts' ↔
          sts' = texts.map fun s => ⟨s, []⟩ := by
        rw [List.forall₂_map_left_iff, List.forall₂_map_left_iff]
        refine forall₂_iff_eq_map fun s _ st => ⟨fun h => by cases h; rfl, ?_⟩
        rintro rfl
        exact .str s
      rw [Json.readBack, Json.readBacks_eq_map]
      constructor
      · intro hmeans
        cases hmeans with
        | texts _ h => exact hbare.mp h
        | withItems _ h =>
            obtain ⟨s, rest, rfl⟩ := List.exists_cons_of_ne_nil hne
            obtain ⟨st, -, hst, -⟩ := List.forall₂_cons_left_iff.mp h
            cases hst
      · exact fun heq => .texts (by simpa using hne) (hbare.mpr heq)
  | @statements sts hne hsend =>
      have hall : List.Forall₂ (WithItems Binary64.parseFloat lastMembers)
          ((sts.map (Statement.doc float)).map Json.readBack) sts' ↔
            sts' = sts.map Statement.received := by
        rw [List.forall₂_map_left_iff, List.forall₂_map_left_iff]
        exact forall₂_iff_eq_map fun st hst st' => withItems_doc_iff hfloat (hsend st hst)
      rw [Json.readBack, Json.readBacks_eq_map]
      constructor
      · intro hmeans
        cases hmeans with
        | texts _ h =>
            obtain ⟨st, rest, rfl⟩ := List.exists_cons_of_ne_nil hne
            obtain ⟨st', -, hst, -⟩ := List.forall₂_cons_left_iff.mp h
            cases hst
        | withItems _ h => exact hall.mp h
      · exact fun heq => .withItems (by simpa using hne) (hall.mpr heq)

/-! ### What can be printed -/

/-- A whole number can be printed. -/
theorem printable_ofInt (n : ℤ) : (Json.num (.ofInt n)).Printable 0 := by
  refine ⟨le_rfl, fun m hm => ?_⟩
  obtain rfl := List.mem_singleton.mp hm
  exact fun _ => le_rfl

/-- A text can be printed. -/
theorem printable_str (s : String) : (Json.str s).Printable 0 :=
  ⟨le_rfl, fun _ hn => absurd hn List.not_mem_nil⟩

/-- The document of a value can be printed, and is flat. -/
theorem jsonForm_printable (hfloat : Formats float) {v : ParamValue}
    (hv : ∀ d, v = .d d → Binary64.Finite d) : (Encoding.jsonForm float v).Printable 0 := by
  cases v with
  | i n => exact printable_ofInt n.toInt
  | d d =>
      refine ⟨le_rfl, fun n hn => ?_⟩
      obtain rfl := List.mem_singleton.mp hn
      exact hfloat.printable d (hv d rfl)
  | b => exact ⟨le_rfl, fun _ hn => absurd hn List.not_mem_nil⟩
  | y | s => exact printable_str _

/-- The document of a parameter can be printed. -/
theorem Parameter.printable_doc (hfloat : Formats float) {p : Parameter} (hp : p.Sendable) :
    (p.doc float).Printable 1 := by
  obtain ⟨v, hv, hfinite⟩ := hp
  have hform := jsonForm_printable hfloat hfinite
  simp only [Parameter.doc, hv]
  split
  · exact hform.mono (Nat.zero_le 1)
  · exact .obj fun m hm => by rwa [List.mem_singleton.mp hm]

/-- What a client posts can be printed. -/
theorem Posted.printable (hfloat : Formats float) {doc : Json} {sts : List Statement}
    (h : Posted float doc sts) : doc.Printable maxNestingDepth := by
  have hdepth : 3 ≤ maxNestingDepth := by decide
  cases h with
  | texts =>
      refine Json.Printable.mono (.arr ?_) ((by decide : 1 ≤ 3).trans hdepth)
      simp only [List.forall_mem_map]
      exact fun s _ => printable_str s
  | statements _ hsend =>
      refine Json.Printable.mono (.arr ?_) hdepth
      simp only [List.forall_mem_map]
      refine fun st hst => .arr fun j hj => ?_
      rcases List.mem_cons.mp hj with rfl | hj
      · exact (printable_str _).mono (Nat.zero_le 1)
      · obtain ⟨p, hp, rfl⟩ := List.mem_map.mp hj
        exact p.printable_doc hfloat (hsend st hst p hp)

/-- **What is printed is read.** -/
theorem parseStatements_posted (hfloat : Formats float) (rg : MapOrder) (html : Bool) {doc : Json}
    {sts : List Statement} (h : Posted float doc sts) :
    parseStatements (goLibrary rg) (printed html doc) = .ok sts := by
  have hjson : (goLibrary rg).json (printed html doc) = some doc.readBack :=
    parseJson_text html (h.printable hfloat)
  have hmeans : Means (goLibrary rg).float lastMembers doc.readBack sts :=
    (h.means_iff hfloat).mpr rfl
  obtain ⟨sts', hsts'⟩ := parseStatements_complete hjson hmeans
  obtain ⟨doc', hdoc', hmeans'⟩ := parseStatements_sound hsts'
  obtain rfl := Option.some.inj (hjson.symm.trans hdoc')
  rw [hsts', (h.means_iff hfloat).mp hmeans']

end Read

/-! ### The way to the engine -/

variable {D E : Type}

/-- **The engine runs the statements that a client has printed**: a node that leads hands them to
raft in an entry from which every replica reads them again. The encoding of entries may be any
that its decoder undoes. -/
theorem posted_statements_run {pr : Proto} (hpr : pr.Lawful) {float : UInt64 → Number}
    (hfloat : Formats float) (rg : MapOrder) (html : Bool) {doc : Json} {sts : List Statement}
    (hdoc : Posted float doc sts) {b : List UInt8}
    (hentry : encodeExec pr { statements := sts } = .ok b)
    {w : Write E} (hbody : w.request.body = .ok (printed html doc)) (drv : Driver D E)
    (eng : Engine D) :
    serveWrite pr drv (goLibrary rg) float eng w =
      let told := fun res => deliver float (Service.execReply w.leaderAddr w.request res)
      if w.leads then
        let p := eng.take drv w.loc (.exec { statements := sts })
        match w.fate with
        | .resolved => (p.1, p.2 >>= fun r => execReturn (.ok r) >>= told)
        | .failed e applied => (if applied then p.1 else eng, told (.error e))
      else (eng, told (.error .notLeader)) := by
  have hread : Service.readStatements (goLibrary rg) w.request = .ok sts := by
    rw [Service.readStatements, hbody]
    simp only [parseStatements_posted hfloat rg html hdoc]
  have hdecodes := @decodesTo_encode pr hpr (.exec { statements := sts }) b hentry
  have happly := applyAction_of_decodesTo hdecodes drv w.loc eng
  rw [serveWrite, hread]
  simp only [consensusExec, hentry, happly]
  cases w.leads with
  | false => rfl
  | true =>
      cases w.fate with
      | failed e applied => rfl
      | resolved => simp only [if_true, bind_assoc]

/-- Maps are ranged over as they are given. -/
def asGiven : MapOrder := insertLibrary.mapOrder

/-- An insertion with two parameters. -/
def paramInsert : Statement where
  sql := "INSERT INTO foo VALUES(1)"
  params := [⟨some (.i 7), "n"⟩, ⟨some (.s "<"), ""⟩]

/-- The insertion as it arrives, in bytes: its text, the number 7 as a `double` with its name,
and a text. -/
def paramBytes : List UInt8 :=
  lenField 0x12
    (lenField 0x0a (ascii "INSERT INTO foo VALUES(1)") ++
      lenField 0x12 ([0x11, 0, 0, 0, 0, 0, 0, 0x1c, 0x40] ++ lenField 0x32 (ascii "n")) ++
      lenField 0x12 (lenField 0x2a (ascii "<")))

/-- A library that knows the insertion and the action that carries it. -/
def paramProto : Proto where
  request := .table [({ statements := [paramInsert.received] }, paramBytes)]
  queryReq := .table []
  action := .table [(⟨.execute, paramBytes⟩, [8, 1] ++ lenField 0x12 paramBytes)]

/-- Its decoder undoes its encoder. -/
theorem paramProto_lawful : paramProto.Lawful where
  request := Codec.table_lawful (by simp)
  queryReq := Codec.table_lawful (t := []) (by simp)
  action := Codec.table_lawful (by simp)

/-- The insertion as a request. -/
def paramWrite : Write UInt8 :=
  { insertWrite .resolved with
    request :=
      { insertRequest with
        body := .ok (printed true (.arr ([paramInsert].map (Statement.doc Binary64.exact)))) } }

/-- The engine runs the insertion, in which the integer has become a `float64`. -/
theorem posted_insert_run :
    paramInsert.received = ⟨"INSERT INTO foo VALUES(1)",
        [⟨some (.d 0x401c000000000000), "n"⟩, ⟨some (.s "<"), ""⟩]⟩ ∧
      (serveWrite paramProto byteTable (goLibrary asGiven) Binary64.exact (.fresh [])
          paramWrite).1 =
        ((Engine.fresh []).take byteTable paramWrite.loc
          (.exec { statements := [paramInsert.received] })).1 := by
  have hsend : ∀ st ∈ [paramInsert], ∀ p ∈ st.params, p.Sendable := by
    simp only [forall_eq, paramInsert, List.mem_cons, List.not_mem_nil, or_false]
    rintro p (rfl | rfl)
    · exact ⟨_, rfl, nofun⟩
    · exact ⟨_, rfl, nofun⟩
  have hentry : encodeExec paramProto { statements := [paramInsert.received] } =
      .ok ([8, 1] ++ lenField 0x12 paramBytes) := by
    simp [encodeExec, paramProto, Codec.table]
  refine ⟨by decide +kernel, ?_⟩
  rw [posted_statements_run paramProto_lawful Binary64.formats_exact asGiven true
    (.statements (by simp) hsend) hentry rfl byteTable (.fresh [])]
  rfl

/-! ### Answers -/

section Answers

variable {float : UInt64 → Number}

/-- Documents **tell the results** of a response, one for each, in order. -/
def Tells (float : UInt64 → Number) (d : RawDBResponse) (docs : List Json) : Prop :=
  match d.execRes with
  | some res =>
      List.Forall₂ (fun r doc => ∃ v, Encoding.convertExecuteResult r = .ret v ∧
        doc = Encoding.encodeResult v) res docs
  | none =>
      match d.queryRes with
      | some res =>
          List.Forall₂ (fun r doc => ∃ q, r = some q ∧ Encoding.MirrorsResult float q doc) res docs
      | none => docs = []

/-- The document of a result can be printed. -/
theorem printable_encodeResult (res : Encoding.Result) :
    (Encoding.encodeResult res).Printable 3 := by
  refine Json.Printable.mono (.obj fun m hm => ?_) (by decide : 1 ≤ 3)
  obtain ⟨key, doc⟩ := m
  simp only [List.mem_append, Encoding.omitInt, Encoding.omitText, Encoding.mem_omitEmpty] at hm
  rcases hm with (⟨-, -, rfl⟩ | ⟨-, -, rfl⟩) | ⟨-, -, rfl⟩
  · exact printable_ofInt _
  · exact printable_ofInt _
  · exact printable_str _

/-- A cell that is encoded can be printed. -/
theorem printable_encodeValue (hfloat : Formats float) {v : Option ParamValue} {j : Json}
    (h : Encoding.encodeValue float v = .ok j) : j.Printable 0 := by
  rcases v with _ | v
  · obtain rfl := Except.ok.inj h
    exact ⟨le_rfl, fun n hn => absurd hn List.not_mem_nil⟩
  · have hfinite : ∀ d, v = .d d → Binary64.Finite d := fun d hd =>
      (Encoding.encodeValue_ok_iff (some v)).mp ⟨j, h⟩ d (congrArg some hd)
    have hcell : Encoding.MirrorsCell float (some ⟨some v, ""⟩) j :=
      Encoding.mirrorsCell_of_encode h
    exact hcell.value v rfl ▸ jsonForm_printable hfloat hfinite

/-- A row that is encoded can be printed. -/
theorem printable_encodeRow (hfloat : Formats float) {row : Option (List (Option ParamValue))}
    {j : Json} (h : Encoding.encodeRow float row = .ok j) : j.Printable 1 := by
  rcases row with _ | cells
  · obtain rfl := Except.ok.inj h
    exact ⟨Nat.zero_le 1, fun _ hn => absurd hn List.not_mem_nil⟩
  · obtain ⟨js, hjs, rfl⟩ := Encoding.map_eq_ok_iff.mp h
    refine .arr fun j hj => ?_
    obtain ⟨v, -, hv⟩ := exists_of_forall₂_right (mapM_eq_ok_iff.mp hjs) hj
    exact printable_encodeValue hfloat hv

/-- A result that is encoded can be printed. -/
theorem printable_encodeQueryRes (hfloat : Formats float) {q : Encoding.EncQueryRes} {j : Json}
    (h : Encoding.encodeQueryRes float q = .ok j) : j.Printable 3 := by
  obtain ⟨rows, hrows, rfl⟩ := Encoding.map_eq_ok_iff.mp h
  have htexts : ∀ texts : List String, (Json.arr (texts.map .str)).Printable 2 := by
    intro texts
    refine Json.Printable.mono (.arr ?_) (by decide : 1 ≤ 2)
    simp only [List.forall_mem_map]
    exact fun s _ => printable_str s
  refine .obj fun m hm => ?_
  obtain ⟨key, doc⟩ := m
  simp only [List.mem_append, Encoding.omitTexts, Encoding.omitDocs, Encoding.omitText,
    Encoding.mem_omitEmpty] at hm
  rcases hm with ((⟨-, -, rfl⟩ | ⟨-, -, rfl⟩) | ⟨-, -, rfl⟩) | ⟨-, -, rfl⟩
  · exact htexts _
  · exact htexts _
  · refine .arr fun row hrow => ?_
    obtain ⟨v, -, hv⟩ := exists_of_forall₂_right (mapM_eq_ok_iff.mp hrows) hrow
    exact printable_encodeRow hfloat hv
  · exact (printable_str _).mono (Nat.zero_le 2)

/-- The text of the results of a response is that of documents that tell them. -/
theorem marshalJSON_tells (hfloat : Formats float) {d : RawDBResponse} {text : String}
    (h : d.marshalJSON float = .ret (.ok text)) :
    ∃ docs, Tells float d docs ∧ text = .ofList ((Json.arr docs).text false) ∧
      ∀ doc ∈ docs, doc.Printable 3 := by
  rcases d with ⟨_ | res, queryRes⟩
  · rcases queryRes with _ | res
    · obtain rfl := Except.ok.inj (Outcome.ret.inj h)
      exact ⟨[], rfl, rfl, fun _ hdoc => absurd hdoc List.not_mem_nil⟩
    · obtain ⟨vals, hvals, h⟩ := Outcome.bind_eq_ret_iff.mp h
      have htext := Outcome.ret.inj h
      rw [Encoding.structToJson_arr] at htext
      obtain ⟨docs, hdocs, rfl⟩ := Encoding.map_eq_ok_iff.mp htext
      have hencoded := mapM_eq_ok_iff.mp hdocs
      refine ⟨docs, ?_, rfl, fun doc hdoc => ?_⟩
      · refine forall₂_trans (fun r v doc hr hdoc => ?_) (mapM_eq_ret_iff.mp hvals) hencoded
        rcases r with _ | q
        · cases hr
        · obtain rfl := Outcome.ret.inj hr
          exact ⟨q, rfl, Encoding.mirrorsResult_of_encode hdoc⟩
      · obtain ⟨v, -, hv⟩ := exists_of_forall₂_right hencoded hdoc
        exact printable_encodeQueryRes hfloat hv
  · obtain ⟨vals, hvals, h⟩ := Outcome.bind_eq_ret_iff.mp h
    have hdocs := Encoding.structToJson_arr (.ok (vals.map Encoding.encodeResult))
    refine ⟨vals.map Encoding.encodeResult, ?_,
      Except.ok.inj ((Outcome.ret.inj h).symm.trans hdocs), ?_⟩
    · refine List.forall₂_map_right_iff.mpr ?_
      exact (mapM_eq_ret_iff.mp hvals).imp fun r v hv => ⟨v, hv, rfl⟩
    · simp only [List.forall_mem_map]
      exact fun v _ => printable_encodeResult v

/-- The text of a response is that of an object. -/
theorem responseText_eq (docs : List Json) (error : String) :
    responseText (.ofList ((Json.arr docs).text false)) error =
      .ofList
        ((Json.obj (("results", .arr docs) :: Encoding.omitText "error" error)).text true) := by
  rw [responseText, String.toList_ofList, Json.compactHTML_text]
  congr 1
  by_cases herror : error = ""
  · simp [Encoding.omitText, Encoding.omitEmpty, herror, Json.text, Json.memberTexts]
  · simp [Encoding.omitText, Encoding.omitEmpty, herror, Json.text, Json.memberTexts]

/-- **Every answer with data is a document**: it has the results in order, as they are, and the
error if there is one. -/
theorem answer_read_back (hfloat : Formats float) {resp : RawDataResponse} {text : String}
    (h : writeResponse float resp = .ret (.body text)) :
    ∃ docs, Tells float resp.results docs ∧
      parseJson (utf8 text) =
        some (.obj (("results", (Json.arr docs).readBack) ::
          Encoding.omitText "error" resp.error)) := by
  obtain ⟨res, hres⟩ : ∃ res, resp.results.marshalJSON float = .ret res := by
    obtain ⟨r, hr, -⟩ := Outcome.bind_eq_ret_iff.mp h
    obtain ⟨res, hres, -⟩ := Outcome.bind_eq_ret_iff.mp hr
    exact ⟨res, hres⟩
  rw [writeResponse_eq hres] at h
  rcases res with m | results
  · cases h
  obtain rfl : responseText results resp.error = text := by
    simpa [writtenAnswer] using h
  obtain ⟨docs, htells, rfl, hprint⟩ := marshalJSON_tells hfloat hres
  have hobject : (Json.obj (("results", .arr docs) ::
      Encoding.omitText "error" resp.error)).Printable maxNestingDepth := by
    refine Json.Printable.mono (.obj fun m hm => ?_) (by decide : 5 ≤ maxNestingDepth)
    rcases List.mem_cons.mp hm with rfl | hm
    · exact .arr hprint
    · obtain ⟨key, doc⟩ := m
      simp only [Encoding.omitText, Encoding.mem_omitEmpty] at hm
      obtain ⟨-, -, rfl⟩ := hm
      exact (printable_str _).mono (Nat.zero_le 4)
  refine ⟨docs, htells, ?_⟩
  rw [responseText_eq, parseJson_text true hobject]
  by_cases herror : resp.error = ""
  · simp [Encoding.omitText, Encoding.omitEmpty, herror, Json.readBack, Json.memberReadBacks]
  · simp [Encoding.omitText, Encoding.omitEmpty, herror, Json.readBack, Json.memberReadBacks]

/-- A response with two rows. -/
def twoRowsResponse : RawDataResponse := { results := { queryRes := some [some Encoding.twoRows] } }

/-- The response with two rows is a document. -/
theorem twoRows_read_back :
    ∃ text docs, writeResponse Binary64.exact twoRowsResponse = .ret (.body text) ∧
      Tells Binary64.exact twoRowsResponse.results docs ∧
      parseJson (utf8 text) = some (.obj [("results", (Json.arr docs).readBack)]) := by
  have htext : writeResponse Binary64.exact twoRowsResponse =
      .ret (.body (responseText Encoding.twoRowsText "")) := by decide +kernel
  obtain ⟨docs, htells, hparse⟩ := answer_read_back Binary64.formats_exact htext
  exact ⟨_, docs, htext, htells, hparse⟩

end Answers

end DistSql
