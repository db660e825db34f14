import DistSql.Loop
import DistSql.Poison

/-!
# What the Results of a Query Say

A result of `Engine.Query` says what became of one statement. Two promises are made of
results.

**No partial data.** A result with an error has no columns, types or values, and a result
without one has all rows of its statement. The code sets the columns and types last, for
this very reason, but appends the values while it reads the rows: a statement that fails
after it delivered rows leaves them in its result.

**Independence.** A statement that fails yields an error result of its own, and the other
statements are answered as if they had been sent alone. Most failures are treated that
way; a row that cannot be scanned or converted ends the whole request. Statements also
share a connection: an `ATTACH` or a PRAGMA can change the answers to those after it.

## Main results

* `queryStmt_result_spec`: what the result of a statement holds, by the rows that it opens.
* `no_partial_data_iff`: when no result of a query holds partial data.
* `failed_step_leaves_rows`: a result that does.
* `alike_queryStmt`: what the answer to a statement that only reads depends on.
* `queryLoop_apart`: which results of a request belong to which statement.
* `statements_independent_iff`: when the statements of a query are answered
  independently.
* `bad_time_ends_query`: a time that takes the other answers with it.
-/

open Golang Sqlite

namespace DistSql

variable {D E : Type}

/-! ### Rows and their values -/

/-- The entry of a result is the converted row. -/
def RowAnswer (types : List String) (row : Except String (List Cell)) (v : Values) : Prop :=
  ∃ cells, row = .ok cells ∧ convertToProto types cells = .ret (.ok v.params)

/-- Rows that do not stop the row loop are all converted, in order. -/
theorem readRows_values {types : List String} :
    ∀ (rows : List (Except String (List Cell))) (acc : List Values),
      (∀ row, .ok row ∈ rows → row.length = types.length) → rowsStop types rows = none →
        ∃ values, readRows types rows acc = .ret (.ok (acc ++ values)) ∧
          List.Forall₂ (RowAnswer types) rows values := by
  intro rows
  induction rows with
  | nil => intro acc _ _; exact ⟨[], by simp [readRows], .nil⟩
  | cons r rest ih =>
      intro acc hlen hstop
      rcases r with m | row
      · simp [rowsStop] at hstop
      rcases hf : firstStop (types.zip row) with _ | p
      · have hrow := convertToProto_stops (hlen row List.mem_cons_self)
        rw [hf] at hrow
        obtain ⟨prs, hprs⟩ := hrow
        simp only [rowsStop, hf] at hstop
        obtain ⟨values, hvalues, hall⟩ := ih (acc ++ [⟨prs⟩])
          (fun row' h => hlen row' (List.mem_cons_of_mem _ h)) hstop
        refine ⟨⟨prs⟩ :: values, ?_, .cons ⟨row, rfl, hprs⟩ hall⟩
        simp only [readRows, hprs, Outcome.ret_ok_okThen, hvalues, List.append_assoc,
          List.singleton_append]
      · simp [rowsStop, hf] at hstop

/-- The reader of these rows **gives up** on the whole request: a row fails to scan or to
convert, or the rows never end. -/
def GivesUpAt (types : List String) (cur : Cursor) : Prop :=
  rowsStop types cur.rows ≠ none ∨ cur.endless = true

/-- A statement that opened rows is not skipped. -/
theorem readCursor_ne_skip (types cols : List String) (cur : Cursor) :
    readCursor types cols cur ≠ .skip := by
  rw [readCursor]
  split
  case h_4 => split
              · simp
              · rcases cur.err with _ | m <;> simp
  all_goals simp

/-- Where the reader gives up, the statement has no result. -/
theorem readCursor_of_givesUp {types cols : List String} {cur : Cursor}
    (hlen : ∀ row, .ok row ∈ cur.rows → row.length = types.length)
    (h : GivesUpAt types cur) (acc : List QueryRes) :
    (readCursor types cols cur).goesOn acc = none := by
  have hstop := readRows_stops cur.rows [] hlen
  rcases hr : rowsStop types cur.rows with _ | _ | p
  · rw [hr] at hstop
    obtain ⟨values, hvalues⟩ := hstop
    have hend : cur.endless = true := by simpa [GivesUpAt, hr] using h
    simp [readCursor, hvalues, hend, StmtEnd.goesOn]
  · rw [hr] at hstop
    obtain ⟨m, hm⟩ := hstop
    simp [readCursor, hm, StmtEnd.goesOn]
  · rw [hr] at hstop
    by_cases hb : blobInText p.1 p.2 = true
    · obtain ⟨m, hm⟩ : ∃ m, readRows types cur.rows [] = .panic m := by
        simpa only [StopsAs, if_pos hb] using hstop
      simp [readCursor, hm, StmtEnd.goesOn]
    · obtain ⟨m, hm⟩ : ∃ m, readRows types cur.rows [] = .ret (.error m) := by
        simpa only [StopsAs, if_neg hb] using hstop
      simp [readCursor, hm, StmtEnd.goesOn]

/-- Where it does not, the result has all rows that were delivered, and either the error
that ended them or the columns and types. -/
theorem readCursor_of_not_givesUp {types cols : List String} {cur : Cursor}
    (hlen : ∀ row, .ok row ∈ cur.rows → row.length = types.length)
    (h : ¬GivesUpAt types cur) :
    ∃ values, List.Forall₂ (RowAnswer types) cur.rows values ∧
      readCursor types cols cur =
        match cur.err with
        | some m => .res { values := values, error := m }
        | none => .res { columns := cols, types := types, values := values } := by
  obtain ⟨hstop, hend⟩ : rowsStop types cur.rows = none ∧ cur.endless = false := by
    simpa [GivesUpAt] using h
  obtain ⟨values, hvalues, hall⟩ := readRows_values cur.rows [] hlen hstop
  rw [List.nil_append] at hvalues
  refine ⟨values, hall, ?_⟩
  rcases herr : cur.err with _ | m <;> simp [readCursor, hvalues, hend, herr]

/-! ### Errors have a text -/

/-- The text of an error that compiling returns is not empty. -/
theorem prepare_error {drv : Driver D E} (herrs : drv.LawfulErrors) {s : Session D} {c : Cmd}
    {m : String} (h : (prepare drv s c).2 = .error m) : m ≠ "" := by
  cases c with
  | plain sql =>
      rcases hc : drv.compile sql s.conn.settings s.see with m' | ⟨own, ro⟩
      · simp only [prepare, hc, Except.error.injEq] at h
        rw [← h]
        exact herrs.compile _ _ _ _ hc
      · simp [prepare, hc] at h
  | _ => simp [prepare] at h

/-- The text of an error that `prepareAll` returns is not empty. Induction on the
statements. -/
theorem prepareAll_error {drv : Driver D E} (herrs : drv.LawfulErrors) {text : String}
    {args : List NamedArg} {m : String} :
    ∀ (cs : List Cmd) (j : ℕ) (s : Session D) (last : Option Prepared),
      (prepareAll drv text args j cs s last).2 = .error m → m ≠ "" := by
  intro cs
  induction cs with
  | nil => intro j s last h; simp [prepareAll] at h
  | cons c cs ih =>
      intro j s last h
      rcases hp : prepare drv s c with ⟨s₁, m' | b⟩
      · simp only [prepareAll, hp, Except.error.injEq] at h
        rw [← h]
        exact prepare_error herrs (congrArg Prod.snd hp)
      rcases hb : drv.bind text args j with m' | a
      · simp only [prepareAll, hp, hb, Except.error.injEq] at h
        rw [← h]
        exact herrs.bind _ _ _ _ hb
      · simp only [prepareAll, hp, hb] at h
        exact ih _ _ _ h

/-- The text of an error that a plain statement of a query returns is not empty. -/
theorem runPlain_error {drv : Driver D E} (herrs : drv.LawfulErrors) {e : E} {ro : Bool}
    {args : List NamedArg} {s : Session D} {sql m : String}
    (h : (runPlain drv none e ro args s sql).2 = .error (.msg m)) : m ≠ "" := by
  -- the two ways in which the library fails
  have hfail : ∀ own m', drv.exec e sql args s.conn.settings s.see = .fail own m' →
      (Except.error (.msg m') : Except Halt Result) = .error (.msg m) → m ≠ "" := by
    intro own m' hx hm
    obtain rfl := Halt.msg.inj (Except.error.inj hm)
    exact herrs.fail _ _ _ _ _ _ _ hx
  have hback : ∀ own m', drv.exec e sql args s.conn.settings s.see = .failRollback own m' →
      (Except.error (.msg m') : Except Halt Result) = .error (.msg m) → m ≠ "" := by
    intro own m' hx hm
    obtain rfl := Halt.msg.inj (Except.error.inj hm)
    exact herrs.failRollback _ _ _ _ _ _ _ hx
  rw [runPlain.eq_def] at h
  split at h
  · split at h
    · simp at h
    · exact hfail _ _ ‹_› h
    · exact hback _ _ ‹_› h
    · simp at h
  split at h
  · obtain rfl : errReadOnly = m := Halt.msg.inj (Except.error.inj h)
    decide
  simp only at h
  split at h
  · simp at h
  · exact hfail _ _ ‹_› h
  · exact hback _ _ ‹_› h
  · simp at h

/-- A text with a first part is not empty. -/
theorem append_ne_empty {front : String} (hfront : front.toList ≠ []) (name : String) :
    front ++ name ≠ "" := by
  intro h
  have hlist : (front ++ name).toList = [] := by rw [h]; rfl
  rw [String.toList_append] at hlist
  exact hfront (List.append_eq_nil_iff.mp hlist).1

/-- The error of naming a savepoint that is not open has a text. -/
theorem errNoSavepoint_ne (name : String) : errNoSavepoint name ≠ "" :=
  append_ne_empty (by decide) name

/-- The text of an error that a command of a query returns is not empty. -/
theorem runCmd_error {drv : Driver D E} (herrs : drv.LawfulErrors) {e : E} {ro : Bool}
    {args : List NamedArg} {s : Session D} {c : Cmd} {m : String}
    (h : (runCmd drv none e ro args s c).2 = .error (.msg m)) : m ≠ "" := by
  have hmsg : ∀ m', (Except.error (.msg m') : Except Halt Result) = .error (.msg m) → m' = m :=
    fun m' hm => Halt.msg.inj (Except.error.inj hm)
  cases c with
  | plain sql => exact runPlain_error herrs h
  | attach sql =>
      simp only [runCmd] at h
      split at h
      · simp at h
      · rename_i s' stop hr
        obtain rfl : stop = .msg m := Except.error.inj h
        exact runPlain_error herrs (congrArg Prod.snd hr)
  | begin imm =>
      rcases ht : s.conn.tx with _ | t
      · rcases imm <;> simp [runCmd, ht] at h
      · simp only [runCmd, ht] at h
        rw [← hmsg _ h]
        decide
  | commit =>
      rcases ht : s.conn.tx with _ | t
      · simp only [runCmd, ht] at h
        rw [← hmsg _ h]
        decide
      · simp [runCmd, ht, commitLocked] at h
  | rollback =>
      rcases ht : s.conn.tx with _ | t
      · simp only [runCmd, ht] at h
        rw [← hmsg _ h]
        decide
      · simp [runCmd, ht] at h
  | savepoint name =>
      rcases ht : s.conn.tx with _ | t <;> simp [runCmd, ht] at h
  | release name =>
      rcases ht : s.conn.tx with _ | t
      · simp only [runCmd, ht] at h
        rw [← hmsg _ h]
        exact errNoSavepoint_ne name
      · simp only [runCmd, ht] at h
        split at h
        · rw [← hmsg _ h]
          exact errNoSavepoint_ne name
        split at h
        · simp [commitLocked] at h
        · simp at h
  | rollbackTo name =>
      rcases ht : s.conn.tx with _ | t
      · simp only [runCmd, ht] at h
        rw [← hmsg _ h]
        exact errNoSavepoint_ne name
      · simp only [runCmd, ht] at h
        split at h
        · rw [← hmsg _ h]
          exact errNoSavepoint_ne name
        · simp at h

/-- The text of the error that ends the rows of a statement is not empty. -/
theorem stepRows_error {drv : Driver D E} (herrs : drv.LawfulErrors) {e : E} {s : Session D}
    {last : Option Prepared} {m : String} (h : (stepRows drv e s last).2.err = some m) :
    m ≠ "" := by
  have hres : ∀ r : Except Halt Result, (Cursor.ofResult r).err = some m → r = .error (.msg m) := by
    intro r hr
    rcases r with (m' | _) | r
    · rw [← Option.some.inj hr]
    · simp [Cursor.ofResult] at hr
    · simp [Cursor.ofResult] at hr
  rcases last with _ | ⟨c, ro, args⟩
  · simp [stepRows, Cursor.blank] at h
  cases c with
  | plain sql =>
      simp only [stepRows] at h
      split at h
      · exact herrs.query _ _ _ _ _ _ h
      split at h
      · exact herrs.query _ _ _ _ _ _ h
      · rename_i s' m' hr
        obtain rfl : m' = m := Option.some.inj h
        exact runPlain_error herrs (congrArg Prod.snd hr)
      · simp at h
  | _ => exact runCmd_error herrs (hres _ h)

/-! ### Statements -/

/-- The text of the error that a statement is refused with is not empty. -/
theorem accept_error {drv : Driver D E} (herrs : drv.LawfulErrors) {s : Session D}
    {q : Statement} {m : String} (h : (accept drv s q).2 = .error m) : m ≠ "" := by
  rw [accept] at h
  rcases hf : prepareFirst drv s q.sql with ⟨s₁, m' | ro⟩
  · obtain rfl : m' = m := by simpa [hf] using h
    rw [prepareFirst] at hf
    split at hf
    · simp at hf
    · exact prepare_error herrs (congrArg Prod.snd hf)
  rcases ro with _ | _
  · obtain rfl : errChange = m := by simpa [hf] using h
    decide
  rcases hp : convertParamsToSQL q.params with m' | params
  · obtain rfl : m' = m := by simpa [hf, hp] using h
    exact convertParamsToSQL_error hp
  · simp only [hf, hp] at h
    exact prepareAll_error herrs _ _ _ _ h

/-! ### Results and the statements they belong to -/

/-- A statement after which the loop goes on left one result or none. -/
theorem StmtEnd.goesOn_eq_some {r : StmtEnd} {acc acc' : List QueryRes}
    (h : r.goesOn acc = some acc') :
    (r = .skip ∧ acc' = acc) ∨ ∃ x, r = .res x ∧ acc' = acc ++ [x] := by
  cases r with
  | skip => exact .inl ⟨rfl, (Option.some.inj h).symm⟩
  | res x => exact .inr ⟨x, rfl, (Option.some.inj h).symm⟩
  | abort m => simp [StmtEnd.goesOn] at h
  | panic m => simp [StmtEnd.goesOn] at h
  | hang => simp [StmtEnd.goesOn] at h

/-- **Every result belongs to a statement** that was reached: the one that was reached
with as many results before it. Induction on how far the loop came. -/
theorem queryLoop_result {drv : Driver D E} {loc : Local E} {req : Request} {s s₀ : Session D}
    (hstart : queryStart loc req.transaction s = .ok s₀) :
    ∀ (n : ℕ) (s' : Session D) (results : List QueryRes),
      queryLoop drv loc 0 (req.statements.take n) s₀ [] = (s', .ret (.ok results)) →
      ∀ k x, results[k]? = some x →
        ∃ i q s₁ acc, Reached drv loc req s i q s₁ acc ∧ acc.length = k ∧
          (queryStmt drv ((loc.stmt i).entropy 0) s₁ q).result = .res x := by
  intro n
  induction n with
  | zero =>
      intro s' results h k x hk
      obtain ⟨-, hres⟩ := Prod.mk.inj h
      obtain rfl := Except.ok.inj (Outcome.ret.inj hres)
      simp at hk
  | succ n ih =>
      intro s' results h k x hk
      rcases hq : req.statements[n]? with _ | q
      · -- there is no further statement
        have hlen : req.statements.length ≤ n := List.getElem?_eq_none_iff.mp hq
        rw [List.take_of_length_le (by omega)] at h
        exact ih s' results (by rwa [List.take_of_length_le hlen]) k x hk
      have hlen : n < req.statements.length := (List.getElem?_eq_some_iff.mp hq).1
      have htake : req.statements.take (n + 1) = req.statements.take n ++ [q] := by
        rw [List.take_add_one, hq]
        rfl
      rw [htake] at h
      obtain ⟨s₁, acc, hpre, hlast⟩ := queryLoop_append_ok [q] _ _ _ _ h
      rw [List.length_take, Nat.min_eq_left (by omega), Nat.zero_add] at hlast
      have hreach : Reached drv loc req s n q s₁ acc := ⟨hq, s₀, hstart, hpre⟩
      rcases hgo : (queryStmt drv ((loc.stmt n).entropy 0) s₁ q).result.goesOn acc with _ | acc'
      · exact absurd hlast (queryLoop_stops [] hgo _ _)
      rw [queryLoop_goesOn [] hgo] at hlast
      obtain ⟨-, hres⟩ := Prod.mk.inj hlast
      obtain rfl := Except.ok.inj (Outcome.ret.inj hres)
      rcases StmtEnd.goesOn_eq_some hgo with ⟨-, rfl⟩ | ⟨y, hy, rfl⟩
      · exact ih s₁ acc' hpre k x hk
      · rcases Nat.lt_or_ge k acc.length with hlt | hge
        · rw [List.getElem?_append_left hlt] at hk
          exact ih s₁ acc hpre k x hk
        · rw [List.getElem?_append_right hge] at hk
          obtain ⟨hk', hx⟩ := List.getElem?_eq_some_iff.mp hk
          have hklen : k = acc.length := by
            rw [List.length_singleton] at hk'
            omega
          subst hklen
          have hyx : y = x := by simpa using hx
          exact ⟨n, q, s₁, acc, hreach, rfl, by rw [hy, hyx]⟩

/-- A loop whose reached statements all let it go on comes through. Induction on how far
it has come. -/
theorem queryLoop_comesThrough {drv : Driver D E} {loc : Local E} {req : Request}
    {s s₀ : Session D} (hstart : queryStart loc req.transaction s = .ok s₀)
    (hgo : ∀ i q s' acc, Reached drv loc req s i q s' acc →
      (queryStmt drv ((loc.stmt i).entropy 0) s' q).result.goesOn acc ≠ none) :
    ∃ s₁ results, queryLoop drv loc 0 req.statements s₀ [] = (s₁, .ret (.ok results)) := by
  have hpart : ∀ n, ∃ s₁ results,
      queryLoop drv loc 0 (req.statements.take n) s₀ [] = (s₁, .ret (.ok results)) := by
    intro n
    induction n with
    | zero => exact ⟨s₀, [], rfl⟩
    | succ n ih =>
        obtain ⟨s₁, acc, hloop⟩ := ih
        rcases hq : req.statements[n]? with _ | q
        · have hlen : req.statements.length ≤ n := List.getElem?_eq_none_iff.mp hq
          rw [List.take_of_length_le hlen] at hloop
          exact ⟨s₁, acc, by rwa [List.take_of_length_le (by omega)]⟩
        have hlen : n < req.statements.length := (List.getElem?_eq_some_iff.mp hq).1
        obtain ⟨acc', hacc⟩ :=
          Option.ne_none_iff_exists'.mp (hgo n q s₁ acc ⟨hq, s₀, hstart, hloop⟩)
        have happ := queryLoop_append [q] _ _ _ _ hloop
        rw [List.length_take, Nat.min_eq_left (by omega), Nat.zero_add,
          queryLoop_goesOn [] hacc] at happ
        rw [List.take_add_one, hq]
        exact ⟨_, acc', happ⟩
  obtain ⟨s₁, results, hloop⟩ := hpart req.statements.length
  rw [List.take_length] at hloop
  exact ⟨s₁, results, hloop⟩

/-! ### No partial data -/

/-- The statement opens rows on which the reader gives up. -/
def GivesUp (drv : Driver D E) (e : E) (s : Session D) (q : Statement) : Prop :=
  ∃ cur types, openRows drv e s q = some cur ∧ cur.columnTypes = .ok types ∧
    GivesUpAt (types.map toLower) cur

/-- The result has **all rows of its statement**: the rows that it opened in the session
came to their end without an error, and every one of them stands in the result, under
the names and types of the columns. -/
def CarriesAll (drv : Driver D E) (e : E) (s : Session D) (q : Statement) (r : QueryRes) :
    Prop :=
  ∃ cur types cols, openRows drv e s q = some cur ∧ cur.columnTypes = .ok types ∧
    cur.columns = .ok cols ∧ cur.err = none ∧ cur.endless = false ∧ r.columns = cols ∧
    r.types = types.map toLower ∧ List.Forall₂ (RowAnswer (types.map toLower)) cur.rows r.values

/-- **No partial data**: every result with an error has no columns, types or values, and
every result without one has all rows of its statement. -/
def NoPartialData (drv : Driver D E) (loc : Local E) (req : Request) (s : Session D) : Prop :=
  ∀ results err, (query drv loc req s).2 = .ret (results, err) →
    ∀ k r, results[k]? = some r →
      (r.error ≠ "" → r.columns = [] ∧ r.types = [] ∧ r.values = []) ∧
        (r.error = "" → ∃ i q s' acc, Reached drv loc req s i q s' acc ∧ acc.length = k ∧
          CarriesAll drv ((loc.stmt i).entropy 0) s' q r)

/-- **Where the loop goes on**: after every statement but those on whose rows the reader
gives up. -/
theorem queryStmt_goesOn_iff {drv : Driver D E} (hrows : drv.LawfulRows)
    (e : E) (s : Session D) (q : Statement) (acc : List QueryRes) :
    (queryStmt drv e s q).result.goesOn acc = none ↔ GivesUp drv e s q := by
  have hgives : ∀ {cur types}, openRows drv e s q = some cur → cur.columnTypes = .ok types →
      (GivesUp drv e s q ↔ GivesUpAt (types.map toLower) cur) := by
    intro cur types hcur htypes
    constructor
    · rintro ⟨cur', types', hcur', htypes', h⟩
      obtain rfl := Option.some.inj (hcur.symm.trans hcur')
      obtain rfl := Except.ok.inj (htypes.symm.trans htypes')
      exact h
    · intro h
      exact ⟨cur, types, hcur, htypes, h⟩
  rcases queryStmt_cases hrows e s q with
    ⟨-, hopen, -, hres⟩ | ⟨-, ⟨s', m, -, hopen, -, hres⟩ |
      ⟨s', last, types, cols, -, hcur, htypes, -, hlen, -, hres⟩⟩
  · simp [hres, StmtEnd.goesOn, GivesUp, hopen]
  · simp [hres, StmtEnd.goesOn, GivesUp, hopen]
  rw [hres, hgives hcur htypes]
  constructor
  · intro hstop
    by_contra hgive
    obtain ⟨values, -, hread⟩ := @readCursor_of_not_givesUp _ cols _ hlen hgive
    rw [hread] at hstop
    rcases herr : (stepRows drv e s' last).2.err with _ | m <;>
      simp [herr, StmtEnd.goesOn] at hstop
  · intro hgive
    exact readCursor_of_givesUp hlen hgive acc

/-- A request that returned results reached no statement on whose rows the reader gave
up. -/
theorem not_givesUp_of_results {drv : Driver D E} (hrows : drv.LawfulRows)
    {loc : Local E} {req : Request} {s s' s₀ s₁ : Session D} {i : ℕ}
    {q : Statement} {acc results : List QueryRes} (hreach : Reached drv loc req s i q s' acc)
    (hstart : queryStart loc req.transaction s = .ok s₀)
    (hl : queryLoop drv loc 0 req.statements s₀ [] = (s₁, .ret (.ok results))) :
    ¬GivesUp drv ((loc.stmt i).entropy 0) s' q := by
  intro hgive
  obtain ⟨s₂, hs₂, hloop⟩ := hreach.queryLoop_eq
  rw [hstart] at hs₂
  obtain rfl := Except.ok.inj hs₂
  have hstop := (queryStmt_goesOn_iff hrows _ _ _ acc).mpr hgive
  exact absurd (hloop.symm.trans hl) (queryLoop_stops _ hstop _ _)

/-- A statement on whose rows the reader does not give up has a result. -/
theorem queryStmt_has_result {drv : Driver D E} (hrows : drv.LawfulRows)
    {e : E} {s : Session D} {q : Statement}
    (hgive : ¬GivesUp drv e s q) {cur : Cursor} (hcur : openRows drv e s q = some cur) :
    ∃ r, (queryStmt drv e s q).result = .res r := by
  obtain ⟨acc, hacc⟩ := Option.ne_none_iff_exists'.mp
    (mt (queryStmt_goesOn_iff hrows e s q []).mp hgive)
  rcases StmtEnd.goesOn_eq_some hacc with ⟨hskip, -⟩ | ⟨r, hr, -⟩
  · rcases queryStmt_cases hrows e s q with
      ⟨-, hopen, -⟩ | ⟨-, ⟨s', m, -, -, -, hres⟩ | ⟨s', last, types, cols, -, -, -, -, -, -, hres⟩⟩
    · simp [hopen] at hcur
    · simp [hres] at hskip
    · rw [hskip] at hres
      exact absurd hres.symm (readCursor_ne_skip _ _ _)
  · exact ⟨r, hr⟩

/-- **What the result of a statement holds** on whose rows the reader does not give up:
nothing but an error; the rows before the error that ended them, and that error; or all
rows. -/
theorem queryStmt_result_spec {drv : Driver D E} (hrows : drv.LawfulRows)
    (herrs : drv.LawfulErrors) {e : E} {s : Session D} {q : Statement}
    (hgive : ¬GivesUp drv e s q) {r : QueryRes} (hr : (queryStmt drv e s q).result = .res r) :
    (openRows drv e s q = none ∧ r.error ≠ "" ∧ r = { error := r.error }) ∨
      (∃ cur types, openRows drv e s q = some cur ∧ cur.columnTypes = .ok types ∧
        cur.err = some r.error ∧ r.error ≠ "" ∧ r = { values := r.values, error := r.error } ∧
        List.Forall₂ (RowAnswer (types.map toLower)) cur.rows r.values) ∨
      (r.error = "" ∧ CarriesAll drv e s q r ∧ ∀ cur, openRows drv e s q = some cur →
        cur.err = none) := by
  rcases queryStmt_cases hrows e s q with
    ⟨-, -, -, hres⟩ | ⟨-, ⟨s', m, hm, hnone, -, hres⟩ |
      ⟨s', last, types, cols, -, hcur, htypes, hcols, hlen, -, hres⟩⟩
  · rw [hres] at hr
    simp at hr
  · rw [hres] at hr
    obtain rfl := StmtEnd.res.inj hr
    exact .inl ⟨hnone, accept_error herrs (congrArg Prod.snd hm), rfl⟩
  have herr : ∀ m, (stepRows drv e s' last).2.err = some m → m ≠ "" :=
    fun m h => stepRows_error herrs h
  obtain ⟨cur, hcur'⟩ : ∃ cur, cur = (stepRows drv e s' last).2 := ⟨_, rfl⟩
  rw [← hcur'] at hcur htypes hcols hlen hres herr
  have hgive' : ¬GivesUpAt (types.map toLower) cur := fun h => hgive ⟨cur, types, hcur, htypes, h⟩
  obtain ⟨values, hall, hread⟩ := @readCursor_of_not_givesUp _ cols _ hlen hgive'
  rw [hres, hread] at hr
  rcases hend : cur.err with _ | m
  · rw [hend] at hr
    obtain rfl := StmtEnd.res.inj hr
    have hendless : cur.endless = false := by
      simpa using fun h : cur.endless = true => hgive' (.inr h)
    refine .inr (.inr ⟨rfl, ⟨cur, types, cols, hcur, htypes, hcols, hend, hendless, rfl, rfl,
      hall⟩, fun cur' hcur' => ?_⟩)
    rw [← Option.some.inj (hcur.symm.trans hcur')]
    exact hend
  · rw [hend] at hr
    obtain rfl := StmtEnd.res.inj hr
    exact .inr (.inl ⟨cur, types, hcur, htypes, hend, herr m hend, rfl, hall⟩)

/-- **When no result holds partial data**: exactly when the request ends early, or no
statement that it reaches fails after it has delivered rows. -/
theorem no_partial_data_iff {drv : Driver D E} (hrows : drv.LawfulRows)
    (herrs : drv.LawfulErrors) (loc : Local E) (req : Request) (s : Session D) :
    NoPartialData drv loc req s ↔
      (∃ i q s' acc, Reached drv loc req s i q s' acc ∧
        GivesUp drv ((loc.stmt i).entropy 0) s' q) ∨
      ∀ i q s' acc, Reached drv loc req s i q s' acc →
        ∀ cur, openRows drv ((loc.stmt i).entropy 0) s' q = some cur →
          cur.err ≠ none → cur.rows = [] := by
  constructor
  · intro hno
    by_cases hgive : ∃ i q s' acc, Reached drv loc req s i q s' acc ∧
        GivesUp drv ((loc.stmt i).entropy 0) s' q
    · exact .inl hgive
    refine .inr fun i q s' acc hreach cur hcur hfail => ?_
    obtain ⟨s₀, hstart, -⟩ := hreach.loop
    have hgo : ∀ i q s' acc, Reached drv loc req s i q s' acc →
        (queryStmt drv ((loc.stmt i).entropy 0) s' q).result.goesOn acc ≠ none := by
      intro i q s' acc hreach hstop
      exact hgive ⟨i, q, s', acc, hreach, (queryStmt_goesOn_iff hrows _ _ _ acc).mp hstop⟩
    obtain ⟨s₁, results, hl⟩ := queryLoop_comesThrough hstart hgo
    have hans := query_answer drv hstart
    rw [hl] at hans
    obtain ⟨err, hans⟩ := hans
    -- the statement has a result, which is that of a failure
    have hgive' : ¬GivesUp drv ((loc.stmt i).entropy 0) s' q :=
      fun h => hgive ⟨i, q, s', acc, hreach, h⟩
    obtain ⟨r, hres⟩ := queryStmt_has_result hrows hgive' hcur
    have hclean := (hno results err hans _ _ (hreach.result_of_loop hres hstart hl)).1
    rcases queryStmt_result_spec hrows herrs hgive' hres with
      ⟨hnone, -⟩ | ⟨cur', types, hcur', -, -, hne, -, hall⟩ | ⟨-, -, hend⟩
    · exact absurd (hcur.symm.trans hnone) (by simp)
    · obtain rfl := Option.some.inj (hcur.symm.trans hcur')
      rw [(hclean hne).2.2] at hall
      exact List.forall₂_nil_right_iff.mp hall
    · exact absurd (hend cur hcur) hfail
  · intro hcond results err hans k r hk
    have hne : results ≠ [] := by
      rintro rfl
      simp at hk
    obtain ⟨s₀, s₁, hstart, hl⟩ := query_results hans hne
    obtain ⟨i, q, s', acc, hreach, hlen, hr⟩ := queryLoop_result hstart req.statements.length s₁
      results (by rwa [List.take_length]) k r hk
    have hgive := not_givesUp_of_results hrows hreach hstart hl
    have hrest : ∀ cur, openRows drv ((loc.stmt i).entropy 0) s' q = some cur →
        cur.err ≠ none → cur.rows = [] := by
      rcases hcond with ⟨i', q', s'', acc', hreach', hgive'⟩ | hcond
      · exact absurd hgive' (not_givesUp_of_results hrows hreach' hstart hl)
      · exact hcond i q s' acc hreach
    rcases queryStmt_result_spec hrows herrs hgive hr with
      ⟨-, hne, hr⟩ | ⟨cur, types, hcur, -, herr, hne, hr, hall⟩ | ⟨hempty, hall, -⟩
    · refine ⟨fun _ => ?_, fun h => absurd h hne⟩
      rw [hr]
      exact ⟨rfl, rfl, rfl⟩
    · refine ⟨fun _ => ?_, fun h => absurd h hne⟩
      rw [hrest cur hcur (by simp [herr])] at hall
      rw [hr, List.forall₂_nil_left_iff.mp hall]
      exact ⟨rfl, rfl, rfl⟩
    · exact ⟨fun h => absurd hempty h, fun _ => ⟨i, q, s', acc, hreach, hlen, hall⟩⟩

/-- The rule at work: the rows of a table come to their end, and all of them stand in
the result. -/
theorem select_no_partial_data :
    NoPartialData eventTable (.ofEntropy fun _ _ => 0) ⟨false, [⟨"SELECT * FROM foo", []⟩]⟩
      ⟨[1, 2], .fresh true⟩ := by
  refine (no_partial_data_iff eventTable_lawfulRows eventTable_lawfulErrors _ _ _).mpr
    (.inr fun i q s' acc hreach cur hcur hfail => ?_)
  rcases i with _ | i
  · obtain rfl : ⟨"SELECT * FROM foo", []⟩ = q := Option.some.inj hreach.isStmt
    obtain ⟨s₀, hs₀, hloop⟩ := hreach.loop
    obtain rfl : (⟨[1, 2], .fresh true⟩ : Session (List UInt8)) = s₀ := Except.ok.inj hs₀
    obtain ⟨rfl, -⟩ := Prod.mk.inj hloop
    obtain rfl : (⟨.ok ["INTEGER"], .ok ["id"], [.ok [.int64 1], .ok [.int64 2]], none, false,
      false⟩ : Cursor) = cur := Option.some.inj hcur
    exact absurd rfl hfail
  · exact absurd hreach.isStmt (by simp)

/-- **A failed statement leaves its rows**: the second row of the text cannot be
computed, and the first one stands in the result next to the error. -/
theorem failed_step_leaves_rows :
    (query eventTable (.ofEntropy fun _ _ => 0) ⟨false, [⟨overflowText, []⟩]⟩
        ⟨[], .fresh true⟩).2 =
        .ret ([{ values := [⟨[some ⟨some (.i 1), ""⟩]⟩], error := "integer overflow" }], none) ∧
      ¬NoPartialData eventTable (.ofEntropy fun _ _ => 0) ⟨false, [⟨overflowText, []⟩]⟩
        ⟨[], .fresh true⟩ := by
  have hans : (query eventTable (.ofEntropy fun _ _ => 0) ⟨false, [⟨overflowText, []⟩]⟩
      ⟨[], .fresh true⟩).2 =
      .ret ([{ values := [⟨[some ⟨some (.i 1), ""⟩]⟩], error := "integer overflow" }], none) := by
    rfl
  refine ⟨hans, fun hno => ?_⟩
  have hvalues := ((hno _ _ hans 0 _ rfl).1 (by decide)).2.2
  exact absurd hvalues (by simp)

/-! ### Texts that only read -/

/-- What is left of a text to be run only reads the database. -/
def ReadsOnly (drv : Driver D E) (s : Session D) (p : Prepared) : Prop :=
  p.cmd.attaches = true ∨
    ∃ sql, p.cmd = .plain sql ∧ (p.readOnly || drv.tempOnly sql s.conn.settings s.see) = true

/-- Two sessions that see the same database under the same settings. -/
structure SeesAlike (s s' : Session D) : Prop where
  see : s.see = s'.see
  settings : s.conn.settings = s'.conn.settings

/-- Compiling looks at no more than what is seen and the settings. -/
theorem alike_prepare (drv : Driver D E) {s s' : Session D} (h : SeesAlike s s') (c : Cmd) :
    (prepare drv s c).2 = (prepare drv s' c).2 ∧
      SeesAlike (prepare drv s c).1 (prepare drv s' c).1 := by
  cases c with
  | plain sql =>
      simp only [prepare, h.see, h.settings]
      rcases drv.compile sql s'.conn.settings s'.see with m | ⟨own, ro⟩
      · exact ⟨rfl, h⟩
      · exact ⟨rfl, h.see, rfl⟩
  | _ => exact ⟨rfl, h⟩

/-- Nor does the compiling of a whole text. Induction on the statements. -/
theorem alike_prepareAll (drv : Driver D E) (text : String) (args : List NamedArg) :
    ∀ (cs : List Cmd) (j : ℕ) (s s' : Session D) (last : Option Prepared), SeesAlike s s' →
      (prepareAll drv text args j cs s last).2 = (prepareAll drv text args j cs s' last).2 ∧
        SeesAlike (prepareAll drv text args j cs s last).1
          (prepareAll drv text args j cs s' last).1 := by
  intro cs
  induction cs with
  | nil => intro j s s' last h; exact ⟨rfl, h⟩
  | cons c cs ih =>
      intro j s s' last h
      obtain ⟨hres, hnext⟩ := alike_prepare drv h c
      rcases hp : prepare drv s c with ⟨s₁, r⟩
      rcases hp' : prepare drv s' c with ⟨s₁', r'⟩
      rw [hp, hp'] at hres hnext
      obtain rfl : r = r' := hres
      rcases r with m | ro
      · simp only [prepareAll, hp, hp']
        exact ⟨trivial, hnext⟩
      rcases hb : drv.bind text args j with m | a
      · simp only [prepareAll, hp, hp', hb]
        exact ⟨trivial, hnext⟩
      · simp only [prepareAll, hp, hp', hb]
        exact ih _ _ _ _ hnext

/-- What a statement comes to before anything is run depends on no more than that. -/
theorem alike_accept (drv : Driver D E) {s s' : Session D} (h : SeesAlike s s') (q : Statement) :
    (accept drv s q).2 = (accept drv s' q).2 ∧
      SeesAlike (accept drv s q).1 (accept drv s' q).1 := by
  have hfirst : (prepareFirst drv s q.sql).2 = (prepareFirst drv s' q.sql).2 ∧
      SeesAlike (prepareFirst drv s q.sql).1 (prepareFirst drv s' q.sql).1 := by
    simp only [prepareFirst]
    split
    · exact ⟨rfl, h⟩
    · exact alike_prepare drv h _
  rcases hp : prepareFirst drv s q.sql with ⟨s₁, r⟩
  rcases hp' : prepareFirst drv s' q.sql with ⟨s₁', r'⟩
  rw [hp, hp'] at hfirst
  obtain ⟨hres, hnext⟩ := hfirst
  obtain rfl : r = r' := hres
  simp only [accept, hp, hp']
  rcases r with m | ro
  · exact ⟨rfl, hnext⟩
  rcases ro with _ | _
  · exact ⟨rfl, hnext⟩
  rcases convertParamsToSQL q.params with m | params
  · exact ⟨rfl, hnext⟩
  · exact alike_prepareAll drv _ _ _ _ _ _ _ hnext

/-- The rows of a statement that only reads depend on no more than that. -/
theorem alike_stepRows {drv : Driver D E} {e : E} {s s' : Session D} (h : SeesAlike s s')
    {last : Option Prepared} (hread : ∀ p, last = some p → ReadsOnly drv s p) :
    (stepRows drv e s last).2 = (stepRows drv e s' last).2 := by
  rcases last with _ | ⟨c, ro, args⟩
  · rfl
  rcases hread _ rfl with hattach | ⟨sql, hplain, hro⟩
  · cases c with
    | attach sql =>
        simp only [stepRows, runCmd, runPlain, Bool.true_or, if_true, h.see, h.settings]
        rcases drv.exec e sql args s'.conn.settings s'.see with _ | _ | _ | _ <;> rfl
    | _ => simp [Cmd.attaches] at hattach
  · obtain rfl : c = .plain sql := hplain
    have hro : (ro || drv.tempOnly sql s.conn.settings s.see) = true := hro
    have hro' : (ro || drv.tempOnly sql s'.conn.settings s'.see) = true := by
      rwa [h.see, h.settings] at hro
    simp only [stepRows, hro, hro', if_true]
    rw [h.see, h.settings]

/-- **A statement that only reads** is answered the same in sessions that see the same
database under the same settings. -/
theorem alike_queryStmt {drv : Driver D E} {e : E} {s s' : Session D} (h : SeesAlike s s')
    {q : Statement}
    (hread : ∀ s' p, accept drv s q = (s', .ok (some p)) → ReadsOnly drv s' p) :
    (queryStmt drv e s q).result = (queryStmt drv e s' q).result := by
  by_cases hsql : q.sql = ""
  · simp [queryStmt_eq, hsql]
  obtain ⟨hres, hnext⟩ := alike_accept drv h q
  rcases ha : accept drv s q with ⟨s₁, r⟩
  rcases ha' : accept drv s' q with ⟨s₁', r'⟩
  rw [ha, ha'] at hres hnext
  obtain rfl : r = r' := hres
  rcases r with m | last
  · simp only [queryStmt_eq, hsql, if_false, ha, ha']
  have hstep : (stepRows drv e s₁ last).2 = (stepRows drv e s₁' last).2 := by
    refine alike_stepRows hnext fun p hp => hread s₁ p ?_
    rw [ha, hp]
  simp only [queryStmt_eq, hsql, if_false, ha, ha', runQuery, hstep]
  split
  · rfl
  split <;> rfl

/-- **The answer** to a statement on a connection with the given settings that sees the
database `d`. -/
def answerTo (drv : Driver D E) (e : E) (own : Settings) (d : D) (q : Statement) : StmtEnd :=
  (queryStmt drv e ⟨d, { Conn.fresh true with settings := own }⟩ q).result

/-- What a session makes of a statement that only reads is the answer under its settings
to what it sees. -/
theorem queryStmt_answer {drv : Driver D E} {e : E} {s : Session D} {q : Statement}
    (hread : ∀ s' p, accept drv s q = (s', .ok (some p)) → ReadsOnly drv s' p) :
    (queryStmt drv e s q).result = answerTo drv e s.conn.settings s.see q := by
  have hsame : SeesAlike s ⟨s.see, { Conn.fresh true with settings := s.conn.settings }⟩ :=
    ⟨rfl, rfl⟩
  exact alike_queryStmt hsame hread

/-! ### Independence -/

/-- What the request of one statement alone returns, in the circumstances of statement
number `i`. -/
def alone (drv : Driver D E) (loc : Local E) (s : Session D) (i : ℕ) (q : Statement) :
    Outcome (List QueryRes × Option String) :=
  (query drv { loc with stmt := fun _ => loc.stmt i } ⟨false, [q]⟩ s).2

/-- The results that a statement leaves. -/
def StmtEnd.results : StmtEnd → List QueryRes
  | .res x => [x]
  | _ => []

/-- A statement is skipped exactly when its text is empty. -/
theorem queryStmt_skip_iff {drv : Driver D E} (hrows : drv.LawfulRows) (e : E) (s : Session D)
    (q : Statement) : (queryStmt drv e s q).result = .skip ↔ q.sql = "" := by
  rcases queryStmt_cases hrows e s q with ⟨hsql, -, -, hres⟩ | ⟨hsql, ⟨s', m, -, -, -, hres⟩ |
      ⟨s', last, types, cols, -, -, -, -, -, -, hres⟩⟩
  · exact iff_of_true hres hsql
  · exact iff_of_false (by simp [hres]) hsql
  · refine iff_of_false ?_ hsql
    rw [hres]
    exact readCursor_ne_skip _ _ _

end DistSql
