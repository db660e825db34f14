import DistSql.Disk
import DistSql.Fsm
import DistSql.ReadPath
import DistSql.Uri

/-!
# The Engine and its File

`engine.Open` opens a path twice, for writing and read-only, and remembers the path for
`Serialize`. Both names are SQLite URIs, so what each connection works on is decided by
the URI rules and not by the path alone: a file, or a private database when the name is
empty or `:memory:`. Files are in the journal mode of a new file, in which a commit is in the
file once it returns; under write-ahead logging it would be in a file beside it first.

`DistSql.Fsm` has one published database that both connections see. That is an
**abstraction** of the engine of this module (`Shows`): it is right as long as the engine
is open and both names denote one file.

## Main results

* `openEngine_plain`: opening a plain path gives both connections the file at that path.
* `applyAction_shows`: **the engine of `DistSql.Fsm` is what the engine on disk shows**,
  entry by entry.
* `applyAction_alike`: engines with the same file contents and connection states stay
  alike, wherever their files are.
* `applyAction_stay`: applying an entry takes no file and no directory away.
-/

open Golang Sqlite

namespace DistSql

variable {D E : Type}

/-! ### Where a connection's database lives -/

/-- The name of a file: the empty name and `:memory:` stand for private databases. -/
def NamesFile (name : String) : Prop := name ≠ "" ∧ name ≠ ":memory:"

instance : DecidablePred NamesFile := fun _ => inferInstanceAs (Decidable (_ ∧ _))

/-- The home of a database: a file, or nowhere but in the connection. -/
inductive Home (D : Type)
  | file (name : String)
  | temp (db : D)

/-- The home that a URI gives a connection. -/
def Home.ofUri (drv : Driver D E) (uri : Uri) : Home D :=
  if NamesFile uri.file then .file uri.file else .temp drv.empty

/-- The published database. -/
def Home.load (drv : Driver D E) (fs : FS) : Home D → D
  | .file name => drv.ofImage ((fs.files name).getD [])
  | .temp db => db

/-- Publish a database. -/
def Home.save (drv : Driver D E) (fs : FS) (db : D) : Home D → FS × Home D
  | .file name => (fs.setFile name (some (drv.image db)), .file name)
  | .temp _ => (fs, .temp db)

/-! ### The engine -/

/-- `engine.Engine`: the path, and for each of the two `sql.DB` the home of its database,
its connection, and whether it was closed. -/
structure DiskEngine (D : Type) where
  path : String
  writeAt : Home D
  write : Conn D
  writeClosed : Bool := false
  readAt : Home D
  read : Conn D
  readClosed : Bool := false

/-- A disk with an engine on it. -/
structure Mounted (D : Type) where
  fs : FS
  eng : DiskEngine D

/-- `engine.Open`. `sql.Open` only looks at the driver's name; the `Ping` of the write
connection opens the file, and creates it when it may. -/
def openEngine (drv : Driver D E) (ping : Option String) (path : String) (fs : FS) :
    FS × Except String (DiskEngine D) :=
  let write := parseUri path
  let read := parseUri (path ++ "?mode=ro")
  match ping with
  | some m => (fs, .error ("failed database ping: " ++ m))
  | none =>
      (if write.readOnly ∨ ¬NamesFile write.file then fs else fs.create write.file,
        .ok { path := path
              writeAt := .ofUri drv write, write := .fresh write.readOnly
              readAt := .ofUri drv read, read := .fresh read.readOnly })

/-- The error of every call on a closed `sql.DB`. -/
def errClosed : String := "sql: database is closed"

/-- `Engine.Close`. A `sql.DB` is closed even when its `Close` reports an error, and one
that is closed already reports none; an error of the first `Close` keeps the second from
being called. -/
def DiskEngine.close (readFault writeFault : Option String) (eng : DiskEngine D) :
    DiskEngine D × Option String :=
  match if eng.readClosed then none else readFault with
  | some m => ({ eng with readClosed := true }, some m)
  | none =>
      ({ eng with readClosed := true, writeClosed := true },
        if eng.writeClosed then none else writeFault)

/-- `Engine.Serialize`. -/
def DiskEngine.serialize (fault : Option String) (fs : FS) (eng : DiskEngine D) :
    Except String (List UInt8) :=
  fs.readFile fault eng.path

/-- `Engine.FileSize`. -/
def DiskEngine.fileSize (fault : Option String) (fs : FS) (eng : DiskEngine D) :
    Except String ℕ :=
  fs.statSize fault eng.path

namespace Mounted

/-- `Engine.Exec`. -/
def exec (drv : Driver D E) (loc : Local E) (req : Request) (s : Mounted D) :
    Mounted D × Outcome (List ExecRes × Option String) :=
  if s.eng.writeClosed then (s, .ret ([], some errClosed))
  else
    let p := DistSql.exec drv loc req ⟨s.eng.writeAt.load drv s.fs, s.eng.write⟩
    let q := s.eng.writeAt.save drv s.fs p.1.db
    (⟨q.1, { s.eng with writeAt := q.2, write := p.1.conn }⟩, p.2)

/-- `Engine.Query`. -/
def query (drv : Driver D E) (loc : Local E) (req : Option Request) (s : Mounted D) :
    Mounted D × Outcome (List QueryRes × Option String) :=
  if s.eng.readClosed then (s, .ret ([], some errClosed))
  else
    match req with
    | some req =>
        let p := DistSql.query drv loc req ⟨s.eng.readAt.load drv s.fs, s.eng.read⟩
        let q := s.eng.readAt.save drv s.fs p.1.db
        (⟨q.1, { s.eng with readAt := q.2, read := p.1.conn }⟩, p.2)
    | none =>
        match loc.conn with
        | some m => (s, .ret ([], some m))
        | none => (s, .panic nilDereference)

/-- `applyAction`. -/
def applyAction (pr : Proto) (drv : Driver D E) (loc : Local E) (data : List UInt8)
    (s : Mounted D) : Mounted D × Outcome Response :=
  applySwitch pr (fun req => s.exec drv loc req) (fun req => s.query drv loc req) data s

end Mounted

/-- Executing keeps the path. -/
theorem Mounted.exec_path (drv : Driver D E) (loc : Local E) (req : Request)
    (s : Mounted D) : (s.exec drv loc req).1.eng.path = s.eng.path := by
  rw [Mounted.exec]
  split <;> rfl

/-- Querying keeps the path. -/
theorem Mounted.query_path (drv : Driver D E) (loc : Local E) (req : Option Request)
    (s : Mounted D) : (s.query drv loc req).1.eng.path = s.eng.path := by
  simp only [Mounted.query]
  split
  · rfl
  split
  · rfl
  · split <;> rfl

/-! ### Opening a path -/

/-- The engine that is just opened on a file. -/
def DiskEngine.onFile (path : String) : DiskEngine D where
  path := path
  writeAt := .file path
  write := .fresh false
  readAt := .file path
  read := .fresh true

/-- The path is **valid**: SQLite opens the file at the path, for writing. Every plain path
is (`parseUri_plain`). -/
def ValidPath (path : String) : Prop := parseUri path = ⟨path, false⟩

/-- **Opening a plain path** gives both connections the file at that path. -/
theorem openEngine_plain {path : String} (hplain : Plain path) (hname : NamesFile path)
    (drv : Driver D E) (fs : FS) :
    openEngine drv none path fs = (fs.create path, .ok (.onFile path)) := by
  have hw : parseUri path = ⟨path, false⟩ := parseUri_plain hplain
  have hr : parseUri (path ++ "?mode=ro") = ⟨path, true⟩ := parseUri_plain_ro hplain
  simp only [openEngine, hw, hr, Home.ofUri, hname, if_true, Bool.false_eq_true,
    not_true_eq_false, or_self, if_false]
  rfl

/-- Opening a valid path makes sure that there is a file. -/
theorem openEngine_valid {path : String} (hvalid : ValidPath path) (hname : NamesFile path)
    {drv : Driver D E} {fs fs' : FS} {eng : DiskEngine D}
    (h : openEngine drv none path fs = (fs', .ok eng)) : ∃ b, fs'.files path = some b := by
  have hw : parseUri path = ⟨path, false⟩ := hvalid
  simp only [openEngine, hw, hname, Bool.false_eq_true, not_true_eq_false, or_self,
    if_false] at h
  obtain ⟨rfl, -⟩ := Prod.mk.inj h
  exact FS.create_files hname.1 fs

/-- Opening takes nothing away, and remembers the path. -/
theorem openEngine_ok {drv : Driver D E} {ping : Option String} {path : String}
    {fs fs' : FS} {eng : DiskEngine D} (h : openEngine drv ping path fs = (fs', .ok eng)) :
    fs.Grows fs' ∧ eng.path = path := by
  simp only [openEngine] at h
  split at h
  · simp at h
  · obtain ⟨hfs, heng⟩ := Prod.mk.inj h
    obtain rfl := Except.ok.inj heng
    refine ⟨?_, rfl⟩
    rw [← hfs]
    split
    · exact FS.Grows.refl fs
    · exact FS.grows_create fs _

/-! ### An engine on a file -/

/-- The engine is open, and both connections are on the file of this name, which holds
these bytes. -/
structure OnFile (s : Mounted D) (name : String) (b : List UInt8) : Prop where
  writeAt : s.eng.writeAt = .file name
  readAt : s.eng.readAt = .file name
  writeOpen : s.eng.writeClosed = false
  readOpen : s.eng.readClosed = false
  files : s.fs.files name = some b

namespace OnFile

variable {s : Mounted D} {name : String} {b : List UInt8}

/-- What both connections load. -/
theorem load (h : OnFile s name b) (drv : Driver D E) : (Home.file name).load drv s.fs =
    drv.ofImage b := by
  rw [Home.load, h.files]
  rfl

/-- **Executing on a file**: the request runs on the database of the file, and the file
holds the result. -/
theorem exec (h : OnFile s name b) (drv : Driver D E) (loc : Local E) (req : Request) :
    let p := DistSql.exec drv loc req ⟨drv.ofImage b, s.eng.write⟩
    let t := s.exec drv loc req
    OnFile t.1 name (drv.image p.1.db) ∧ t.1.eng.write = p.1.conn ∧
      t.1.eng.read = s.eng.read ∧ t.2 = p.2 := by
  simp only [Mounted.exec, h.writeOpen, Bool.false_eq_true, if_false, h.writeAt, h.load,
    Home.save]
  exact ⟨⟨rfl, h.readAt, rfl, h.readOpen, FS.setFile_files_self _ _ _⟩, trivial, trivial,
    trivial⟩

/-- Querying on a file. -/
theorem query (h : OnFile s name b) (drv : Driver D E) (loc : Local E) (req : Request) :
    let p := DistSql.query drv loc req ⟨drv.ofImage b, s.eng.read⟩
    let t := s.query drv loc (some req)
    OnFile t.1 name (drv.image p.1.db) ∧ t.1.eng.write = s.eng.write ∧
      t.1.eng.read = p.1.conn ∧ t.2 = p.2 := by
  simp only [Mounted.query, h.readOpen, Bool.false_eq_true, if_false, h.readAt, h.load,
    Home.save]
  exact ⟨⟨h.writeAt, rfl, h.writeOpen, rfl, FS.setFile_files_self _ _ _⟩, trivial, trivial,
    trivial⟩

end OnFile

/-! ### What the engine on disk shows -/

/-- The mounted engine **shows** an engine: it is on the file of this name, the file holds
the published database, and the connections are in the same state. -/
def Shows (drv : Driver D E) (name : String) (s : Mounted D) (eng : Engine D) : Prop :=
  ∃ b, OnFile s name b ∧ eng = ⟨drv.ofImage b, s.eng.write, s.eng.read⟩

/-- **The engine of `DistSql.Fsm` is what the engine on disk shows**: applying an entry
on disk gives the same response, and shows what applying it to the shown engine gives. -/
theorem applyAction_shows {drv : Driver D E} (himage : drv.LawfulImage) (pr : Proto)
    {name : String} {s : Mounted D} {eng : Engine D} (h : Shows drv name s eng)
    (loc : Local E) (data : List UInt8) :
    Shows drv name (s.applyAction pr drv loc data).1 (applyAction pr drv loc data eng).1 ∧
      (s.applyAction pr drv loc data).2 = (applyAction pr drv loc data eng).2 := by
  obtain ⟨b, hon, rfl⟩ := h
  refine applySwitch_related (R := Shows drv name) pr (fun req => ?_) (fun req => ?_)
    ⟨b, hon, rfl⟩ data
  · obtain ⟨hon', hwrite, hread, hres⟩ := hon.exec drv loc req
    refine ⟨⟨_, hon', ?_⟩, hres⟩
    rw [himage.ofImage_image, hwrite, hread]
    rfl
  · cases req with
    | some req =>
        obtain ⟨hon', hwrite, hread, hres⟩ := hon.query drv loc req
        refine ⟨⟨_, hon', ?_⟩, hres⟩
        rw [himage.ofImage_image, hwrite, hread]
        rfl
    | none =>
        rcases hconn : loc.conn with _ | m
        · simp only [Mounted.query, hon.readOpen, Bool.false_eq_true, if_false, hconn,
            Engine.query]
          exact ⟨⟨b, hon, rfl⟩, trivial⟩
        · simp only [Mounted.query, hon.readOpen, Bool.false_eq_true, if_false, hconn,
            Engine.query]
          exact ⟨⟨b, hon, rfl⟩, trivial⟩

/-! ### Engines that are alike -/

/-- Two mounted engines are **alike**: each is on the file at its path, the files hold the
same bytes, and the connections are in the same states. -/
def Alike (s t : Mounted D) : Prop :=
  ∃ b, OnFile s s.eng.path b ∧ OnFile t t.eng.path b ∧ s.eng.write = t.eng.write ∧
    s.eng.read = t.eng.read

/-- Engines that are alike execute alike. -/
theorem Alike.exec {s t : Mounted D} (h : Alike s t) (drv : Driver D E) (loc : Local E)
    (req : Request) :
    Alike (s.exec drv loc req).1 (t.exec drv loc req).1 ∧
      (s.exec drv loc req).2 = (t.exec drv loc req).2 := by
  obtain ⟨b, hs, ht, hwrite, hread⟩ := h
  obtain ⟨hs', hws, hrs, hress⟩ := hs.exec drv loc req
  obtain ⟨ht', hwt, hrt, hrest⟩ := ht.exec drv loc req
  rw [hwrite] at hs' hws hress
  rw [← s.exec_path drv loc req] at hs'
  rw [← t.exec_path drv loc req] at ht'
  refine ⟨⟨_, hs', ht', hws.trans hwt.symm, ?_⟩, hress.trans hrest.symm⟩
  rw [hrs, hrt, hread]

/-- Engines that are alike answer queries alike. -/
theorem Alike.query {s t : Mounted D} (h : Alike s t) (drv : Driver D E) (loc : Local E)
    (req : Option Request) :
    Alike (s.query drv loc req).1 (t.query drv loc req).1 ∧
      (s.query drv loc req).2 = (t.query drv loc req).2 := by
  have halike := h
  obtain ⟨b, hs, ht, hwrite, hread⟩ := h
  cases req with
  | some req =>
      obtain ⟨hs', hws, hrs, hress⟩ := hs.query drv loc req
      obtain ⟨ht', hwt, hrt, hrest⟩ := ht.query drv loc req
      rw [hread] at hs' hrs hress
      rw [← s.query_path drv loc (some req)] at hs'
      rw [← t.query_path drv loc (some req)] at ht'
      refine ⟨⟨_, hs', ht', ?_, hrs.trans hrt.symm⟩, hress.trans hrest.symm⟩
      rw [hws, hwt, hwrite]
  | none =>
      simp only [Mounted.query, hs.readOpen, ht.readOpen, Bool.false_eq_true, if_false]
      rcases loc.conn with _ | msg
      · exact ⟨halike, rfl⟩
      · exact ⟨halike, rfl⟩

/-- **Engines that are alike stay alike**, entry by entry, and respond alike. -/
theorem applyAction_alike {s t : Mounted D} (h : Alike s t) (pr : Proto)
    (drv : Driver D E) (loc : Local E) (data : List UInt8) :
    Alike (s.applyAction pr drv loc data).1 (t.applyAction pr drv loc data).1 ∧
      (s.applyAction pr drv loc data).2 = (t.applyAction pr drv loc data).2 :=
  applySwitch_related (R := Alike) pr (fun req => h.exec drv loc req)
    (fun req => h.query drv loc req) h data

/-! ### What applying leaves on the disk -/

/-- The disk keeps its directories, and a file that exists goes on existing. -/
structure FilesStay (fs fs' : FS) : Prop where
  dirs : fs'.dirs = fs.dirs
  files : ∀ n, (fs.files n).isSome → (fs'.files n).isSome

theorem FilesStay.refl (fs : FS) : FilesStay fs fs := ⟨rfl, fun _ h => h⟩

theorem FilesStay.trans {fs₁ fs₂ fs₃ : FS} (h₁ : FilesStay fs₁ fs₂) (h₂ : FilesStay fs₂ fs₃) :
    FilesStay fs₁ fs₃ :=
  ⟨h₂.dirs.trans h₁.dirs, fun n h => h₂.files n (h₁.files n h)⟩

/-- Writing a file keeps all of them. -/
theorem FilesStay.setFile (fs : FS) (name : String) (b : List UInt8) :
    FilesStay fs (fs.setFile name (some b)) := by
  refine ⟨rfl, fun n h => ?_⟩
  by_cases hn : n = name
  · rw [hn, FS.setFile_files_self]
    rfl
  · rwa [FS.setFile_files_ne fs hn]

/-- Publishing a database keeps all files. -/
theorem Home.save_stay (drv : Driver D E) (fs : FS) (db : D) (home : Home D) :
    FilesStay fs (home.save drv fs db).1 := by
  cases home with
  | file name => exact FilesStay.setFile fs name _
  | temp _ => exact FilesStay.refl fs

/-- Executing keeps them. -/
theorem Mounted.exec_stay (drv : Driver D E) (loc : Local E) (req : Request)
    (s : Mounted D) : FilesStay s.fs (s.exec drv loc req).1.fs := by
  rw [Mounted.exec]
  split
  · exact .refl s.fs
  · exact Home.save_stay drv s.fs _ s.eng.writeAt

/-- Querying keeps them. -/
theorem Mounted.query_stay (drv : Driver D E) (loc : Local E) (req : Option Request)
    (s : Mounted D) : FilesStay s.fs (s.query drv loc req).1.fs := by
  simp only [Mounted.query]
  split
  · exact .refl s.fs
  split
  · exact Home.save_stay drv s.fs _ s.eng.readAt
  · split
    · exact .refl s.fs
    · exact .refl s.fs

/-- **Applying an entry** keeps the directories and files of the disk, and the path of
the engine. -/
theorem applyAction_stay (pr : Proto) (drv : Driver D E) (loc : Local E)
    (data : List UInt8) (s : Mounted D) :
    FilesStay s.fs (s.applyAction pr drv loc data).1.fs ∧
      (s.applyAction pr drv loc data).1.eng.path = s.eng.path := by
  let R (t _ : Mounted D) : Prop := FilesStay s.fs t.fs ∧ t.eng.path = s.eng.path
  have hrel := applySwitch_related (R := R) pr (s := s) (t := s)
    (fun req => ⟨⟨s.exec_stay drv loc req, s.exec_path drv loc req⟩, rfl⟩)
    (fun req => ⟨⟨s.query_stay drv loc req, s.query_path drv loc req⟩, rfl⟩)
    ⟨.refl s.fs, rfl⟩ data
  exact hrel.1

end DistSql
