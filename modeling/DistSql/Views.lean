import DistSql.ByteTable
import DistSql.Lifecycle

/-!
# Three Views of One File

An engine reaches its database in three ways: through the write connection, through the
read connection, and by the path itself, which `Serialize` and `FileSize` use for snapshots
and statistics. `engine.Open` puts the path into two SQLite URIs and keeps it as it is, so
the three ways agree only when both URIs denote the file of that name.

## Main results

* `three_views_one_file_iff`: **the three views are one file** exactly for the paths other
  than the empty one and `:memory:` that have no `?`, no `#` and no escape.
* `OneFile.published`: then what the write connection publishes is what the read connection
  loads, and what `Serialize` and `FileSize` find.
-/

open Golang Sqlite

namespace DistSql

variable {D E : Type}

/-- The engine has **one file**: both connections work on it, the read connection cannot
write, and `Serialize` and `FileSize` read it. -/
def OneFile (eng : DiskEngine D) : Prop :=
  ∃ name, NamesFile name ∧ eng.writeAt = .file name ∧ eng.readAt = .file name ∧
    eng.read.canWrite = false ∧
    (∀ fault fs, eng.serialize fault fs = fs.readFile fault name) ∧
    ∀ fault fs, eng.fileSize fault fs = fs.statSize fault name

/-- With one file, **what was published is what every view shows**. -/
theorem OneFile.published {eng : DiskEngine D} (h : OneFile eng) {drv : Driver D E}
    (himage : drv.LawfulImage) (fs : FS) (db : D) :
    let fs' := (eng.writeAt.save drv fs db).1
    eng.readAt.load drv fs' = db ∧ eng.serialize none fs' = .ok (drv.image db) ∧
      eng.fileSize none fs' = .ok (drv.image db).length := by
  obtain ⟨name, hname, hwrite, hread, -, hserialize, hsize⟩ := h
  intro fs'
  have hfile : fs'.files name = some (drv.image db) := by
    simp only [fs', hwrite, Home.save]
    exact FS.setFile_files_self fs name _
  refine ⟨?_, ?_, ?_⟩
  · rw [hread, Home.load, hfile]
    exact himage.ofImage_image db
  · rw [hserialize]
    exact FS.readFile_of_files hname.1 hfile
  · rw [hsize]
    exact FS.statSize_of_files hname.1 hfile

/-- Where nothing is, the error names the path that was read: two paths that are read
alike are one path. -/
theorem path_eq_of_readFile {path name : String} (hpath : path ≠ "") (hname : name ≠ "")
    (h : ∀ fault (fs : FS), fs.readFile fault path = fs.readFile fault name) :
    path = name := by
  have hblank := h none FS.blank
  simp only [FS.readFile, if_neg hpath, if_neg hname, FS.blank, Except.error.injEq,
    String.append_right_inj, String.append_left_inj] at hblank
  exact hblank

/-- A home that is a file is the file of the URI. -/
theorem Home.ofUri_eq_file {drv : Driver D E} {uri : Uri} {name : String}
    (h : Home.ofUri drv uri = .file name) : uri.file = name := by
  rw [Home.ofUri] at h
  split at h
  · exact Home.file.inj h
  · cases h

/-- **The three views are one file** exactly for the literal paths that name a file. -/
theorem three_views_one_file_iff (drv : Driver D E) (path : String) (fs : FS) :
    ∃ fs' eng, openEngine drv none path fs = (fs', .ok eng) ∧
      (OneFile eng ↔ NamesFile path ∧ Literal path) := by
  refine ⟨_, _, rfl, ?_, ?_⟩
  · rintro ⟨name, hname, hwrite, -, -, hserialize, -⟩
    have hfile := Home.ofUri_eq_file hwrite
    have hpath : path ≠ "" := by
      rintro rfl
      exact hname.1 hfile.symm
    obtain rfl : path = name := path_eq_of_readFile hpath hname.1 hserialize
    exact ⟨hname, (parseUri_file_eq_iff path).mp hfile⟩
  · rintro ⟨hname, hliteral⟩
    have hw : (parseUri path).file = path := (parseUri_file_eq_iff path).mpr hliteral
    have hr : parseUri (path ++ "?mode=ro") = ⟨path, true⟩ := parseUri_literal_ro hliteral
    refine ⟨path, hname, ?_, ?_, ?_, fun _ _ => rfl, fun _ _ => rfl⟩
    · simp only [Home.ofUri, hw, if_pos hname]
    · simp only [Home.ofUri, hr, if_pos hname]
    · simp only [hr, Conn.fresh, Bool.not_true]

/-- **A question mark in the data directory**: the write connection works on the file
`data`, the read connection, which is not read-only, on `data` as well, and the snapshots
are taken of a file that neither of them writes. -/
theorem question_mark_splits_views :
    dbFile "data?x" = "data?x/db/sqlite.db" ∧
    ∃ fs' eng, openEngine byteTable none (dbFile "data?x") .blank = (fs', .ok eng) ∧
      eng.writeAt = .file "data" ∧ eng.readAt = .file "data" ∧ eng.read.canWrite = true ∧
      eng.path = "data?x/db/sqlite.db" ∧ ¬OneFile eng := by
  have hpath : dbFile "data?x" = "data?x/db/sqlite.db" := by decide +kernel
  have hw : parseUri "data?x/db/sqlite.db" = ⟨"data", false⟩ := by decide +kernel
  have hr : parseUri ("data?x/db/sqlite.db" ++ "?mode=ro") = ⟨"data", false⟩ := by
    decide +kernel
  refine ⟨hpath, _, _, rfl, ?_, ?_, ?_, hpath, ?_⟩
  · simp only [hpath, hw, Home.ofUri]
    rfl
  · simp only [hpath, hr, Home.ofUri]
    rfl
  · simp only [hpath, hr]
    rfl
  · rintro ⟨name, -, -, -, hread, -⟩
    simp only [hpath, hr] at hread
    cases hread

end DistSql
