import Mathlib.Data.List.TakeWhile
import Mathlib.Data.Option.Basic

/-!
# Paths and Files

The part of Go's `path/filepath` and `os` packages that a program needs that keeps its
state in a directory: cleaning and joining paths, making directories, and reading,
writing and removing files.

A file system (`FS`) says which directories there are and what the files contain. It is
keyed by path, and nothing is ever found at the empty path. Every call can fail for
reasons of its own (permissions, a full disk), which the caller passes in; what is fixed
here is what a call does when nothing of that kind happens, and that `Mkdir` refuses a
path that is taken.

## Main results

* `clean_ne_empty`: a clean path is never empty.
* `join_ends`: a path ends in the name that was joined to it.
* `mkdir_of_dirs`: **`Mkdir` of an existing directory fails**.
* `writeFile_empty`: nothing can be written at the empty path.
* `Grows`: the calls that make directories and create files take nothing away.
-/

namespace Golang

/-! ### Paths -/

/-- The elements of a path, between its slashes. -/
def elements : List Char → List (List Char)
  | [] => [[]]
  | c :: rest =>
      if c = '/' then [] :: elements rest
      else
        match elements rest with
        | [] => [[c]]
        | e :: es => (c :: e) :: es

/-- The elements of the clean path, given those so far, last first: empty elements and
`.` are dropped, `..` takes back the element before it, and at the root there is nothing
to take back. -/
def cleanElements (rooted : Bool) : List (List Char) → List (List Char) → List (List Char)
  | done, [] => done.reverse
  | done, e :: es =>
      if e = [] ∨ e = ['.'] then cleanElements rooted done es
      else if e = ['.', '.'] then
        match done with
        | [] => cleanElements rooted (if rooted then [] else [e]) es
        | top :: below =>
            if top = ['.', '.'] then cleanElements rooted (e :: done) es
            else cleanElements rooted below es
      else cleanElements rooted (e :: done) es

/-- `filepath.Clean`. -/
def clean (path : String) : String :=
  let rooted := path.toList.head? = some '/'
  let body := List.intercalate ['/'] (cleanElements rooted [] (elements path.toList))
  if rooted then String.ofList ('/' :: body)
  else if body = [] then "."
  else String.ofList body

/-- `filepath.Join`: the elements from the first one that is not empty. -/
def join (elem : List String) : String :=
  match elem.dropWhile (· = "") with
  | [] => ""
  | es => clean (String.ofList (List.intercalate ['/'] (es.map String.toList)))

/-- **A clean path is never empty.** -/
theorem clean_ne_empty (path : String) : clean path ≠ "" := by
  have hofList : ∀ cs : List Char, cs ≠ [] → String.ofList cs ≠ "" := by
    intro cs hcs h
    exact hcs (String.ofList_injective h)
  simp only [clean]
  split
  · exact hofList _ (by simp)
  split
  · decide
  · exact hofList _ (by assumption)

/-- A path with a non-empty element joined to it is never empty. -/
theorem join_ne_empty {elem : List String} {e : String} (hmem : e ∈ elem) (he : e ≠ "") :
    join elem ≠ "" := by
  rw [join]
  split
  · rename_i hnil
    have hall := List.dropWhile_eq_nil_iff.mp hnil e hmem
    exact absurd (of_decide_eq_true hall) he
  · exact clean_ne_empty _

/-- A text has elements. -/
theorem elements_ne_nil (cs : List Char) : elements cs ≠ [] := by
  cases cs with
  | nil => simp [elements]
  | cons c cs =>
      rw [elements]
      split
      · simp
      · split <;> simp

/-- The elements on both sides of a slash. -/
theorem elements_append_slash (xs ys : List Char) :
    elements (xs ++ '/' :: ys) = elements xs ++ elements ys := by
  induction xs with
  | nil => simp [elements]
  | cons c xs ih =>
      rw [List.cons_append, elements, elements, ih]
      split
      · rfl
      · rcases helems : elements xs with _ | ⟨e, es⟩
        · exact absurd helems (elements_ne_nil xs)
        · rfl

/-- An element that is a name of its own, and not one of those with a meaning. -/
def IsName (e : List Char) : Prop := e ≠ [] ∧ e ≠ ['.'] ∧ e ≠ ['.', '.']

/-- A clean path keeps a name at its end. Induction on the elements before it. -/
theorem cleanElements_append {e : List Char} (he : IsName e) (rooted : Bool)
    (done es : List (List Char)) :
    ∃ front, cleanElements rooted done (es ++ [e]) = front ++ [e] := by
  induction es generalizing done with
  | nil =>
      refine ⟨done.reverse, ?_⟩
      simp only [List.nil_append, cleanElements, if_neg (not_or.mpr ⟨he.1, he.2.1⟩),
        if_neg he.2.2, List.reverse_cons]
  | cons x es ih =>
      simp only [List.cons_append, cleanElements]
      split
      · exact ih done
      split
      · split
        · exact ih _
        · split
          · exact ih _
          · exact ih _
      · exact ih _

/-- A text put together from parts ends in the last one. -/
theorem intercalate_ends (sep : List Char) (front : List (List Char)) (e : List Char) :
    ∃ before, List.intercalate sep (front ++ [e]) = before ++ e := by
  induction front with
  | nil => exact ⟨[], by simp [List.intercalate]⟩
  | cons x front ih =>
      obtain ⟨before, hbefore⟩ := ih
      refine ⟨x ++ sep ++ before, ?_⟩
      rcases hrest : front ++ [e] with _ | ⟨y, rest⟩
      · simp at hrest
      · rw [hrest] at hbefore
        rw [List.cons_append, hrest, List.append_assoc, ← hbefore]
        simp [List.intercalate]

/-- **A path ends in the name that was joined to it.** -/
theorem join_ends {dir name : String} (hdir : dir ≠ "") (hname : IsName name.toList)
    (helem : elements name.toList = [name.toList]) :
    ∃ before, (join [dir, name]).toList = before ++ name.toList := by
  have hparts : List.intercalate ['/'] [dir.toList, name.toList] =
      dir.toList ++ '/' :: name.toList := by
    simp [List.intercalate]
  have hjoin : join [dir, name] = clean (String.ofList (dir.toList ++ '/' :: name.toList)) := by
    rw [← hparts]
    simp [join, hdir]
  have hne : ∀ before : List Char, before ++ name.toList ≠ [] := fun before h =>
    hname.1 (List.append_eq_nil_iff.mp h).2
  rw [hjoin]
  simp only [clean, String.toList_ofList, elements_append_slash, helem]
  obtain ⟨front, hfront⟩ := cleanElements_append hname
    (decide ((dir.toList ++ '/' :: name.toList).head? = some '/')) [] (elements dir.toList)
  obtain ⟨before, hbefore⟩ := intercalate_ends ['/'] front name.toList
  rw [hfront, hbefore]
  split
  · exact ⟨'/' :: before, by rw [String.toList_ofList, List.cons_append]⟩
  · rw [if_neg (hne before)]
    exact ⟨before, String.toList_ofList⟩

/-! ### The file system -/

/-- A **file system**: the contents of its files, and its directories. -/
structure FS where
  files : String → Option (List UInt8)
  dirs : String → Bool

namespace FS

/-- Nothing yet. -/
def blank : FS := ⟨fun _ => none, fun _ => false⟩

/-- Set or remove a file. -/
def setFile (fs : FS) (name : String) (content : Option (List UInt8)) : FS :=
  { fs with files := fun n => if n = name then content else fs.files n }

/-- Add or remove a directory. -/
def setDir (fs : FS) (name : String) (present : Bool) : FS :=
  { fs with dirs := fun n => if n = name then present else fs.dirs n }

/-- Make a directory and those above it. -/
def makeDirs (fs : FS) (name : String) : FS :=
  { fs with dirs := fun n => fs.dirs n || n = name ||
      (n ≠ "" && (n.toList ++ ['/']).isPrefixOf name.toList) }

/-- Make sure that there is a file of this name; nothing happens to one that exists. -/
def create (fs : FS) (name : String) : FS :=
  if name = "" ∨ (fs.files name).isSome then fs else fs.setFile name (some [])

/-- `os.Mkdir`. -/
def mkdir (fault : Option String) (name : String) (fs : FS) : FS × Option String :=
  if fs.dirs name ∨ (fs.files name).isSome then
    (fs, some ("mkdir " ++ name ++ ": file exists"))
  else
    match fault with
    | some m => (fs, some m)
    | none => (fs.setDir name true, none)

/-- `os.MkdirAll`: an existing directory will do. -/
def mkdirAll (fault : Option String) (name : String) (fs : FS) : FS × Option String :=
  if fs.dirs name then (fs, none)
  else if (fs.files name).isSome then (fs, some ("mkdir " ++ name ++ ": not a directory"))
  else
    match fault with
    | some m => (fs, some m)
    | none => (fs.makeDirs name, none)

/-- `os.ReadFile`. -/
def readFile (fault : Option String) (name : String) (fs : FS) : Except String (List UInt8) :=
  if name = "" then .error "open : no such file or directory"
  else
    match fs.files name with
    | none => .error ("open " ++ name ++ ": no such file or directory")
    | some b =>
        match fault with
        | some m => .error m
        | none => .ok b

/-- The size that `os.Stat` reports of a file. -/
def statSize (fault : Option String) (name : String) (fs : FS) : Except String ℕ :=
  match if name = "" then none else fs.files name with
  | none => .error ("stat " ++ name ++ ": no such file or directory")
  | some b =>
      match fault with
      | some m => .error m
      | none => .ok b.length

/-- `os.WriteFile`. A failing call may have created the file and written some of its
bytes. -/
def writeFile (fault : Option (String × Option ℕ)) (name : String) (b : List UInt8)
    (fs : FS) : FS × Option String :=
  if name = "" then (fs, some "open : no such file or directory")
  else
    match fault with
    | some (m, none) => (fs, some m)
    | some (m, some n) => (fs.setFile name (some (b.take n)), some m)
    | none => (fs.setFile name (some b), none)

/-- What `os.Remove` reports: `os.IsNotExist` tells the first kind of error apart. -/
inductive RemoveError
  | notExist
  | other (msg : String)
  deriving DecidableEq, Repr

/-- `os.Remove` of a file. -/
def remove (fault : Option String) (name : String) (fs : FS) : FS × Option RemoveError :=
  if name = "" ∨ fs.files name = none then (fs, some .notExist)
  else
    match fault with
    | some m => (fs, some (.other m))
    | none => (fs.setFile name none, none)

/-! ### What the calls promise -/

@[simp] theorem setFile_files_self (fs : FS) (name : String)
    (content : Option (List UInt8)) : (fs.setFile name content).files name = content :=
  if_pos rfl

theorem setFile_files_ne (fs : FS) {name n : String} (h : n ≠ name)
    (content : Option (List UInt8)) : (fs.setFile name content).files n = fs.files n :=
  if_neg h

@[simp] theorem setDir_dirs_self (fs : FS) (name : String) (present : Bool) :
    (fs.setDir name present).dirs name = present :=
  if_pos rfl

theorem setDir_dirs_ne (fs : FS) {name n : String} (h : n ≠ name) (present : Bool) :
    (fs.setDir name present).dirs n = fs.dirs n :=
  if_neg h

/-- **`Mkdir` of an existing directory fails.** -/
theorem mkdir_of_dirs {fs : FS} {name : String} (h : fs.dirs name = true)
    (fault : Option String) :
    fs.mkdir fault name = (fs, some ("mkdir " ++ name ++ ": file exists")) :=
  if_pos (.inl h)

/-- Nothing can be written at the empty path. -/
theorem writeFile_empty (fault : Option (String × Option ℕ)) (b : List UInt8) (fs : FS) :
    fs.writeFile fault "" b = (fs, some "open : no such file or directory") :=
  if_pos rfl

/-- A file that exists can be read when nothing goes wrong. -/
theorem readFile_of_files {fs : FS} {name : String} {b : List UInt8} (hname : name ≠ "")
    (h : fs.files name = some b) : fs.readFile none name = .ok b := by
  rw [readFile, if_neg hname, h]

/-- The size of a file that exists. -/
theorem statSize_of_files {fs : FS} {name : String} {b : List UInt8} (hname : name ≠ "")
    (h : fs.files name = some b) : fs.statSize none name = .ok b.length := by
  rw [statSize, if_neg hname, h]

/-- There is nothing to remove at the empty path. -/
theorem remove_empty (fault : Option String) (fs : FS) :
    fs.remove fault "" = (fs, some .notExist) :=
  if_pos (.inl rfl)

/-- The file system **grows**: files keep their contents, and directories stay. -/
structure Grows (fs fs' : FS) : Prop where
  files : ∀ n b, fs.files n = some b → fs'.files n = some b
  dirs : ∀ n, fs.dirs n = true → fs'.dirs n = true

theorem Grows.refl (fs : FS) : Grows fs fs := ⟨fun _ _ h => h, fun _ h => h⟩

theorem Grows.trans {fs₁ fs₂ fs₃ : FS} (h₁ : Grows fs₁ fs₂) (h₂ : Grows fs₂ fs₃) :
    Grows fs₁ fs₃ :=
  ⟨fun n b h => h₂.files n b (h₁.files n b h), fun n h => h₂.dirs n (h₁.dirs n h)⟩

/-- Adding a directory takes nothing away. -/
theorem grows_setDir (fs : FS) (name : String) : Grows fs (fs.setDir name true) := by
  refine ⟨fun _ _ h => h, fun n h => ?_⟩
  by_cases hn : n = name
  · rw [hn]
    exact setDir_dirs_self fs name true
  · rwa [setDir_dirs_ne fs hn]

/-- Creating a file takes nothing away. -/
theorem grows_create (fs : FS) (name : String) : Grows fs (fs.create name) := by
  rw [create]
  split
  · exact Grows.refl fs
  · rename_i hnew
    rw [not_or] at hnew
    refine ⟨fun n b h => ?_, fun _ h => h⟩
    have hn : n ≠ name := by
      rintro rfl
      exact hnew.2 (by simp [h])
    rwa [setFile_files_ne fs hn]

/-- A created file exists. -/
theorem create_files {name : String} (hname : name ≠ "") (fs : FS) :
    ∃ b, (fs.create name).files name = some b := by
  rw [create]
  split
  · rename_i hold
    exact Option.isSome_iff_exists.mp (hold.resolve_left hname)
  · exact ⟨[], setFile_files_self fs name (some [])⟩

theorem grows_mkdir (fault : Option String) (name : String) (fs : FS) :
    Grows fs (fs.mkdir fault name).1 := by
  simp only [mkdir]
  split
  · exact Grows.refl fs
  split
  · exact Grows.refl fs
  · exact grows_setDir fs name

/-- Making directories takes nothing away. -/
theorem grows_makeDirs (fs : FS) (name : String) : Grows fs (fs.makeDirs name) :=
  ⟨fun _ _ h => h, fun n h => by simp [makeDirs, h]⟩

theorem grows_mkdirAll (fault : Option String) (name : String) (fs : FS) :
    Grows fs (fs.mkdirAll fault name).1 := by
  simp only [mkdirAll]
  split
  · exact Grows.refl fs
  split
  · exact Grows.refl fs
  split
  · exact Grows.refl fs
  · exact grows_makeDirs fs name

/-- A directory that was made exists. -/
theorem mkdir_ok {fault : Option String} {name : String} {fs fs' : FS}
    (h : fs.mkdir fault name = (fs', none)) : fs'.dirs name = true := by
  simp only [mkdir] at h
  split at h
  · simp at h
  split at h
  · simp at h
  · obtain ⟨rfl, -⟩ := Prod.mk.inj h
    exact setDir_dirs_self fs name true

end FS

end Golang
