import SealedPost.Files

/-! What is written to a file is read back, and what is not written stays. A name that is joined to a directory leads
into it, or to where a link of this name ends. -/
namespace SealedPost.FileStore

variable {store after : FileStore} {path : String} {place : Place} {contents : Bytes}

def start (store : FileStore) (path : String) : Place :=
  if path.toList.head? = some '/' then [] else store.here

def steps (path : String) : List String :=
  (names path.toList).map String.ofList

/-- A path leads somewhere if it is a path at all and each of its names leads on. -/
theorem locate_eq_ok_iff : store.locate path = .ok place ↔
    ('\x00' ∉ path.toList ∧ path ≠ "" ∧ path.utf8ByteSize < 4096) ∧
      store.walk (store.start path) (steps path) = .ok place := by
  rw [locate]
  split
  · next hzero => exact ⟨fun h => (nomatch h), fun h => absurd hzero h.1.1⟩
  split
  · next hempty => exact ⟨fun h => (nomatch h), fun h => absurd hempty h.1.2.1⟩
  split
  · next hlong => exact ⟨fun h => (nomatch h), fun h => absurd hlong (Nat.not_le.2 h.1.2.2)⟩
  · next hzero hempty hlong => exact ⟨fun h => ⟨⟨hzero, hempty, Nat.not_le.1 hlong⟩, h⟩, fun h => h.2⟩

theorem read_eq_ok_iff : store.read path = .ok contents ↔
    ∃ place, store.locate path = .ok place ∧ store.isDirectory place = false ∧
      store.files.lookup place = some contents := by
  rw [read]
  constructor
  · intro h
    split at h
    · cases h
    · next place hplace =>
      split at h
      · cases h
      · next hfile =>
        split at h
        · next read hread =>
          obtain rfl := Except.ok.inj h
          exact ⟨place, hplace, Bool.eq_false_iff.2 hfile, hread⟩
        · cases h
  · rintro ⟨place, hplace, hfile, hread⟩
    simp only [hplace, hfile, hread, Bool.false_eq_true, if_false]

theorem write_eq_ok_iff : store.write path contents = (.ok (), after) ↔
    ∃ place, store.locate path = .ok place ∧ store.isDirectory place = false ∧ after = store.put place contents := by
  rw [write]
  constructor
  · intro h
    split at h
    · cases h
    · next place hplace =>
      split at h
      · cases h
      · next hfile => exact ⟨place, hplace, Bool.eq_false_iff.2 hfile, (congrArg Prod.snd h).symm⟩
  · rintro ⟨place, hplace, hfile, rfl⟩
    simp only [hplace, hfile, Bool.false_eq_true, if_false]

/-- A write that fails changes nothing. -/
theorem eq_of_write_error {fault : FileFault} (h : store.write path contents = (.error fault, after)) :
    after = store := by
  unfold write at h
  split at h
  · exact (congrArg Prod.snd h).symm
  · split at h
    · exact (congrArg Prod.snd h).symm
    · cases h

section put

private theorem lookup_filter_ne {place other : Place} (h : other ≠ place) (files : List (Place × Bytes)) :
    (files.filter (·.1 ≠ place)).lookup other = files.lookup other := by
  induction files with
  | nil => rfl
  | cons file files ih =>
    obtain ⟨at?, bytes⟩ := file
    rw [List.filter_cons]
    split
    · rw [List.lookup_cons, List.lookup_cons, ih]
    · next hsame =>
      obtain rfl : at? = place := by simpa using hsame
      rw [ih, List.lookup_cons, beq_false_of_ne h]

theorem lookup_put (store : FileStore) (place other : Place) (contents : Bytes) :
    (store.put place contents).files.lookup other =
      if other = place then some contents else store.files.lookup other := by
  split
  · next hsame => rw [hsame, put, List.lookup_cons_self]
  · next hother => rw [put, List.lookup_cons, beq_false_of_ne hother, lookup_filter_ne hother]

private theorem walk_put {start target : Place} {steps : List String} :
    (store.put place contents).walk start steps = .ok target ↔ store.walk start steps = .ok target := by
  induction steps generalizing start with
  | nil => exact Iff.rfl
  | cons name more ih =>
    have hdirectory : (store.put place contents).isDirectory start = store.isDirectory start := rfl
    have hstep : (store.put place contents).step start name = store.step start name := rfl
    rw [walk, walk, hdirectory, hstep]
    split
    · split
      · split
        · exact Iff.rfl
        · exact ih
      · exact Iff.rfl
    · constructor <;> intro h <;> split at h <;> cases h

/-- A path leads where it led before a file was written. -/
theorem locate_put_iff {target : Place} :
    (store.put place contents).locate path = .ok target ↔ store.locate path = .ok target := by
  rw [locate_eq_ok_iff, locate_eq_ok_iff]
  exact and_congr_right fun _ => walk_put

end put

section join

theorem names_ne_nil (cs : List Char) : names cs ≠ [] := by
  fun_cases names cs <;> simp_all

/-- A path splits at each of its slashes. -/
theorem names_append_slash (cs ds : List Char) : names (cs ++ '/' :: ds) = names cs ++ names ds := by
  induction cs with
  | nil => rfl
  | cons c cs ih =>
    rw [List.cons_append, names, names, ih]
    split
    · rfl
    · obtain ⟨name, more, hnames⟩ := List.exists_cons_of_ne_nil (names_ne_nil cs)
      rw [hnames]
      rfl

theorem names_of_notMem {cs : List Char} (h : '/' ∉ cs) : names cs = [cs] := by
  induction cs with
  | nil => rfl
  | cons c cs ih =>
    rw [List.mem_cons, not_or] at h
    rw [names, if_neg (Ne.symm h.1), ih h.2]

/-- Only a directory can be left by a further name. -/
theorem walk_concat_eq_ok_iff {start target : Place} {before : List String} {name : String} :
    store.walk start (before ++ [name]) = .ok target ↔ ∃ parent, store.walk start before = .ok parent ∧
      store.isDirectory parent = true ∧ name.utf8ByteSize ≤ 255 ∧ store.step parent name = .ok target := by
  induction before generalizing start with
  | nil =>
    simp only [List.nil_append, walk, Except.ok.injEq, exists_eq_left']
    split
    · next hdirectory =>
      rw [and_iff_right hdirectory]
      split
      · next hsize =>
        rw [and_iff_right hsize]
        cases store.step start name <;> rfl
      · next hsize => exact ⟨fun h => (nomatch h), fun h => absurd h.1 hsize⟩
    · next hfile =>
      refine ⟨fun h => ?_, fun h => absurd h.1 hfile⟩
      split at h <;> cases h
  | cons first before ih =>
    rw [List.cons_append, walk, walk]
    split
    · split
      · split
        · exact ⟨fun h => (nomatch h), fun ⟨_, h, _⟩ => (nomatch h)⟩
        · exact ih
      · exact ⟨fun h => (nomatch h), fun ⟨_, h, _⟩ => (nomatch h)⟩
    · split
      · exact ⟨fun h => (nomatch h), fun ⟨_, h, _⟩ => (nomatch h)⟩
      · exact ⟨fun h => (nomatch h), fun ⟨_, h, _⟩ => (nomatch h)⟩

/-- A name that leads one step down. -/
structure IsName (name : String) : Prop where
  plain : '/' ∉ name.toList
  named : name ≠ ""
  notHere : name ≠ "."
  notUp : name ≠ ".."

variable {directory name : String}

/-- Where there is no link of a name, the name leads one step down. -/
theorem IsName.step (h : IsName name) {place : Place} (unlinked : store.links.lookup (name :: place) = none) :
    store.step place name = .ok (name :: place) := by
  rw [FileStore.step, if_neg (not_or.2 ⟨h.named, h.notHere⟩), if_neg h.notUp, unlinked]
  rfl

theorem IsName.steps (h : IsName name) : steps name = [name] := by
  rw [FileStore.steps, names_of_notMem h.plain, List.map_singleton, String.ofList_toList]

theorem exists_join_eq_append (directory name : String) : ∃ more, join directory name = directory ++ more := by
  rw [join]
  split
  · exact ⟨name, rfl⟩
  · exact ⟨"/" ++ name, String.append_assoc⟩

/-- A joined path goes through its directory, where a slash at the end of this counts for nothing. -/
theorem steps_join (hname : IsName name) (hne : directory ≠ "") : ∃ before,
    steps (join directory name) = before ++ [name] ∧ (steps directory = before ∨ steps directory = before ++ [""]) := by
  have hsteps {cs : List Char} (hjoin : (join directory name).toList = cs ++ '/' :: name.toList) :
      steps (join directory name) = (names cs).map String.ofList ++ [name] := by
    rw [steps, hjoin, names_append_slash, List.map_append]
    exact congrArg _ hname.steps
  by_cases hslash : directory.toList.getLast? = some '/'
  · obtain ⟨cs, hcs⟩ := List.getLast?_eq_some_iff.1 hslash
    have hjoin : (join directory name).toList = cs ++ '/' :: name.toList := by
      rw [join, if_pos (.inr hslash), String.toList_append, hcs, List.append_assoc, List.singleton_append]
    refine ⟨_, hsteps hjoin, .inr ?_⟩
    rw [steps, hcs, names_append_slash, List.map_append]
    rfl
  · have hjoin : (join directory name).toList = directory.toList ++ '/' :: name.toList := by
      rw [join, if_neg (not_or.2 ⟨hne, hslash⟩), String.toList_append, String.toList_append, List.append_assoc]
      rfl
    exact ⟨_, hsteps hjoin, .inl rfl⟩

theorem start_append (hne : directory ≠ "") (more : String) :
    store.start (directory ++ more) = store.start directory := by
  obtain ⟨c, cs, hcs⟩ := List.exists_cons_of_ne_nil (show directory.toList ≠ [] by simpa using hne)
  rw [start, start, String.toList_append, hcs, List.cons_append, List.head?_cons, List.head?_cons]

/-- The place that a directory's path names. The empty path stands for the directory where paths begin. -/
def folder (store : FileStore) (directory : String) : Except FileFault Place :=
  if directory = "" then .ok store.here else store.locate directory

/-- A name joined to a directory leads where it leads from this directory. -/
theorem locate_join (hname : IsName name) (h : store.locate (join directory name) = .ok place) :
    ∃ parent, store.folder directory = .ok parent ∧ store.step parent name = .ok place := by
  obtain ⟨⟨hzero, -, hlong⟩, hwalk⟩ := locate_eq_ok_iff.1 h
  rw [folder]
  by_cases hne : directory = ""
  · have hjoin : join directory name = name := by simp [join, hne]
    have hstart : store.start name = store.here := if_neg fun hhead => hname.plain (List.mem_of_head? hhead)
    rw [hjoin, hname.steps, hstart] at hwalk
    obtain ⟨parent, hparent, -, -, hplace⟩ := (@walk_concat_eq_ok_iff store store.here place [] name).1 hwalk
    rw [if_pos hne]
    exact ⟨parent, hparent, hplace⟩
  · obtain ⟨more, hmore⟩ := exists_join_eq_append directory name
    obtain ⟨before, hjoin, hdirectory⟩ := steps_join hname hne
    rw [hjoin, hmore, start_append hne] at hwalk
    obtain ⟨parent, hparent, hopen, -, hplace⟩ := walk_concat_eq_ok_iff.1 hwalk
    rw [hmore, String.toList_append, List.mem_append, not_or] at hzero
    rw [hmore, String.utf8ByteSize_append] at hlong
    rw [if_neg hne]
    refine ⟨parent, locate_eq_ok_iff.2 ⟨⟨hzero.1, hne, by omega⟩, ?_⟩, hplace⟩
    rcases hdirectory with hsteps | hsteps
    · rw [hsteps, hparent]
    · rw [hsteps]
      exact walk_concat_eq_ok_iff.2 ⟨parent, hparent, hopen, by decide, rfl⟩

end join

section writeAll

variable {other : String} {old : Bytes}

/-- A write puts a file at the place that its path leads to, or changes nothing. -/
theorem write_put_or_self (store : FileStore) (path : String) (contents : Bytes) :
    (∃ place, store.locate path = .ok place ∧ store.isDirectory place = false ∧
      (store.write path contents).2 = store.put place contents) ∨ (store.write path contents).2 = store := by
  rcases hwrite : store.write path contents with ⟨_ | _, after⟩
  · exact .inr (eq_of_write_error hwrite)
  · exact .inl (write_eq_ok_iff.1 hwrite)

theorem locate_write_iff :
    (store.write path contents).2.locate other = .ok place ↔ store.locate other = .ok place := by
  rcases write_put_or_self store path contents with ⟨_, -, -, hafter⟩ | hafter <;> rw [hafter]
  exact locate_put_iff

theorem isDirectory_write : (store.write path contents).2.isDirectory place = store.isDirectory place := by
  rcases write_put_or_self store path contents with ⟨_, -, -, hafter⟩ | hafter <;> rw [hafter]
  rfl

def Takes (store : FileStore) (path : String) : Prop :=
  ∃ place, store.locate path = .ok place ∧ store.isDirectory place = false

/-- Two paths that lead to one place, by the same names, by `..` or through links. -/
def Meet (store : FileStore) (path other : String) : Prop :=
  ∃ place, store.locate path = .ok place ∧ store.locate other = .ok place

theorem takes_write_iff : (store.write path contents).2.Takes other ↔ store.Takes other := by
  simp only [Takes, locate_write_iff, isDirectory_write]

/-- A file is read back over every path that leads to it. -/
theorem read_write_of_meet (takes : store.Takes other) (h : store.Meet path other) :
    (store.write path contents).2.read other = .ok contents := by
  obtain ⟨place, hother, hfile⟩ := takes
  obtain ⟨_, hpath, hsame⟩ := h
  obtain rfl := Except.ok.inj (hother.symm.trans hsame)
  rw [write_eq_ok_iff.2 ⟨place, hpath, hfile, rfl⟩]
  exact read_eq_ok_iff.2 ⟨place, locate_put_iff.2 hother, hfile, by rw [lookup_put, if_pos rfl]⟩

/-- A link is written through. -/
example :
    let store : FileStore := { directories := [["dl"]], links := [(["a.bin", "dl"], .ok ["b.bin", "dl"])] }
    (store.write "dl/a.bin" [1]).2.read "dl/b.bin" = .ok [1] := by
  rfl

theorem read_of_write (h : store.write path contents = (.ok (), after)) : after.read path = .ok contents := by
  obtain ⟨place, hplace, hfile, -⟩ := write_eq_ok_iff.1 h
  have hread : (store.write path contents).2.read path = .ok contents :=
    read_write_of_meet ⟨place, hplace, hfile⟩ ⟨place, hplace, hplace⟩
  rwa [h] at hread

def writeAll (store : FileStore) (files : List (String × Bytes)) : FileStore :=
  files.foldl (fun store file => (store.write file.1 file.2).2) store

variable {files : List (String × Bytes)}

theorem takes_writeAll_iff : (store.writeAll files).Takes path ↔ store.Takes path := by
  induction files generalizing store with
  | nil => exact Iff.rfl
  | cons file files ih => exact ih.trans takes_write_iff

theorem writeAll_append (more : List (String × Bytes)) :
    store.writeAll (files ++ more) = (store.writeAll files).writeAll more :=
  List.foldl_append

end writeAll

end SealedPost.FileStore
