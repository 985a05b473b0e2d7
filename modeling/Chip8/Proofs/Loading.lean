import Chip8.Proofs.Run
import Chip8.Proofs.Blocks
import Chip8.Proofs.Paths

/-!
# Chip8.Proofs.Loading

Programs that are loaded one over the other.

A program comes as bytes or as a file, and the file is looked at before its bytes are. Under a plain
path it is the file of that path that is opened (`content?_of_isPlain`). Either way it is the number
of bytes that decides (`allOrNothing_of_content?`): the check of the file lets through exactly what
the check of the bytes lets through. What is refused leaves the machine as it was, and what is
accepted goes into the cells from `programStart` on, byte by byte and without moving any other cell
(`Memory.toList_overlay`).

A short program does not cover a long one that was there before it. After several loadings a cell
holds the byte of the last one that reached it (`cells_loadAll`).
-/

namespace Chip8

/-- A program in place of a part of memory: the cells before and behind it stay where they are. -/
theorem Memory.toList_overlay (mem : Memory) {program : Array UInt8}
    (hsize : program.size ≤ maxProgramSize) :
    (mem.overlay programStart program).cells.toList =
      mem.cells.toList.take programStart ++ program.toList ++
        mem.cells.toList.drop (programStart + program.size) := by
  unfold maxProgramSize at hsize
  have hstart : programStart ≤ memorySize := by decide
  refine List.ext_getElem ?_ fun k hk _ => ?_
  · simp only [Vector.length_toList, List.length_append, List.length_take, List.length_drop,
      Array.length_toList]
    omega
  · rw [Vector.length_toList] at hk
    have hcell := mem.cells_overlay programStart program ⟨k, hk⟩
    rw [← getElem_val, ← getElem_val] at hcell
    simp only [Vector.getElem_toList, List.getElem_append, List.length_append, List.length_take,
      Vector.length_toList, Array.length_toList, Nat.min_eq_left hstart, List.getElem_take,
      List.getElem_drop, Array.getElem_toList]
    rw [hcell]
    by_cases hbelow : k < programStart
    · rw [if_neg (by simpa using hbelow), dif_pos (by omega), dif_pos hbelow]
    · rw [if_pos (by simpa using hbelow)]
      by_cases hin : k < programStart + program.size
      · rw [dif_pos hin, dif_neg hbelow]
        simp [show k - programStart < program.size by omega]
      · rw [dif_neg hin]
        simp [show ¬k - programStart < program.size by omega,
          show programStart + program.size + (k - (programStart + program.size)) = k by omega]

namespace Machine

variable {ρ : Type} {m : Machine ρ}

/-- A program that is to be loaded. -/
inductive Loading
  | bytes (program : Array UInt8)
  /-- The program is in a file, with what reads it and the path. -/
  | file (files : FileReader) (path : String)

/-- The bytes of the program, if they can be read. -/
def Loading.content? : Loading → Option (Array UInt8)
  | bytes program => some program
  | file files path =>
    match files (tidyPath path) with
    | .ok content => some content
    | .error _ => none

/-- The bytes of the program, if they can be read and fit. -/
def Loading.accepted? (l : Loading) : Option (Array UInt8) :=
  l.content?.filter fun content => content.size ≤ maxProgramSize

/-- The byte that a program brings into a cell, if it brings one there. -/
def Loading.byte? (l : Loading) (a : Fin memorySize) : Option UInt8 :=
  if programStart ≤ a.val then l.accepted?.bind fun content => content[a.val - programStart]?
  else none

/-- What comes of loading a program: why it was refused, if it was, and the machine. -/
def attempt (m : Machine ρ) : Loading → Option LoadFailure × Machine ρ
  | .bytes program => m.load program
  | .file files path => (m.loadFile files path).2

/-- The machine after a program was loaded or refused. -/
def loadNext (m : Machine ρ) (l : Loading) : Machine ρ := (m.attempt l).2

def loadAll (m : Machine ρ) (loadings : List Loading) : Machine ρ := loadings.foldl loadNext m

theorem Loading.content?_file {files : FileReader} {path : String} {content : Array UInt8} :
    content? (.file files path) = some content ↔ files (tidyPath path) = .ok content := by
  rw [content?]
  cases files (tidyPath path) with
  | ok _ => simp
  | error _ => simp

/-- Under a plain path its own file is opened. -/
theorem content?_of_isPlain {path : String} (h : IsPlain path) (files : FileReader)
    (content : Array UInt8) :
    Loading.content? (.file files path) = some content ↔ files path = .ok content := by
  rw [Loading.content?_file, tidyPath_of_isPlain h]

/-! ### One program -/

/-- A file that can be read is refused exactly if its bytes are. -/
theorem loadFile_of_content {files : FileReader} {path : String} {content : Array UInt8}
    (h : files (tidyPath path) = .ok content) (m : Machine ρ) :
    m.loadFile files path =
      if maxProgramSize < content.size then
        ([], some (.fileTooLarge (tidyPath path) content.size), m)
      else ([.programRead (lastName (tidyPath path)) content.size, .programLoaded content.size],
        m.load content) := by
  by_cases hsize : maxProgramSize < content.size
  · rw [loadFile, ProgramFile.read, h]
    simp only [if_pos hsize]
  · rw [loadFile, ProgramFile.read, h]
    simp only [if_neg hsize, load]

/-- A program that can be read and fits is laid over memory. -/
theorem attempt_of_accepted {l : Loading} {content : Array UInt8} (h : l.accepted? = some content)
    (m : Machine ρ) :
    m.attempt l = (none, { m with memory := m.memory.overlay programStart content }) := by
  obtain ⟨hcontent, hfits⟩ := Option.filter_eq_some_iff.mp h
  have hsize : ¬maxProgramSize < content.size := Nat.not_lt.mpr (by simpa using hfits)
  cases l with
  | bytes program =>
      cases hcontent
      exact if_neg hsize
  | file files path =>
      rw [attempt, loadFile_of_content (Loading.content?_file.mp hcontent), if_neg hsize]
      exact if_neg hsize

/-- Any other program is refused and leaves the machine as it is. If it could be read, it is refused
for its size. -/
theorem exists_attempt_eq_refused {l : Loading} (h : l.accepted? = none) (m : Machine ρ) :
    ∃ e, m.attempt l = (some e, m) ∧
      (l.content?.isSome = true → e.kind? = some .loadFailure) := by
  rw [Loading.accepted?, Option.filter_eq_none_iff] at h
  cases l with
  | bytes program =>
      have hsize : maxProgramSize < program.size := by simpa using h program rfl
      exact ⟨_, if_pos hsize, fun _ => rfl⟩
  | file files path =>
      cases hread : files (tidyPath path) with
      | ok content =>
          have hsize : maxProgramSize < content.size := by
            simpa using h content (Loading.content?_file.mpr hread)
          rw [attempt, loadFile_of_content hread, if_pos hsize]
          exact ⟨_, rfl, fun _ => rfl⟩
      | error problem =>
          have hnone : Loading.content? (.file files path) = none := by
            rw [Loading.content?, hread]
          rw [hnone]
          cases problem with
          | refused => exact ⟨_, by rw [attempt, loadFile, ProgramFile.read, hread], nofun⟩
          | nulInPath => exact ⟨_, by rw [attempt, loadFile, ProgramFile.read, hread], nofun⟩

theorem loadNext_of_accepted {l : Loading} {content : Array UInt8} (h : l.accepted? = some content)
    (m : Machine ρ) :
    m.loadNext l = { m with memory := m.memory.overlay programStart content } := by
  rw [loadNext, attempt_of_accepted h]

/-- A program that is refused changes nothing. -/
theorem loadNext_of_refused {l : Loading} (h : l.accepted? = none) (m : Machine ρ) :
    m.loadNext l = m := by
  obtain ⟨e, hrefused, -⟩ := exists_attempt_eq_refused h m
  rw [loadNext, hrefused]

/-- The bytes are let through exactly if they fit. -/
theorem load_eq_none_iff (m : Machine ρ) (program : Array UInt8) :
    (m.load program).1 = none ↔ program.size ≤ maxProgramSize := by
  unfold load
  split
  · rename_i hlong
    exact iff_of_false nofun (Nat.not_le.mpr hlong)
  · rename_i hfits
    exact iff_of_true rfl (Nat.not_lt.mp hfits)

/-- The file is let through exactly if its bytes are. -/
theorem exists_read_iff_load {files : FileReader} {path : String} {content : Array UInt8}
    (h : files (tidyPath path) = .ok content) (m : Machine ρ) :
    (∃ file, ProgramFile.read files path = .ok file) ↔ (m.load content).1 = none := by
  rw [load_eq_none_iff, ProgramFile.read, h]
  dsimp only
  split
  · rename_i hlong
    exact iff_of_false nofun (Nat.not_le.mpr hlong)
  · rename_i hfits
    exact iff_of_true ⟨_, rfl⟩ (Nat.not_lt.mp hfits)

/-- What comes of a program by the number of its bytes. -/
structure AllOrNothing (m : Machine ρ) (l : Loading) (content : Array UInt8) : Prop where
  /-- A program is accepted if it fits, and not otherwise. -/
  accepted_iff : (m.attempt l).1 = none ↔ content.size ≤ maxProgramSize
  /-- Its bytes replace as many bytes of memory. -/
  replaced : (m.attempt l).1 = none → (m.attempt l).2.memory.cells.toList =
    m.memory.cells.toList.take programStart ++ content.toList ++
      m.memory.cells.toList.drop (programStart + content.size)
  refused (e : LoadFailure) : (m.attempt l).1 = some e →
    e.kind? = some .loadFailure ∧ (m.attempt l).2 = m
  /-- The check of a file and that of its bytes agree. -/
  checks (files : FileReader) (path : String) : l = .file files path →
    ((∃ file, ProgramFile.read files path = .ok file) ↔ (m.load content).1 = none)

theorem allOrNothing_of_content? {l : Loading} {content : Array UInt8}
    (h : l.content? = some content) (m : Machine ρ) : m.AllOrNothing l content := by
  have haccepted : l.accepted? = if content.size ≤ maxProgramSize then some content else none := by
    simp [Loading.accepted?, h, Option.filter_some]
  have hchecks : ∀ files path, l = .file files path →
      ((∃ file, ProgramFile.read files path = .ok file) ↔ (m.load content).1 = none) := by
    rintro files path rfl
    exact exists_read_iff_load (Loading.content?_file.mp h) m
  by_cases hsize : content.size ≤ maxProgramSize
  · rw [if_pos hsize] at haccepted
    have hdone := attempt_of_accepted haccepted m
    refine ⟨iff_of_true (by rw [hdone]) hsize, fun _ => ?_, fun e he => ?_, hchecks⟩
    · rw [hdone]
      exact Memory.toList_overlay m.memory hsize
    · rw [hdone] at he
      cases he
  · rw [if_neg hsize] at haccepted
    obtain ⟨failure, hrefused, hkind⟩ := exists_attempt_eq_refused haccepted m
    rw [← Option.isSome_iff_exists.mpr ⟨_, h⟩] at hkind
    refine ⟨iff_of_false (by rw [hrefused]; nofun) hsize, fun hdone => ?_, fun e he => ?_, hchecks⟩
    · rw [hrefused] at hdone
      cases hdone
    · rw [hrefused] at he ⊢
      cases he
      exact ⟨hkind rfl, rfl⟩

/-! ### Several programs -/

/-- After one loading, a cell holds the byte that came into it, or the one it held before. -/
theorem cells_loadNext (m : Machine ρ) (l : Loading) (a : Fin memorySize) :
    (m.loadNext l).memory.cells[a] = (l.byte? a).getD m.memory.cells[a] := by
  unfold Loading.byte?
  cases h : l.accepted? with
  | none =>
      rw [loadNext_of_refused h]
      split <;> rfl
  | some content =>
      rw [loadNext_of_accepted h]
      dsimp only
      rw [Memory.cells_overlay]
      split
      · rw [Option.bind_some, Array.getD_eq_getD_getElem?]
      · rfl

/-- **After several loadings, a cell holds the byte that came into it last.** -/
theorem cells_loadAll (m : Machine ρ) (loadings : List Loading) (a : Fin memorySize) :
    (m.loadAll loadings).memory.cells[a] =
      (loadings.filterMap (·.byte? a)).getLastD m.memory.cells[a] := by
  induction loadings generalizing m with
  | nil => rfl
  | cons l loadings ih =>
      rw [loadAll, List.foldl_cons, ← loadAll, ih, cells_loadNext, List.filterMap_cons]
      cases l.byte? a with
      | none => rw [Option.getD_none]
      | some b => rw [Option.getD_some, List.getLastD_cons]

/-- Loading is about memory and nothing else. -/
theorem loadAll_eq (m : Machine ρ) (loadings : List Loading) :
    m.loadAll loadings = { m with memory := (m.loadAll loadings).memory } := by
  induction loadings generalizing m with
  | nil => rfl
  | cons l loadings ih =>
      rw [loadAll, List.foldl_cons, ← loadAll, ih]
      cases h : l.accepted? with
      | none => rw [loadNext_of_refused h]
      | some content => rw [loadNext_of_accepted h]

/-- **Programs are loaded whole or not at all, and in layers.** Each of several programs is accepted
exactly if it fits, whether it comes as bytes or as a file, and a refused one changes nothing. The
file is the one under the path, if that is plain. In the end a cell holds the byte of the last
accepted program that reached it, or else what it held at first; below `programStart` nothing has
changed, and neither has anything but memory. -/
theorem loads_in_layers (m : Machine ρ) (loadings : List Loading) :
    (∀ (now : Machine ρ) (l : Loading) (content : Array UInt8),
      l.content? = some content → now.AllOrNothing l content) ∧
    (∀ path, IsPlain path → ∀ (files : FileReader) (content : Array UInt8),
      Loading.content? (.file files path) = some content ↔ files path = .ok content) ∧
    (m.loadAll loadings).memory.cells.toList.length = memorySize ∧
    (∀ a : Fin memorySize, (m.loadAll loadings).memory.cells[a] =
      (loadings.filterMap (·.byte? a)).getLastD m.memory.cells[a]) ∧
    (∀ a : Fin memorySize, a.val < programStart →
      (m.loadAll loadings).memory.cells[a] = m.memory.cells[a]) ∧
    m.loadAll loadings = { m with memory := (m.loadAll loadings).memory } := by
  refine ⟨fun now l content hcontent => allOrNothing_of_content? hcontent now,
    fun path hplain => content?_of_isPlain hplain,
    Vector.length_toList, cells_loadAll m loadings, fun a ha => ?_, loadAll_eq m loadings⟩
  have hnone : loadings.filterMap (·.byte? a) = [] :=
    List.filterMap_eq_nil_iff.mpr fun l _ => if_neg (Nat.not_le.mpr ha)
  rw [cells_loadAll, hnone, List.getLastD_nil]

/-- A program that is one byte too long. -/
def tooLong : Loading := .bytes (Array.replicate 3585 0xFF)

/-- A reader that knows a single file, of two bytes. -/
def onlyMaze : FileReader := fun path =>
  if path = "maze.ch8" then .ok #[0x00, 0xE0] else .error (.refused .notFound path)

/-- A program of four bytes, the file of two, and a program that is too long. -/
def shortOverLong : List Loading := [
  .bytes #[0x12, 0x00, 0xAA, 0xBB],
  .file onlyMaze "maze.ch8",
  tooLong]

/-- The file takes the place of the first two bytes and leaves the other two. Under any other plain
path there is none. -/
theorem shortOverLong_loaded :
    let m : Machine CyclicNumbers := { source := ⟨[0], [0]⟩ }
    let loaded := m.loadAll shortOverLong
    loaded.memory.cells[(⟨0x201, by decide⟩ : Fin memorySize)] = 0xE0 ∧
      loaded.memory.cells[(⟨0x203, by decide⟩ : Fin memorySize)] = 0xBB ∧
      Loading.content? (.file onlyMaze "roms/maze.ch8") = none ∧
      (loaded.attempt tooLong).1 ≠ none ∧ loaded.pc = m.pc := by
  intro m loaded
  obtain ⟨hall, hopened, -, hcells, -, hrest⟩ := loads_in_layers m shortOverLong
  have hlong : maxProgramSize < (Array.replicate 3585 (0xFF : UInt8)).size := by
    rw [Array.size_replicate]
    decide
  have hnever : tooLong.accepted? = none :=
    Option.filter_eq_none_iff.mpr fun _ h => by
      cases h
      simpa using hlong
  have hplain : IsPlain "roms/maze.ch8" := by
    refine ⟨"", by simp, ["roms", "maze.ch8"], by simp, ?_, rfl⟩
    simp only [List.forall_mem_cons]
    exact ⟨⟨by decide, by decide, by decide⟩, ⟨by decide, by decide, by decide⟩, nofun⟩
  have hlayers (a : Fin memorySize) :
      shortOverLong.filterMap (·.byte? a) = (shortOverLong.take 2).filterMap (·.byte? a) := by
    have hnone : tooLong.byte? a = none := by simp [Loading.byte?, hnever]
    simp [shortOverLong, List.filterMap_cons, hnone]
  refine ⟨?_, ?_, ?_, ?_, ?_⟩
  · rw [hcells, hlayers]
    rfl
  · rw [hcells, hlayers]
    rfl
  · refine Option.eq_none_iff_forall_ne_some.mpr fun content hcontent => ?_
    cases (hopened _ hplain onlyMaze content).mp hcontent
  · exact mt (hall loaded tooLong _ rfl).accepted_iff.mp (Nat.not_le.mpr hlong)
  · rw [show loaded = _ from hrest]

end Machine

end Chip8
