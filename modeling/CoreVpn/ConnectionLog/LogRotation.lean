import CoreVpn.ConnectionLog.FileLoggers
import CoreVpn.Lib.Lines
import CoreVpn.Lib.Machine

namespace CoreVpn.ConnectionLog.LogRotation

open Lib.Computation Lib.Wire Lib.Text Lib.Rotation Lib.Machine Server.Events FileLoggers

section Names

def name (path : PathBuf) : ℕ → String
  | 0 => path.text
  | i + 1 => (path.withExtension ("log." ++ toString (i + 1))).text

theorem name_injective {path : PathBuf} (hpath : path.extension = "log") : Function.Injective (name path) := by
  have hzero : ∀ i, name path 0 ≠ name path (i + 1) := by
    intro i h
    have hext : "log" = "log." ++ toString (i + 1) := by
      simpa [name, PathBuf.text, PathBuf.withExtension, hpath] using h
    have hlength := congrArg String.length hext
    rw [String.length_append] at hlength
    have hlog : "log".length = 3 := rfl
    have hdot : "log.".length = 4 := rfl
    omega
  intro i j h
  cases i with
  | zero =>
    cases j with
    | zero => rfl
    | succ j => exact absurd h (hzero j)
  | succ i =>
    cases j with
    | zero => exact absurd h.symm (hzero i)
    | succ j =>
      have hnumber : toString (i + 1) = toString (j + 1) := by
        simpa [name, PathBuf.text, PathBuf.withExtension] using h
      exact Lib.Lines.toString_injective hnumber

end Names

section Deleting

variable {file : String} {files : Files String Bytes}

theorem remove_overwrite (n pass : Nat) (files : Files String Bytes) :
    remove file (overwrite file n files pass) = remove file files := by
  unfold overwrite remove
  split <;> simp only [Function.update_idem]

theorem secureDeleteFile_eq : secureDeleteFile file files = remove file files := by
  unfold secureDeleteFile
  split
  · rename_i h
    exact (remove_of_none h).symm
  · rfl
  · simp only [List.foldl_cons, List.foldl_nil, remove_overwrite]

end Deleting

section Renaming

variable {c : Settings}

theorem renameOne_eq (hpath : c.path.extension = "log") (i : Nat) (files : Files String Bytes) :
    renameOne c (i + 1) files = rename (name c.path i) (name c.path (i + 1)) files := by
  have hsource : (if i + 1 = 1 then c.path else c.path.withExtension ("log." ++ toString (i + 1 - 1))).text =
      name c.path i := by
    cases i with
    | zero => rfl
    | succ i => rfl
  have hne : name c.path i ≠ name c.path (i + 1) := fun h => absurd (name_injective hpath h) (by omega)
  unfold renameOne
  dsimp only
  rw [hsource]
  cases hfile : files (name c.path i) with
  | none => exact (rename_of_none hfile).symm
  | some contents =>
    rw [Option.isSome_some, if_pos rfl]
    split
    · rw [secureDeleteFile_eq]
      exact rename_remove hne hfile
    · rfl

theorem renameEach_eq (hpath : c.path.extension = "log") (k : Nat) (files : Files String Bytes) :
    renameEach c k files = shift (name c.path) k files := by
  induction k generalizing files with
  | zero => rfl
  | succ k ih => rw [renameEach, renameOne_eq hpath, ih, shift]

theorem deleteOldest_eq (hfiles : 1 ≤ c.maxFiles) {files : Files String Bytes}
    (h : files (name c.path c.maxFiles) = none) : deleteOldest c files = files := by
  obtain ⟨k, hk⟩ : ∃ k, c.maxFiles = k + 1 := ⟨c.maxFiles - 1, by omega⟩
  have hname : (c.path.withExtension ("log." ++ toString c.maxFiles)).text = name c.path c.maxFiles := by
    rw [hk]
    rfl
  unfold deleteOldest
  dsimp only
  rw [hname, h]
  rfl

end Renaming

section Contents

variable {c : Settings} {s : FileConnectionLogger} {disk buffer : Bytes} {older : List Bytes}

/-- A logger with an open file: what of this file is on the disk and what is still
in the buffer, and the files before it, of which only the newest are kept. -/
structure Holds (c : Settings) (s : FileConnectionLogger) (disk buffer : Bytes) (older : List Bytes) : Prop where
  writer : s.writer = some buffer
  files : Numbered (name c.path) s.files (disk :: older.take (c.maxFiles - 1))

theorem Holds.current (h : Holds c s disk buffer older) : s.files c.path.text = some disk := h.files 0

theorem Holds.append (hpath : c.path.extension = "log") (h : Holds c s disk buffer older) (data : Bytes) :
    Holds c (append c data s) (disk ++ data) buffer older := by
  refine ⟨h.writer, ?_⟩
  unfold FileLoggers.append
  rw [h.current]
  exact h.files.write (name_injective hpath) (disk ++ data)

theorem Holds.flushBuf (hpath : c.path.extension = "log") (h : Holds c s disk buffer older) :
    Holds c (flushBuf c s) (disk ++ buffer) [] older := by
  unfold FileLoggers.flushBuf
  rw [h.writer]
  exact ⟨rfl, (h.append hpath buffer).files⟩

theorem Holds.writeAll (hpath : c.path.extension = "log") (h : Holds c s disk buffer older) (data : Bytes) :
    ∃ disk' buffer', Holds c (writeAll c data s) disk' buffer' older ∧ disk <+: disk' ∧
      disk' ++ buffer' = disk ++ buffer ++ data := by
  have hflushed := h.flushBuf hpath
  unfold FileLoggers.writeAll
  rw [h.writer]
  dsimp only
  by_cases hfits : data.length < capacity - buffer.length
  · rw [if_pos hfits]
    exact ⟨disk, buffer ++ data, ⟨rfl, h.files⟩, List.prefix_rfl, (List.append_assoc ..).symm⟩
  · rw [if_neg hfits]
    by_cases hover : data.length > capacity - buffer.length
    · rw [if_pos hover]
      split
      · refine ⟨_, _, hflushed.append hpath data, ?_, List.append_nil _⟩
        rw [List.append_assoc]
        exact List.prefix_append disk _
      · refine ⟨disk ++ buffer, data, ⟨?_, hflushed.files⟩, List.prefix_append disk buffer, rfl⟩
        rw [hflushed.writer, Option.map_some, List.nil_append]
    · rw [if_neg hover]
      split
      · -- as much as the whole buffer fits exactly only if the buffer is empty
        rename_i hlarge
        have hempty : buffer = [] := by
          rw [← List.length_eq_zero_iff]
          unfold capacity at hfits hover hlarge
          omega
        subst hempty
        refine ⟨_, _, h.append hpath data, List.prefix_append disk data, ?_⟩
        rw [List.append_nil, List.append_nil]
      · refine ⟨disk, buffer ++ data, ⟨?_, h.files⟩, List.prefix_rfl, (List.append_assoc ..).symm⟩
        rw [h.writer, Option.map_some]

theorem Holds.writeAll_large (hpath : c.path.extension = "log") (h : Holds c s disk buffer older) {data : Bytes}
    (hlarge : capacity ≤ data.length) : Holds c (FileLoggers.writeAll c data s) (disk ++ buffer ++ data) [] older := by
  unfold FileLoggers.writeAll
  rw [h.writer]
  dsimp only
  rw [if_neg (by omega), if_pos hlarge]
  by_cases hover : data.length > capacity - buffer.length
  · rw [if_pos hover]
    exact (h.flushBuf hpath).append hpath data
  · have hempty : buffer = [] := by
      rw [← List.length_eq_zero_iff]
      unfold capacity at hover hlarge
      omega
    subst hempty
    rw [if_neg hover, List.append_nil]
    exact h.append hpath data

theorem numbered_take {files : Files String Bytes} (hfiles : 1 ≤ c.maxFiles)
    (h : Numbered (name c.path) files (disk :: older.take (c.maxFiles - 1))) :
    files (name c.path c.maxFiles) = none := by
  rw [h, List.getElem?_eq_none_iff, List.length_cons, List.length_take]
  omega

/-- The current file is large enough on the disk, and there is another number for it. -/
def rotates (c : Settings) (s : FileConnectionLogger) : Bool :=
  decide (c.maxSize ≤ ((s.files c.path.text).getD []).length) && decide (2 ≤ c.maxFiles)

theorem rotates_iff : rotates c s = true ↔ c.maxSize ≤ ((s.files c.path.text).getD []).length ∧ 2 ≤ c.maxFiles := by
  simp [rotates]

theorem rotateIfNeeded_eq (hcurrent : s.files c.path.text = some disk) :
    rotateIfNeeded c s = (.ok (), if disk.length < c.maxSize then s else
      { flushBuf c s with
        files := create c.path.text [] (deleteOldest c (renameEach c (c.maxFiles - 1) (flushBuf c s).files))
        writer := some [] }) := by
  simp only [FileLoggers.rotateIfNeeded, bind_apply, get_apply, hcurrent]
  split <;> rfl

/-- With another number for it the current file is put away. If there is none, it
is only closed and opened again. -/
theorem Holds.rotateIfNeeded (hpath : c.path.extension = "log") (hfiles : 1 ≤ c.maxFiles)
    (h : Holds c s disk buffer older) :
    ∃ s', rotateIfNeeded c s = (.ok (), s') ∧
      ((rotates c s = true ∧ Holds c s' [] [] ((disk ++ buffer) :: older)) ∨
        (rotates c s = false ∧ ∃ disk' buffer', Holds c s' disk' buffer' older ∧
          disk' ++ buffer' = disk ++ buffer)) := by
  have hname := name_injective hpath
  have hflushed := h.flushBuf hpath
  have hrotates : rotates c s = true ↔ c.maxSize ≤ disk.length ∧ 2 ≤ c.maxFiles := by
    rw [rotates_iff, h.current, Option.getD_some]
  refine ⟨_, rotateIfNeeded_eq h.current, ?_⟩
  by_cases hsize : disk.length < c.maxSize
  · rw [if_pos hsize]
    refine .inr ⟨Bool.eq_false_iff.mpr fun hr => ?_, disk, buffer, h, rfl⟩
    have := (hrotates.mp hr).1
    omega
  · rw [if_neg hsize, renameEach_eq hpath]
    by_cases htwo : 2 ≤ c.maxFiles
    · refine .inl ⟨hrotates.mpr ⟨by omega, htwo⟩, rfl, ?_⟩
      have hlength : ((disk ++ buffer) :: older.take (c.maxFiles - 1)).length ≤ c.maxFiles - 1 + 1 := by
        rw [List.length_cons, List.length_take]
        omega
      have hshifted := hflushed.files.rotate hname (by omega) hlength []
      have htake : ((disk ++ buffer) :: older.take (c.maxFiles - 1)).take (c.maxFiles - 1) =
          ((disk ++ buffer) :: older).take (c.maxFiles - 1) := by
        obtain ⟨k, hk⟩ : ∃ k, c.maxFiles - 1 = k + 1 := ⟨c.maxFiles - 2, by omega⟩
        rw [hk, List.take_succ_cons, List.take_succ_cons, List.take_take, Nat.min_eq_left (Nat.le_succ k)]
      have holdest : shift (name c.path) (c.maxFiles - 1) (FileLoggers.flushBuf c s).files
          (name c.path c.maxFiles) = none := by
        obtain ⟨-, -, hrest⟩ := shift_apply hname (fun i (_ : i ≤ c.maxFiles - 1) => hflushed.files i)
        rw [hrest _ fun i hi he => absurd (hname he) (by omega)]
        exact numbered_take hfiles hflushed.files
      rw [deleteOldest_eq hfiles holdest, ← htake]
      exact hshifted
    · have hone : c.maxFiles - 1 = 0 := by omega
      refine .inr ⟨Bool.eq_false_iff.mpr fun hr => htwo (hrotates.mp hr).2, disk ++ buffer, [], ⟨rfl, ?_⟩,
        List.append_nil _⟩
      rw [hone, shift, deleteOldest_eq hfiles (numbered_take hfiles hflushed.files)]
      have hcreate := hflushed.files.create hname []
      rwa [if_neg (List.cons_ne_nil _ _), hone] at hcreate

theorem writeEvent_eq (h : Holds c s disk buffer older) (toJson : ConnectionEvent → String)
    (event : ConnectionEvent) :
    let t := writeAll c (asBytes "\n") (writeAll c (asBytes (toJson event)) s)
    writeEvent c toJson event s = (.ok (), { t with pending := t.pending + 1 }) := by
  simp only [FileLoggers.writeEvent, bind_apply, get_apply, h.writer, Option.isSome_some, if_true, modify_apply]

theorem Holds.pending (h : Holds c s disk buffer older) (n : Nat) :
    Holds c { s with pending := n } disk buffer older := ⟨h.writer, h.files⟩

theorem Holds.flush (hpath : c.path.extension = "log") (h : Holds c s disk buffer older) :
    ∃ s', flush c s = (.ok (), s') ∧ Holds c s' (disk ++ buffer) [] older := by
  simp only [FileLoggers.flush, modify_apply, h.writer, Option.isSome_some, if_true]
  exact ⟨_, rfl, (h.flushBuf hpath).pending 0⟩

end Contents

section Events

variable {c : Settings} {s : FileConnectionLogger} (toJson : ConnectionEvent → String)

def line (event : ConnectionEvent) : Bytes := asBytes (toJson event) ++ asBytes "\n"

def lines (events : List ConnectionEvent) : Bytes := events.flatMap (line toJson)

theorem lines_append (events events' : List ConnectionEvent) :
    lines toJson (events ++ events') = lines toJson events ++ lines toJson events' := List.flatMap_append

theorem lines_singleton (event : ConnectionEvent) : lines toJson [event] = line toJson event :=
  List.append_nil _

theorem line_append_ne (event : ConnectionEvent) :
    line toJson event ++ line toJson event ≠ line toJson event := by
  intro h
  have hnewline : (asBytes "\n").length = 1 := by decide
  have hlength := congrArg List.length h
  rw [List.length_append, line, List.length_append] at hlength
  omega

theorem lines_flatten (files : List (List ConnectionEvent)) :
    lines toJson files.flatten = (files.map (lines toJson)).flatten := by
  induction files with
  | nil => rfl
  | cons file files ih => rw [List.flatten_cons, lines_append, ih, List.map_cons, List.flatten_cons]

/-- The events of the current file, and those of the files before it, the newest first. -/
structure Segments where
  current : List ConnectionEvent
  older : List (List ConnectionEvent)

def Segments.logged (g : Segments) : List ConnectionEvent := g.older.reverse.flatten ++ g.current

def Segments.kept (k : Nat) (g : Segments) : List ConnectionEvent := (g.older.take k).reverse.flatten ++ g.current

def Segments.rotate (g : Segments) : Segments := ⟨[], g.current :: g.older⟩

theorem Segments.kept_suffix (k : Nat) (g : Segments) : g.kept k <:+ g.logged := by
  have holder : (g.older.take k).reverse <:+ g.older.reverse := List.reverse_suffix.mpr (List.take_prefix k g.older)
  obtain ⟨dropped, hdropped⟩ := holder
  refine ⟨dropped.flatten, ?_⟩
  rw [kept, logged, ← hdropped, List.flatten_append, List.append_assoc]

theorem Segments.logged_rotate (g : Segments) : g.rotate.logged = g.logged := by
  simp [rotate, logged]

def Represents (c : Settings) (s : FileConnectionLogger) (g : Segments) : Prop :=
  ∃ disk buffer, Holds c s disk buffer (g.older.map (lines toJson)) ∧ disk ++ buffer = lines toJson g.current

variable {toJson} {g : Segments}

theorem Represents.rotateIfNeeded (hpath : c.path.extension = "log") (hfiles : 1 ≤ c.maxFiles)
    (h : Represents toJson c s g) :
    ∃ s', rotateIfNeeded c s = (.ok (), s') ∧
      Represents toJson c s' (if rotates c s then g.rotate else g) := by
  obtain ⟨disk, buffer, hholds, hcurrent⟩ := h
  obtain ⟨s', heq, ⟨hrotates, hrotated⟩ | ⟨hrotates, disk', buffer', hkept, hsame⟩⟩ :=
    hholds.rotateIfNeeded hpath hfiles
  · refine ⟨s', heq, [], [], ?_, ?_⟩
    · rw [hcurrent] at hrotated
      rwa [if_pos hrotates]
    · rw [if_pos hrotates]
      rfl
  · refine ⟨s', heq, ?_⟩
    rw [hrotates]
    exact ⟨disk', buffer', hkept, hsame.trans hcurrent⟩

theorem Represents.writeEvent (hpath : c.path.extension = "log") (h : Represents toJson c s g)
    (event : ConnectionEvent) :
    ∃ s', writeEvent c toJson event s = (.ok (), s') ∧
      Represents toJson c s' ⟨g.current ++ [event], g.older⟩ := by
  obtain ⟨disk, buffer, hholds, hcurrent⟩ := h
  obtain ⟨disk₁, buffer₁, hfirst, -, htext⟩ := hholds.writeAll hpath (asBytes (toJson event))
  obtain ⟨disk₂, buffer₂, hsecond, -, hend⟩ := hfirst.writeAll hpath (asBytes "\n")
  refine ⟨_, writeEvent_eq hholds toJson event, disk₂, buffer₂, hsecond.pending _, ?_⟩
  rw [hend, htext, hcurrent, lines_append, lines_singleton, line, List.append_assoc]

theorem Represents.flush (hpath : c.path.extension = "log") (h : Represents toJson c s g) :
    ∃ s', flush c s = (.ok (), s') ∧ Represents toJson c s' g := by
  obtain ⟨disk, buffer, hholds, hcurrent⟩ := h
  obtain ⟨s', hflush, hflushed⟩ := hholds.flush hpath
  exact ⟨s', hflush, disk ++ buffer, [], hflushed, (List.append_nil _).trans hcurrent⟩

theorem Represents.log (hpath : c.path.extension = "log") (hfiles : 1 ≤ c.maxFiles) (h : Represents toJson c s g)
    (event : ConnectionEvent) :
    ∃ s', log c toJson event s = (.ok (), s') ∧
      Represents toJson c s' (if rotates c s then ⟨[event], g.current :: g.older⟩
        else ⟨g.current ++ [event], g.older⟩) := by
  obtain ⟨s₁, hrotate, hrotated⟩ := h.rotateIfNeeded hpath hfiles
  obtain ⟨s₂, hwrite, hwritten⟩ := hrotated.writeEvent hpath event
  have hsegments : (⟨(if rotates c s then g.rotate else g).current ++ [event],
      (if rotates c s then g.rotate else g).older⟩ : Segments) =
        if rotates c s then ⟨[event], g.current :: g.older⟩ else ⟨g.current ++ [event], g.older⟩ := by
    split <;> rfl
  rw [hsegments] at hwritten
  rw [FileLoggers.log, bind_ok hrotate, bind_ok hwrite, bind_apply, get_apply]
  dsimp only
  split
  · exact hwritten.flush hpath
  · exact ⟨s₂, rfl, hwritten⟩

end Events

section Runs

variable {c : Settings} {s : FileConnectionLogger} {toJson : ConnectionEvent → String} {g : Segments}

def events : Call → List ConnectionEvent
  | .log event => [event]
  | .flush | .cleanup => []

def contents (c : Settings) (s : FileConnectionLogger) : Bytes :=
  (s.files c.path.text).getD [] ++ s.writer.getD []

theorem Represents.contents_eq (h : Represents toJson c s g) : contents c s = lines toJson g.current := by
  obtain ⟨disk, buffer, hholds, hcurrent⟩ := h
  rw [contents, hholds.current, hholds.writer]
  exact hcurrent

theorem Represents.step (hpath : c.path.extension = "log") (hfiles : 1 ≤ c.maxFiles) (h : Represents toJson c s g)
    (call : Call) :
    ∃ g', Represents toJson c (step c toJson s call).2 g' ∧ g'.logged = g.logged ++ events call := by
  cases call with
  | log event =>
    obtain ⟨s', hlog, hrepresents⟩ := h.log hpath hfiles event
    rw [FileLoggers.step, hlog]
    refine ⟨_, hrepresents, ?_⟩
    split <;> simp [Segments.logged, events]
  | flush =>
    obtain ⟨s', hflush, hrepresents⟩ := h.flush hpath
    rw [FileLoggers.step, hflush]
    exact ⟨g, hrepresents, (List.append_nil _).symm⟩
  | cleanup =>
    obtain ⟨s', hrotate, hrepresents⟩ := h.rotateIfNeeded hpath hfiles
    rw [FileLoggers.step, cleanup, hrotate]
    refine ⟨_, hrepresents, ?_⟩
    split
    · rw [g.logged_rotate, events, List.append_nil]
    · exact (List.append_nil _).symm

theorem represents_exec (hpath : c.path.extension = "log") (hfiles : 1 ≤ c.maxFiles) (h : Represents toJson c s g)
    (calls : List Call) :
    ∃ g', Represents toJson c (exec (FileLoggers.step c toJson) s calls) g' ∧
      g'.logged = g.logged ++ calls.flatMap events := by
  induction calls generalizing s g with
  | nil => exact ⟨g, h, (List.append_nil _).symm⟩
  | cons call calls ih =>
    obtain ⟨g₁, hstep, hlogged⟩ := h.step hpath hfiles call
    obtain ⟨g₂, hrun, hrest⟩ := ih hstep
    refine ⟨g₂, hrun, ?_⟩
    rw [hrest, hlogged, List.flatMap_cons, List.append_assoc]

theorem holds_new (hpath : c.path.extension = "log") {files : Files String Bytes}
    (hempty : ∀ i, files (name c.path i) = none) : Holds c (FileConnectionLogger.new c files) [] [] [] := by
  have hnumbered : Numbered (name c.path) files [] := fun i => hempty i
  have hcreated := hnumbered.create (name_injective hpath) []
  refine ⟨rfl, ?_⟩
  rw [List.take_nil]
  exact hcreated

theorem represents_new (hpath : c.path.extension = "log") {files : Files String Bytes}
    (hempty : ∀ i, files (name c.path i) = none) :
    Represents toJson c (FileConnectionLogger.new c files) ⟨[], []⟩ := ⟨[], [], holds_new hpath hempty, rfl⟩

theorem Represents.retained (hfiles : 1 ≤ c.maxFiles) (h : Represents toJson c s g) :
    ∃ n ≤ c.maxFiles, (∀ i, (s.files (name c.path i)).isSome = true ↔ i < n) ∧
      readOut (name c.path) n s.files ++ s.writer.getD [] = lines toJson (g.kept (c.maxFiles - 1)) := by
  obtain ⟨disk, buffer, hholds, hcurrent⟩ := h
  refine ⟨_, ?_, hholds.files.isSome_iff, ?_⟩
  · rw [List.length_cons, List.length_take]
    omega
  · rw [hholds.files.readOut_eq, hholds.writer, Option.getD_some, List.reverse_cons, List.flatten_append,
      List.flatten_singleton, List.append_assoc, hcurrent, Segments.kept, lines_append, lines_flatten,
      List.map_reverse, List.map_take]

theorem Represents.fresh_iff (hpath : c.path.extension = "log") (hfiles : 1 ≤ c.maxFiles) (hsize : 0 < c.maxSize)
    (h : Represents toJson c s g) (event : ConnectionEvent) :
    (c.maxSize ≤ (contents c s).length → contents c (FileLoggers.step c toJson s (.log event)).2 = line toJson event) ↔
      ((contents c s).length < c.maxSize ∨ rotates c s = true) := by
  obtain ⟨s', hlog, hrepresents⟩ := h.log hpath hfiles event
  rw [FileLoggers.step, hlog, hrepresents.contents_eq, h.contents_eq]
  cases hrotates : rotates c s with
  | true =>
    exact iff_of_true (fun _ => lines_singleton toJson event) (.inr rfl)
  | false =>
    constructor
    · intro hfresh
      refine .inl (Nat.lt_of_not_le fun hlarge => ?_)
      have hboth : lines toJson (g.current ++ [event]) = line toJson event := hfresh hlarge
      have hlength := congrArg List.length hboth
      rw [lines_append, lines_singleton, List.length_append] at hlength
      omega
    · rintro (hsmall | hfalse)
      · exact fun hlarge => absurd hlarge (Nat.not_le.mpr hsmall)
      · cases hfalse

end Runs

theorem one_le_maxFiles (path : PathBuf) (maxSize maxFiles : Nat) (secureDelete : Bool) :
    1 ≤ (Settings.new path maxSize maxFiles secureDelete).maxFiles := Nat.le_max_right maxFiles 1

theorem maxSize_pos (path : PathBuf) (maxSize maxFiles : Nat) (secureDelete : Bool) :
    0 < (Settings.new path maxSize maxFiles secureDelete).maxSize :=
  Nat.lt_of_lt_of_le (by decide) (Nat.le_max_right maxSize (1024 * 1024))

/-- After every run of a new logger there are at most as many files as are to be
kept, and read from the highest number to the current file and the buffer they
hold the end of what was logged. A call that finds the current file too large
leaves its event alone in there if and only if the size on the disk is too large
as well, and more than one file is to be kept. -/
theorem log_rotation_iff (toJson : ConnectionEvent → String) {path : PathBuf} (hpath : path.extension = "log")
    (maxSize maxFiles : Nat) (secureDelete : Bool) {files : Files String Bytes}
    (hempty : ∀ i, files (name path i) = none) (calls : List Call) :
    let c := Settings.new path maxSize maxFiles secureDelete
    let s := exec (step c toJson) (FileConnectionLogger.new c files) calls
    (∃ n ≤ c.maxFiles, (∀ i, (s.files (name path i)).isSome = true ↔ i < n) ∧
      ∃ kept, kept <:+ calls.flatMap events ∧
        readOut (name path) n s.files ++ s.writer.getD [] = lines toJson kept) ∧
    ∀ event,
      (c.maxSize ≤ (contents c s).length → contents c (step c toJson s (.log event)).2 = line toJson event) ↔
        ((contents c s).length < c.maxSize ∨
          (c.maxSize ≤ ((s.files path.text).getD []).length ∧ 2 ≤ c.maxFiles)) := by
  intro c s
  have hfiles : 1 ≤ c.maxFiles := one_le_maxFiles path maxSize maxFiles secureDelete
  have hnew : Represents toJson c (FileConnectionLogger.new c files) ⟨[], []⟩ := represents_new hpath hempty
  obtain ⟨g, hrepresents, hlogged⟩ := represents_exec (c := c) hpath hfiles hnew calls
  constructor
  · obtain ⟨n, hn, hnumbers, hread⟩ := hrepresents.retained hfiles
    refine ⟨n, hn, hnumbers, _, ?_, hread⟩
    have hsuffix := g.kept_suffix (c.maxFiles - 1)
    rwa [hlogged] at hsuffix
  · intro event
    have hfresh := hrepresents.fresh_iff hpath hfiles (maxSize_pos path maxSize maxFiles secureDelete) event
    rwa [rotates_iff] at hfresh

section LongTexts

theorem Holds.log_large {c : Settings} {s : FileConnectionLogger} {disk buffer : Bytes} {older : List Bytes}
    (hpath : c.path.extension = "log") (h : Holds c s disk buffer older) (hsmall : disk.length < c.maxSize)
    (toJson : ConnectionEvent → String) {event : ConnectionEvent}
    (hlarge : capacity ≤ (asBytes (toJson event)).length) :
    ∃ disk' buffer', Holds c (log c toJson event s).2 disk' buffer' older ∧
      (asBytes (toJson event)).length ≤ disk'.length := by
  have hrotate : FileLoggers.rotateIfNeeded c s = (.ok (), s) := by
    rw [rotateIfNeeded_eq h.current, if_pos hsmall]
  obtain ⟨disk', buffer', hend, hpre, -⟩ := (h.writeAll_large hpath hlarge).writeAll hpath (asBytes "\n")
  have hlength : (asBytes (toJson event)).length ≤ disk'.length := by
    refine Nat.le_trans ?_ hpre.length_le
    rw [List.length_append]
    omega
  rw [log, bind_ok hrotate, bind_ok (writeEvent_eq h toJson event), bind_apply, get_apply]
  dsimp only
  split
  · obtain ⟨s', hflush, hflushed⟩ := (hend.pending _).flush hpath
    refine ⟨disk' ++ buffer', [], ?_, ?_⟩
    · rw [hflush]
      exact hflushed
    · rw [List.length_append]
      omega
  · exact ⟨disk', buffer', hend.pending _, hlength⟩

def longText (n : Nat) (_ : ConnectionEvent) : String := String.ofList (List.replicate n 'x')

theorem length_longText (n : Nat) (event : ConnectionEvent) : (asBytes (longText n event)).length = n := by
  have hone : (String.utf8EncodeChar 'x').length = 1 := by decide
  rw [longText, asBytes_eq, String.toList_ofList, List.length_flatMap, List.map_replicate, List.sum_replicate, hone,
    smul_eq_mul, Nat.mul_one]

theorem large_of_longText {c : Settings} (hpath : c.path.extension = "log") (hsize : 0 < c.maxSize) {n : Nat}
    (hn : c.maxSize ≤ n) (hlarge : capacity ≤ n) {event : ConnectionEvent} {s : FileConnectionLogger}
    (hs : s = exec (step c (longText n)) (FileConnectionLogger.new c fun _ => none) [.log event]) :
    c.maxSize ≤ ((s.files c.path.text).getD []).length ∧ c.maxSize ≤ (contents c s).length := by
  have hnew : Holds c (FileConnectionLogger.new c fun _ => none) [] [] [] := holds_new hpath fun _ => rfl
  have hlong : capacity ≤ (asBytes (longText n event)).length := by rwa [length_longText]
  obtain ⟨disk, buffer, hholds, hdisk⟩ := hnew.log_large hpath hsize (longText n) hlong
  have hcurrent : s.files c.path.text = some disk := hs ▸ hholds.current
  rw [length_longText] at hdisk
  rw [contents, hcurrent, Option.getD_some, List.length_append]
  exact ⟨hn.trans hdisk, Nat.le_add_right_of_le (hn.trans hdisk)⟩

def megabyte : Nat := 1024 * 1024

/-- The second event finds a megabyte in the file and comes into a new one. -/
theorem log_rotation_two_events :
    let path : PathBuf := ⟨"connections", "log"⟩
    let attempt : ConnectionEvent := .connectionAttempt 0 0 (.v4 0 0) none
    let c := Settings.new path 0 2 true
    let s := exec (step c (longText megabyte)) (FileConnectionLogger.new c fun _ => none) [.log attempt]
    let s' := (step c (longText megabyte) s (.log attempt)).2
    c.maxSize ≤ (contents c s).length ∧ contents c s' = line (longText megabyte) attempt ∧
      ∃ n ≤ 2, (∀ i, (s'.files (name path i)).isSome = true ↔ i < n) ∧
        ∃ kept, kept <:+ [attempt, attempt] ∧
          readOut (name path) n s'.files ++ s'.writer.getD [] = lines (longText megabyte) kept := by
  intro path attempt c s s'
  have hruns := @log_rotation_iff (longText megabyte) path rfl 0 2 true (fun _ => none) fun _ => rfl
  have hc : c = Settings.new path 0 2 true := rfl
  have hpath : c.path.extension = "log" := rfl
  have hfiles : c.maxFiles = 2 := rfl
  have hpos : 0 < c.maxSize := by decide
  have hmax : c.maxSize ≤ megabyte := by decide
  have hcapacity : capacity ≤ megabyte := by decide
  have htext : c.path.text = path.text := rfl
  -- From here on the settings are a variable, so that no run is evaluated.
  rw [← hc] at hruns
  clear_value c
  have hs : s = exec (step c (longText megabyte)) (FileConnectionLogger.new c fun _ => none) [.log attempt] := rfl
  have hs' : s' = exec (step c (longText megabyte)) (FileConnectionLogger.new c fun _ => none)
      ([.log attempt] ++ [.log attempt]) := by
    rw [exec_append, ← hs, exec_cons, exec_nil]
  obtain ⟨hdisk, hsize⟩ := large_of_longText hpath hpos hmax hcapacity hs
  rw [htext] at hdisk
  refine ⟨hsize, ((hruns [.log attempt]).2 attempt).mpr (.inr ⟨hdisk, hfiles.ge⟩) hsize, ?_⟩
  rw [hs', ← hfiles]
  exact (hruns ([.log attempt] ++ [.log attempt])).1

theorem unrotated {c : Settings} (hpath : c.path.extension = "log") (hone : c.maxFiles = 1) {n : Nat}
    (hsize : 0 < c.maxSize) (hn : c.maxSize ≤ n) (hlarge : capacity ≤ n) {event : ConnectionEvent}
    {s : FileConnectionLogger}
    (hs : s = exec (step c (longText n)) (FileConnectionLogger.new c fun _ => none) [.log event]) :
    c.maxSize ≤ ((s.files c.path.text).getD []).length ∧
      contents c (step c (longText n) s (.log event)).2 = line (longText n) event ++ line (longText n) event := by
  have hfiles : 1 ≤ c.maxFiles := Nat.le_of_eq hone.symm
  have hnever : ∀ s, rotates c s = false := by
    intro s
    rw [rotates, hone]
    exact Bool.and_false _
  have hnew : Holds c (FileConnectionLogger.new c fun _ => none) [] [] [] := holds_new hpath fun _ => rfl
  have hempty : Represents (longText n) c (FileConnectionLogger.new c fun _ => none) ⟨[], []⟩ := ⟨[], [], hnew, rfl⟩
  obtain ⟨s₁, hfirst, hlogged⟩ := hempty.log hpath hfiles event
  rw [hnever] at hlogged
  obtain ⟨s₂, hsecond, hagain⟩ := hlogged.log hpath hfiles event
  rw [hnever] at hagain
  have hs₁ : s = s₁ := hs.trans (congrArg Prod.snd hfirst)
  refine ⟨(large_of_longText hpath hsize hn hlarge hs).1, ?_⟩
  rw [hs₁, step, hsecond, hagain.contents_eq]
  change lines (longText n) ([event] ++ [event]) = _
  rw [lines_append, lines_singleton]

def singleFile : Settings := Settings.new ⟨"connections", "log"⟩ 0 1 false

/-- With one file to be kept, the second call finds the file too large, on the
disk and with the buffer, and still adds to it. -/
theorem single_file_never_rotated :
    let attempt : ConnectionEvent := .connectionAttempt 0 0 (.v4 0 0) none
    let s := exec (step singleFile (longText megabyte)) (FileConnectionLogger.new singleFile fun _ => none)
      [.log attempt]
    let s' := (step singleFile (longText megabyte) s (.log attempt)).2
    singleFile.maxSize ≤ ((s.files singleFile.path.text).getD []).length ∧
      contents singleFile s' = line (longText megabyte) attempt ++ line (longText megabyte) attempt ∧
      contents singleFile s' ≠ line (longText megabyte) attempt := by
  intro attempt s s'
  have hs : s = exec (step singleFile (longText megabyte)) (FileConnectionLogger.new singleFile fun _ => none)
    [.log attempt] := rfl
  obtain ⟨hsize, hcontents⟩ := unrotated rfl rfl (by decide) (by decide) (by decide) hs
  refine ⟨hsize, hcontents, fun hline => ?_⟩
  exact line_append_ne (longText megabyte) attempt (hcontents.symm.trans hline)

end LongTexts

end CoreVpn.ConnectionLog.LogRotation
