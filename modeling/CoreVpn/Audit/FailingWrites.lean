import CoreVpn.Audit.Backups

namespace CoreVpn.Audit.FailingWrites

open Lib.Computation Lib.Wire Lib.Text Lib.Rotation FileSinks Backups

variable {E ε : Type}

section Operations

structure SyncedConfig extends FileConfig where
  syncWrites : Bool

/-- What becomes of the operations of one call on the files: the errors of those that
fail, which files can be renamed, and how many bytes of a line are written before an
error comes up. A line of no more bytes than that is written. -/
structure Faults (ε : Type) where
  closing : Option ε := none
  renames : Nat → Bool := fun _ => true
  leaving : Option ε := none
  opening : Option ε := none
  metadata : Option ε := none
  writing : Nat → Option (Nat × ε) := fun _ => none
  syncing : Option ε := none
  flushing : Option ε := none

/-- The sink, and what the call at hand has put at the end of its file. -/
structure Attempt where
  sink : FileSink
  appended : Bytes

variable (c : SyncedConfig) (now : Surroundings) (faults : Faults ε)

def result (fault : Option ε) : Outcome ε Unit := fault.elim (.ok ()) fun e => .error (.error e)

def change (f : FileSink → FileSink) : Program Attempt ε Unit := modify fun a => { a with sink := f a.sink }

def flushOpen (fault : Option ε) : Program Attempt ε Unit := do
  let a ← get
  lift (if a.sink.isOpen then result fault else .ok ())

/-- A backup whose renaming fails keeps its number. -/
def renameBackups (path : String) (renames : Nat → Bool) : Nat → Files String Bytes → Files String Bytes
  | 0, files => files
  | i + 1, files =>
    renameBackups path renames i
      (if renames (i + 1) then rename (backup path (i + 1)) (backup path (i + 2)) files else files)

def rotate : Program Attempt ε Unit := do
  flushOpen faults.closing
  change fun s =>
    let files := renameBackups s.currentPath faults.renames (c.maxFiles - 1) s.files
    { s with
      files := if faults.renames 0 then rename s.currentPath (backup s.currentPath 1) files else files
      isOpen := false
      currentSize := 0 }

def followPath : Program Attempt ε Unit := do
  let a ← get
  if a.sink.currentPath ≠ resolvePath now c.path then
    flushOpen faults.leaving
    change (FileSinks.followPath c.toFileConfig now)
  else pure ()

def openFile : Program Attempt ε Unit := do
  let a ← get
  if a.sink.isOpen then pure ()
  else
    lift (result faults.opening)
    change fun s => { s with files := create s.currentPath [] s.files }
    lift (result faults.metadata)
    change FileSinks.openFile

def getOrOpenFile : Program Attempt ε Unit := do
  followPath c now faults
  openFile faults

def append (data : Bytes) : Program Attempt ε Unit := modify fun a =>
  { sink := { a.sink with
      files := Function.update a.sink.files a.sink.currentPath
        (some ((a.sink.files a.sink.currentPath).getD [] ++ data)) }
    appended := a.appended ++ data }

/-- The size counts only lines that were written. -/
def writeAll (fault : Option (Nat × ε)) (line : String) : Program Attempt ε Unit := do
  match fault.filter fun fault => fault.1 < (asBytes line).length with
  | some (n, e) =>
    append ((asBytes line).take n)
    fail e
  | none =>
    append (asBytes line)
    change fun s => { s with currentSize := s.currentSize + (asBytes line).length }

def writeEach (writing : Nat → Option (Nat × ε)) : Nat → List String → Program Attempt ε Unit
  | _, [] => pure ()
  | i, line :: lines => do
    writeAll (writing i) line
    writeEach writing (i + 1) lines

def rotateIfDue : Program Attempt ε Unit := do
  let a ← get
  if checkRotation c.toFileConfig a.sink then rotate c faults else pure ()

def readyFile : Program Attempt ε Unit := do
  rotateIfDue c faults
  getOrOpenFile c now faults

def writeOpen (lines : List String) : Program Attempt ε Unit := do
  let a ← get
  if a.sink.isOpen then
    writeEach faults.writing 0 lines
    lift (if c.syncWrites then result faults.syncing else .ok ())
  else pure ()

def writeLines (lines : List String) : Program Attempt ε Unit :=
  if lines.isEmpty then pure ()
  else do
    readyFile c now faults
    writeOpen c faults lines

/-- The buffer is empty from here on, whatever becomes of the lines. -/
def takeBuffer : Program Attempt ε (List String) := do
  let a ← get
  change fun s => { s with buffer := [] }
  return a.sink.buffer

def send (encode : E → Except ε String) (event : E) : Program Attempt ε Unit := do
  match encode event with
  | .error e => fail e
  | .ok line =>
    change fun s => { s with buffer := s.buffer ++ [line] }
    let a ← get
    if a.sink.buffer.length ≥ c.bufferSize then
      let lines ← takeBuffer
      writeLines c now faults lines
    else pure ()

def flush : Program Attempt ε Unit := do
  let lines ← takeBuffer
  writeLines c now faults lines
  flushOpen faults.flushing

def step (encode : E → Except ε String) (s : FileSink) : Call E → Outcome ε Unit × Attempt
  | .send now event => send c now faults encode event ⟨s, []⟩
  | .flush now => flush c now faults ⟨s, []⟩

variable {c faults} {encode : E → Except ε String} {event : E} {s : FileSink}

theorem send_of_error {e : ε} (hencode : encode event = .error e) (a : Attempt) :
    send c now faults encode event a = (.error (.error e), a) := by
  rw [send, hencode]
  rfl

theorem send_of_not_full {line : String} (hencode : encode event = .ok line)
    (hfull : s.buffer.length + 1 < c.bufferSize) :
    send c now faults encode event ⟨s, []⟩ = (.ok (), ⟨{ s with buffer := s.buffer ++ [line] }, []⟩) := by
  have hpush : change (fun s => { s with buffer := s.buffer ++ [line] }) ⟨s, []⟩ =
      ((.ok (), ⟨{ s with buffer := s.buffer ++ [line] }, []⟩) : Outcome ε Unit × Attempt) := rfl
  rw [send, hencode]
  dsimp only
  rw [bind_ok hpush, bind_ok (get_apply _), List.length_append, List.length_singleton, if_neg (not_le.mpr hfull)]
  rfl

theorem send_of_full {line : String} (hencode : encode event = .ok line)
    (hfull : c.bufferSize ≤ s.buffer.length + 1) :
    send c now faults encode event ⟨s, []⟩ =
      writeLines c now faults (s.buffer ++ [line]) ⟨{ s with buffer := [] }, []⟩ := by
  have hpush : change (fun s => { s with buffer := s.buffer ++ [line] }) ⟨s, []⟩ =
      ((.ok (), ⟨{ s with buffer := s.buffer ++ [line] }, []⟩) : Outcome ε Unit × Attempt) := rfl
  have htake : takeBuffer ⟨{ s with buffer := s.buffer ++ [line] }, []⟩ =
      ((.ok (s.buffer ++ [line]), ⟨{ s with buffer := [] }, []⟩) : Outcome ε (List String) × Attempt) := rfl
  rw [send, hencode]
  dsimp only
  rw [bind_ok hpush, bind_ok (get_apply _), List.length_append, List.length_singleton, if_pos hfull, bind_ok htake]

theorem flush_eq (s : FileSink) : flush c now faults ⟨s, []⟩ =
    (writeLines c now faults s.buffer >>= fun _ => flushOpen faults.flushing) ⟨{ s with buffer := [] }, []⟩ := by
  have htake : takeBuffer ⟨s, []⟩ =
      ((.ok s.buffer, ⟨{ s with buffer := [] }, []⟩) : Outcome ε (List String) × Attempt) := rfl
  rw [flush, bind_ok htake]

end Operations

section Undisturbed

variable (c : SyncedConfig) (now : Surroundings)

def noFaults : Faults ε := {}

theorem renameBackups_all (path : String) (k : Nat) (files : Files String Bytes) :
    renameBackups path (fun _ => true) k files = FileSinks.renameBackups path k files := by
  induction k generalizing files with
  | zero => rfl
  | succ k ih =>
    rw [renameBackups, if_pos rfl, ih]
    rfl

theorem flushOpen_none (a : Attempt) : flushOpen (none : Option ε) a = (.ok (), a) := by
  have hflush : flushOpen (none : Option ε) a = (if a.sink.isOpen then .ok () else .ok (), a) := rfl
  rw [hflush, ite_self]

theorem rotateIfDue_noFaults (a : Attempt) : rotateIfDue c (noFaults : Faults ε) a =
    (.ok (), { a with sink :=
      if checkRotation c.toFileConfig a.sink then FileSinks.rotate c.toFileConfig a.sink else a.sink }) := by
  have hrotate : rotate c (noFaults : Faults ε) a =
      (.ok (), { a with sink := FileSinks.rotate c.toFileConfig a.sink }) := by
    have hclosing : flushOpen (noFaults : Faults ε).closing a = (.ok (), a) := flushOpen_none a
    rw [rotate, bind_ok hclosing, change, modify_apply]
    simp only [noFaults, renameBackups_all, FileSinks.rotate, if_pos]
  rw [rotateIfDue, bind_ok (get_apply a)]
  split
  · exact hrotate
  · rfl

theorem getOrOpenFile_noFaults (a : Attempt) : getOrOpenFile c now (noFaults : Faults ε) a =
    (.ok (), { a with sink := FileSinks.getOrOpenFile c.toFileConfig now a.sink }) := by
  have hfollow : followPath c now (noFaults : Faults ε) a =
      (.ok (), { a with sink := FileSinks.followPath c.toFileConfig now a.sink }) := by
    have hleaving : flushOpen (noFaults : Faults ε).leaving a = (.ok (), a) := flushOpen_none a
    rw [followPath, bind_ok (get_apply a)]
    split
    · rw [bind_ok hleaving]
      rfl
    · rename_i hsame
      rw [FileSinks.followPath, if_neg hsame]
      rfl
  have hopen : ∀ b : Attempt, openFile (noFaults : Faults ε) b =
      (.ok (), { b with sink := FileSinks.openFile b.sink }) := by
    intro b
    rw [openFile, bind_ok (get_apply b)]
    split
    · rename_i hopen
      rw [FileSinks.openFile, if_pos hopen]
      rfl
    · rename_i hopen
      have hcreate : ∀ files : Files String Bytes, create b.sink.currentPath [] (create b.sink.currentPath [] files) =
          create b.sink.currentPath [] files := by
        intro files
        unfold create
        cases hfile : files b.sink.currentPath with
        | none => simp
        | some contents => simp [hfile]
      simp [bind_apply, noFaults, result, change, FileSinks.openFile, hopen, hcreate]
  rw [getOrOpenFile, bind_ok hfollow, hopen, FileSinks.getOrOpenFile]

theorem writeEach_noFaults (i : Nat) (lines : List String) (a : Attempt) :
    writeEach (noFaults : Faults ε).writing i lines a =
      (.ok (), { sink := lines.foldl writeLine a.sink, appended := a.appended ++ text lines }) := by
  induction lines generalizing i a with
  | nil => simp [writeEach, text]
  | cons line lines ih =>
    have hline : writeAll ((noFaults : Faults ε).writing i) line a =
        (.ok (), { sink := writeLine a.sink line, appended := a.appended ++ asBytes line }) := rfl
    rw [writeEach, bind_ok hline, ih]
    simp [text]

theorem isOpen_getOrOpenFile (s : FileSink) : (FileSinks.getOrOpenFile c.toFileConfig now s).isOpen = true := by
  unfold FileSinks.getOrOpenFile FileSinks.openFile
  split
  · assumption
  · rfl

theorem writeLines_noFaults (lines : List String) (a : Attempt) :
    writeLines c now (noFaults : Faults ε) lines a =
      (.ok (), { sink := FileSinks.writeLines c.toFileConfig now lines a.sink,
                 appended := a.appended ++ text lines }) := by
  rw [writeLines, FileSinks.writeLines]
  by_cases hempty : lines.isEmpty = true
  · rw [if_pos hempty, if_pos hempty, List.isEmpty_iff.mp hempty, text, List.flatMap_nil, List.append_nil]
    rfl
  · have hready : readyFile c now (noFaults : Faults ε) a = (.ok (), ⟨FileSinks.getOrOpenFile c.toFileConfig now
        (if checkRotation c.toFileConfig a.sink then FileSinks.rotate c.toFileConfig a.sink else a.sink),
        a.appended⟩) := by
      rw [readyFile, bind_ok (rotateIfDue_noFaults c a), getOrOpenFile_noFaults]
    rw [if_neg hempty, if_neg hempty, bind_ok hready, writeOpen, bind_ok (get_apply _),
      if_pos (isOpen_getOrOpenFile c now _), bind_ok (writeEach_noFaults 0 lines _)]
    have hsync : (if c.syncWrites then result (noFaults : Faults ε).syncing else .ok ()) = .ok () := ite_self _
    rw [lift_apply, hsync]

/-- Where nothing fails, the calls do what they do on files that never fail. -/
theorem step_noFaults (encode : E → Except ε String) (s : FileSink) (call : Call E) :
    (step c noFaults encode s call).1 = (FileSinks.step c.toFileConfig encode s call).1 ∧
      (step c noFaults encode s call).2.sink = (FileSinks.step c.toFileConfig encode s call).2 := by
  cases call with
  | send now event =>
    rw [step, FileSinks.step]
    cases hencode : encode event with
    | error e =>
      rw [send_of_error now hencode, FileSinks.send, hencode]
      exact ⟨rfl, rfl⟩
    | ok line =>
      rw [Backups.send_of_ok hencode]
      dsimp only
      by_cases hfull : s.buffer.length + 1 ≥ c.bufferSize
      · rw [send_of_full now hencode hfull, writeLines_noFaults, if_pos hfull]
        exact ⟨rfl, rfl⟩
      · rw [send_of_not_full now hencode (not_le.mp hfull), if_neg hfull]
        exact ⟨rfl, rfl⟩
  | flush now =>
    have hlast : ∀ a : Attempt, flushOpen (noFaults : Faults ε).flushing a = (.ok (), a) := flushOpen_none
    rw [step, flush_eq, bind_ok (writeLines_noFaults c now _ _), hlast]
    exact ⟨rfl, rfl⟩

end Undisturbed

section Lines

variable {c : SyncedConfig} {now : Surroundings} {faults : Faults ε} {a : Attempt}

def Tail (a : Attempt) : Prop := a.appended <:+ (a.sink.files a.sink.currentPath).getD []

/-- Between two moments of a call, lines may have been written, but not been buffered. -/
structure Grows (a b : Attempt) : Prop where
  buffer : b.sink.buffer = a.sink.buffer
  appended : a.appended <+: b.appended
  tail : Tail a → Tail b

instance : IsPreorder Attempt Grows where
  refl _ := ⟨rfl, List.prefix_rfl, id⟩
  trans _ _ _ hab hbd := ⟨hbd.buffer.trans hab.buffer, hab.appended.trans hbd.appended, hbd.tail ∘ hab.tail⟩

theorem grows_append (data : Bytes) : Frames Grows (append data : Program Attempt ε Unit) := by
  refine frames_modify fun a => ⟨rfl, List.prefix_append _ _, fun h => ?_⟩
  dsimp only [Tail]
  rw [Function.update_self, Option.getD_some]
  exact (List.suffix_append_inj_of_length_eq rfl).mpr ⟨h, rfl⟩

theorem writeAll_of_le {fault : Option (Nat × ε)} {line : String}
    (h : ∀ f ∈ fault, (asBytes line).length ≤ f.1) (a : Attempt) : writeAll fault line a =
      (.ok (), { sink := writeLine a.sink line, appended := a.appended ++ asBytes line }) := by
  have hfilter : (fault.filter fun f => f.1 < (asBytes line).length) = none := by
    rw [Option.filter_eq_none_iff]
    intro f hf
    simpa using h f hf
  rw [writeAll, hfilter]
  rfl

theorem writeAll_of_lt {fault : Option (Nat × ε)} {line : String} (h : ∃ f ∈ fault, f.1 < (asBytes line).length)
    (a : Attempt) : ∃ e n, n < (asBytes line).length ∧
      writeAll fault line a = (.error (.error e), (append ((asBytes line).take n) a : Outcome ε Unit × Attempt).2) := by
  obtain ⟨⟨n, e⟩, hfault, hlt⟩ := h
  have hfilter : (fault.filter fun f => f.1 < (asBytes line).length) = some (n, e) := by
    rw [Option.filter_eq_some_iff]
    exact ⟨hfault, decide_eq_true hlt⟩
  refine ⟨e, n, hlt, ?_⟩
  rw [writeAll, hfilter]
  rfl

theorem grows_writeAll (fault : Option (Nat × ε)) (line : String) : Frames Grows (writeAll fault line) := by
  intro a
  by_cases h : ∃ f ∈ fault, f.1 < (asBytes line).length
  · obtain ⟨e, n, -, hrun⟩ := writeAll_of_lt h a
    rw [hrun]
    exact grows_append (ε := ε) _ a
  · push Not at h
    have hgrows := grows_append (ε := ε) (asBytes line) a
    rw [writeAll_of_le h]
    exact ⟨hgrows.buffer, hgrows.appended, hgrows.tail⟩

theorem grows_writeEach (writing : Nat → Option (Nat × ε)) (i : Nat) (lines : List String) :
    Frames Grows (writeEach writing i lines) := by
  induction lines generalizing i with
  | nil => exact frames_pure ()
  | cons line lines ih => exact frames_bind (grows_writeAll _ line) fun _ => ih (i + 1)

/-- The lines are written without an error, the first of them by the operation with the number `i`. -/
def Spared (writing : Nat → Option (Nat × ε)) : Nat → List String → Prop
  | _, [] => True
  | i, line :: lines => (∀ f ∈ writing i, (asBytes line).length ≤ f.1) ∧ Spared writing (i + 1) lines

theorem writeEach_of_spared {writing : Nat → Option (Nat × ε)} {i : Nat} {earlier : List String}
    (h : Spared writing i earlier) (rest : List String) (a : Attempt) :
    a.appended ++ text earlier <+: (writeEach writing i (earlier ++ rest) a).2.appended := by
  induction earlier generalizing i a with
  | nil =>
    rw [text, List.flatMap_nil, List.append_nil]
    exact (grows_writeEach writing i rest a).appended
  | cons line earlier ih =>
    have hrest := ih h.2 { sink := writeLine a.sink line, appended := a.appended ++ asBytes line }
    rw [List.cons_append, writeEach, bind_ok (writeAll_of_le h.1 a)]
    rwa [List.append_assoc] at hrest

theorem writeEach_of_not_spared {writing : Nat → Option (Nat × ε)} {i : Nat} {earlier : List String}
    (h : ¬ Spared writing i earlier) (rest : List String) (a : Attempt) :
    ¬ Succeeds (writeEach writing i (earlier ++ rest)) a ∧
      (writeEach writing i (earlier ++ rest) a).2.appended.length < (a.appended ++ text earlier).length := by
  induction earlier generalizing i a with
  | nil => exact absurd trivial h
  | cons line earlier ih =>
    have htext : text (line :: earlier) = asBytes line ++ text earlier := List.flatMap_cons
    rw [List.cons_append, writeEach]
    by_cases hline : ∃ f ∈ writing i, f.1 < (asBytes line).length
    · obtain ⟨e, n, hlt, hrun⟩ := writeAll_of_lt hline a
      rw [bind_error hrun]
      refine ⟨?_, ?_⟩
      · rintro ⟨u, t, hok⟩
        rw [bind_error hrun] at hok
        cases hok
      · have happended : (append ((asBytes line).take n) a : Outcome ε Unit × Attempt).2.appended =
            a.appended ++ (asBytes line).take n := rfl
        dsimp only
        rw [happended, htext, List.length_append, List.length_append, List.length_append, List.length_take]
        omega
    · push Not at hline
      have hearlier : ¬ Spared writing (i + 1) earlier := fun hspared => h ⟨hline, hspared⟩
      obtain ⟨hfails, hlength⟩ :=
        ih hearlier { sink := writeLine a.sink line, appended := a.appended ++ asBytes line }
      rw [bind_ok (writeAll_of_le hline a), htext, ← List.append_assoc]
      refine ⟨?_, hlength⟩
      rintro ⟨u, t, hok⟩
      rw [bind_ok (writeAll_of_le hline a)] at hok
      exact hfails ⟨u, t, hok⟩

end Lines

section Opening

variable {c : SyncedConfig} {now : Surroundings} {faults : Faults ε} {a : Attempt}

structure Untouched (a b : Attempt) : Prop where
  buffer : b.sink.buffer = a.sink.buffer
  appended : b.appended = a.appended

instance : IsPreorder Attempt Untouched where
  refl _ := ⟨rfl, rfl⟩
  trans _ _ _ hab hbd := ⟨hbd.buffer.trans hab.buffer, hbd.appended.trans hab.appended⟩

theorem untouched_change {f : FileSink → FileSink} (h : ∀ s, (f s).buffer = s.buffer) :
    Frames Untouched (change f : Program Attempt ε Unit) := frames_modify fun a => ⟨h a.sink, rfl⟩

theorem untouched_flushOpen (fault : Option ε) : Frames Untouched (flushOpen fault) :=
  frames_bind frames_get fun _ => frames_lift _

theorem untouched_rotateIfDue (c : SyncedConfig) (faults : Faults ε) : Frames Untouched (rotateIfDue c faults) := by
  refine frames_bind frames_get fun a => ?_
  split
  · exact frames_bind (untouched_flushOpen _) fun _ => untouched_change fun _ => rfl
  · exact frames_pure ()

theorem untouched_getOrOpenFile (c : SyncedConfig) (now : Surroundings) (faults : Faults ε) :
    Frames Untouched (getOrOpenFile c now faults) := by
  have hfollow : ∀ s, (FileSinks.followPath c.toFileConfig now s).buffer = s.buffer := by
    intro s
    unfold FileSinks.followPath
    dsimp only
    split <;> rfl
  have hopen : ∀ s, (FileSinks.openFile s).buffer = s.buffer := by
    intro s
    unfold FileSinks.openFile
    dsimp only
    split <;> rfl
  refine frames_bind (frames_bind frames_get fun a => ?_) fun _ => frames_bind frames_get fun a => ?_
  · split
    · exact frames_bind (untouched_flushOpen _) fun _ => untouched_change hfollow
    · exact frames_pure ()
  · split
    · exact frames_pure ()
    · exact frames_bind (frames_lift _) fun _ => frames_bind (untouched_change fun _ => rfl) fun _ =>
        frames_bind (frames_lift _) fun _ => untouched_change hopen

/-- The operations that come before the writing of the lines succeed, as far as the
state of the sink calls for them. -/
structure Opens (c : SyncedConfig) (now : Surroundings) (faults : Faults ε) (s : FileSink) : Prop where
  closing : checkRotation c.toFileConfig s = true → s.isOpen = true → faults.closing = none
  leaving : checkRotation c.toFileConfig s = false → s.isOpen = true →
    s.currentPath ≠ resolvePath now c.path → faults.leaving = none
  opening : checkRotation c.toFileConfig s = true ∨ s.isOpen = false ∨ s.currentPath ≠ resolvePath now c.path →
    faults.opening = none ∧ faults.metadata = none

theorem succeeds_result {fault : Option ε} : Succeeds (lift (result fault)) a ↔ fault = none := by
  cases fault with
  | none => exact iff_of_true ⟨(), a, rfl⟩ rfl
  | some e =>
    refine iff_of_false ?_ (Option.some_ne_none e)
    rintro ⟨u, t, hok⟩
    cases hok

theorem succeeds_flushOpen {fault : Option ε} :
    Succeeds (flushOpen fault) a ↔ (a.sink.isOpen = true → fault = none) := by
  have hrun : flushOpen fault a = lift (if a.sink.isOpen then result fault else .ok ()) a := rfl
  unfold Succeeds
  rw [hrun]
  by_cases hopen : a.sink.isOpen = true
  · rw [if_pos hopen, forall_prop_of_true hopen]
    exact succeeds_result
  · rw [if_neg hopen]
    exact iff_of_true ⟨(), a, rfl⟩ fun h => absurd h hopen

theorem succeeds_change (f : FileSink → FileSink) : Succeeds (change f : Program Attempt ε Unit) a := ⟨(), _, rfl⟩

theorem succeeds_rotateIfDue : Succeeds (rotateIfDue c faults) a ↔
    (checkRotation c.toFileConfig a.sink = true → a.sink.isOpen = true → faults.closing = none) := by
  rw [rotateIfDue, succeeds_get_bind]
  by_cases hdue : checkRotation c.toFileConfig a.sink = true
  · rw [if_pos hdue, forall_prop_of_true hdue, rotate, succeeds_bind_iff, succeeds_flushOpen,
      and_iff_left (succeeds_change _)]
  · rw [if_neg hdue]
    exact iff_of_true ⟨(), a, rfl⟩ fun h => absurd h hdue

theorem rotateIfDue_state (h : Succeeds (rotateIfDue c faults) a) :
    (rotateIfDue c faults a).2.sink.isOpen = (a.sink.isOpen && !checkRotation c.toFileConfig a.sink) ∧
      (rotateIfDue c faults a).2.sink.currentPath = a.sink.currentPath := by
  rw [succeeds_rotateIfDue] at h
  rw [rotateIfDue, bind_ok (get_apply a)]
  cases hdue : checkRotation c.toFileConfig a.sink with
  | true =>
    obtain ⟨u, t, hflush⟩ := succeeds_flushOpen.mpr (h hdue)
    have hstate : a = t := congrArg Prod.snd hflush
    rw [if_pos rfl, rotate, bind_ok hflush, ← hstate]
    simp [change]
  | false => simp

theorem succeeds_followPath : Succeeds (followPath c now faults) a ↔
    (a.sink.currentPath ≠ resolvePath now c.path → a.sink.isOpen = true → faults.leaving = none) := by
  rw [followPath, succeeds_get_bind]
  by_cases hmoved : a.sink.currentPath ≠ resolvePath now c.path
  · rw [if_pos hmoved, forall_prop_of_true hmoved, succeeds_bind_iff, succeeds_flushOpen,
      and_iff_left (succeeds_change _)]
  · rw [if_neg hmoved]
    exact iff_of_true ⟨(), a, rfl⟩ fun h => absurd h hmoved

theorem followPath_state (h : Succeeds (followPath c now faults) a) :
    (followPath c now faults a).2.sink.isOpen =
      (a.sink.isOpen && decide (a.sink.currentPath = resolvePath now c.path)) := by
  rw [succeeds_followPath] at h
  rw [followPath, bind_ok (get_apply a)]
  by_cases hmoved : a.sink.currentPath = resolvePath now c.path
  · simp [hmoved]
  · obtain ⟨u, t, hflush⟩ := succeeds_flushOpen.mpr (h hmoved)
    have hstate : a = t := congrArg Prod.snd hflush
    rw [if_pos hmoved, bind_ok hflush, ← hstate]
    simp [change, FileSinks.followPath, hmoved]

theorem succeeds_openFile :
    Succeeds (openFile faults) a ↔ (a.sink.isOpen = false → faults.opening = none ∧ faults.metadata = none) := by
  rw [openFile, succeeds_get_bind]
  cases hopen : a.sink.isOpen with
  | true => exact iff_of_true ⟨(), a, rfl⟩ fun h => by cases h
  | false =>
    rw [if_neg Bool.false_ne_true, forall_prop_of_true rfl, succeeds_bind_iff, succeeds_result, succeeds_bind_iff,
      succeeds_bind_iff, succeeds_result, and_iff_left (succeeds_change _), and_iff_right (succeeds_change _)]

theorem openFile_state (h : Succeeds (openFile faults) a) : (openFile faults a).2.sink.isOpen = true := by
  obtain ⟨u, t, hrun⟩ := h
  have hopened : ∀ s, (FileSinks.openFile s).isOpen = true := by
    intro s
    unfold FileSinks.openFile
    split
    · assumption
    · rfl
  rw [openFile, bind_ok (get_apply a)] at hrun ⊢
  split at hrun
  · rename_i hopen
    rw [if_pos hopen]
    exact hopen
  · rename_i hclosed
    rw [if_neg hclosed]
    obtain ⟨_, b, hb, hrun⟩ := bind_eq_ok hrun
    obtain ⟨_, d, hd, hrun⟩ := bind_eq_ok hrun
    obtain ⟨_, e, he, hrun⟩ := bind_eq_ok hrun
    rw [bind_ok hb, bind_ok hd, bind_ok he]
    exact hopened e.sink

theorem succeeds_readyFile (s : FileSink) : Succeeds (readyFile c now faults) ⟨s, []⟩ ↔ Opens c now faults s := by
  rw [readyFile, succeeds_bind_iff, getOrOpenFile, succeeds_bind_iff]
  constructor
  · rintro ⟨hrotate, hfollow, hopen⟩
    obtain ⟨hisOpen, hpath⟩ := rotateIfDue_state hrotate
    have hstate := followPath_state hfollow
    rw [hisOpen, hpath] at hstate
    rw [succeeds_openFile, hstate] at hopen
    rw [succeeds_followPath, hisOpen, hpath] at hfollow
    refine ⟨succeeds_rotateIfDue.mp hrotate, fun hdue hopened hmoved => hfollow hmoved (by simp [hdue, hopened]), ?_⟩
    rintro (hdue | hclosed | hmoved)
    · exact hopen (by simp [hdue])
    · exact hopen (by simp [hclosed])
    · exact hopen (by simp [hmoved])
  · intro h
    have hrotate : Succeeds (rotateIfDue c faults) ⟨s, []⟩ := succeeds_rotateIfDue.mpr h.closing
    obtain ⟨hisOpen, hpath⟩ := rotateIfDue_state hrotate
    have hfollow : Succeeds (followPath c now faults) (rotateIfDue c faults ⟨s, []⟩).2 := by
      rw [succeeds_followPath, hisOpen, hpath]
      intro hmoved hopened
      simp only [Bool.and_eq_true, Bool.not_eq_true'] at hopened
      exact h.leaving hopened.2 hopened.1 hmoved
    have hstate := followPath_state hfollow
    rw [hisOpen, hpath] at hstate
    refine ⟨hrotate, hfollow, ?_⟩
    rw [succeeds_openFile, hstate]
    intro hclosed
    simp only [Bool.and_eq_false_iff, Bool.not_eq_false', decide_eq_false_iff_not] at hclosed
    obtain (hclosed | hdue) | hmoved := hclosed
    · exact h.opening (.inr (.inl hclosed))
    · exact h.opening (.inl hdue)
    · exact h.opening (.inr (.inr hmoved))

theorem untouched_readyFile (c : SyncedConfig) (now : Surroundings) (faults : Faults ε) :
    Frames Untouched (readyFile c now faults) := by
  rw [readyFile]
  exact frames_bind (untouched_rotateIfDue c faults) fun _ => untouched_getOrOpenFile c now faults

theorem readyFile_state (h : Succeeds (readyFile c now faults) a) :
    (readyFile c now faults a).2.sink.isOpen = true := by
  rw [readyFile, getOrOpenFile] at h ⊢
  obtain ⟨u, t, hrun⟩ := h
  obtain ⟨_, b, hb, hrest⟩ := bind_eq_ok hrun
  obtain ⟨_, d, hd, hlast⟩ := bind_eq_ok hrest
  have hopen := openFile_state ⟨u, t, hlast⟩
  rw [bind_ok hb, bind_ok hd]
  exact hopen

end Opening

section Calls

variable (c : SyncedConfig) (faults : Faults ε)

/-- The lines that were waiting are written before an operation fails. -/
def Written (now : Surroundings) (s : FileSink) : Prop :=
  Opens c now faults s ∧ Spared faults.writing 0 s.buffer

theorem writeOpen_of_isOpen {a : Attempt} (h : a.sink.isOpen = true) (lines : List String) :
    (Succeeds (writeOpen c faults lines) a → Succeeds (writeEach faults.writing 0 lines) a) ∧
      (writeOpen c faults lines a).2 = (writeEach faults.writing 0 lines a).2 := by
  rw [writeOpen, bind_ok (get_apply a), succeeds_get_bind, if_pos h]
  exact ⟨fun hboth => (succeeds_bind_iff.mp hboth).1, bind_state_eq (fun _ _ => rfl) a⟩

theorem writeLines_state (now : Surroundings) (lines : List String) (s : FileSink) :
    (writeLines c now faults lines ⟨s, []⟩).2.sink.buffer = s.buffer ∧
      Tail (writeLines c now faults lines ⟨s, []⟩).2 := by
  rw [writeLines]
  split
  · exact ⟨rfl, List.nil_suffix⟩
  · obtain ⟨u, a, hrun⟩ | ⟨fault, a, hrun⟩ := succeeds_or_fault (readyFile c now faults) ⟨s, []⟩
    · have huntouched := (untouched_readyFile c now faults).rel hrun
      have hopen := readyFile_state ⟨u, a, hrun⟩
      have hgrows := grows_writeEach faults.writing 0 lines a
      rw [hrun] at hopen
      rw [bind_ok hrun, (writeOpen_of_isOpen c faults hopen lines).2]
      refine ⟨hgrows.buffer.trans huntouched.buffer, hgrows.tail ?_⟩
      rw [Tail, huntouched.appended]
      exact List.nil_suffix
    · have huntouched := (untouched_readyFile c now faults).rel hrun
      rw [bind_error hrun]
      refine ⟨huntouched.buffer, ?_⟩
      rw [Tail, huntouched.appended]
      exact List.nil_suffix

theorem writeLines_earlier (now : Surroundings) {earlier rest : List String} (hne : earlier ++ rest ≠ [])
    (s : FileSink) :
    (Opens c now faults s ∧ Spared faults.writing 0 earlier →
      text earlier <+: (writeLines c now faults (earlier ++ rest) ⟨s, []⟩).2.appended) ∧
    (¬ (Opens c now faults s ∧ Spared faults.writing 0 earlier) →
      ¬ Succeeds (writeLines c now faults (earlier ++ rest)) ⟨s, []⟩ ∧ (text earlier = [] ∨
        ¬ text earlier <+: (writeLines c now faults (earlier ++ rest) ⟨s, []⟩).2.appended)) := by
  have hlines : ¬ (earlier ++ rest).isEmpty = true := by simpa using hne
  rw [writeLines, if_neg hlines]
  obtain ⟨u, a, hrun⟩ | ⟨fault, a, hrun⟩ := succeeds_or_fault (readyFile c now faults) ⟨s, []⟩
  · have happended := ((untouched_readyFile c now faults).rel hrun).appended
    have hopen := readyFile_state ⟨u, a, hrun⟩
    rw [hrun] at hopen
    obtain ⟨hsucceeds, hstate⟩ := writeOpen_of_isOpen c faults hopen (earlier ++ rest)
    have hopens : Opens c now faults s := (succeeds_readyFile s).mp ⟨u, a, hrun⟩
    rw [succeeds_bind_iff, hrun, bind_ok hrun, hstate]
    constructor
    · intro h
      have hwritten := writeEach_of_spared h.2 rest a
      rwa [happended] at hwritten
    · intro h
      obtain ⟨hfails, hlength⟩ := writeEach_of_not_spared (fun hspared => h ⟨hopens, hspared⟩) rest a
      rw [happended, List.nil_append] at hlength
      exact ⟨fun hboth => hfails (hsucceeds hboth.2), .inr fun hpre => absurd hpre.length_le (not_le.mpr hlength)⟩
  · have happended := ((untouched_readyFile c now faults).rel hrun).appended
    have hfails : ¬ Succeeds (readyFile c now faults) ⟨s, []⟩ := by
      rintro ⟨u, t, hok⟩
      cases hrun.symm.trans hok
    rw [succeeds_bind_iff, bind_error hrun]
    constructor
    · intro h
      exact absurd ((succeeds_readyFile s).mpr h.1) hfails
    · intro _
      refine ⟨fun hboth => hfails hboth.1, ?_⟩
      dsimp only
      rw [happended, List.prefix_nil]
      exact em _

/-- The lines that were waiting are in the file, up to some line, and those from there
on are still waiting. -/
def Retained (s : FileSink) (t : Attempt) : Prop :=
  ∃ k, text (s.buffer.take k) <+: t.appended ∧ (s.buffer.drop k).Sublist t.sink.buffer

theorem retained_iff {s : FileSink} {t : Attempt} (h : t.sink.buffer = []) :
    Retained s t ↔ text s.buffer <+: t.appended := by
  constructor
  · rintro ⟨k, hwritten, hwaiting⟩
    rw [h, List.sublist_nil, List.drop_eq_nil_iff] at hwaiting
    rwa [List.take_of_length_le hwaiting] at hwritten
  · intro hwritten
    refine ⟨s.buffer.length, ?_, ?_⟩
    · rwa [List.take_length]
    · rw [List.drop_length]
      exact List.nil_sublist _

variable {c faults}

theorem opens_emptied {now : Surroundings} {s : FileSink} :
    Opens c now faults { s with buffer := [] } ↔ Opens c now faults s :=
  ⟨fun h => ⟨h.closing, h.leaving, h.opening⟩, fun h => ⟨h.closing, h.leaving, h.opening⟩⟩

theorem retains_iff {now : Surroundings} {s : FileSink} (rest : List String) {q : Program Attempt ε Unit} {a : Attempt}
    (hstate : (q a).2 = (writeLines c now faults (s.buffer ++ rest) ⟨{ s with buffer := [] }, []⟩).2)
    (hfails : ¬ Succeeds (writeLines c now faults (s.buffer ++ rest)) ⟨{ s with buffer := [] }, []⟩ → ¬ Succeeds q a) :
    (∀ fault, (q a).1 = .error fault → Retained s (q a).2) ↔ text s.buffer = [] ∨ Written c faults now s := by
  have hbuffer : (q a).2.sink.buffer = [] := by
    rw [hstate]
    exact (writeLines_state c faults now _ _).1
  constructor
  · intro h
    by_contra hlost
    rw [not_or] at hlost
    have hne : s.buffer ++ rest ≠ [] := by
      intro hnil
      rw [(List.append_eq_nil_iff.mp hnil).1] at hlost
      exact hlost.1 rfl
    have hnot : ¬ (Opens c now faults { s with buffer := [] } ∧ Spared faults.writing 0 s.buffer) := by
      rw [opens_emptied]
      exact hlost.2
    obtain ⟨hfailed, hmissing⟩ := (writeLines_earlier c faults now hne { s with buffer := [] }).2 hnot
    obtain ⟨fault, t, hrun⟩ := (succeeds_or_fault q a).resolve_left (hfails hfailed)
    have hretained := h fault (congrArg Prod.fst hrun)
    rw [retained_iff hbuffer, hstate] at hretained
    exact hmissing.elim hlost.1 fun hpre => hpre hretained
  · intro h fault _
    rw [retained_iff hbuffer]
    obtain hempty | hwritten := h
    · rw [hempty]
      exact List.nil_prefix
    · by_cases hne : s.buffer ++ rest = []
      · rw [(List.append_eq_nil_iff.mp hne).1]
        exact List.nil_prefix
      · rw [hstate]
        exact (writeLines_earlier c faults now hne { s with buffer := [] }).1 ⟨opens_emptied.mpr hwritten.1, hwritten.2⟩

/-- What is said of the calls, as far as they go wrong: they have an event that cannot be
encoded, or write nothing, or nothing was waiting, or what was waiting is written first. -/
def Harmless (c : SyncedConfig) (faults : Faults ε) (encode : E → Except ε String) (s : FileSink) : Call E → Prop
  | .send now event => (encode event).toOption = none ∨ s.buffer.length + 1 < c.bufferSize ∨ text s.buffer = [] ∨
      Written c faults now s
  | .flush now => text s.buffer = [] ∨ Written c faults now s

/-- A call that fails leaves what was waiting in the file or in the buffer, if and only
if it is harmless. -/
theorem failed_write_retains_iff (c : SyncedConfig) (faults : Faults ε) (encode : E → Except ε String)
    (s : FileSink) (call : Call E) :
    (∀ fault, (step c faults encode s call).1 = .error fault → Retained s (step c faults encode s call).2) ↔
      Harmless c faults encode s call := by
  cases call with
  | send now event =>
    rw [step]
    cases hencode : encode event with
    | error e =>
      rw [send_of_error now hencode]
      refine iff_of_true (fun fault _ => ⟨0, List.nil_prefix, List.Sublist.refl _⟩) (.inl ?_)
      rw [hencode]
      rfl
    | ok line =>
      have hsome : (encode event).toOption ≠ none := by
        rw [hencode]
        exact Option.some_ne_none line
      by_cases hfull : s.buffer.length + 1 < c.bufferSize
      · rw [send_of_not_full now hencode hfull]
        exact iff_of_true (fun fault h => by cases h) (.inr (.inl hfull))
      · rw [Harmless, ← retains_iff [line] rfl id, send_of_full now hencode (not_lt.mp hfull)]
        exact ⟨fun h => .inr (.inr h), fun h => (h.resolve_left hsome).resolve_left hfull⟩
  | flush now =>
    rw [step, flush_eq]
    refine retains_iff [] ?_ ?_
    · rw [List.append_nil]
      exact bind_state_eq (fun _ _ => rfl) _
    · rw [List.append_nil]
      exact fun hfails hboth => hfails (succeeds_bind_iff.mp hboth).1

theorem step_tail (c : SyncedConfig) (faults : Faults ε) (encode : E → Except ε String) (s : FileSink) (call : Call E) :
    Tail (step c faults encode s call).2 := by
  cases call with
  | send now event =>
    rw [step]
    cases hencode : encode event with
    | error e =>
      rw [send_of_error now hencode]
      exact List.nil_suffix
    | ok line =>
      by_cases hfull : s.buffer.length + 1 < c.bufferSize
      · rw [send_of_not_full now hencode hfull]
        exact List.nil_suffix
      · rw [send_of_full now hencode (not_lt.mp hfull)]
        exact (writeLines_state c faults now _ _).2
  | flush now =>
    rw [step, flush_eq, bind_state_eq fun _ _ => rfl]
    exact (writeLines_state c faults now _ _).2

theorem flush_of_succeeds {now : Surroundings} {s : FileSink} (h : Succeeds (flush c now faults) ⟨s, []⟩) :
    text s.buffer <+: (flush c now faults ⟨s, []⟩).2.appended := by
  rw [Succeeds, flush_eq, ← Succeeds, succeeds_bind_iff] at h
  rw [flush_eq, bind_state_eq fun _ _ => rfl]
  by_cases hempty : s.buffer = []
  · rw [hempty]
    exact List.nil_prefix
  · have hne : s.buffer ++ [] ≠ [] := by simpa using hempty
    have hlines := writeLines_earlier c faults now hne { s with buffer := [] }
    rw [List.append_nil] at hlines
    by_contra hmissing
    exact (hlines.2 fun hwritten => hmissing (hlines.1 hwritten)).1 h.1

/-- A line is waiting, and the file cannot be opened. -/
theorem line_lost :
    let c : SyncedConfig := { oneBackup with bufferSize := 100, syncWrites := false }
    let s : FileSink := { FileSink.new c.toFileConfig noon (fun _ => none) with buffer := ["login\n"] }
    let faults : Faults Unit := { opening := some () }
    let t := step c faults (.ok : String → Except Unit String) s (.flush noon)
    t.1 = .error (.error ()) ∧ ¬ Retained s t.2 := by
  refine ⟨by decide +kernel, ?_⟩
  rw [retained_iff (by decide +kernel)]
  decide +kernel

end Calls

end CoreVpn.Audit.FailingWrites
