import CoreVpn.Audit.FileSinks
import CoreVpn.Lib.Machine

namespace CoreVpn.Audit.Backups

open Lib.Computation Lib.Wire Lib.Text Lib.Lines Lib.Rotation Lib.Machine FileSinks

section Names

def name (path : String) : ℕ → String
  | 0 => path
  | i + 1 => backup path (i + 1)

theorem name_injective (path : String) : Function.Injective (name path) := by
  have hzero : ∀ i, name path 0 ≠ name path (i + 1) := by
    intro i h
    have hlength := congrArg String.length h
    rw [name, name, backup, String.length_append, String.length_append] at hlength
    have hdot : ".".length = 1 := rfl
    omega
  intro i j h
  cases i with
  | zero =>
    cases j with
    | zero => rfl
    | succ j => exact absurd h (hzero j)
  | succ i =>
    cases j with
    | zero => exact absurd h.symm (hzero i)
    | succ j => exact toString_injective ((String.append_right_inj _).mp h)

/-- The path has none of the marks that stand for the day, the hour and the host. -/
structure Plain (path : String) : Prop where
  date : contains path "\x7bdate\x7d" = false
  hour : contains path "\x7bhour\x7d" = false
  host : contains path "\x7bhost\x7d" = false

theorem Plain.resolvePath {path : String} (h : Plain path) (now : Surroundings) : resolvePath now path = path := by
  rw [FileSinks.resolvePath, replace_of_not_contains h.date, replace_of_not_contains h.hour,
    replace_of_not_contains h.host]

theorem rename_renameBackups (path : String) (k : Nat) (files : Files String Bytes) :
    rename path (backup path 1) (renameBackups path k files) = shift (name path) (k + 1) files := by
  induction k generalizing files with
  | zero => rfl
  | succ k ih =>
    rw [renameBackups, ih, shift]
    rfl

end Names

section Contents

variable {c : FileConfig} {s : FileSink} {chain : List Bytes}

def text (lines : List String) : Bytes := lines.flatMap asBytes

/-- All files that a sink ever wrote, the newest first. The newest is the one it has
open, and of those before it only so many are kept as there are backups. -/
structure Holds (c : FileConfig) (s : FileSink) (chain : List Bytes) : Prop where
  path : s.currentPath = c.path
  isOpen : s.isOpen = !chain.isEmpty
  files : Numbered (name c.path) s.files (chain.take (c.maxFiles + 1))

def begun (rotated : Bool) (chain : List Bytes) : List Bytes :=
  if rotated || chain.isEmpty then [] :: chain else chain

theorem begun_ne_nil (rotated : Bool) (chain : List Bytes) : begun rotated chain ≠ [] := by
  cases chain with
  | nil => simp [begun]
  | cons current older => cases rotated <;> simp [begun]

theorem flatten_begun (rotated : Bool) (chain : List Bytes) :
    (begun rotated chain).reverse.flatten = chain.reverse.flatten := by
  unfold begun
  split <;> simp

theorem flatten_modifyHead (h : chain ≠ []) (data : Bytes) :
    (chain.modifyHead (· ++ data)).reverse.flatten = chain.reverse.flatten ++ data := by
  cases chain with
  | nil => exact absurd rfl h
  | cons current older => simp

theorem drop_modifyHead (f : Bytes → Bytes) (k : Nat) (chain : List Bytes) :
    (chain.modifyHead f).drop (k + 1) = chain.drop (k + 1) := by
  cases chain with
  | nil => rfl
  | cons current older => rfl

theorem drop_begun (rotated : Bool) (k : Nat) (chain : List Bytes) :
    (begun rotated chain).drop (k + 1) =
      (if rotated then chain[k]?.toList else []) ++ chain.drop (k + 1) := by
  cases rotated with
  | true => exact List.drop_eq_getElem?_toList_append
  | false => cases chain <;> simp [begun]

theorem Holds.rotate (hfiles : 1 ≤ c.maxFiles) (h : Holds c s chain) :
    Holds c (openFile (rotate c s)) ([] :: chain) := by
  obtain ⟨k, hk⟩ : ∃ k, c.maxFiles = k + 1 := ⟨c.maxFiles - 1, by omega⟩
  have hshift : (FileSinks.rotate c s).files = shift (name c.path) c.maxFiles s.files := by
    rw [hk, ← rename_renameBackups, ← h.path]
    simp only [FileSinks.rotate, hk, Nat.add_sub_cancel]
  have hnumbered := h.files.rotate (name_injective c.path) hfiles (List.length_take_le _ _) []
  rw [List.take_take, Nat.min_eq_left (Nat.le_succ _), ← hshift] at hnumbered
  refine ⟨h.path, rfl, ?_⟩
  rw [← h.path] at hnumbered ⊢
  exact hnumbered

theorem Holds.openFile (h : Holds c s chain) : Holds c (openFile s) (begun false chain) := by
  cases chain with
  | nil =>
    have hclosed : s.isOpen = false := h.isOpen
    have hnumbered := h.files.create (name_injective c.path) []
    rw [List.take_nil, if_pos rfl] at hnumbered
    have hbegun : (begun false []).take (c.maxFiles + 1) = [[]] := by simp [begun]
    rw [FileSinks.openFile, hclosed, if_neg Bool.false_ne_true]
    refine ⟨h.path, rfl, ?_⟩
    rw [hbegun]
    rw [← h.path] at hnumbered ⊢
    exact hnumbered
  | cons current older =>
    have hopen : s.isOpen = true := h.isOpen
    rw [FileSinks.openFile, if_pos hopen]
    exact h

theorem Holds.writeLine (h : Holds c s chain) (hchain : chain ≠ []) (line : String) :
    Holds c (writeLine s line) (chain.modifyHead (· ++ asBytes line)) := by
  cases chain with
  | nil => exact absurd rfl hchain
  | cons current older =>
    have hcurrent : s.files c.path = some current := h.files 0
    have hnumbered := h.files.write (name_injective c.path) (current ++ asBytes line)
    refine ⟨h.path, h.isOpen, ?_⟩
    simp only [FileSinks.writeLine, h.path, hcurrent, Option.getD_some]
    exact hnumbered

theorem Holds.foldl_writeLine (h : Holds c s chain) (hchain : chain ≠ []) (lines : List String) :
    Holds c (lines.foldl FileSinks.writeLine s) (chain.modifyHead (· ++ text lines)) := by
  induction lines generalizing s chain with
  | nil =>
    have hsame : chain.modifyHead (· ++ text []) = chain := by cases chain <;> simp [text]
    rw [hsame]
    exact h
  | cons line lines ih =>
    have hline := ih (h.writeLine hchain line) (by simpa using hchain)
    have hboth : (chain.modifyHead (· ++ asBytes line)).modifyHead (· ++ text lines) =
        chain.modifyHead (· ++ text (line :: lines)) := by
      cases chain <;> simp [text]
    rwa [hboth] at hline

theorem Holds.ready (hfiles : 1 ≤ c.maxFiles) (h : Holds c s chain) :
    Holds c (FileSinks.openFile (if checkRotation c s then FileSinks.rotate c s else s))
      (begun (checkRotation c s) chain) := by
  cases hcheck : checkRotation c s with
  | true =>
    rw [if_pos rfl]
    exact h.rotate hfiles
  | false =>
    rw [if_neg Bool.false_ne_true]
    exact h.openFile

theorem writeLines_eq {now : Surroundings} (hpath : resolvePath now c.path = s.currentPath) {lines : List String}
    (hlines : lines ≠ []) :
    writeLines c now lines s =
      lines.foldl FileSinks.writeLine (FileSinks.openFile (if checkRotation c s then FileSinks.rotate c s else s)) := by
  have hfollow : ∀ t : FileSink, t.currentPath = s.currentPath → getOrOpenFile c now t = FileSinks.openFile t := by
    intro t ht
    rw [getOrOpenFile, followPath, hpath, if_neg (not_not_intro ht)]
  have hsame : (if checkRotation c s then FileSinks.rotate c s else s).currentPath = s.currentPath := by
    split <;> rfl
  rw [FileSinks.writeLines, if_neg (by simpa using hlines)]
  exact congrArg (lines.foldl FileSinks.writeLine) (hfollow _ hsame)

theorem Holds.writeLines (hplain : Plain c.path) (hfiles : 1 ≤ c.maxFiles) (h : Holds c s chain)
    (now : Surroundings) {lines : List String} (hlines : lines ≠ []) :
    Holds c (writeLines c now lines s) ((begun (checkRotation c s) chain).modifyHead (· ++ text lines)) := by
  rw [writeLines_eq ((hplain.resolvePath now).trans h.path.symm) hlines]
  exact (h.ready hfiles).foldl_writeLine (begun_ne_nil _ _) lines

theorem getOrOpenFile_buffer (now : Surroundings) : (getOrOpenFile c now s).buffer = s.buffer := by
  unfold getOrOpenFile FileSinks.openFile followPath
  dsimp only
  split <;> split <;> rfl

theorem writeLines_buffer (now : Surroundings) (lines : List String) :
    (writeLines c now lines s).buffer = s.buffer := by
  have hfold : ∀ (lines : List String) (s : FileSink), (lines.foldl FileSinks.writeLine s).buffer = s.buffer := by
    intro lines
    induction lines with
    | nil => exact fun _ => rfl
    | cons line lines ih => exact fun s => ih (FileSinks.writeLine s line)
  unfold FileSinks.writeLines
  split
  · rfl
  · dsimp only
    rw [hfold, getOrOpenFile_buffer]
    split <;> rfl

end Contents

section Runs

variable {E ε : Type} {c : FileConfig} {s : FileSink} {logged : Bytes} {dropped : List Bytes}

def encoded (encode : E → Except ε String) : Call E → Bytes
  | .send _ event => ((encode event).toOption.map asBytes).getD []
  | .flush _ => []

def writes (c : FileConfig) (encode : E → Except ε String) (s : FileSink) : Call E → Bool
  | .send _ event => (encode event).toOption.isSome && decide (s.buffer.length + 1 ≥ c.bufferSize)
  | .flush _ => !s.buffer.isEmpty

/-- A call that rotates the files overwrites the last of the backups. -/
def overwritten (c : FileConfig) (encode : E → Except ε String) (s : FileSink) (call : Call E) : List Bytes :=
  if writes c encode s call && checkRotation c s then (s.files (backup c.path c.maxFiles)).toList else []

def droppedBackups (c : FileConfig) (encode : E → Except ε String) : FileSink → List (Call E) → List Bytes
  | _, [] => []
  | s, call :: calls => overwritten c encode s call ++ droppedBackups c encode (step c encode s call).2 calls

/-- What was logged is in the files that were ever written and in the buffer. -/
def Keeps (c : FileConfig) (s : FileSink) (dropped : List Bytes) (logged : Bytes) : Prop :=
  ∃ chain, Holds c s chain ∧ dropped = (chain.drop (c.maxFiles + 1)).reverse ∧
    chain.reverse.flatten ++ text s.buffer = logged

theorem Keeps.push (h : Keeps c s dropped logged) (line : String) :
    Keeps c { s with buffer := s.buffer ++ [line] } dropped (logged ++ asBytes line) := by
  obtain ⟨chain, hholds, hdropped, hlogged⟩ := h
  refine ⟨chain, ⟨hholds.path, hholds.isOpen, hholds.files⟩, hdropped, ?_⟩
  rw [← hlogged]
  simp [text]

theorem Keeps.drain (hplain : Plain c.path) (hfiles : 1 ≤ c.maxFiles) (h : Keeps c s dropped logged)
    (now : Surroundings) (hbuffer : s.buffer ≠ []) :
    Keeps c (writeLines c now s.buffer { s with buffer := [] })
      (dropped ++ if checkRotation c s then (s.files (backup c.path c.maxFiles)).toList else []) logged := by
  obtain ⟨chain, hholds, hdropped, hlogged⟩ := h
  have hemptied : Holds c { s with buffer := [] } chain := ⟨hholds.path, hholds.isOpen, hholds.files⟩
  have hlast : s.files (backup c.path c.maxFiles) = chain[c.maxFiles]? := by
    obtain ⟨k, hk⟩ : ∃ k, c.maxFiles = k + 1 := ⟨c.maxFiles - 1, by omega⟩
    have hnumber := hholds.files c.maxFiles
    rw [List.getElem?_take_of_lt (Nat.lt_succ_self _)] at hnumber
    rw [← hnumber, hk]
    rfl
  have hcheck : checkRotation c { s with buffer := [] } = checkRotation c s := rfl
  refine ⟨_, hemptied.writeLines hplain hfiles now hbuffer, ?_, ?_⟩
  · rw [hcheck, drop_modifyHead, drop_begun, List.reverse_append, ← hdropped, hlast]
    split
    · cases chain[c.maxFiles]? <;> rfl
    · rfl
  · rw [writeLines_buffer, flatten_modifyHead (begun_ne_nil _ _), flatten_begun, ← hlogged]
    exact List.append_nil _

theorem send_of_ok {encode : E → Except ε String} {event : E} {line : String} (h : encode event = .ok line)
    (now : Surroundings) :
    send c now encode event s = (.ok (),
      let pushed := { s with buffer := s.buffer ++ [line] }
      if s.buffer.length + 1 ≥ c.bufferSize then writeLines c now pushed.buffer { pushed with buffer := [] }
      else pushed) := by
  simp only [send, h, bind_apply, modify_apply, List.length_append, List.length_singleton]

theorem Keeps.step (hplain : Plain c.path) (hfiles : 1 ≤ c.maxFiles) (h : Keeps c s dropped logged)
    (encode : E → Except ε String) (call : Call E) :
    Keeps c (step c encode s call).2 (dropped ++ overwritten c encode s call) (logged ++ encoded encode call) := by
  cases call with
  | send now event =>
    cases hencode : encode event with
    | error e => simpa [FileSinks.step, send, overwritten, writes, encoded, hencode, Except.toOption] using h
    | ok line =>
      have hpushed := h.push line
      have hencoded : encoded encode (.send now event) = asBytes line := by simp [encoded, hencode, Except.toOption]
      have hwrites : writes c encode s (.send now event) = decide (s.buffer.length + 1 ≥ c.bufferSize) := by
        simp [writes, hencode, Except.toOption]
      rw [FileSinks.step, send_of_ok hencode, hencoded, overwritten, hwrites]
      dsimp only
      by_cases hfull : s.buffer.length + 1 ≥ c.bufferSize
      · rw [if_pos hfull, decide_eq_true hfull, Bool.true_and]
        exact hpushed.drain hplain hfiles now (by simp)
      · rw [if_neg hfull, decide_eq_false hfull, Bool.false_and, if_neg Bool.false_ne_true, List.append_nil]
        exact hpushed
  | flush now =>
    by_cases hbuffer : s.buffer = []
    · have hsame : (FileSinks.step c encode s (.flush now)).2 = s := by
        cases s
        cases hbuffer
        rfl
      rw [hsame]
      simpa [overwritten, writes, encoded, hbuffer] using h
    · have hdrained := h.drain hplain hfiles now hbuffer
      simpa [FileSinks.step, flush, overwritten, writes, encoded, hbuffer] using hdrained

theorem Keeps.exec (hplain : Plain c.path) (hfiles : 1 ≤ c.maxFiles) (h : Keeps c s dropped logged)
    (encode : E → Except ε String) (calls : List (Call E)) :
    Keeps c (exec (FileSinks.step c encode) s calls) (dropped ++ droppedBackups c encode s calls)
      (logged ++ calls.flatMap (encoded encode)) := by
  induction calls generalizing s dropped logged with
  | nil => simpa [droppedBackups] using h
  | cons call calls ih =>
    have hrest := ih (h.step hplain hfiles encode call)
    rwa [List.append_assoc, List.append_assoc] at hrest

theorem keeps_new (hplain : Plain c.path) (now : Surroundings) {files : Files String Bytes}
    (hfresh : ∀ i, files (name c.path i) = none) : Keeps c (FileSink.new c now files) [] [] :=
  ⟨[], ⟨hplain.resolvePath now, rfl, hfresh⟩, rfl, rfl⟩

/-- The files with the numbers that are in use, from the highest number down, and the
buffer hold all that was encoded, but for the backups that were overwritten. -/
theorem rotation_drops_oldest (hplain : Plain c.path) (hfiles : 1 ≤ c.maxFiles) (encode : E → Except ε String)
    (now : Surroundings) {files : Files String Bytes} (hfresh : ∀ i, files (name c.path i) = none)
    (calls : List (Call E)) :
    let s := FileSink.new c now files
    let t := exec (step c encode) s calls
    ∃ n ≤ c.maxFiles + 1, (∀ i, (t.files (name c.path i)).isSome = true ↔ i < n) ∧
      (droppedBackups c encode s calls).flatten ++ readOut (name c.path) n t.files ++ text t.buffer =
        calls.flatMap (encoded encode) := by
  obtain ⟨chain, hholds, hdropped, hlogged⟩ := (keeps_new hplain now hfresh).exec hplain hfiles encode calls
  rw [List.nil_append] at hdropped hlogged
  refine ⟨(chain.take (c.maxFiles + 1)).length, List.length_take_le _ _, hholds.files.isSome_iff, ?_⟩
  rw [hholds.files.readOut_eq, hdropped, ← hlogged, ← List.flatten_append, ← List.reverse_append,
    List.take_append_drop]

def oneBackup : FileConfig where
  path := "audit.log"
  rotation := .size
  maxSize := 1
  maxFiles := 1
  bufferSize := 1

def noon : Surroundings := ⟨"2026-01-01", "12", "vpn"⟩

def threeSends : List (Call String) := [.send noon "first\n", .send noon "second\n", .send noon "third\n"]

theorem rotation_of_three_events :
    let encode : String → Except Unit String := .ok
    let s := FileSink.new oneBackup noon fun _ => none
    let t := exec (step oneBackup encode) s threeSends
    droppedBackups oneBackup encode s threeSends = [asBytes "first\n"] ∧
      ∃ n ≤ 2, (∀ i, (t.files (name "audit.log" i)).isSome = true ↔ i < n) ∧
        (droppedBackups oneBackup encode s threeSends).flatten ++ readOut (name "audit.log") n t.files ++
          text t.buffer = threeSends.flatMap (encoded encode) :=
  ⟨by decide +kernel,
    rotation_drops_oldest (c := oneBackup) ⟨by decide +kernel, by decide +kernel, by decide +kernel⟩ (by decide)
      .ok noon (fun _ => rfl) threeSends⟩

end Runs

end CoreVpn.Audit.Backups
