import CoreVpn.Cli.Ovpn

namespace CoreVpn.Cli.Directives

open Lib.Text Lib.Lines Ovpn

variable {name line text value : String} {i : Nat}

/-- An argument of a directive, if the line is this directive and has it. -/
def argument (name : String) (i : Nat) (line : String) : Option String :=
  match words line with
  | directive :: args => if directive = name then args[i]? else none
  | [] => none

def arguments (name : String) (i : Nat) (text : String) : List String := (split text '\n').filterMap (argument name i)

def lastArgument (name : String) (i : Nat) (lines : List String) : Option String :=
  (lines.filterMap (argument name i)).getLast?

section Reading

variable {β : Type} {get : Settings → β} {set : String → β}

/-- What a line does to each of the settings that are written to a file. -/
@[mk_iff]
structure Reads (s : Settings) (line : String) (s' : Settings) : Prop where
  protocol : s'.protocol = ((argument "proto" 0 line).map id).getD s.protocol
  cipher : s'.cipher = ((argument "cipher" 0 line).map id).getD s.cipher
  remoteHost : s'.remoteHost = ((argument "remote" 0 line).map id).getD s.remoteHost
  remotePort : s'.remotePort =
    ((argument "remote" 1 line).map fun port => (parseU16 port).getD 1194).getD s.remotePort
  keyDirection : s'.keyDirection =
    ((argument "key-direction" 0 line).map fun d => some ((parseU8 d).getD 1)).getD s.keyDirection

theorem reads_read (s : Settings) (line : String) : Reads s line (s.read line) := by
  simp only [reads_iff, Settings.read, argument]
  cases words line with
  | nil => exact ⟨rfl, rfl, rfl, rfl, rfl⟩
  | cons directive args => split <;> simp_all

theorem get_foldl_read (hread : ∀ s line, get (s.read line) = ((argument name i line).map set).getD (get s))
    (lines : List String) (s : Settings) :
    get (lines.foldl Settings.read s) = ((lastArgument name i lines).map set).getD (get s) := by
  induction lines generalizing s with
  | nil => rfl
  | cons line lines ih =>
    rw [List.foldl_cons, ih, hread, lastArgument, lastArgument, List.filterMap_cons]
    cases argument name i line with
    | none => rfl
    | some value =>
      dsimp only
      rw [List.getLast?_cons]
      cases (lines.filterMap (argument name i)).getLast? <;> rfl

theorem words_trim (line : String) : words (trim line) = words line := by
  rw [words, words, trim_trim]

theorem read_trim (s : Settings) (line : String) : s.read (trim line) = s.read line := by
  rw [Settings.read, Settings.read, words_trim]

theorem words_empty : words "" = [] := by decide

theorem read_empty (s : Settings) : s.read "" = s := by
  rw [Settings.read, words_empty]

theorem get_foldl_lines (hread : ∀ s line, get (s.read line) = ((argument name i line).map set).getD (get s))
    (content : String) (s : Settings) :
    get ((lines content).foldl Settings.read s) = ((arguments name i content).getLast?.map set).getD (get s) := by
  rw [foldl_lines read_trim read_empty, get_foldl_read hread]
  rfl

end Reading

section Lines

theorem arguments_join {texts : List String} (h : texts ≠ []) :
    arguments name i (String.intercalate "\n" texts) = texts.flatMap (arguments name i) := by
  have hsplit : split (String.intercalate "\n" texts) '\n' = _ := split_intercalate_flatMap h
  rw [arguments, hsplit, List.filterMap_flatMap]
  rfl

theorem arguments_eq_nil (h : ∀ line ∈ split text '\n', (words line).head? ≠ some name) : arguments name i text = [] := by
  rw [arguments, List.filterMap_eq_nil_iff]
  intro line hline
  have hhead := h line hline
  rw [argument]
  split
  · rename_i directive args hwords
    rw [hwords] at hhead
    exact if_neg fun heq => hhead (congrArg some heq)
  · rfl

theorem words_of_solid {first : Char} {rest : List Char} (hfirst : isWhitespace first = false) (hhash : first ≠ '#')
    (hsemi : first ≠ ';') : words (String.ofList (first :: rest)) = splitWhitespace (String.ofList (first :: rest)) := by
  obtain ⟨back, hback⟩ : ∃ back, trim (String.ofList (first :: rest)) = String.ofList (first :: back) :=
    trim_cons hfirst
  have hempty : (String.ofList (first :: back)).isEmpty = false := by
    rw [Bool.eq_false_iff, ne_eq, String.isEmpty_iff, ← String.toList_eq_nil_iff, String.toList_ofList]
    exact List.cons_ne_nil _ _
  have hstart : ∀ c, first ≠ c → startsWith (String.ofList (first :: back)) (String.singleton c) = false := by
    intro c hc
    rw [Bool.eq_false_iff]
    intro hstarts
    rw [startsWith, String.toList_ofList, String.toList_singleton] at hstarts
    obtain ⟨behind, hbehind⟩ := List.isPrefixOf_iff_prefix.mp hstarts
    exact hc (List.cons.inj hbehind).1.symm
  have hcomment : startsWith (String.ofList (first :: back)) "#" = false := hstart '#' hhash
  have hremark : startsWith (String.ofList (first :: back)) ";" = false := hstart ';' hsemi
  rw [words, hback, hempty, hcomment, hremark, ← hback, splitWhitespace_trim]
  rfl

def IsName (directive : String) : Prop :=
  directive ≠ "" ∧ (∀ c ∈ directive.toList, isWhitespace c = false) ∧ directive.toList.head? ≠ some '#' ∧
    directive.toList.head? ≠ some ';'

instance (directive : String) : Decidable (IsName directive) :=
  decidable_of_iff (Word directive ∧ directive.toList.head? ≠ some '#' ∧ directive.toList.head? ≠ some ';')
    ⟨fun h => ⟨h.1.nonempty, h.1.solid, h.2⟩, fun h => ⟨⟨h.1, h.2.1⟩, h.2.2⟩⟩

theorem words_directive {directive : String} (h : IsName directive) (value : String) :
    words (directive ++ " " ++ value) = directive :: splitWhitespace value := by
  obtain ⟨hne, hsolid, hhash, hsemi⟩ := h
  cases hchars : directive.toList with
  | nil => exact absurd (String.toList_eq_nil_iff.mp hchars) hne
  | cons first rest =>
    have htext : directive ++ " " ++ value = String.ofList (first :: (rest ++ ' ' :: value.toList)) := by
      rw [← String.toList_inj]
      simp [hchars]
    have hfirst : isWhitespace first = false := hsolid first (by rw [hchars]; exact List.mem_cons_self)
    rw [hchars] at hhash hsemi
    rw [htext, words_of_solid hfirst (fun heq => hhash (congrArg some heq)) fun heq => hsemi (congrArg some heq),
      ← htext, splitWhitespace_blank, Word.splitWhitespace_eq ⟨hne, hsolid⟩]
    rfl

theorem arguments_directive {directive : String} (h : IsName directive) (hvalue : '\n' ∉ value.toList) :
    arguments name i (directive ++ " " ++ value) =
      if directive = name then ((splitWhitespace value)[i]?).toList else [] := by
  have hline : '\n' ∉ (directive ++ " " ++ value).toList := by
    have hname : '\n' ∉ directive.toList := by
      intro hmem
      have hblank := h.2.1 _ hmem
      cases hblank
    simp [hname, hvalue]
  rw [arguments, split_eq_singleton hline, List.filterMap_cons, argument, words_directive h]
  dsimp only
  split_ifs
  · cases (splitWhitespace value)[i]? <;> rfl
  · rfl

theorem arguments_lines {directive : String} (h : IsName directive) (hname : directive ≠ name) (value : String) :
    arguments name i (directive ++ " " ++ value) = (split value '\n').tail.filterMap (argument name i) := by
  have hfront : '\n' ∉ (directive ++ " ").toList := by
    have hdirective : '\n' ∉ directive.toList := by
      intro hmem
      have hblank := h.2.1 _ hmem
      cases hblank
    simp [hdirective]
  obtain ⟨first, others, hsplit⟩ := List.exists_cons_of_ne_nil (split_ne_nil value '\n')
  rw [arguments, split_append_of_notMem hfront, hsplit, List.modifyHead_cons, List.filterMap_cons, argument,
    words_directive h]
  dsimp only
  rw [if_neg hname]
  rfl

end Lines

end CoreVpn.Cli.Directives
