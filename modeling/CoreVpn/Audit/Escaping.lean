import CoreVpn.Audit.Formats
import CoreVpn.Lib.LineRecords

namespace CoreVpn.Audit.Escaping

open Lib.Escapes Lib.LineRecords Formats

variable {table : Table} {delimiters removed : List Char}

section Tables

theorem toList_escapeCef (s : String) : (escapeCef s).toList = escape cefTable s.toList :=
  toList_replaceAll (by decide) s

theorem toList_escapeLeef (s : String) : (escapeLeef s).toList = escape leefTable s.toList :=
  toList_replaceAll (by decide) s

theorem toList_escapeSyslogSd (s : String) : (escapeSyslogSd s).toList = escape syslogTable s.toList :=
  toList_replaceAll (by decide) s

theorem invertible_cefTable : Invertible cefTable := ⟨by decide, by decide⟩

theorem invertible_leefTable : Invertible leefTable := ⟨by decide, by decide⟩

theorem invertible_syslogTable : Invertible syslogTable := ⟨by decide, by decide⟩

end Tables

section Breaks

theorem unbroken_escapeCef (s : String) : Unbroken (escapeCef s).toList := by
  rw [toList_escapeCef]
  exact unbroken_escape (by decide) (by decide) _

theorem unbroken_escapeLeef (s : String) : Unbroken (escapeLeef s).toList := by
  rw [toList_escapeLeef]
  exact unbroken_escape (by decide) (by decide) _

theorem unbroken_escapeSyslogSd (s : String) : Unbroken (escapeSyslogSd s).toList ↔ Unbroken s.toList := by
  rw [toList_escapeSyslogSd]
  exact unbroken_escape_iff (by decide) (by decide) _

end Breaks

section Delimiters

/-- The escaped text can be turned back, has its delimiters behind an odd number of
backslashes each, and has none of the characters that are to be taken out of it. -/
structure Protects (escapeText restoreText : String → String) (delimiters removed : List Char) : Prop where
  restores : Function.LeftInverse restoreText escapeText
  injective : Function.Injective escapeText
  guarded : ∀ c ∈ delimiters, ∀ s, Guarded c (escapeText s).toList
  absent : ∀ c ∈ removed, ∀ s, c ∉ (escapeText s).toList

def Covers (table : Table) (delimiters : List Char) : Prop :=
  ∀ c ∈ delimiters, (table.lookup c).isSome ∧ c ≠ '\\'

def Replaces (table : Table) (removed : List Char) : Prop :=
  ∀ c ∈ removed, (table.lookup c).isSome ∧ c ≠ '\\' ∧ ∀ entry ∈ table, entry.2 ≠ c

-- Over the list: the quantifier may also be decided by going through all characters.
instance : Decidable (Covers table delimiters) :=
  List.decidableBAll (fun c => (table.lookup c).isSome ∧ c ≠ '\\') delimiters

instance : Decidable (Replaces table removed) :=
  have (c : Char) : Decidable (∀ entry ∈ table, entry.2 ≠ c) := List.decidableBAll (fun entry => entry.2 ≠ c) table
  List.decidableBAll (fun c => (table.lookup c).isSome ∧ c ≠ '\\' ∧ ∀ entry ∈ table, entry.2 ≠ c) removed

theorem protects_replaceAll (hchained : Chained table) (h : Invertible table) (hdelimiters : Covers table delimiters)
    (hremoved : Replaces table removed) : Protects (replaceAll table) (restoreAll table) delimiters removed := by
  have hrestores := leftInverse_restoreAll hchained h
  refine ⟨hrestores, hrestores.injective, fun c hc s => ?_, fun c hc s => ?_⟩
  · obtain ⟨hcode, hne⟩ := hdelimiters c hc
    rw [toList_replaceAll hchained]
    exact guarded_escape hcode h.slash hne s.toList
  · obtain ⟨hcode, hne, hcodes⟩ := hremoved c hc
    rw [toList_replaceAll hchained]
    exact notMem_escape hcode hne hcodes s.toList

/-- Each of the three escapings can be undone and leaves no delimiter of its format bare. -/
theorem escaping_protects :
    Protects escapeCef (restoreAll cefTable) ['|', '='] ['\r', '\n'] ∧
    Protects escapeLeef (restoreAll leefTable) ['|'] ['\r', '\n', '\t'] ∧
    Protects escapeSyslogSd (restoreAll syslogTable) ['"', ']'] [] :=
  ⟨protects_replaceAll (by decide) invertible_cefTable (by decide) (by decide),
    protects_replaceAll (by decide) invertible_leefTable (by decide) (by decide),
    protects_replaceAll (by decide) invertible_syslogTable (by decide) (by decide)⟩

end Delimiters

end CoreVpn.Audit.Escaping
