import CoreVpn.Cli.Ovpn

namespace CoreVpn.Cli.InlineBlocks

open Lib.Search (block Marks find_append_cons find_of_infix find_of_prefix infix_append_cons_iff)
open Lib.Text Lib.Lines Ovpn

variable {tag text line body rest : String}

def opens (text tag : String) : Prop := ("<" ++ tag ++ ">").toList <:+: text.toList

def closes (text tag : String) : Prop := ("</" ++ tag ++ ">").toList <:+: text.toList

instance (text tag : String) : Decidable (opens text tag) := inferInstanceAs (Decidable (_ <:+: _))

instance (text tag : String) : Decidable (closes text tag) := inferInstanceAs (Decidable (_ <:+: _))

def Unmarked (text tag : String) : Prop := ¬ opens text tag ∧ ¬ closes text tag

instance (text tag : String) : Decidable (Unmarked text tag) := inferInstanceAs (Decidable (_ ∧ _))

theorem marks (htag : '\n' ∉ tag.toList) : Marks ("<" ++ tag ++ ">").toList ("</" ++ tag ++ ">").toList '\n' := by
  refine ⟨?_, ?_, ?_, ?_⟩ <;> simp [htag]

theorem toList_line (text rest : String) : (text ++ "\n" ++ rest).toList = text.toList ++ '\n' :: rest.toList := by
  simp

theorem extractInlineBlock_eq (content tag : String) : extractInlineBlock content tag =
    (block ("<" ++ tag ++ ">").toList ("</" ++ tag ++ ">").toList content.toList).map fun b => trim (String.ofList b) := by
  simp only [extractInlineBlock, block, find, Option.bind_eq_bind]
  cases Lib.Search.find ("<" ++ tag ++ ">").toList content.toList with
  | none => rfl
  | some start =>
    cases Lib.Search.find ("</" ++ tag ++ ">").toList content.toList with
    | none => rfl
    | some stop =>
      dsimp only [Option.bind_some]
      split_ifs <;> rfl

section Marked

theorem unmarked_of_notMem (h : '<' ∉ text.toList) (tag : String) : Unmarked text tag := by
  constructor
  · intro hopens
    exact h (hopens.subset (by simp))
  · intro hcloses
    exact h (hcloses.subset (by simp))

theorem opens_line_iff (htag : '\n' ∉ tag.toList) :
    opens (text ++ "\n" ++ rest) tag ↔ opens text tag ∨ opens rest tag := by
  rw [opens, toList_line, infix_append_cons_iff (marks htag).opening_ne (marks htag).notMem_opening]
  rfl

theorem closes_line_iff (htag : '\n' ∉ tag.toList) :
    closes (text ++ "\n" ++ rest) tag ↔ closes text tag ∨ closes rest tag := by
  rw [closes, toList_line, infix_append_cons_iff (marks htag).closing_ne (marks htag).notMem_closing]
  rfl

theorem unmarked_line_iff (htag : '\n' ∉ tag.toList) :
    Unmarked (text ++ "\n" ++ rest) tag ↔ Unmarked text tag ∧ Unmarked rest tag := by
  rw [Unmarked, opens_line_iff htag, closes_line_iff htag, Unmarked, Unmarked]
  tauto

end Marked

section Extracting

theorem extract_of_closed (htag : '\n' ∉ tag.toList) (h : closes text tag) (rest : String) :
    extractInlineBlock (text ++ "\n" ++ rest) tag = extractInlineBlock text tag := by
  rw [extractInlineBlock_eq, extractInlineBlock_eq, toList_line, (marks htag).block_of_closed h]

theorem extract_of_unmarked (htag : '\n' ∉ tag.toList) (h : Unmarked text tag) (rest : String) :
    extractInlineBlock (text ++ "\n" ++ rest) tag = extractInlineBlock rest tag := by
  rw [extractInlineBlock_eq, extractInlineBlock_eq, toList_line, (marks htag).block_of_unmarked h.1 h.2]

theorem extract_of_unclosed (htag : '\n' ∉ tag.toList) (h : ¬ closes rest tag) (text : String) :
    extractInlineBlock (text ++ "\n" ++ rest) tag = extractInlineBlock text tag := by
  rw [extractInlineBlock_eq, extractInlineBlock_eq, toList_line, (marks htag).block_of_unclosed h]

theorem extract_of_not_closed (h : ¬ closes text tag) : extractInlineBlock text tag = none := by
  rw [extractInlineBlock_eq, Lib.Search.block_of_not_closed h]
  rfl

theorem extract_spanning (htag : '\n' ∉ tag.toList) (hopens : opens text tag) (hcloses : ¬ closes text tag)
    (hline : ¬ closes line tag) (hrest : closes rest tag) : ∃ before after,
      extractInlineBlock (text ++ "\n" ++ (line ++ "\n" ++ rest)) tag =
        some (trim (before ++ "\n" ++ (line ++ "\n" ++ after))) := by
  obtain ⟨stop, hstop⟩ := find_of_infix hrest
  have hfind : Lib.Search.find ("</" ++ tag ++ ">").toList (line ++ "\n" ++ rest).toList =
      some (stop + (line.toList.length + 1)) := by
    rw [toList_line, find_append_cons (marks htag).closing_ne (marks htag).notMem_closing hline, hstop]
    rfl
  obtain ⟨front, hfront⟩ := (marks htag).block_spanning hopens hcloses hfind
  have htake : (line ++ "\n" ++ rest).toList.take (stop + (line.toList.length + 1)) =
      line.toList ++ '\n' :: rest.toList.take stop := by
    have hlength : stop + (line.toList.length + 1) = line.toList.length + (stop + 1) := by omega
    rw [toList_line, hlength, List.take_length_add_append]
    rfl
  refine ⟨String.ofList front, String.ofList (rest.toList.take stop), ?_⟩
  rw [extractInlineBlock_eq, toList_line, hfront, htake, Option.map_some]
  congr 2
  rw [← String.toList_inj]
  simp

theorem extract_self (htag : '\n' ∉ tag.toList) (hslash : '/' ∉ tag.toList) (hbody : Unmarked body tag) (rest : String) :
    extractInlineBlock ("<" ++ tag ++ ">" ++ "\n" ++ (body ++ "\n" ++ ("</" ++ tag ++ ">" ++ rest))) tag =
      some (trim body) := by
  have hopening : ¬ ("</" ++ tag ++ ">").toList <:+: ("<" ++ tag ++ ">").toList := by
    intro hinfix
    have hmem : '/' ∈ ("<" ++ tag ++ ">").toList := hinfix.subset (by simp)
    simp [hslash] at hmem
  have hself := (marks htag).block_self hopening hbody.2 rest.toList
  have hclosing : ("</" ++ tag ++ ">" ++ rest).toList = ("</" ++ tag ++ ">").toList ++ rest.toList := String.toList_append
  rw [extractInlineBlock_eq, toList_line, toList_line, hclosing, hself, Option.map_some]
  have htext : String.ofList ('\n' :: (body.toList ++ ['\n'])) = "\n" ++ (body ++ "\n") := by
    rw [← String.toList_inj]
    simp
  rw [htext, trim_newline_append, trim_append_newline]

end Extracting

end CoreVpn.Cli.InlineBlocks
