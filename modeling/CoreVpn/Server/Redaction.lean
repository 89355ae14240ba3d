import CoreVpn.Lib.Computation
import CoreVpn.Lib.Outlines
import CoreVpn.Lib.Slices

namespace CoreVpn.Server.Redaction

open Lib.Computation Lib.Text Lib.Json Lib.Outlines Lib.Slices

section Redacting

variable (parse : String → Option Value) (toLowercase : String → String)

def isSensitive (key : String) : Bool :=
  let lower := toLowercase key
  contains lower "token" || contains lower "secret"

def insertField (key : String) (v : Value) (fields : List (String × Value)) : List (String × Value) :=
  fields.map fun field => if field.1 = key then (key, v) else field

def redactField (fields : List (String × Value)) (key : String) : List (String × Value) :=
  if isSensitive toLowercase key then insertField key (.string "[REDACTED]") fields else fields

/-- Only the keys of the outermost object are looked at. -/
def redact : Value → Value
  | .object fields => .object ((fields.map Prod.fst).foldl (redactField toLowercase) fields)
  | v => v

/-- A cut inside a character panics. -/
def truncate (text : String) : Outcome Empty String :=
  if (asBytes text).length > 200 then
    match takeBytes 200 text.toList with
    | some front => .ok (String.ofList front ++ "...")
    | none => .error .panic
  else .ok text

def redactOauthError (body : String) : Outcome Empty String :=
  match parse body with
  | some value => truncate (print (redact toLowercase value))
  | none => truncate body

end Redacting

section Outlines

variable {toLowercase : String → String}

def redacted (toLowercase : String → String) (field : String × Value) : String × Value :=
  if isSensitive toLowercase field.1 then (field.1, .string "[REDACTED]") else field

theorem fst_redacted (field : String × Value) : (redacted toLowercase field).1 = field.1 := by
  rw [redacted]
  split <;> rfl

theorem redacted_redacted (field : String × Value) :
    redacted toLowercase (redacted toLowercase field) = redacted toLowercase field := by
  by_cases h : isSensitive toLowercase field.1 = true
  · simp [redacted, h]
  · simp [redacted, h]

theorem redactField_eq (fields : List (String × Value)) (key : String) : redactField toLowercase fields key =
    fields.map fun field => if field.1 = key then redacted toLowercase field else field := by
  rw [redactField, insertField]
  split
  · rename_i hkey
    refine List.map_congr_left fun field hfield => ?_
    split
    · rename_i heq
      rw [redacted, heq, if_pos hkey]
    · rfl
  · rename_i hkey
    refine (List.map_id fields).symm.trans (List.map_congr_left fun field hfield => ?_)
    split
    · rename_i heq
      rw [redacted, heq, if_neg hkey]
      rfl
    · rfl

theorem redact_object (fields : List (String × Value)) :
    redact toLowercase (.object fields) = .object (fields.map (redacted toLowercase)) := by
  have hfold : ∀ (keys : List String) (fields : List (String × Value)),
      keys.foldl (redactField toLowercase) fields =
        fields.map fun field => if field.1 ∈ keys then redacted toLowercase field else field := by
    intro keys
    induction keys with
    | nil => simp
    | cons key keys ih =>
      intro fields
      rw [List.foldl_cons, ih, redactField_eq, List.map_map]
      refine List.map_congr_left fun field hfield => ?_
      by_cases hkey : field.1 = key
      · simp [hkey, fst_redacted, redacted_redacted]
      · simp [hkey]
  rw [redact, hfold]
  exact congrArg _ (List.map_congr_left fun field hfield => if_pos (List.mem_map_of_mem hfield))

def redactedOutline (toLowercase : String → String) : Value → List (Option Char)
  | .object fields => bracket (some '\x7b') (some ',') (some '\x7d') (fields.map fun field =>
      fieldOutline field.1
        (if isSensitive toLowercase field.1 then (quote "[REDACTED]").map some
        else outline (isSensitive toLowercase) field.2))
  | v => outline (isSensitive toLowercase) v

theorem redactedOutline_cover (w v : Value) :
    redactedOutline toLowercase (cover (isSensitive toLowercase) w v) = redactedOutline toLowercase v := by
  cases v with
  | object fields =>
    rw [cover_object, redactedOutline, redactedOutline, List.map_map]
    refine congrArg _ (List.map_congr_left fun field hfield => congrArg (fieldOutline field.1) ?_)
    cases hhide : isSensitive toLowercase field.1 with
    | true => simp
    | false => simp [hhide, outline_cover]
  | array items => exact outline_cover _ _ _
  | null => rfl
  | bool b => rfl
  | number n => rfl
  | string s => rfl

theorem matches_redacted (v : Value) : Matches (redactedOutline toLowercase v) (chars (redact toLowercase v)) := by
  cases v with
  | object fields =>
    rw [redact_object, redactedOutline, chars_object, List.map_map]
    refine .bracket ?_
    rw [List.forall₂_map_left_iff, List.forall₂_map_right_iff, List.forall₂_same]
    intro field hfield
    rw [Function.comp_apply, redacted]
    split
    · exact .field field.1 (.map_some _)
    · exact .field field.1 (matches_outline _ _)
  | array items => exact matches_outline _ _
  | null => exact matches_outline _ _
  | bool b => exact matches_outline _ _
  | number n => exact matches_outline _ _
  | string s => exact matches_outline _ _

theorem chars_redact_cover (w v : Value) :
    chars (redact toLowercase (cover (isSensitive toLowercase) w v)) =
      fill (chars w) (redactedOutline toLowercase v) := by
  cases v with
  | object fields =>
    rw [cover_object, redact_object, chars_object, redactedOutline, fill_bracket, List.map_map, List.map_map,
      List.map_map]
    refine congrArg _ (List.map_congr_left fun field hfield => ?_)
    simp only [Function.comp_apply, fill_fieldOutline, redacted]
    cases hhide : isSensitive toLowercase field.1 with
    | true => simp [fill_map_some, chars]
    | false => simp [chars_cover]
  | array items => exact chars_cover _ _ _
  | null => exact chars_cover _ _ _
  | bool b => exact chars_cover _ _ _
  | number n => exact chars_cover _ _ _
  | string s => exact chars_cover _ _ _

end Outlines

section Truncating

variable {front back : List Char} {out : String}

theorem truncate_eq (chars : List Char) : truncate (String.ofList chars) =
    if 200 < byteLength chars then
      match takeBytes 200 chars with
      | some front => .ok (String.ofList front ++ "...")
      | none => .error .panic
    else .ok (String.ofList chars) := by
  rw [truncate, length_asBytes_eq, String.toList_ofList]

theorem length_of_truncate {text : String} (h : truncate text = .ok out) : (asBytes out).length ≤ 203 := by
  rw [truncate] at h
  split at h
  · split at h
    · rename_i front hfront
      cases h
      have hdots : (asBytes "...").length = 3 := by decide +kernel
      rw [asBytes_append, List.length_append, length_asBytes_eq, String.toList_ofList,
        (takeBytes_eq_some_iff.mp hfront).2, hdots]
    · cases h
  · cases h
    omega

theorem truncate_of_boundary (hboundary : HasBoundary 200 front) :
    ∃ out, ∀ back, back ≠ [] → truncate (String.ofList (front ++ back)) = .ok out := by
  obtain ⟨taken, hpre, hlength⟩ := hboundary
  refine ⟨String.ofList taken ++ "...", fun back hback => ?_⟩
  have hfront : 200 ≤ byteLength front := by
    obtain ⟨rest, rfl⟩ := hpre
    rw [byteLength_append]
    omega
  have hpos := byteLength_pos hback
  rw [truncate_eq, if_pos (by rw [byteLength_append]; omega), takeBytes_append hfront,
    takeBytes_eq_some_iff.mpr ⟨hpre, hlength⟩]

theorem boundary_of_truncate (hfront : 200 ≤ byteLength front) (hback : back ≠ [])
    (h : truncate (String.ofList (front ++ back)) = .ok out) : HasBoundary 200 front := by
  have hpos := byteLength_pos hback
  rw [truncate_eq, if_pos (by rw [byteLength_append]; omega), takeBytes_append hfront] at h
  by_contra hnone
  rw [takeBytes_eq_none_iff.mpr hnone] at h
  cases h

theorem prefix_of_truncate (hfront : byteLength front ≤ 200)
    (h : truncate (String.ofList (front ++ back)) = .ok out) : front <+: out.toList := by
  rw [truncate_eq] at h
  split at h
  · split at h
    · rename_i taken htaken
      cases h
      rw [String.toList_append, String.toList_ofList]
      exact (prefix_of_takeBytes htaken hfront).trans (List.prefix_append _ _)
    · cases h
  · cases h
    rw [String.toList_ofList]
    exact List.prefix_append _ _

theorem truncate_isOk_iff (chars : List Char) :
    (∃ out, truncate (String.ofList chars) = .ok out) ↔ HasBoundary 200 chars ∨ byteLength chars ≤ 200 := by
  rw [truncate_eq]
  split
  · rename_i hlong
    rw [or_iff_left (by omega)]
    cases htaken : takeBytes 200 chars with
    | some front => exact iff_of_true ⟨_, rfl⟩ ⟨front, takeBytes_eq_some_iff.mp htaken⟩
    | none =>
      refine iff_of_false ?_ (takeBytes_eq_none_iff.mp htaken)
      rintro ⟨out, hout⟩
      cases hout
  · rename_i hshort
    exact iff_of_true ⟨_, rfl⟩ (.inr (by omega))

end Truncating

section Safety

variable {parse : String → Option Value} {toLowercase : String → String} {body : String}

/-- Both are JSON, and they are alike but for sensitive values. -/
def DifferInSecrets (parse : String → Option Value) (toLowercase : String → String) (body body' : String) : Prop :=
  ∃ v v', parse body = some v ∧ parse body' = some v' ∧
    cover (isSensitive toLowercase) .null v = cover (isSensitive toLowercase) .null v'

/-- There is no panic, few bytes are returned, and they tell nothing of sensitive values. -/
structure Safe (parse : String → Option Value) (toLowercase : String → String) (body : String) : Prop where
  returns : ∃ out, redactOauthError parse toLowercase body = .ok out ∧ (asBytes out).length ≤ 203
  independent : ∀ body', DifferInSecrets parse toLowercase body body' →
    redactOauthError parse toLowercase body' = redactOauthError parse toLowercase body

/-- The text that is cut, with a gap for each sensitive value that is left in it. -/
def bodyOutline (parse : String → Option Value) (toLowercase : String → String) (body : String) : List (Option Char) :=
  match parse body with
  | some v => redactedOutline toLowercase v
  | none => body.toList.map some

/-- The first gap is behind byte 200 and this is no place inside a character, or
there is no gap and nothing to cut. -/
def Harmless (parse : String → Option Value) (toLowercase : String → String) (body : String) : Prop :=
  HasBoundary 200 (visible (bodyOutline parse toLowercase body)) ∨
    none ∉ bodyOutline parse toLowercase body ∧ byteLength (visible (bodyOutline parse toLowercase body)) ≤ 200

/-- The library reads what it prints, and can hold a value in which others are put
under the keys that are there. -/
structure Faithful (parse : String → Option Value) (normal : Value → Prop) : Prop where
  normal_of_parse : ∀ body v, parse body = some v → normal v
  parse_print : ∀ v, normal v → parse (print v) = some v
  normal_cover : ∀ hide b v, normal v → normal (cover hide (.bool b) v)

def bodyText (parse : String → Option Value) (toLowercase : String → String) (body : String) : List Char :=
  match parse body with
  | some v => chars (redact toLowercase v)
  | none => body.toList

theorem redactOauthError_eq (body : String) : redactOauthError parse toLowercase body =
    truncate (String.ofList (bodyText parse toLowercase body)) := by
  rw [redactOauthError, bodyText]
  cases parse body with
  | some v => rfl
  | none => rw [String.ofList_toList]

theorem matches_bodyText (body : String) :
    Matches (bodyOutline parse toLowercase body) (bodyText parse toLowercase body) := by
  rw [bodyOutline, bodyText]
  cases parse body with
  | some v => exact matches_redacted v
  | none => exact .map_some _

theorem bodyOutline_of_differ {body' : String} (h : DifferInSecrets parse toLowercase body body') :
    bodyOutline parse toLowercase body' = bodyOutline parse toLowercase body := by
  obtain ⟨v, v', hv, hv', hcover⟩ := h
  rw [bodyOutline, bodyOutline, hv, hv']
  change redactedOutline toLowercase v' = redactedOutline toLowercase v
  rw [← redactedOutline_cover .null v, hcover, redactedOutline_cover]

theorem exists_filled {normal : Value → Prop} (h : Faithful parse normal)
    (hgap : none ∈ bodyOutline parse toLowercase body) (b : Bool) :
    ∃ body', DifferInSecrets parse toLowercase body body' ∧
      bodyText parse toLowercase body' = fill (chars (.bool b)) (bodyOutline parse toLowercase body) := by
  rw [bodyOutline] at hgap ⊢
  cases hv : parse body with
  | none =>
    rw [hv] at hgap
    simp at hgap
  | some v =>
    have hparse := h.parse_print _ (h.normal_cover (isSensitive toLowercase) b v (h.normal_of_parse body v hv))
    refine ⟨_, ⟨v, _, hv, hparse, (cover_cover _ _ _ _).symm⟩, ?_⟩
    rw [bodyText, hparse]
    exact chars_redact_cover (.bool b) v

theorem safe_of_harmless (h : Harmless parse toLowercase body) : Safe parse toLowercase body := by
  have hsame : ∃ out, ∀ text, Matches (bodyOutline parse toLowercase body) text →
      truncate (String.ofList text) = .ok out := by
    rw [Harmless] at h
    generalize bodyOutline parse toLowercase body = o at h
    obtain ⟨hnone, heq⟩ | ⟨rest, heq⟩ := visible_cases o
    · obtain ⟨out, hout⟩ := (truncate_isOk_iff (visible o)).mpr (h.imp_right And.right)
      refine ⟨out, fun text hmatches => ?_⟩
      rw [heq] at hmatches
      rw [hmatches.eq_of_map_some, hout]
    · have hboundary : HasBoundary 200 (visible o) := by
        refine h.resolve_right fun hshort => hshort.1 ?_
        rw [heq]
        simp
      obtain ⟨out, hout⟩ := truncate_of_boundary hboundary
      refine ⟨out, fun text hmatches => ?_⟩
      rw [heq] at hmatches
      obtain ⟨back, hback, rfl⟩ := hmatches.exists_append
      exact hout back hback
  obtain ⟨out, hout⟩ := hsame
  have hbody := hout _ (matches_bodyText body)
  refine ⟨⟨out, (redactOauthError_eq body).trans hbody, length_of_truncate hbody⟩, fun body' hdiffer => ?_⟩
  rw [redactOauthError_eq, redactOauthError_eq, hbody]
  refine hout _ ?_
  rw [← bodyOutline_of_differ hdiffer]
  exact matches_bodyText body'

/-- If a gap begins before byte 200, two bodies that differ in it are told apart. -/
theorem harmless_of_safe {normal : Value → Prop} (hfaithful : Faithful parse normal)
    (h : Safe parse toLowercase body) : Harmless parse toLowercase body := by
  obtain ⟨⟨out, hout, -⟩, hindependent⟩ := h
  have hmatches : Matches (bodyOutline parse toLowercase body) _ := matches_bodyText body
  have hfilled : none ∈ bodyOutline parse toLowercase body → ∀ b, ∃ body', DifferInSecrets parse toLowercase body body' ∧
      bodyText parse toLowercase body' = fill (chars (.bool b)) (bodyOutline parse toLowercase body) :=
    fun hgap b => exists_filled hfaithful hgap b
  rw [Harmless]
  generalize bodyOutline parse toLowercase body = o at hmatches hfilled
  obtain ⟨hnone, heq⟩ | ⟨rest, heq⟩ := visible_cases o
  · rw [heq] at hmatches
    rw [redactOauthError_eq, hmatches.eq_of_map_some] at hout
    exact ((truncate_isOk_iff (visible o)).mp ⟨out, hout⟩).imp_right fun hshort => ⟨hnone, hshort⟩
  · left
    have hgap : none ∈ o := by
      rw [heq]
      simp
    by_cases hlong : 200 ≤ byteLength (visible o)
    · rw [heq] at hmatches
      obtain ⟨back, hback, hbody⟩ := hmatches.exists_append
      rw [redactOauthError_eq, hbody] at hout
      exact boundary_of_truncate hlong hback hout
    · have hshown : ∀ b c text, chars (.bool b) = c :: text → c.utf8Size = 1 → visible o ++ [c] <+: out.toList := by
        intro b c text hchars hsize
        obtain ⟨body', hdiffer, hbody'⟩ := hfilled hgap b
        have hsame := (hindependent body' hdiffer).trans hout
        have hfill : fill (chars (.bool b)) o = visible o ++ [c] ++ (text ++ fill (chars (.bool b)) rest) := by
          nth_rewrite 1 [heq]
          rw [fill_append, fill_map_some, hchars]
          simp [fill]
        rw [redactOauthError_eq, hbody', hfill] at hsame
        refine prefix_of_truncate ?_ hsame
        have hnil : byteLength [] = 0 := rfl
        rw [byteLength_append, byteLength_cons, hsize]
        omega
      have htrue := hshown true 't' "rue".toList rfl (by decide)
      have hfalse := hshown false 'f' "alse".toList rfl (by decide)
      have heq' := List.prefix_of_prefix_length_le htrue hfalse (by simp)
      exact absurd (heq'.eq_of_length (by simp)) (by simp)

/-- A body is handled safely if and only if the cut is between characters and
comes before the first sensitive value that is left in the text. -/
theorem redaction_safe_iff (parse : String → Option Value) (normal : Value → Prop) (toLowercase : String → String)
    (hfaithful : Faithful parse normal) (body : String) :
    Safe parse toLowercase body ↔ Harmless parse toLowercase body :=
  ⟨harmless_of_safe hfaithful, safe_of_harmless⟩

end Safety

section Samples

def flat (w : Value) : Value := .object [("error", w)]

def nested (w : Value) : Value := flat (.object [("access_token", w)])

def scalars : List Value := [.bool true, .bool false, .string "abc"]

def known : List Value := scalars.map flat ++ scalars.map nested

def parseKnown (s : String) : Option Value := known.find? fun v => print v == s

def lowercase (s : String) : String := String.ofList (s.toList.map Char.toLower)

theorem faithful_known : Faithful parseKnown (· ∈ known) where
  normal_of_parse body v h := List.mem_of_find?_eq_some h
  parse_print v h := by
    simp only [known, scalars, List.map_cons, List.map_nil, List.cons_append, List.nil_append, List.mem_cons,
      List.not_mem_nil, or_false] at h
    rcases h with rfl | rfl | rfl | rfl | rfl | rfl <;> rfl
  normal_cover hide b v h := by
    have hbool : Value.bool b ∈ scalars := by cases b <;> simp [scalars]
    have hscalar : ∀ w ∈ scalars, cover hide (.bool b) w = w := by
      intro w hw
      simp only [scalars, List.mem_cons, List.not_mem_nil, or_false] at hw
      rcases hw with rfl | rfl | rfl <;> rfl
    have hflat : ∀ w ∈ scalars, flat w ∈ known := fun w hw => List.mem_append_left _ (List.mem_map_of_mem hw)
    have hnested : ∀ w ∈ scalars, nested w ∈ known := fun w hw => List.mem_append_right _ (List.mem_map_of_mem hw)
    have hcover : ∀ w, cover hide (.bool b) (flat w) =
        flat (if hide "error" then .bool b else cover hide (.bool b) w) := fun w => cover_object _
    obtain hmem | hmem := List.mem_append.mp h
    · obtain ⟨w, hw, rfl⟩ := List.mem_map.mp hmem
      rw [hcover, hscalar w hw]
      split
      · exact hflat _ hbool
      · exact hflat w hw
    · obtain ⟨w, hw, rfl⟩ := List.mem_map.mp hmem
      have hinner : cover hide (.bool b) (.object [("access_token", w)]) =
          .object [("access_token", if hide "access_token" then .bool b else w)] := by
        rw [cover_object, List.map_singleton, hscalar w hw]
      rw [nested, hcover, hinner]
      split
      · exact hflat _ hbool
      · split
        · exact hnested _ hbool
        · exact hnested w hw

theorem flat_error_safe : Safe parseKnown lowercase (print (flat (.string "abc"))) :=
  (redaction_safe_iff parseKnown (· ∈ known) lowercase faithful_known _).mpr
    (.inr ⟨by decide +kernel, by decide +kernel⟩)

/-- A body is cut inside a character, and a token inside an object is shown. -/
theorem redaction_unsafe :
    ¬ Safe (fun _ => none) lowercase (String.ofList (List.replicate 199 'a' ++ ['é', 'a'])) ∧
      ¬ Safe parseKnown lowercase (print (nested (.string "abc"))) := by
  constructor
  · rintro ⟨⟨out, hout, -⟩, -⟩
    have htorn : takeBytes 200 (List.replicate 199 'a' ++ ['é', 'a']) = none := by decide +kernel
    have hlong : 200 < byteLength (List.replicate 199 'a' ++ ['é', 'a']) := by decide +kernel
    rw [redactOauthError, truncate_eq, if_pos hlong, htorn] at hout
    cases hout
  · rintro ⟨-, hindependent⟩
    have hparse : ∀ w ∈ scalars, parseKnown (print (nested w)) = some (nested w) := fun w hw =>
      faithful_known.parse_print _ (List.mem_append_right _ (List.mem_map_of_mem hw))
    have htoken : isSensitive lowercase "access_token" = true := by decide +kernel
    have hcover : ∀ w, cover (isSensitive lowercase) .null (nested w) =
        cover (isSensitive lowercase) .null (nested .null) := by
      intro w
      simp [nested, flat, cover_object, htoken]
    have hsame := hindependent (print (nested (.bool true))) ⟨_, _, hparse (.string "abc") (by simp [scalars]),
      hparse (.bool true) (by simp [scalars]), (hcover _).trans (hcover _).symm⟩
    revert hsame
    decide +kernel

end Samples

end CoreVpn.Server.Redaction
