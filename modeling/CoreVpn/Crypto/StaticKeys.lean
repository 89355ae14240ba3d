import CoreVpn.Lib.Lines

namespace CoreVpn.Crypto.StaticKeys

open Lib.Wire Lib.Text Lib.Lines

variable {size fuel : Nat} {data : Bytes}

def chunks (size : Nat) : Nat → Bytes → List Bytes
  | 0, _ => []
  | fuel + 1, data => if data.isEmpty then [] else data.take size :: chunks size fuel (data.drop size)

def hexLine (chunk : Bytes) : String := String.join (chunk.map fun byte => hexPadded 2 byte.toNat)

def formatStaticKey (key : ByteVec 256) : String :=
  "#\n" ++ "# 2048 bit OpenVPN static key\n" ++ "#\n" ++ "-----BEGIN OpenVPN Static key V1-----\n" ++
    String.join ((chunks 16 256 key.toList).map fun chunk => hexLine chunk ++ "\n") ++
    "-----END OpenVPN Static key V1-----\n"

theorem flatten_chunks (hsize : 0 < size) (h : data.length ≤ fuel) : (chunks size fuel data).flatten = data := by
  induction fuel generalizing data with
  | zero => simpa [chunks, eq_comm] using h
  | succ fuel ih =>
    rw [chunks]
    split
    · rename_i hempty
      rw [List.isEmpty_iff.mp hempty]
      rfl
    · have hrest : (data.drop size).length ≤ fuel := by
        rw [List.length_drop]
        omega
      rw [List.flatten_cons, ih hrest, List.take_append_drop]

theorem ne_nil_of_mem_chunks (hsize : 0 < size) {chunk : Bytes} (h : chunk ∈ chunks size fuel data) : chunk ≠ [] := by
  induction fuel generalizing data with
  | zero => cases h
  | succ fuel ih =>
    rw [chunks] at h
    split at h
    · cases h
    · rename_i hempty
      rcases List.mem_cons.mp h with rfl | hrest
      · rw [ne_eq, List.take_eq_nil_iff, not_or]
        exact ⟨by omega, fun hnil => hempty (List.isEmpty_iff.mpr hnil)⟩
      · exact ih hrest

def keyLines (key : ByteVec 256) : List String :=
  ["#", "# 2048 bit OpenVPN static key", "#", "-----BEGIN OpenVPN Static key V1-----"] ++
    (chunks 16 256 key.toList).map hexLine ++ ["-----END OpenVPN Static key V1-----"]

theorem formatStaticKey_eq (key : ByteVec 256) :
    formatStaticKey key = String.intercalate "\n" (keyLines key) ++ "\n" := by
  have hnumber : "#" ++ "\n" = "#\n" := by decide
  have htitle : "# 2048 bit OpenVPN static key" ++ "\n" = "# 2048 bit OpenVPN static key\n" := by decide
  have hbegin : "-----BEGIN OpenVPN Static key V1-----" ++ "\n" = "-----BEGIN OpenVPN Static key V1-----\n" := by decide
  have hend : "-----END OpenVPN Static key V1-----" ++ "\n" = "-----END OpenVPN Static key V1-----\n" := by decide
  have hne : keyLines key ≠ [] := List.cons_ne_nil _ _
  have hjoin : String.intercalate "\n" (keyLines key) ++ "\n" = _ := intercalate_append_separator hne
  rw [hjoin, keyLines, List.map_append, List.map_append, List.map_map, String.join_append, String.join_append,
    formatStaticKey]
  simp only [List.map_cons, List.map_nil, String.join_cons, String.join_nil, String.append_empty, String.append_assoc,
    hnumber, htitle, hbegin, hend, Function.comp_def]

theorem trim_formatStaticKey (key : ByteVec 256) :
    trim (formatStaticKey key) = String.intercalate "\n" (keyLines key) := by
  have htext := congrArg String.toList (formatStaticKey_eq key)
  rw [String.toList_append] at htext
  rw [formatStaticKey_eq, trim_append_newline]
  generalize String.intercalate "\n" (keyLines key) = text at htext
  apply trim_of_ends
  · intro c hc
    have hhead := congrArg List.head? htext
    rw [List.head?_append, hc] at hhead
    have hnumber : '#' = c := by simpa [formatStaticKey] using hhead
    rw [← hnumber]
    decide
  · intro c hc
    have hend : "-----END OpenVPN Static key V1-----\n".toList =
        "-----END OpenVPN Static key V1----".toList ++ ['-'] ++ "\n".toList := by decide
    rw [formatStaticKey, String.toList_append, hend, ← List.append_assoc, ← List.append_assoc] at htext
    rw [← List.append_cancel_right htext, List.getLast?_concat] at hc
    rw [← Option.some.inj hc]
    decide

end CoreVpn.Crypto.StaticKeys
