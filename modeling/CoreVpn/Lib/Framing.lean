import CoreVpn.Lib.Machine

namespace Lib.Framing

open Lib.Machine

variable {α : Type}

/-- How long the frame at the front of a stream is, once enough of the stream
has come in to tell. -/
structure Sizing (α : Type) where
  size : List α → Option Nat
  pos : ∀ {p n}, size p = some n → 0 < n
  extend : ∀ {p n} (q), size p = some n → size (p ++ q) = some n

namespace Sizing

variable (S : Sizing α) {frames : List (List α)} {p r : List α} {limit fuel : Nat}

def IsFrame (f : List α) : Prop := S.size f = some f.length

def split : Nat → List α → List (List α) × List α
  | 0, p => ([], p)
  | fuel + 1, p =>
    match S.size p with
    | none => ([], p)
    | some n =>
      if p.length < n then ([], p)
      else
        let (frames, rest) := split fuel (p.drop n)
        (p.take n :: frames, rest)

def cut (p : List α) : List (List α) × List α := S.split p.length p

/-- A buffer with a limit: a chunk that does not fit is refused, and otherwise
the frames that are complete with it are cut off. -/
def absorb (limit : Nat) (buffer chunk : List α) : List (List α) × List α :=
  if limit < buffer.length + chunk.length then ([], buffer)
  else S.split (buffer ++ chunk).length (buffer ++ chunk)

variable {S}

theorem split_short (h : ∀ n, S.size p = some n → p.length < n) : S.split fuel p = ([], p) := by
  cases fuel with
  | zero => rfl
  | succ fuel =>
    rw [split]
    split
    · rfl
    · rename_i n hn
      rw [if_pos (h n hn)]

theorem split_frame {f : List α} (hf : S.IsFrame f) (rest : List α) :
    S.split (fuel + 1) (f ++ rest) = (f :: (S.split fuel rest).1, (S.split fuel rest).2) := by
  have hlen : ¬ (f ++ rest).length < f.length := by
    rw [List.length_append]
    omega
  simp only [split, S.extend rest hf, if_neg hlen, List.take_left, List.drop_left]

theorem split_flatten (fuel : Nat) (p : List α) :
    (S.split fuel p).1.flatten ++ (S.split fuel p).2 = p := by
  induction fuel generalizing p with
  | zero => rfl
  | succ fuel ih =>
    rw [split]
    split
    · rfl
    · split
      · rfl
      · rw [List.flatten_cons, List.append_assoc, ih, List.take_append_drop]

theorem split_cons {n : Nat} (hsize : S.size p = some n) (hle : n ≤ p.length) :
    S.split (fuel + 1) p = (p.take n :: (S.split fuel (p.drop n)).1, (S.split fuel (p.drop n)).2) := by
  simp only [split, hsize, if_neg (Nat.not_lt.mpr hle)]

@[elab_as_elim]
theorem stream_induction {motive : List α → Prop}
    (short : ∀ p, (∀ n, S.size p = some n → p.length < n) → motive p)
    (frame : ∀ p n, S.size p = some n → n ≤ p.length → (p.drop n).length < p.length → motive (p.drop n) → motive p)
    (p : List α) : motive p := by
  induction hlen : p.length using Nat.strong_induction_on generalizing p with
  | _ len ih =>
    subst hlen
    by_cases hshort : ∀ n, S.size p = some n → p.length < n
    · exact short p hshort
    · push Not at hshort
      obtain ⟨n, hsize, hle⟩ := hshort
      have hpos := S.pos hsize
      have hdrop : (p.drop n).length < p.length := by
        rw [List.length_drop]
        omega
      exact frame p n hsize hle hdrop (ih _ hdrop _ rfl)

theorem split_eq_cut (h : p.length ≤ fuel) : S.split fuel p = S.cut p := by
  rw [cut]
  induction p using S.stream_induction generalizing fuel with
  | short p hshort => rw [split_short hshort, split_short hshort]
  | frame p n hsize hle hdrop ih =>
    -- both have a turn for the first frame, and enough for what comes behind it
    obtain ⟨len, hlen⟩ : ∃ len, p.length = len + 1 := ⟨p.length - 1, by omega⟩
    obtain ⟨k, rfl⟩ : ∃ k, fuel = k + 1 := ⟨fuel - 1, by omega⟩
    rw [hlen, split_cons hsize hle, split_cons hsize hle, ih (by omega : (p.drop n).length ≤ k),
      ih (by omega : (p.drop n).length ≤ len)]

theorem cut_short (h : ∀ n, S.size p = some n → p.length < n) : S.cut p = ([], p) := split_short h

theorem cut_cons {n : Nat} (hsize : S.size p = some n) (hle : n ≤ p.length) :
    S.cut p = (p.take n :: (S.cut (p.drop n)).1, (S.cut (p.drop n)).2) := by
  have hdrop : (p.drop n).length ≤ p.length := by
    rw [List.length_drop]
    exact Nat.sub_le _ _
  rw [← split_eq_cut (Nat.le_succ p.length), split_cons hsize hle, split_eq_cut hdrop]

theorem cut_flatten (p : List α) : (S.cut p).1.flatten ++ (S.cut p).2 = p := split_flatten _ p

theorem cut_append (p q : List α) :
    S.cut (p ++ q) = ((S.cut p).1 ++ (S.cut ((S.cut p).2 ++ q)).1, (S.cut ((S.cut p).2 ++ q)).2) := by
  induction p using S.stream_induction with
  | short p hshort =>
    rw [cut_short hshort]
    rfl
  | frame p n hsize hle _ ih =>
    have hle' : n ≤ (p ++ q).length := by
      rw [List.length_append]
      omega
    rw [cut_cons hsize hle, cut_cons (S.extend q hsize) hle', List.take_append_of_le_length hle,
      List.drop_append_of_le_length hle, ih]
    rfl

theorem cut_rest {n : Nat} (h : S.size (S.cut p).2 = some n) : (S.cut p).2.length < n := by
  induction p using S.stream_induction with
  | short p hshort =>
    rw [cut_short hshort] at h ⊢
    exact hshort n h
  | frame p m hsize hle _ ih =>
    rw [cut_cons hsize hle] at h ⊢
    exact ih h

theorem cut_frames (hself : ∀ p n, S.size p = some n → n ≤ p.length → S.size (p.take n) = some n) :
    ∀ f ∈ (S.cut p).1, S.IsFrame f := by
  induction p using S.stream_induction with
  | short p hshort =>
    rw [cut_short hshort]
    exact fun f hf => by cases hf
  | frame p n hsize hle _ ih =>
    rw [cut_cons hsize hle]
    intro f hf
    rcases List.mem_cons.mp hf with rfl | hf
    · rw [IsFrame, hself p n hsize hle, List.length_take, Nat.min_eq_left hle]
    · exact ih f hf

theorem split_of_frames (hframes : ∀ f ∈ frames, S.IsFrame f) (h : p ++ r = frames.flatten)
    (hfuel : p.length ≤ fuel) :
    ∃ done more rest, frames = done ++ more ∧ S.split fuel p = (done, rest) ∧ rest ++ r = more.flatten ∧
      ∀ f ∈ more.head?, rest.length < f.length := by
  induction frames generalizing p fuel with
  | nil =>
    obtain ⟨rfl, rfl⟩ := List.append_eq_nil_iff.mp h
    exact ⟨[], [], [], rfl, split_short fun n hn => S.pos hn, rfl, fun f hf => by cases hf⟩
  | cons f frames ih =>
    have hf : S.IsFrame f := hframes f List.mem_cons_self
    rw [List.flatten_cons] at h
    by_cases hlt : p.length < f.length
    · refine ⟨[], f :: frames, p, rfl, split_short fun n hn => ?_, h, fun g hg => ?_⟩
      · -- the size that the part already shows is the size of the whole frame
        have hwhole := (S.extend r hn).symm.trans ((congrArg S.size h).trans (S.extend _ hf))
        rw [Option.some.inj hwhole]
        exact hlt
      · cases hg
        exact hlt
    · obtain ⟨p', rfl, hp'⟩ : ∃ p', p = f ++ p' ∧ p' ++ r = frames.flatten := by
        refine ⟨p.drop f.length, ?_, ?_⟩
        · have htake := congrArg (List.take f.length) h
          rw [List.take_append_of_le_length (Nat.le_of_not_lt hlt), List.take_left] at htake
          conv_lhs => rw [← List.take_append_drop f.length p, htake]
        · have hdrop := congrArg (List.drop f.length) h
          rw [List.drop_append_of_le_length (Nat.le_of_not_lt hlt), List.drop_left] at hdrop
          exact hdrop
      have hpos := S.pos hf
      rw [List.length_append] at hfuel
      obtain ⟨fuel, rfl⟩ := Nat.exists_eq_succ_of_ne_zero (by omega : fuel ≠ 0)
      obtain ⟨done, more, rest, rfl, hsplit, hrest, hshort⟩ :=
        ih (fun g hg => hframes g (List.mem_cons_of_mem _ hg)) hp' (by omega : p'.length ≤ fuel)
      exact ⟨f :: done, more, rest, rfl, by rw [split_frame hf, hsplit], hrest, hshort⟩

theorem absorb_length_le (limit : Nat) (buffer chunk : List α) :
    (S.absorb limit buffer chunk).1.flatten.length + (S.absorb limit buffer chunk).2.length ≤
      buffer.length + chunk.length := by
  rw [absorb]
  split
  · exact Nat.le_trans (Nat.le_of_eq (Nat.zero_add _)) (Nat.le_add_right _ _)
  · rw [← List.length_append, split_flatten, List.length_append]

theorem run_length_le (limit : Nat) (buffer : List α) (chunks : List (List α)) :
    (outputs (S.absorb limit) buffer chunks).flatten.flatten.length +
      (exec (S.absorb limit) buffer chunks).length ≤ buffer.length + chunks.flatten.length := by
  induction chunks generalizing buffer with
  | nil => exact Nat.le_of_eq (Nat.zero_add _)
  | cons chunk chunks ih =>
    have hstep := absorb_length_le (S := S) limit buffer chunk
    have hrest := ih (S.absorb limit buffer chunk).2
    simp only [outputs_cons, exec_cons, List.flatten_cons, List.flatten_append, List.length_append] at hrest ⊢
    omega

/-- A stream of frames comes out again as it was put in, whatever chunks it
is cut into, as long as a frame and a chunk fit into the buffer together. -/
theorem run_frames (bound width : Nat) (hlimit : bound + width ≤ limit) {buffer : List α}
    {chunks : List (List α)} (hframes : ∀ f ∈ frames, S.IsFrame f ∧ f.length ≤ bound)
    (hchunks : ∀ c ∈ chunks, c.length ≤ width) (h : buffer ++ chunks.flatten = frames.flatten)
    (hshort : ∀ f ∈ frames.head?, buffer.length < f.length) :
    (outputs (S.absorb limit) buffer chunks).flatten = frames ∧ exec (S.absorb limit) buffer chunks = [] := by
  induction chunks generalizing buffer frames with
  | nil =>
    rw [List.flatten_nil, List.append_nil] at h
    cases frames with
    | nil => exact ⟨rfl, h⟩
    | cons f frames =>
      have hlt := hshort f rfl
      rw [h, List.flatten_cons, List.length_append] at hlt
      omega
  | cons chunk chunks ih =>
    have hroom : ¬ limit < buffer.length + chunk.length := by
      have hchunk := hchunks chunk List.mem_cons_self
      cases frames with
      | nil =>
        rw [List.flatten_nil, List.append_eq_nil_iff] at h
        rw [h.1]
        change ¬ limit < 0 + chunk.length
        omega
      | cons f frames =>
        have hbuffer := hshort f rfl
        have hbound := (hframes f List.mem_cons_self).2
        omega
    rw [List.flatten_cons, ← List.append_assoc] at h
    obtain ⟨done, more, rest, rfl, hsplit, hrest, hshort'⟩ :=
      split_of_frames (fun f hf => (hframes f hf).1) h le_rfl
    have habsorb : S.absorb limit buffer chunk = (done, rest) := by
      rw [absorb, if_neg hroom, hsplit]
    obtain ⟨houtputs, hexec⟩ := ih (fun f hf => hframes f (List.mem_append_right _ hf))
      (fun c hc => hchunks c (List.mem_cons_of_mem _ hc)) hrest hshort'
    rw [outputs_cons, exec_cons, habsorb, List.flatten_cons, houtputs, hexec]
    exact ⟨rfl, rfl⟩

end Sizing

end Lib.Framing
