import CoreVpn.Auth.AuthSessions
import CoreVpn.Lib.Machine

namespace CoreVpn.Auth.RateLimits

open Lib.Machine Lib.Tables Table AuthSessions

inductive Call where
  | check (key : String) (now : Int)
  | reset (key : String)
  | cleanup (now : Int)
  deriving DecidableEq

def step (limiter : RateLimiter) : Call → Option Bool × RateLimiter
  | .check key now =>
    let (allowed, limiter) := limiter.check key now
    (some allowed, limiter)
  | .reset key => (none, limiter.reset key)
  | .cleanup now => (none, limiter.cleanup now)

def Call.time : Call → Option Int
  | .check _ now => some now
  | .reset _ => none
  | .cleanup now => some now

def Ordered (calls : List Call) : Prop := (calls.filterMap Call.time).Pairwise (· ≤ ·)

def Call.isCheck : Call → Bool
  | .check _ _ => true
  | _ => false

inductive Visit where
  | check (now : Int)
  | reset
  deriving DecidableEq

def Call.visit (key : String) : Call → Option Visit
  | .check k now => if k = key then some (.check now) else none
  | .reset k => if k = key then some .reset else none
  | .cleanup _ => none

def visits (key : String) (calls : List Call) : List Visit := calls.filterMap (Call.visit key)

def live (window : Int) (opened : List Int) (now : Int) : List Int :=
  if ∃ first ∈ opened.head?, first + window ≤ now then [] else opened

/-- The checks of one key since its current window opened. A check at or after
the end of a window opens the next one, and so does the first one after a reset. -/
def currentWindow (window : Int) (visits : List Visit) : List Int :=
  visits.foldl (fun opened visit =>
    match visit with
    | .check now => live window opened now ++ [now]
    | .reset => []) []

section Windows

variable {window : Int} {key : String} {calls : List Call} {vs : List Visit}

theorem currentWindow_check (now : Int) :
    currentWindow window (vs ++ [.check now]) = live window (currentWindow window vs) now ++ [now] := by
  rw [currentWindow, List.foldl_append]
  rfl

theorem currentWindow_reset : currentWindow window (vs ++ [.reset]) = [] := by
  rw [currentWindow, List.foldl_append]
  rfl

theorem visits_append (key : String) (calls : List Call) (call : Call) :
    visits key (calls ++ [call]) = visits key calls ++ (call.visit key).toList := by
  rw [visits, List.filterMap_append, visits]
  cases h : call.visit key <;> simp [h]

theorem currentWindow_next (window : Int) (key : String) (calls : List Call) (call : Call) :
    (∃ now, call = .check key now ∧ currentWindow window (visits key (calls ++ [call])) =
      live window (currentWindow window (visits key calls)) now ++ [now]) ∨
    currentWindow window (visits key (calls ++ [call])) = [] ∨
    currentWindow window (visits key (calls ++ [call])) = currentWindow window (visits key calls) := by
  rw [visits_append]
  cases call with
  | check k now =>
    by_cases hk : k = key
    · subst hk
      refine .inl ⟨now, rfl, ?_⟩
      rw [Call.visit, if_pos rfl, Option.toList_some, currentWindow_check]
    · rw [Call.visit, if_neg hk, Option.toList_none, List.append_nil]
      exact .inr (.inr rfl)
  | reset k =>
    by_cases hk : k = key
    · rw [Call.visit, if_pos hk, Option.toList_some, currentWindow_reset]
      exact .inr (.inl rfl)
    · rw [Call.visit, if_neg hk, Option.toList_none, List.append_nil]
      exact .inr (.inr rfl)
  | cleanup now =>
    rw [Call.visit, Option.toList_none, List.append_nil]
    exact .inr (.inr rfl)

theorem live_sublist (window : Int) (opened : List Int) (now : Int) : (live window opened now).Sublist opened := by
  rw [live]
  split
  · exact List.nil_sublist _
  · exact List.Sublist.refl _

theorem length_currentWindow_le (window : Int) (key : String) (calls : List Call) :
    (currentWindow window (visits key calls)).length ≤ calls.countP Call.isCheck := by
  induction calls using List.reverseRecOn with
  | nil => exact Nat.le_refl 0
  | append_singleton calls call ih =>
    rw [List.countP_append]
    obtain ⟨now, rfl, hnext⟩ | hnext | hnext := currentWindow_next window key calls call
    · rw [hnext, List.length_append]
      exact Nat.add_le_add ((live_sublist window _ now).length_le.trans ih) (Nat.le_refl 1)
    · rw [hnext]
      exact Nat.zero_le _
    · rw [hnext]
      exact ih.trans (Nat.le_add_right _ _)

theorem mem_times_of_mem_currentWindow {t : Int} (h : t ∈ currentWindow window (visits key calls)) :
    t ∈ calls.filterMap Call.time := by
  induction calls using List.reverseRecOn with
  | nil => cases h
  | append_singleton calls call ih =>
    rw [List.filterMap_append, List.mem_append]
    obtain ⟨now, rfl, hnext⟩ | hnext | hnext := currentWindow_next window key calls call
    · rw [hnext, List.mem_append] at h
      obtain h | h := h
      · exact .inl (ih ((live_sublist window _ now).subset h))
      · exact .inr (by simpa [Call.time] using h)
    · rw [hnext] at h
      cases h
    · rw [hnext] at h
      exact .inl (ih h)

end Windows

section Entries

variable {window : Int} {opened : List Int} {now : Int} {entry : Option RateLimitEntry} {times : List Int}

def entryOf (window : Int) (opened : List Int) : Option RateLimitEntry :=
  opened.head?.map fun first => ⟨UInt32.ofNat opened.length, first + window⟩

/-- The entry of a key is that of its window. Only an entry whose window was over
at some time may be missing. -/
def Stands (window : Int) (times opened : List Int) (entry : Option RateLimitEntry) : Prop :=
  entry = entryOf window opened ∨
    (entry = none ∧ ∃ first ∈ opened.head?, ∃ t ∈ times, first + window ≤ t)

theorem count_of_entryOf {e : RateLimitEntry} (h : entryOf window opened = some e) :
    e.count = UInt32.ofNat opened.length := by
  obtain ⟨first, -, rfl⟩ := Option.map_eq_some_iff.mp h
  rfl

theorem not_over_of_live {first : Int} {rest : List Int} (h : live window opened now = first :: rest) :
    now < first + window := by
  rw [live] at h
  split at h
  · cases h
  · rename_i hlive
    subst h
    by_contra hover
    exact hlive ⟨first, rfl, not_lt.mp hover⟩

theorem live_of_over {first : Int} (hfirst : first ∈ opened.head?) (hover : first + window ≤ now) :
    live window opened now = [] := if_pos ⟨first, hfirst, hover⟩

theorem Stands.sweep (h : Stands window times opened entry) (htimes : ∀ t ∈ times, t ≤ now) :
    entry.filter (fun e => decide (e.resetAt > now)) = entryOf window (live window opened now) := by
  obtain rfl | ⟨rfl, first, hfirst, t, ht, hover⟩ := h
  · cases opened with
    | nil => rfl
    | cons first rest =>
      by_cases hover : first + window ≤ now
      · rw [live_of_over rfl hover]
        simp [entryOf, hover]
      · have hlive : live window (first :: rest) now = first :: rest := by
          refine if_neg ?_
          rintro ⟨_, ⟨⟩, h⟩
          exact hover h
        rw [hlive]
        simp [entryOf, not_le.mp hover]
  · rw [live_of_over hfirst (hover.trans (htimes t ht))]
    rfl

theorem stands_of_sweep (hnow : now ∈ times) : Stands window times opened (entryOf window (live window opened now)) := by
  by_cases hover : ∃ first ∈ opened.head?, first + window ≤ now
  · obtain ⟨first, hfirst, hover⟩ := hover
    rw [live_of_over hfirst hover]
    exact .inr ⟨rfl, first, hfirst, now, hnow, hover⟩
  · rw [live, if_neg hover]
    exact .inl rfl

theorem Stands.mono {times' : List Int} (h : Stands window times opened entry) (htimes : times ⊆ times') :
    Stands window times' opened entry := by
  obtain hentry | ⟨hentry, first, hfirst, t, ht, hover⟩ := h
  · exact .inl hentry
  · exact .inr ⟨hentry, first, hfirst, t, htimes ht, hover⟩

def counted (window : Int) (now : Int) (entry : Option RateLimitEntry) : RateLimitEntry :=
  let entry := entry.getD ⟨0, now + window⟩
  let entry := if now ≥ entry.resetAt then ⟨0, now + window⟩ else entry
  { entry with count := entry.count + 1 }

theorem counted_none (window now : Int) : counted window now none = ⟨1, now + window⟩ := by
  rw [counted]
  split <;> rfl

theorem counted_some {e : RateLimitEntry} (h : now < e.resetAt) :
    counted window now (some e) = { e with count := e.count + 1 } := by
  have hopen : ¬ now ≥ e.resetAt := not_le.mpr h
  rw [counted]
  split
  · exact absurd ‹_› hopen
  · rfl

theorem counted_entryOf (window : Int) (opened : List Int) (now : Int) :
    some (counted window now (entryOf window (live window opened now))) =
      entryOf window (live window opened now ++ [now]) := by
  cases hlive : live window opened now with
  | nil =>
    have hentry : entryOf window [] = none := rfl
    rw [hentry, counted_none]
    rfl
  | cons first rest =>
    have hentry : entryOf window (first :: rest) = some ⟨UInt32.ofNat (rest.length + 1), first + window⟩ := rfl
    have hcount : UInt32.ofNat (rest.length + 1) + 1 = UInt32.ofNat (rest.length + 1 + 1) := by
      rw [UInt32.ofNat_add (rest.length + 1) 1]
      rfl
    rw [hentry, counted_some (not_over_of_live hlive), entryOf]
    simp only [List.cons_append, List.head?_cons, Option.map_some, List.length_cons, List.length_append,
      List.length_nil, hcount]

end Entries

section Runs

variable {maxAttempts : UInt32} {window : Nat} {calls : List Call} {call : Call} {limiter : RateLimiter}

structure Tracks (maxAttempts : UInt32) (window : Nat) (calls : List Call) (limiter : RateLimiter) : Prop where
  maxAttempts_eq : limiter.maxAttempts = maxAttempts
  window_eq : limiter.window = window
  stands : ∀ key, Stands window (calls.filterMap Call.time) (currentWindow window (visits key calls))
    (limiter.entries.find key)

theorem check_eq (key : String) (now : Int) (limiter : RateLimiter) :
    limiter.check key now =
      (decide ((counted limiter.window now ((limiter.cleanup now).entries.find key)).count ≤ limiter.maxAttempts),
        { limiter with
          entries := (limiter.cleanup now).entries.insert key
            (counted limiter.window now ((limiter.cleanup now).entries.find key)) }) := rfl

theorem tracks_new (maxAttempts : UInt32) (window : Nat) :
    Tracks maxAttempts window [] (RateLimiter.new maxAttempts window) := ⟨rfl, rfl, fun _ => .inl rfl⟩

theorem le_of_ordered (h : Ordered (calls ++ [call])) {now : Int} (hnow : call.time = some now) :
    ∀ t ∈ calls.filterMap Call.time, t ≤ now := by
  intro t ht
  rw [Ordered, List.filterMap_append, List.pairwise_append] at h
  exact h.2.2 t ht now (by simp [hnow])

theorem Tracks.find_cleanup (h : Tracks maxAttempts window calls limiter) {now : Int}
    (htimes : ∀ t ∈ calls.filterMap Call.time, t ≤ now) (key : String) :
    (limiter.cleanup now).entries.find key =
      entryOf window (live window (currentWindow window (visits key calls)) now) :=
  (h.stands key).sweep htimes

theorem Tracks.next (h : Tracks maxAttempts window calls limiter) (hordered : Ordered (calls ++ [call])) :
    Tracks maxAttempts window (calls ++ [call]) (step limiter call).2 := by
  have htimes : calls.filterMap Call.time ⊆ (calls ++ [call]).filterMap Call.time := by
    rw [List.filterMap_append]
    exact List.subset_append_left _ _
  have hnow : ∀ {now}, call.time = some now → now ∈ (calls ++ [call]).filterMap Call.time := by
    intro now htime
    exact List.mem_filterMap.mpr ⟨call, by simp, htime⟩
  cases call with
  | check k now =>
    have hswept := h.find_cleanup (le_of_ordered hordered rfl)
    refine ⟨h.maxAttempts_eq, h.window_eq, fun key => ?_⟩
    rw [visits_append]
    by_cases hk : key = k
    · subst hk
      have hfind : (step limiter (.check key now)).2.entries.find key =
          some (counted limiter.window now ((limiter.cleanup now).entries.find key)) := find_insert_self
      rw [hfind, hswept, h.window_eq, counted_entryOf, Call.visit, if_pos rfl, Option.toList_some, currentWindow_check]
      exact .inl rfl
    · have hfind : (step limiter (.check k now)).2.entries.find key = (limiter.cleanup now).entries.find key :=
        find_insert_of_ne hk
      rw [hfind, hswept, Call.visit, if_neg (Ne.symm hk), Option.toList_none, List.append_nil]
      exact stands_of_sweep (hnow rfl)
  | reset k =>
    refine ⟨h.maxAttempts_eq, h.window_eq, fun key => ?_⟩
    rw [visits_append]
    by_cases hk : key = k
    · subst hk
      have hfind : (step limiter (.reset key)).2.entries.find key = none := find_erase_self
      rw [hfind, Call.visit, if_pos rfl, Option.toList_some, currentWindow_reset]
      exact .inl rfl
    · have hfind : (step limiter (.reset k)).2.entries.find key = limiter.entries.find key := find_erase_of_ne hk
      rw [hfind, Call.visit, if_neg (Ne.symm hk), Option.toList_none, List.append_nil]
      exact (h.stands key).mono htimes
  | cleanup now =>
    have hswept := h.find_cleanup (le_of_ordered hordered rfl)
    refine ⟨h.maxAttempts_eq, h.window_eq, fun key => ?_⟩
    have hfind : (step limiter (.cleanup now)).2.entries.find key = (limiter.cleanup now).entries.find key := rfl
    rw [visits_append, hfind, hswept, Call.visit, Option.toList_none, List.append_nil]
    exact stands_of_sweep (hnow rfl)

theorem Ordered.of_append {more : List Call} (h : Ordered (calls ++ more)) : Ordered calls := by
  rw [Ordered, List.filterMap_append, List.pairwise_append] at h
  exact h.1

theorem tracks_exec (maxAttempts : UInt32) (window : Nat) (hordered : Ordered calls) :
    Tracks maxAttempts window calls (exec step (RateLimiter.new maxAttempts window) calls) := by
  induction calls using List.reverseRecOn with
  | nil => exact tracks_new maxAttempts window
  | append_singleton calls call ih =>
    rw [exec_append]
    exact (ih hordered.of_append).next hordered

/-- The answer of a check, as long as the counter of its key does not overflow. -/
theorem check_exec (maxAttempts : UInt32) (window : Nat) {key : String} {now : Int}
    (hordered : Ordered (calls ++ [.check key now]))
    (hlength : (currentWindow window (visits key (calls ++ [.check key now]))).length < 2 ^ 32) :
    ((exec step (RateLimiter.new maxAttempts window) calls).check key now).1 =
      decide ((currentWindow window (visits key (calls ++ [.check key now]))).length ≤ maxAttempts.toNat) := by
  have htracks := tracks_exec maxAttempts window hordered.of_append
  generalize exec step (RateLimiter.new maxAttempts window) calls = limiter at htracks
  have hvisits : visits key (calls ++ [.check key now]) = visits key calls ++ [.check now] := by
    rw [visits_append, Call.visit, if_pos rfl]
    rfl
  rw [hvisits, currentWindow_check] at hlength ⊢
  have hentry := counted_entryOf window (currentWindow window (visits key calls)) now
  rw [← htracks.find_cleanup (le_of_ordered hordered rfl), ← htracks.window_eq] at hentry
  have hcounted := count_of_entryOf hentry.symm
  rw [htracks.window_eq] at hcounted
  rw [check_eq, htracks.maxAttempts_eq, htracks.window_eq, hcounted]
  simp only [UInt32.le_iff_toNat_le, UInt32.toNat_ofNat_of_lt' hlength]

/-- A check is allowed if and only if its key has had no more checks than allowed
since its current window opened. Only the calls of that key are looked at. -/
theorem rate_limit_exact (maxAttempts : UInt32) (window : Nat) {key : String} {now : Int}
    (hordered : Ordered (calls ++ [.check key now]))
    (hcount : (calls ++ [Call.check key now]).countP Call.isCheck < 2 ^ 32) :
    (step (exec step (RateLimiter.new maxAttempts window) calls) (.check key now)).1 =
      some (decide ((currentWindow window (visits key (calls ++ [.check key now]))).length ≤ maxAttempts.toNat)) := by
  have hlength := (length_currentWindow_le window key (calls ++ [.check key now])).trans_lt hcount
  exact congrArg some (check_exec maxAttempts window hordered hlength)

def sampleCalls : List Call :=
  [.check "alice" 0, .check "bob" 10, .check "alice" 30, .cleanup 40, .reset "bob"]

theorem third_check_refused :
    Ordered (sampleCalls ++ [.check "alice" 50]) ∧
      (sampleCalls ++ [Call.check "alice" 50]).countP Call.isCheck < 2 ^ 32 ∧
      (step (exec step (RateLimiter.new 2 60) sampleCalls) (.check "alice" 50)).1 = some false := by
  have hordered : Ordered (sampleCalls ++ [.check "alice" 50]) := by
    rw [Ordered]
    decide
  have hcount : (sampleCalls ++ [Call.check "alice" 50]).countP Call.isCheck < 2 ^ 32 := by decide
  exact ⟨hordered, hcount, (rate_limit_exact 2 60 hordered hcount).trans (by decide)⟩

end Runs

end CoreVpn.Auth.RateLimits
