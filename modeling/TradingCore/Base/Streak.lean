import TradingCore.Base.Machine

/-!
# Streaks of a run

A run ends in a streak of steps of a kind if every step of its last part is of that kind, in the
state that received it. A streak is measured by the number of its steps and by the time of its
first one. `Streak.begins` and `Streak.goesOn` are the rules for accumulators that count steps or
keep a starting time: what resets them begins a streak, what advances them goes on with one.

`Since` is the same for the states that a run goes through: the time of the step that led into a
property that the states have had from then on.
-/

namespace Base.Machine

open List

variable {σ ι ω : Type} {m : Machine σ ι ω}
variable {Q : σ → ι → Prop} {s : σ} {past chain : List ι} {i : ι}

theorem guarded_append {is js : List ι} :
    m.Guarded Q s (is ++ js) ↔ m.Guarded Q s is ∧ m.Guarded Q (m.run s is) js := by
  induction is generalizing s with
  | nil => simp [Guarded]
  | cons i rest ih =>
    show Q s i ∧ m.Guarded Q (m.next s i) (rest ++ js) ↔ _
    rw [ih, run_cons, ← and_assoc]
    rfl

theorem Guarded.of_prefix {is : List ι} (h : m.Guarded Q s is) (hpre : past ++ [i] <+: is) :
    Q (m.run s past) i := by
  obtain ⟨rest, hrest⟩ := hpre
  rw [← hrest, append_assoc, guarded_append] at h
  exact h.2.1

variable (m) in
/-- The run `past` from `s` ends in `chain`, and each step of `chain` meets `Q`. -/
def EndsIn (Q : σ → ι → Prop) (s : σ) (past chain : List ι) : Prop :=
  ∃ before, past = before ++ chain ∧ m.Guarded Q (m.run s before) chain

theorem EndsIn.nil : m.EndsIn Q s past [] := ⟨past, by simp, trivial⟩

theorem EndsIn.concat (h : m.EndsIn Q s past chain) (hi : Q (m.run s past) i) :
    m.EndsIn Q s (past ++ [i]) (chain ++ [i]) := by
  obtain ⟨before, rfl, hchain⟩ := h
  refine ⟨before, by simp, guarded_append.mpr ⟨hchain, ?_, trivial⟩⟩
  rw [← run_append]
  exact hi

theorem EndsIn.imp {Q' : σ → ι → Prop} (himp : ∀ s i, Q s i → Q' s i)
    (h : m.EndsIn Q s past chain) : m.EndsIn Q' s past chain := by
  obtain ⟨before, rfl, hchain⟩ := h
  exact ⟨before, rfl, Guarded.imp (I := fun _ => True) (fun _ _ _ _ => trivial)
    (fun s i _ => himp s i) trivial hchain⟩

theorem EndsIn.within {before window : List ι}
    (h : m.EndsIn Q s (before ++ i :: window) chain) :
    m.EndsIn Q (m.run s (before ++ [i])) window chain ∨
      m.Guarded Q (m.run s before) (i :: window) := by
  obtain ⟨first, hsplit, hchain⟩ := h
  rw [append_cons, append_eq_append_iff] at hsplit
  rcases hsplit with ⟨part, hfirst, hwindow⟩ | ⟨part, hbefore, hwindow⟩
  · refine .inl ⟨part, hwindow, ?_⟩
    rw [← run_append, ← hfirst]
    exact hchain
  · cases part using reverseRecOn with
    | nil =>
      refine .inl ⟨[], hwindow.symm, ?_⟩
      rw [hbefore, append_nil]
      exact hchain
    | append_singleton part last =>
      rw [← append_assoc] at hbefore
      obtain ⟨rfl, hlast⟩ := append_inj' hbefore rfl
      injection hlast with hlast
      subst hlast
      rw [hwindow, append_assoc, guarded_append, ← run_append] at hchain
      exact .inr hchain.2

variable (m) in
/-- The run ends in at least `count` steps that meet `Q`, the first of them at time `start`. -/
def Streak (time : ι → Int) (Q : σ → ι → Prop) (s : σ) (past : List ι) (count start : Int) :
    Prop :=
  ∃ first rest, m.EndsIn Q s past (first :: rest) ∧ time first = start ∧
    count ≤ (first :: rest).length

variable {time : ι → Int} {count start : Int}

theorem Streak.begins (hi : Q (m.run s past) i) (hcount : count ≤ 1) :
    m.Streak time Q s (past ++ [i]) count (time i) :=
  ⟨i, [], EndsIn.nil.concat hi, rfl, by simpa using hcount⟩

section

variable (h : m.Streak time Q s past count start)
include h

theorem Streak.goesOn (hi : Q (m.run s past) i) :
    m.Streak time Q s (past ++ [i]) (count + 1) start := by
  obtain ⟨first, rest, hends, hstart, hcount⟩ := h
  refine ⟨first, rest ++ [i], hends.concat hi, hstart, ?_⟩
  simp only [length_cons, length_append, length_nil] at hcount ⊢
  omega

theorem Streak.shorten {count' : Int} (hle : count' ≤ count) :
    m.Streak time Q s past count' start := by
  obtain ⟨first, rest, hends, hstart, hcount⟩ := h
  exact ⟨first, rest, hends, hstart, by omega⟩

theorem Streak.start_mem : ∃ first ∈ past, time first = start := by
  obtain ⟨first, rest, ⟨before, rfl, -⟩, hstart, -⟩ := h
  exact ⟨first, by simp, hstart⟩

end

/-! ## States that last -/

variable {P : σ → Prop}

theorem always_concat {is : List ι} :
    m.Always P s (is ++ [i]) ↔ m.Always P s is ∧ P (m.run s (is ++ [i])) := by
  induction is generalizing s with
  | nil => exact Iff.rfl
  | cons j rest ih =>
    show P s ∧ m.Always P (m.next s j) (rest ++ [i]) ↔ _
    rw [ih, ← and_assoc]
    exact Iff.rfl

variable (m) in
/-- The last part of the run began at `start` with a step into `P`, and `P` held from then on. -/
def Since (time : ι → Int) (P : σ → Prop) (s : σ) (past : List ι) (start : Int) : Prop :=
  ∃ before first rest, past = before ++ first :: rest ∧ time first = start ∧
    ¬ P (m.run s before) ∧ m.Always P (m.run s (before ++ [first])) rest

theorem Since.begins (hnot : ¬ P (m.run s past)) (hi : P (m.run s (past ++ [i]))) :
    m.Since time P s (past ++ [i]) (time i) := ⟨past, i, [], rfl, rfl, hnot, hi⟩

theorem Since.goesOn (h : m.Since time P s past start) (hi : P (m.run s (past ++ [i]))) :
    m.Since time P s (past ++ [i]) start := by
  obtain ⟨before, first, rest, rfl, hstart, hnot, hrest⟩ := h
  refine ⟨before, first, rest ++ [i], by simp, hstart, hnot, always_concat.mpr ⟨hrest, ?_⟩⟩
  rw [← run_append]
  simpa using hi

end Base.Machine
