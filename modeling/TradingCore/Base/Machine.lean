import Mathlib.Data.List.Infix

/-!
# Deterministic machines and their runs

A machine answers an input and moves to a next state. A run is a finite list of
inputs. Two ways of speaking about a whole run are used throughout:

* `Always P s is` — every state met along the run, ends included, satisfies `P`;
* `Guarded ok s is` — every input of the run meets `ok` in the state that
  receives it.

`prefix_induction` is the rule for properties of the whole past of a run.
`always_of_guarded` is the induction rule (what one guarded step preserves, a
guarded run preserves) and `always_iff_guarded` its exact form: when one step
keeps `P` precisely if it meets the guard, a run keeps `P` precisely if every
step does.
-/

namespace Base

open List

theorem prefix_induction {ι : Type} {Q : List ι → Prop} {is : List ι} (start : Q [])
    (step : ∀ past i, past ++ [i] <+: is → Q past → Q (past ++ [i])) :
    ∀ past, past <+: is → Q past := by
  intro past
  induction past using reverseRecOn with
  | nil => exact fun _ => start
  | append_singleton past i ih =>
    intro hpre
    exact step past i hpre (ih ((prefix_append past [i]).trans hpre))

theorem forall_steps_cons {ι : Type} {P : List ι → ι → Prop} {i : ι} {is : List ι} :
    (∀ past j, past ++ [j] <+: i :: is → P past j) ↔
      P [] i ∧ ∀ past j, past ++ [j] <+: is → P (i :: past) j := by
  constructor
  · intro h
    refine ⟨h [] i ⟨is, rfl⟩, ?_⟩
    intro past j hpre
    exact h (i :: past) j (cons_prefix_cons.mpr ⟨rfl, hpre⟩)
  · rintro ⟨hhead, htail⟩ past j hpre
    cases past with
    | nil =>
      obtain ⟨rfl, -⟩ := cons_prefix_cons.mp hpre
      exact hhead
    | cons k past' =>
      obtain ⟨rfl, hpre'⟩ := cons_prefix_cons.mp hpre
      exact htail past' j hpre'

theorem forall_steps_nil {ι : Type} {P : List ι → ι → Prop} :
    ∀ past j, past ++ [j] <+: [] → P past j := by
  intro past j hpre
  simp at hpre

instance decidableForallSteps {ι : Type} (P : List ι → ι → Prop)
    [∀ past i, Decidable (P past i)] :
    ∀ is, Decidable (∀ past i, past ++ [i] <+: is → P past i)
  | [] => .isTrue forall_steps_nil
  | i :: is =>
      have := decidableForallSteps (fun past => P (i :: past)) is
      decidable_of_iff _ forall_steps_cons.symm

/-- One step of a machine with states `σ`, inputs `ι` and answers `ω`. -/
structure Machine (σ ι ω : Type) where
  step : σ → ι → σ × ω

namespace Machine

variable {σ ι ω : Type} (m : Machine σ ι ω)

def next (s : σ) (i : ι) : σ := (m.step s i).1

def out (s : σ) (i : ι) : ω := (m.step s i).2

def run : σ → List ι → σ
  | s, [] => s
  | s, i :: is => run (m.next s i) is

def outputs : σ → List ι → List ω
  | _, [] => []
  | s, i :: is => m.out s i :: outputs (m.next s i) is

/-- `P` holds in every state met along the run. -/
def Always (P : σ → Prop) : σ → List ι → Prop
  | s, [] => P s
  | s, i :: is => P s ∧ Always P (m.next s i) is

/-- Every input of the run meets `ok` in the state that receives it. -/
def Guarded (ok : σ → ι → Prop) : σ → List ι → Prop
  | _, [] => True
  | s, i :: is => ok s i ∧ Guarded ok (m.next s i) is

instance decidableAlways (P : σ → Prop) [DecidablePred P] :
    ∀ s is, Decidable (m.Always P s is)
  | s, [] => inferInstanceAs (Decidable (P s))
  | s, i :: is =>
      have := decidableAlways P (m.next s i) is
      inferInstanceAs (Decidable (P s ∧ m.Always P (m.next s i) is))

instance decidableGuarded (ok : σ → ι → Prop) [∀ s i, Decidable (ok s i)] :
    ∀ s is, Decidable (m.Guarded ok s is)
  | _, [] => .isTrue trivial
  | s, i :: is =>
      have := decidableGuarded ok (m.next s i) is
      inferInstanceAs (Decidable (ok s i ∧ m.Guarded ok (m.next s i) is))

@[simp] theorem run_nil (s : σ) : m.run s [] = s := rfl

@[simp] theorem run_cons (s : σ) (i : ι) (is : List ι) :
    m.run s (i :: is) = m.run (m.next s i) is := rfl

theorem run_append (s : σ) (is js : List ι) :
    m.run s (is ++ js) = m.run (m.run s is) js := by
  induction is generalizing s with
  | nil => rfl
  | cons i rest ih => exact ih (m.next s i)

theorem run_concat (s : σ) (is : List ι) (i : ι) :
    m.run s (is ++ [i]) = m.next (m.run s is) i := run_append m s is [i]

theorem outputs_append (s : σ) (is js : List ι) :
    m.outputs s (is ++ js) = m.outputs s is ++ m.outputs (m.run s is) js := by
  induction is generalizing s with
  | nil => rfl
  | cons i rest ih =>
    show m.out s i :: m.outputs (m.next s i) (rest ++ js) = _
    rw [ih (m.next s i)]
    rfl

theorem length_outputs (s : σ) (is : List ι) : (m.outputs s is).length = is.length := by
  induction is generalizing s with
  | nil => rfl
  | cons i rest ih => exact congrArg (· + 1) (ih _)

theorem zip_outputs_concat (s : σ) (is : List ι) (i : ι) :
    (is ++ [i]).zip (m.outputs s (is ++ [i])) =
      is.zip (m.outputs s is) ++ [(i, m.out (m.run s is) i)] := by
  rw [outputs_append, zip_append (m.length_outputs s is).symm]
  rfl

section Rules

variable {m}
variable {P I : σ → Prop} {ok : σ → ι → Prop}

variable {s : σ} {is : List ι} {ok' : σ → ι → Prop}

theorem Always.head (h : m.Always P s is) : P s := by
  cases is with
  | nil => exact h
  | cons i rest => exact h.1

theorem Always.imp {Q : σ → Prop} (himp : ∀ s, P s → Q s) (h : m.Always P s is) :
    m.Always Q s is := by
  induction is generalizing s with
  | nil => exact himp s h
  | cons i rest ih => exact ⟨himp s h.1, ih h.2⟩

/-- `Always` is a statement about the prefixes of the run. -/
theorem always_iff_prefix : m.Always P s is ↔ ∀ pre, pre <+: is → P (m.run s pre) := by
  induction is generalizing s with
  | nil =>
    constructor
    · intro h pre hpre
      rw [prefix_nil.mp hpre]
      exact h
    · intro h
      exact h [] nil_prefix
  | cons i rest ih =>
    constructor
    · rintro ⟨hs, hrest⟩ pre hpre
      cases pre with
      | nil => exact hs
      | cons j pre' =>
        obtain ⟨rfl, hpre'⟩ := cons_prefix_cons.mp hpre
        exact ih.mp hrest pre' hpre'
    · intro h
      refine ⟨h [] nil_prefix, ih.mpr ?_⟩
      intro pre hpre
      exact h (i :: pre) (cons_prefix_cons.mpr ⟨rfl, hpre⟩)

/-- `Guarded` is a statement about the steps of the run. -/
theorem guarded_iff_prefix :
    m.Guarded ok s is ↔ ∀ pre i, pre ++ [i] <+: is → ok (m.run s pre) i := by
  induction is generalizing s with
  | nil =>
    refine ⟨fun _ pre i hpre => ?_, fun _ => trivial⟩
    simp at hpre
  | cons j rest ih =>
    constructor
    · rintro ⟨hs, hrest⟩ pre i hpre
      cases pre with
      | nil =>
        obtain ⟨rfl, -⟩ := cons_prefix_cons.mp hpre
        exact hs
      | cons k pre' =>
        obtain ⟨rfl, hpre'⟩ := cons_prefix_cons.mp hpre
        exact ih.mp hrest pre' i hpre'
    · intro h
      refine ⟨h [] j (cons_prefix_cons.mpr ⟨rfl, nil_prefix⟩), ih.mpr ?_⟩
      intro pre i hpre
      exact h (j :: pre) i (cons_prefix_cons.mpr ⟨rfl, hpre⟩)

theorem run_preserves (hstep : ∀ s i, I s → I (m.next s i)) (hs : I s) : ∀ is, I (m.run s is) := by
  intro is
  induction is generalizing s with
  | nil => exact hs
  | cons i rest ih => exact ih (hstep s i hs)

theorem pending_or_settled {Settles : σ → ι → Prop}
    (hstep : ∀ s i, I s → I (m.next s i) ∨ Settles s i) (hs : I s) (is : List ι) :
    I (m.run s is) ∨
      ∃ past i, past ++ [i] <+: is ∧ I (m.run s past) ∧ Settles (m.run s past) i := by
  induction is generalizing s with
  | nil => exact .inl hs
  | cons i rest ih =>
    rcases hstep s i hs with hnext | hsettles
    · refine (ih hnext).imp_right ?_
      rintro ⟨past, j, hpre, hpending, hsettles⟩
      exact ⟨i :: past, j, cons_prefix_cons.mpr ⟨rfl, hpre⟩, hpending, hsettles⟩
    · exact .inr ⟨[], i, cons_prefix_cons.mpr ⟨rfl, nil_prefix⟩, hs, hsettles⟩

theorem always_of_guarded (hstep : ∀ s i, I s → ok s i → I (m.next s i)) (hs : I s)
    (hok : m.Guarded ok s is) : m.Always I s is := by
  induction is generalizing s with
  | nil => exact hs
  | cons i rest ih => exact ⟨hs, ih (hstep s i hs hok.1) hok.2⟩

theorem Guarded.imp (hI : ∀ s i, I s → ok s i → I (m.next s i))
    (himp : ∀ s i, I s → ok s i → ok' s i) (hs : I s) (h : m.Guarded ok s is) :
    m.Guarded ok' s is := by
  induction is generalizing s with
  | nil => trivial
  | cons i rest ih => exact ⟨himp s i hs h.1, ih (hI s i hs h.1) h.2⟩

theorem guarded_iff_guarded_of_mem {A : ι → Prop} (hI : ∀ s i, I s → A i → ok' s i → I (m.next s i))
    (hiff : ∀ s i, I s → A i → (ok s i ↔ ok' s i)) (hs : I s) (hA : ∀ i ∈ is, A i) :
    m.Guarded ok s is ↔ m.Guarded ok' s is := by
  induction is generalizing s with
  | nil => exact Iff.rfl
  | cons i rest ih =>
    have hi : A i := hA i mem_cons_self
    have hrest : ∀ j ∈ rest, A j := fun j hj => hA j (mem_cons_of_mem i hj)
    constructor
    · intro h
      have hok : ok' s i := (hiff s i hs hi).mp h.1
      exact ⟨hok, (ih (hI s i hs hi hok) hrest).mp h.2⟩
    · intro h
      exact ⟨(hiff s i hs hi).mpr h.1, (ih (hI s i hs hi h.1) hrest).mpr h.2⟩

theorem guarded_iff_guarded (hI : ∀ s i, I s → ok' s i → I (m.next s i))
    (hiff : ∀ s i, I s → (ok s i ↔ ok' s i)) (hs : I s) :
    m.Guarded ok s is ↔ m.Guarded ok' s is := by
  refine guarded_iff_guarded_of_mem (A := fun _ => True) ?_ ?_ hs fun _ _ => trivial
  · intro s i hs _
    exact hI s i hs
  · intro s i hs _
    exact hiff s i hs

/-- The exact guard of a property, for runs whose inputs meet a premise where they arrive: if,
under an invariant `I` that guarded steps keep, a step keeps `P` precisely when it meets `ok`,
then a run keeps `P` throughout precisely when all its steps meet `ok`. -/
theorem always_iff_guarded_of_guarded {pre : σ → ι → Prop}
    (hI : ∀ s i, I s → pre s i → P s → ok s i → I (m.next s i))
    (hexact : ∀ s i, I s → pre s i → P s → (P (m.next s i) ↔ ok s i)) (hs : I s) (hP : P s)
    (hpre : m.Guarded pre s is) : m.Always P s is ↔ m.Guarded ok s is := by
  induction is generalizing s with
  | nil => exact ⟨fun _ => trivial, fun _ => hP⟩
  | cons i rest ih =>
    obtain ⟨hi, hrest⟩ := hpre
    constructor
    · rintro ⟨-, hlater⟩
      have hok : ok s i := (hexact s i hs hi hP).mp hlater.head
      exact ⟨hok, (ih (hI s i hs hi hP hok) hlater.head hrest).mp hlater⟩
    · rintro ⟨hok, hlater⟩
      have hnext : P (m.next s i) := (hexact s i hs hi hP).mpr hok
      exact ⟨hP, (ih (hI s i hs hi hP hok) hnext hrest).mpr hlater⟩

theorem always_iff_guarded_of_mem {A : ι → Prop}
    (hI : ∀ s i, I s → A i → P s → ok s i → I (m.next s i))
    (hexact : ∀ s i, I s → A i → P s → (P (m.next s i) ↔ ok s i)) (hs : I s) (hP : P s)
    (hA : ∀ i ∈ is, A i) : m.Always P s is ↔ m.Guarded ok s is := by
  have hguarded : m.Guarded (fun _ => A) s is := by
    refine guarded_iff_prefix.mpr fun past i hpre => hA i (hpre.subset ?_)
    exact mem_append_right _ (mem_singleton.mpr rfl)
  exact always_iff_guarded_of_guarded hI hexact hs hP hguarded

theorem always_iff_guarded (hI : ∀ s i, I s → P s → ok s i → I (m.next s i))
    (hexact : ∀ s i, I s → P s → (P (m.next s i) ↔ ok s i)) (hs : I s) (hP : P s) :
    m.Always P s is ↔ m.Guarded ok s is := by
  refine always_iff_guarded_of_mem (A := fun _ => True) ?_ ?_ hs hP fun _ _ => trivial
  · intro s i hs _
    exact hI s i hs
  · intro s i hs _
    exact hexact s i hs

end Rules

end Machine

end Base
