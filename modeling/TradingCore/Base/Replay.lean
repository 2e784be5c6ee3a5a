import Mathlib.Data.List.Basic

/-!
# Procedures that write in several commits

A procedure reads the state once, decides on a list of writes and commits them one by one. A crash
leaves some prefix of the writes committed, and the procedure is started again from the beginning.
Some of its writes may leave a mark that makes a later start do nothing.

`whole_after_crashes` says when this cannot be seen in a chosen view of the state: the writes are
idempotent and independent of one another in that view, a repetition from any intermediate state
decides on the same writes, and the mark is left only once all of them are committed.
-/

namespace Base

open List

variable {τ : Type}

def execute (ws : List (τ → τ)) (t : τ) : τ := ws.foldl (fun t w => w t) t

@[simp] theorem execute_nil (t : τ) : execute [] t = t := rfl

@[simp] theorem execute_cons (w : τ → τ) (ws : List (τ → τ)) (t : τ) :
    execute (w :: ws) t = execute ws (w t) := rfl

theorem execute_append (vs ws : List (τ → τ)) (t : τ) :
    execute (vs ++ ws) t = execute ws (execute vs t) := foldl_append

def Commutes (v w : τ → τ) : Prop := ∀ t, v (w t) = w (v t)

theorem execute_comm {w : τ → τ} {ws : List (τ → τ)} (h : ∀ v ∈ ws, Commutes w v) (t : τ) :
    w (execute ws t) = execute ws (w t) := by
  induction ws generalizing t with
  | nil => rfl
  | cons v ws ih =>
    have hrest : ∀ v' ∈ ws, Commutes w v' := fun v' hv' => h v' (mem_cons_of_mem v hv')
    rw [execute_cons, execute_cons, ih hrest, h v mem_cons_self]

/-- Writes that can be repeated one by one and exchanged with one another can be repeated
from the beginning: after the first `i` of them, the first `k` leave the longer of the two
prefixes. -/
theorem execute_take_take {ws : List (τ → τ)} (hidem : ∀ w ∈ ws, ∀ t, w (w t) = w t)
    (hcomm : ws.Pairwise Commutes) (i k : Nat) (t : τ) :
    execute (ws.take k) (execute (ws.take i) t) = execute (ws.take (max i k)) t := by
  induction ws generalizing i k t with
  | nil => simp
  | cons w ws ih =>
    rw [pairwise_cons] at hcomm
    have hrest := fun v hv => hidem v (mem_cons_of_mem w hv)
    cases i with
    | zero => simp
    | succ i =>
      cases k with
      | zero => simp
      | succ k =>
        have hswap : w (execute (ws.take i) (w t)) = execute (ws.take i) (w (w t)) :=
          execute_comm (fun v hv => hcomm.1 v (mem_of_mem_take hv)) (w t)
        have hmax : max (i + 1) (k + 1) = max i k + 1 := by omega
        rw [hmax, take_succ_cons, take_succ_cons, take_succ_cons,
          execute_cons, execute_cons, execute_cons, hswap,
          hidem w mem_cons_self, ih hrest hcomm.2]

/-- A procedure: in a state, and with what its environment tells it at the start, it plans
a list of writes; `commit` carries one of them out. -/
structure Procedure (ε σ α : Type) where
  plan : ε → σ → List α
  commit : σ → α → σ

namespace Procedure

variable {ε σ α : Type} (p : Procedure ε σ α)

/-- The procedure stopped after `k` commits. -/
def interrupted (e : ε) (k : Nat) (s : σ) : σ := ((p.plan e s).take k).foldl p.commit s

def whole (e : ε) (s : σ) : σ := (p.plan e s).foldl p.commit s

def attempts (s : σ) : List (ε × Nat) → σ
  | [] => s
  | a :: as => attempts (p.interrupted a.1 a.2 s) as

/-- What can be seen of the state, and what a write does to it. -/
structure View (p : Procedure ε σ α) (τ : Type) where
  see : σ → τ
  effect : α → τ → τ
  see_commit : ∀ s a, see (p.commit s a) = effect a (see s)

variable {p} (v : View p τ)

theorem View.see_foldl (as : List α) (s : σ) :
    v.see (as.foldl p.commit s) = execute (as.map v.effect) (v.see s) := by
  induction as generalizing s with
  | nil => rfl
  | cons a as ih => rw [foldl_cons, ih, v.see_commit, map_cons, execute_cons]

theorem View.see_interrupted (e : ε) (k : Nat) (s : σ) :
    v.see (p.interrupted e k s) = execute (((p.plan e s).map v.effect).take k) (v.see s) := by
  rw [interrupted, v.see_foldl, map_take]

theorem View.see_whole (e : ε) (s : σ) :
    v.see (p.whole e s) = execute ((p.plan e s).map v.effect) (v.see s) :=
  v.see_foldl _ s

theorem View.see_of_fixed {as : List α} {s : σ} (h : ∀ a ∈ as, v.effect a (v.see s) = v.see s) :
    v.see (as.foldl p.commit s) = v.see s := by
  induction as generalizing s with
  | nil => rfl
  | cons a as ih =>
    have ha := v.see_commit s a
    rw [h a mem_cons_self] at ha
    rw [foldl_cons, ih, ha]
    intro b hb
    rw [ha]
    exact h b (mem_cons_of_mem a hb)

/-- Crashes and repetitions cannot be seen. `marked` states make the procedure do nothing;
`ws` are the writes, as seen, of a first attempt. -/
theorem whole_after_crashes (marked : σ → Prop) {s₀ : σ} {ws : List (τ → τ)}
    (hidem : ∀ w ∈ ws, ∀ t, w (w t) = w t) (hcomm : ws.Pairwise Commutes)
    (hmarked : ∀ e s, marked s → p.plan e s = [])
    (hlast : ∀ e k s, ¬ marked s → marked (p.interrupted e k s) → (p.plan e s).length ≤ k)
    (hstart : ¬ marked s₀)
    (hplan : ∀ e s i, ¬ marked s → v.see s = execute (ws.take i) (v.see s₀) →
      (p.plan e s).map v.effect = ws ∨
        v.see s = execute ws (v.see s₀) ∧ ∀ a ∈ p.plan e s, v.effect a (v.see s) = v.see s)
    (as : List (ε × Nat)) (e : ε) :
    v.see (p.whole e (p.attempts s₀ as)) = execute ws (v.see s₀) := by
  -- a state on the way: some prefix of the writes is there, all of them once it is marked
  let Way : σ → Prop := fun s => (∃ i, v.see s = execute (ws.take i) (v.see s₀)) ∧
    (marked s → v.see s = execute ws (v.see s₀))
  have hfull : ∀ i, ws.length ≤ i → execute (ws.take i) (v.see s₀) = execute ws (v.see s₀) :=
    fun i hi => by rw [take_of_length_le hi]
  have hstep : ∀ e k s, Way s → Way (p.interrupted e k s) := by
    intro e k s hs
    obtain ⟨⟨i, hi⟩, hdone⟩ := hs
    by_cases hm : marked s
    · rw [interrupted, hmarked e s hm, take_nil]
      exact ⟨⟨i, hi⟩, hdone⟩
    · rcases hplan e s i hm hi with hws | ⟨hall, hfix⟩
      · have hsee : v.see (p.interrupted e k s) = execute (ws.take (max i k)) (v.see s₀) := by
          rw [v.see_interrupted, hws, hi, execute_take_take hidem hcomm]
        refine ⟨⟨max i k, hsee⟩, ?_⟩
        intro hm'
        have hlen := hlast e k s hm hm'
        rw [← length_map (f := v.effect), hws] at hlen
        rw [hsee, hfull _ (by omega)]
      · have hsee : v.see (p.interrupted e k s) = execute ws (v.see s₀) := by
          rw [interrupted, v.see_of_fixed (fun a ha => hfix a (mem_of_mem_take ha)), hall]
        exact ⟨⟨ws.length, by rw [hsee, hfull _ (Nat.le_refl _)]⟩, fun _ => hsee⟩
  have hway : ∀ s, Way s → Way (p.attempts s as) := by
    induction as with
    | nil => exact fun s hs => hs
    | cons a as ih => exact fun s hs => ih _ (hstep a.1 a.2 s hs)
  obtain ⟨⟨i, hi⟩, hdone⟩ :=
    hway s₀ ⟨⟨0, rfl⟩, fun hm => absurd hm hstart⟩
  by_cases hm : marked (p.attempts s₀ as)
  · rw [whole, hmarked e _ hm]
    exact hdone hm
  · rcases hplan e _ i hm hi with hws | ⟨hall, hfix⟩
    · have htake := execute_take_take hidem hcomm i ws.length (v.see s₀)
      rw [take_of_length_le (Nat.le_refl _), hfull _ (Nat.le_max_right _ _)] at htake
      rw [v.see_whole, hws, hi, htake]
    · rw [whole, v.see_of_fixed hfix, hall]

end Procedure
end Base
