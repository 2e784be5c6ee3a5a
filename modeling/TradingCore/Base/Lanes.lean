import Mathlib.Data.List.Range

/-!
# Lanes of work

Items wait in lanes, each served by one worker. The worker of a lane takes items from the head
of it and finishes those it has taken one by one. Beside the lanes stands a record of all items
in the order in which they were accepted, and of those that are finished.

The record of a lane is what is finished, what is taken and what waits, in this order
(`Balanced`). So a lane is served in the order of acceptance. Work may come in pieces: a list is
cut up, and the pieces put together are the list again (`flatten_pieces`).
-/

namespace Base

open List

/-! ## Pieces -/

section Pieces

variable {α : Type}

/-- A list cut into pieces of a length; the last one may be shorter. -/
def pieces (size : Nat) (items : List α) : List (List α) :=
  ((range items.length).filter (size ∣ ·)).map fun start => (items.drop start).take size

/-- The multiples of `size` below a bound: zero, and those below the rest moved up. -/
theorem filter_dvd_range {size n : Nat} (hsize : 0 < size) (hn : 0 < n) :
    (range n).filter (size ∣ ·) = 0 :: ((range (n - size)).filter (size ∣ ·)).map (size + ·) := by
  have hshort : ∀ m, 0 < m → m ≤ size → (range m).filter (size ∣ ·) = [0] := by
    intro m hm hle
    obtain ⟨m, rfl⟩ := Nat.exists_eq_succ_of_ne_zero hm.ne'
    rw [range_succ_eq_map, filter_cons_of_pos (by simp)]
    refine congrArg (0 :: ·) (filter_eq_nil_iff.mpr ?_)
    intro k hk hdvd
    obtain ⟨j, hj, rfl⟩ := mem_map.mp hk
    have := Nat.le_of_dvd (Nat.succ_pos j) (of_decide_eq_true hdvd)
    have := mem_range.mp hj
    omega
  rcases Nat.le_total n size with hle | hle
  · rw [hshort n hn hle, Nat.sub_eq_zero_of_le hle]
    rfl
  · obtain ⟨m, rfl⟩ := Nat.exists_eq_add_of_le hle
    rw [range_add, filter_append, hshort size hsize (Nat.le_refl _), filter_map,
      Nat.add_sub_cancel_left, singleton_append]
    refine congrArg (fun l => 0 :: map (size + ·) l) (filter_congr ?_)
    intro k _
    simp

theorem flatten_pieces {size : Nat} (hsize : 0 < size) (items : List α) :
    (pieces size items).flatten = items := by
  induction hlen : items.length using Nat.strong_induction_on generalizing items with
  | _ n ih =>
    rcases Nat.eq_zero_or_pos n with hzero | hpos
    · subst hzero
      rw [length_eq_zero_iff.mp hlen]
      rfl
    · have hrest := ih (n - size) (by omega) (items.drop size) (by simp [hlen])
      unfold pieces at hrest ⊢
      rw [hlen, filter_dvd_range hsize hpos, map_cons, map_map, flatten_cons, drop_zero]
      simp only [drop_drop, length_drop, hlen] at hrest
      calc items.take size ++ _ = items.take size ++ items.drop size := congrArg _ hrest
        _ = items := take_append_drop size items

theorem ne_nil_of_mem_pieces {size : Nat} (hsize : 0 < size) {items piece : List α}
    (h : piece ∈ pieces size items) : piece ≠ [] := by
  obtain ⟨start, hstart, rfl⟩ := mem_map.mp h
  have hlt := mem_range.mp (mem_filter.mp hstart).1
  intro hnil
  have := congrArg length hnil
  simp only [length_take, length_drop, length_nil] at this
  omega

theorem length_pieces_le (size : Nat) (items : List α) :
    (pieces size items).length ≤ items.length := by
  unfold pieces
  rw [length_map]
  exact (length_filter_le _ _).trans (length_range).le

theorem length_le_length_flatten {lists : List (List α)} (h : ∀ list ∈ lists, list ≠ []) :
    lists.length ≤ lists.flatten.length := by
  induction lists with
  | nil => exact Nat.le_refl 0
  | cons head tail ih =>
    have := ih fun list hlist => h list (mem_cons_of_mem _ hlist)
    have := length_pos_of_ne_nil (h head mem_cons_self)
    rw [length_cons, flatten_cons, length_append]
    omega

end Pieces

/-! ## Lanes -/

structure Lanes (κ α : Type) where
  waiting : κ → List α := fun _ => []
  active : κ → List α := fun _ => []
  accepted : List α := []
  finished : List α := []

namespace Lanes

variable {κ α : Type} [DecidableEq κ] (laneOf : α → κ)

def put (l : Lanes κ α) (item : α) : Lanes κ α :=
  { l with
    waiting := Function.update l.waiting (laneOf item) (l.waiting (laneOf item) ++ [item])
    accepted := l.accepted ++ [item] }

def putAll (l : Lanes κ α) (items : List α) : Lanes κ α :=
  { l with
    waiting := fun lane => l.waiting lane ++ items.filter (laneOf · = lane)
    accepted := l.accepted ++ items }

/-- The worker of a lane takes the first `count` items. -/
def take (l : Lanes κ α) (lane : κ) (count : Nat) : Lanes κ α :=
  { l with
    waiting := Function.update l.waiting lane ((l.waiting lane).drop count)
    active := Function.update l.active lane (l.active lane ++ (l.waiting lane).take count) }

/-- The worker of a lane finishes the first item that it has taken. -/
def finish (l : Lanes κ α) (lane : κ) : Lanes κ α :=
  match l.active lane with
  | [] => l
  | item :: rest =>
      { l with
        active := Function.update l.active lane rest
        finished := l.finished ++ [item] }

def within (lane : κ) (items : List α) : List α := items.filter fun item => laneOf item = lane

/-- The record of every lane is what is finished, what is taken and what waits. -/
def Balanced (l : Lanes κ α) : Prop :=
  ∀ lane, within laneOf lane l.accepted =
    within laneOf lane l.finished ++ (l.active lane ++ l.waiting lane)

section Within

variable {laneOf} {lane : κ} {items : List α} {item : α}

@[simp] theorem mem_within : item ∈ within laneOf lane items ↔ item ∈ items ∧ laneOf item = lane := by
  simp [within]

theorem within_append (more : List α) :
    within laneOf lane (items ++ more) = within laneOf lane items ++ within laneOf lane more :=
  filter_append ..

theorem within_singleton_self (h : laneOf item = lane) : within laneOf lane [item] = [item] := by
  simp [within, h]

theorem within_singleton_of_ne (h : laneOf item ≠ lane) : within laneOf lane [item] = [] := by
  simp [within, h]

end Within

/-! ## The lanes stay balanced -/

namespace Balanced

variable {laneOf} {l : Lanes κ α} {lane : κ} {item : α}

theorem start : Balanced laneOf ({} : Lanes κ α) := fun _ => rfl

section

variable (h : Balanced laneOf l)
include h

theorem laneOf_active (hitem : item ∈ l.active lane) : laneOf item = lane := by
  have hmem : item ∈ within laneOf lane l.accepted := by rw [h lane]; simp [hitem]
  exact (mem_within.mp hmem).2

theorem laneOf_waiting (hitem : item ∈ l.waiting lane) : laneOf item = lane := by
  have hmem : item ∈ within laneOf lane l.accepted := by rw [h lane]; simp [hitem]
  exact (mem_within.mp hmem).2

theorem mem_accepted_of_active (hitem : item ∈ l.active lane) : item ∈ l.accepted := by
  have hmem : item ∈ within laneOf lane l.accepted := by rw [h lane]; simp [hitem]
  exact (mem_within.mp hmem).1

theorem mem_accepted_of_waiting (hitem : item ∈ l.waiting lane) : item ∈ l.accepted := by
  have hmem : item ∈ within laneOf lane l.accepted := by rw [h lane]; simp [hitem]
  exact (mem_within.mp hmem).1

theorem put (item : α) : Balanced laneOf (l.put laneOf item) := by
  intro lane
  show within laneOf lane (l.accepted ++ [item]) = within laneOf lane l.finished ++
    (l.active lane ++ Function.update l.waiting (laneOf item) _ lane)
  rw [within_append, h lane]
  by_cases hlane : laneOf item = lane
  · subst hlane
    rw [within_singleton_self rfl, Function.update_self]
    simp only [append_assoc]
  · rw [within_singleton_of_ne hlane, Function.update_of_ne (Ne.symm hlane), append_nil]

theorem putAll (items : List α) : Balanced laneOf (l.putAll laneOf items) := by
  intro lane
  show within laneOf lane (l.accepted ++ items) = within laneOf lane l.finished ++
    (l.active lane ++ (l.waiting lane ++ within laneOf lane items))
  rw [within_append, h lane]
  simp only [append_assoc]

theorem take (lane : κ) (count : Nat) : Balanced laneOf (l.take lane count) := by
  intro other
  show within laneOf other l.accepted = within laneOf other l.finished ++
    (Function.update l.active lane _ other ++ Function.update l.waiting lane _ other)
  rw [h other]
  by_cases hlane : other = lane
  · subst hlane
    rw [Function.update_self, Function.update_self, append_assoc, take_append_drop]
  · rw [Function.update_of_ne hlane, Function.update_of_ne hlane]

theorem finish (lane : κ) : Balanced laneOf (l.finish lane) := by
  unfold Lanes.finish
  cases hactive : l.active lane with
  | nil => exact h
  | cons item rest =>
    intro other
    show within laneOf other l.accepted = within laneOf other (l.finished ++ [item]) ++
      (Function.update l.active lane rest other ++ l.waiting other)
    have hitem : laneOf item = lane := h.laneOf_active (hactive ▸ mem_cons_self)
    rw [h other, within_append]
    by_cases hlane : other = lane
    · subst hlane
      rw [within_singleton_self hitem, Function.update_self, hactive]
      simp
    · rw [within_singleton_of_ne fun heq => hlane (heq.symm.trans hitem),
        Function.update_of_ne hlane, append_nil]

end

/-! ## Lanes are served in order -/

variable {R : α → α → Prop} {earlier later : α} {rest : List α}

theorem finished_of_before (h : Balanced laneOf l) (hordered : l.accepted.Pairwise R)
    (hasymm : ∀ {a b}, R a b → ¬ R b a) (hidle : l.active lane = [])
    (hwaiting : l.waiting lane = later :: rest) (hmem : earlier ∈ l.accepted)
    (hlane : laneOf earlier = lane) (hbefore : R earlier later) : earlier ∈ l.finished := by
  have hwithin : earlier ∈ within laneOf lane l.accepted := mem_within.mpr ⟨hmem, hlane⟩
  have hpairwise : (within laneOf lane l.accepted).Pairwise R := hordered.filter _
  rw [h lane, hidle, hwaiting, nil_append] at hwithin hpairwise
  rcases mem_append.mp hwithin with hfinished | htail
  · exact (mem_within.mp hfinished).1
  -- the earlier item would stand at or behind the later one
  · have htailwise := (pairwise_append.mp hpairwise).2.1
    rcases mem_cons.mp htail with rfl | hrest
    · exact absurd hbefore (hasymm hbefore)
    · exact absurd ((pairwise_cons.mp htailwise).1 earlier hrest) (hasymm hbefore)

theorem not_finished_of_active (h : Balanced laneOf l) (hnodup : l.accepted.Nodup)
    (hactive : item ∈ l.active lane) : item ∉ l.finished := by
  intro hfinished
  have hlane := h.laneOf_active hactive
  have hwithin : (within laneOf lane l.accepted).Nodup := hnodup.filter _
  rw [h lane] at hwithin
  exact (nodup_append.mp hwithin).2.2 item (mem_within.mpr ⟨hfinished, hlane⟩) item
    (mem_append_left _ hactive) rfl

theorem within_finished (h : Balanced laneOf l) (hidle : l.active lane = [])
    (hempty : l.waiting lane = []) :
    within laneOf lane l.finished = within laneOf lane l.accepted := by
  rw [h lane, hidle, hempty, append_nil, append_nil]

end Balanced

end Lanes

end Base
