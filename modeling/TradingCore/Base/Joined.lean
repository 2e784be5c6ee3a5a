import Mathlib.Data.List.Basic

/-!
# Joined texts

Parts joined at a separator that the parts may contain. Splitting a joined text gives the segments
of its parts in order (`splitOn_join`), so two joins are equal exactly if their parts have the same
segments (`join_eq_iff`). The segments do not say where a part ends; how often the separator stands
in each part but the last does (`eq_of_segments_eq`).
-/

namespace Base

open List

variable {α : Type} [BEq α] [LawfulBEq α] {sep : α}

def join (sep : α) (parts : List (List α)) : List α := [sep].intercalate parts

def segments (sep : α) (parts : List (List α)) : List (List α) := parts.flatMap (splitOn sep)

def separators (sep : α) (parts : List (List α)) : List Nat :=
  parts.dropLast.map (count sep)

omit [LawfulBEq α] in
@[simp] theorem segments_cons (part : List α) (rest : List (List α)) :
    segments sep (part :: rest) = part.splitOn sep ++ segments sep rest :=
  flatMap_cons

/-! ## Splitting -/

omit [LawfulBEq α] in
theorem length_splitOn (text : List α) : (text.splitOn sep).length = text.count sep + 1 := by
  induction text with
  | nil => rfl
  | cons a rest ih =>
    rw [splitOn_cons_eq_if_modifyHead, count_cons]
    by_cases ha : (a == sep) = true
    · rw [if_pos ha, if_pos ha, length_cons, ih]
    · rw [if_neg ha, if_neg ha, length_modifyHead, ih]

theorem notMem_of_mem_splitOn {text part : List α} (h : part ∈ text.splitOn sep) : sep ∉ part := by
  induction text generalizing part with
  | nil =>
    rw [splitOn_nil, mem_singleton] at h
    rw [h]
    exact not_mem_nil
  | cons a rest ih =>
    rw [splitOn_cons_eq_if_modifyHead] at h
    by_cases ha : (a == sep) = true
    · rw [if_pos ha] at h
      rcases mem_cons.mp h with rfl | hrest
      · exact not_mem_nil
      · exact ih hrest
    · rw [if_neg ha] at h
      cases hsplit : rest.splitOn sep with
      | nil => exact absurd hsplit (splitOn_ne_nil sep rest)
      | cons head tail =>
        rw [hsplit, modifyHead_cons] at h
        rcases mem_cons.mp h with rfl | htail
        · -- the first part goes on with a character that is not the separator
          rw [mem_cons, not_or]
          refine ⟨fun hsep => ha (by rw [hsep, beq_self_eq_true]), ih ?_⟩
          rw [hsplit]
          exact mem_cons_self
        · refine ih ?_
          rw [hsplit]
          exact mem_cons_of_mem head htail

theorem splitOn_injective {text text' : List α} (h : text.splitOn sep = text'.splitOn sep) :
    text = text' := by
  calc text = [sep].intercalate (text.splitOn sep) := (intercalate_splitOn sep).symm
    _ = [sep].intercalate (text'.splitOn sep) := by rw [h]
    _ = text' := intercalate_splitOn sep

variable {parts parts' : List (List α)}

theorem splitOn_join (hne : parts ≠ []) : (join sep parts).splitOn sep = segments sep parts := by
  induction parts with
  | nil => exact absurd rfl hne
  | cons part rest ih =>
    cases rest with
    | nil =>
      rw [join, intercalate_singleton, segments_cons]
      exact (append_nil _).symm
    | cons next rest =>
      have hjoin : join sep (part :: next :: rest) =
          part ++ sep :: join sep (next :: rest) := by
        rw [join, intercalate_cons_cons, join, append_assoc]
        rfl
      rw [hjoin, splitOn_append_cons_self, ih (cons_ne_nil _ _), segments_cons part]

/-! ## Which joins are equal -/

theorem join_eq_iff (hne : parts ≠ []) (hne' : parts' ≠ []) :
    join sep parts = join sep parts' ↔ segments sep parts = segments sep parts' := by
  rw [← splitOn_join hne, ← splitOn_join hne']
  exact ⟨fun h => by rw [h], splitOn_injective⟩

theorem eq_of_segments_eq (hlength : parts.length = parts'.length)
    (hseparators : separators sep parts = separators sep parts')
    (h : segments sep parts = segments sep parts') : parts = parts' := by
  induction parts generalizing parts' with
  | nil => exact (length_eq_zero_iff.mp hlength.symm).symm
  | cons part rest ih =>
    cases parts' with
    | nil => cases hlength
    | cons part' rest' =>
      have hrest : rest.length = rest'.length := by simpa using hlength
      rw [segments_cons, segments_cons] at h
      cases rest with
      | nil =>
        -- the last parts: nothing follows, so their segments are all that is left
        cases rest' with
        | cons => cases hrest
        | nil =>
          have hpart : part.splitOn sep = part'.splitOn sep := by
            simpa [segments] using h
          rw [splitOn_injective hpart]
      | cons next rest =>
        cases rest' with
        | nil => cases hrest
        | cons next' rest' =>
          obtain ⟨hcount, hcounts⟩ : part.count sep = part'.count sep ∧
              separators sep (next :: rest) = separators sep (next' :: rest') := by
            simpa [separators] using hseparators
          have hsegments : (part.splitOn sep).length = (part'.splitOn sep).length := by
            rw [length_splitOn, length_splitOn, hcount]
          obtain ⟨hpart, htail⟩ := append_inj h hsegments
          rw [splitOn_injective hpart, ih hrest hcounts htail]

end Base
