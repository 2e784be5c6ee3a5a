import TradingCore.Base.Text

/-!
# Stock codes

A code is normalized wherever it enters: blanks and case are dropped, and the market prefix of a
numeric code.
-/

namespace TradingCore.Candidates

open Base Text List

def normalizeCode (code : String) : String :=
  let value := upper (strip code)
  match value.toList with
  | 'A' :: rest => if rest ≠ [] ∧ rest.all Char.isDigit then .ofList rest else value
  | _ => value

def normalizeCodes (codes : List String) : List String :=
  (codes.map normalizeCode).filter (· ≠ "")

/-- A code as it is kept: normalizing it again changes nothing. -/
structure CleanCode (code : String) : Prop where
  trimmed : Trimmed code
  upper : upper code = code
  plain : ∀ rest, code.toList = 'A' :: rest → rest ≠ [] → rest.all Char.isDigit = false

theorem cleanCode_normalizeCode (code : String) : CleanCode (normalizeCode code) := by
  have htrimmed : Trimmed (upper (strip code)) :=
    trimmed_upper (trimmed_strip code)
  have hupper := upper_upper (strip code)
  unfold normalizeCode
  dsimp only
  generalize upper (strip code) = value at htrimmed hupper
  split
  · next rest hvalue =>
      split
      · next hdigits =>
          have hall : ∀ c ∈ rest, c.isDigit = true := all_eq_true.mp hdigits.2
          refine ⟨⟨?_, ?_⟩, ?_, ?_⟩
          · intro c hc
            rw [String.toList_ofList] at hc
            exact isSpace_of_isDigit (hall c (mem_of_mem_head? hc))
          · intro c hc
            rw [String.toList_ofList] at hc
            exact isSpace_of_isDigit (hall c (mem_of_getLast? hc))
          · have hmap := congrArg String.toList hupper
            unfold upper at hmap ⊢
            rw [String.toList_ofList, hvalue, map_cons] at hmap
            rw [String.toList_ofList, (cons.inj hmap).2]
          · intro rest' hrest' _
            rw [String.toList_ofList] at hrest'
            exact absurd (hall 'A' (hrest' ▸ mem_cons_self)) (by decide)
      · next hnot =>
          refine ⟨htrimmed, hupper, ?_⟩
          intro rest' hvalue' hne
          rw [hvalue] at hvalue'
          obtain rfl := (cons.inj hvalue').2
          by_contra hall
          exact hnot ⟨hne, by simpa using hall⟩
  · next hvalue =>
      refine ⟨htrimmed, hupper, ?_⟩
      intro rest hrest
      exact absurd hrest (hvalue rest)

theorem CleanCode.strip {code : String} (h : CleanCode code) : strip code = code :=
  strip_eq_self h.trimmed

theorem CleanCode.normalizeCode {code : String} (h : CleanCode code) :
    normalizeCode code = code := by
  unfold Candidates.normalizeCode
  rw [h.strip, h.upper]
  dsimp only
  split
  · next rest hrest =>
      split
      · next hdigits =>
          have := h.plain rest hrest hdigits.1
          rw [hdigits.2] at this
          cases this
      · rfl
  · rfl

end TradingCore.Candidates
