import TradingCore.Candidates.Codes
import TradingCore.Evaluation.DirtyCodeQueue

/-!
# The normalizers of stock codes

The collector, the market data service with the evaluator, and the theme backfill normalize codes
each in its own way. They agree on numeric codes; letters within a code are lost to the service,
and the backfill keeps a prefix and lower case.
-/

namespace TradingCore.Evaluation

open Base Candidates List Text

/-- `_normalize_code` of the theme backfill. -/
def backfillCode (value : String) : String :=
  let text := strip value
  if text ≠ "" ∧ text.toList.all Char.isDigit ∧ text.length < 6 then zfill 6 text else text

structure StockCode (code : String) : Prop where
  length : code.length = 6
  alphanumeric : ∀ c ∈ code.toList, c.isAlphanum = true

def Numeric (code : String) : Prop := ∀ c ∈ code.toList, c.isDigit = true

/-- The normalizer tells the two texts apart where `normalize_code` does, and leaves the code of
the first as it is, as `normalize_code` would. -/
structure Identifies (normalizer : String → String) (a b : String) : Prop where
  same : normalizer a = normalizer b ↔ normalizeCode a = normalizeCode b
  idempotent : normalizer (normalizer a) = normalizer a
  agrees : normalizeCode (normalizer a) = normalizer a

variable {a b code : String}

/-- What is left of a code of six characters: its digits, or itself if it has none. -/
def digitsOf (code : String) : String :=
  let digits := code.toList.filter Char.isDigit
  if digits ≠ [] then zfill 6 (.ofList digits) else code

theorem digitsOf_numeric (hcode : StockCode code) (h : Numeric code) : digitsOf code = code := by
  unfold digitsOf
  dsimp only
  rw [filter_eq_self.mpr h, String.ofList_toList]
  split
  · have hlength : code.toList.length = 6 := hcode.length
    rw [zfill, leftpad, hlength]
    exact String.ofList_toList
  · rfl

theorem Numeric.cleanCode (h : Numeric code) : CleanCode code where
  trimmed := by
    refine ⟨?_, ?_⟩
    · exact fun c hc => isSpace_of_isDigit (h c (mem_of_mem_head? hc))
    · exact fun c hc => isSpace_of_isDigit (h c (mem_of_getLast? hc))
  upper := by
    have hmap : code.toList.map Char.toUpper = code.toList.map id := by
      refine map_congr_left fun c hc => ?_
      have hdigit : 48 ≤ c.toNat ∧ c.toNat ≤ 57 := by
        simpa [Char.isDigit, UInt32.le_iff_toNat_le] using h c hc
      rcases toUpper_cases c with ⟨hself, -⟩ | ⟨hlow, -⟩
      · exact hself
      · omega
    rw [upper, hmap, map_id, String.ofList_toList]
  plain := by
    intro rest hrest _
    exact absurd (h 'A' (hrest ▸ mem_cons_self)) (by decide)

theorem spelled (a : String) :
    upper (strip a) = normalizeCode a ∨
      (upper (strip a)).toList = 'A' :: (normalizeCode a).toList := by
  unfold normalizeCode
  dsimp only
  split
  · next rest hvalue =>
      split
      · exact .inr (by rw [hvalue, String.toList_ofList])
      · exact .inl rfl
  · exact .inl rfl

theorem cleanCode_eq (h : StockCode (normalizeCode a)) :
    cleanCode a = digitsOf (normalizeCode a) := by
  have hlength : (normalizeCode a).toList.length = 6 := h.length
  have htext : dropMarket (upper (strip a)) = normalizeCode a := by
    unfold dropMarket
    rcases spelled a with hvalue | hvalue
    · rw [hvalue, if_neg]
      rintro ⟨-, hseven⟩
      have := h.length
      omega
    · rw [if_pos, hvalue, drop_one, tail_cons, String.ofList_toList]
      refine ⟨by rw [hvalue]; rfl, ?_⟩
      show (upper (strip a)).toList.length = 7
      rw [hvalue, length_cons, hlength]
  unfold cleanCode digitsOf
  dsimp only
  rw [htext]

theorem digitsOf_spec (hcode : StockCode code) (hclean : CleanCode code) :
    StockCode (digitsOf code) ∧ CleanCode (digitsOf code) ∧
      digitsOf (digitsOf code) = digitsOf code := by
  by_cases hdigits : code.toList.filter Char.isDigit = []
  · have hself : digitsOf code = code := if_neg (not_not_intro hdigits)
    rw [hself, hself]
    exact ⟨hcode, hclean, rfl⟩
  · have hlist : (digitsOf code).toList =
        replicate (6 - (code.toList.filter Char.isDigit).length) '0' ++
          code.toList.filter Char.isDigit := by
      rw [digitsOf, if_pos hdigits, zfill, String.toList_ofList, String.toList_ofList,
        leftpad]
    have hnumeric : Numeric (digitsOf code) := by
      intro c hc
      rw [hlist] at hc
      rcases mem_append.mp hc with hzero | hdigit
      · rw [eq_of_mem_replicate hzero]
        rfl
      · exact (mem_filter.mp hdigit).2
    have hstock : StockCode (digitsOf code) := by
      refine ⟨?_, ?_⟩
      · have hle := length_filter_le Char.isDigit code.toList
        have hsix : code.toList.length = 6 := hcode.length
        show (digitsOf code).toList.length = 6
        rw [hlist, length_append, length_replicate]
        omega
      · intro c hc
        simp [Char.isAlphanum, hnumeric c hc]
    exact ⟨hstock, hnumeric.cleanCode, digitsOf_numeric hstock hnumeric⟩

section

variable (ha : StockCode (normalizeCode a))
include ha

theorem cleanCode_kept : cleanCode (cleanCode a) = cleanCode a ∧
    normalizeCode (cleanCode a) = cleanCode a := by
  obtain ⟨hstock, hclean, hself⟩ := digitsOf_spec ha (cleanCode_normalizeCode a)
  have hnorm : normalizeCode (cleanCode a) = cleanCode a := by
    rw [cleanCode_eq ha]
    exact hclean.normalizeCode
  refine ⟨?_, hnorm⟩
  have hagain : StockCode (normalizeCode (cleanCode a)) := by
    rw [hnorm, cleanCode_eq ha]
    exact hstock
  rw [cleanCode_eq hagain, hnorm, cleanCode_eq ha, hself]

theorem backfillCode_eq : backfillCode a = strip a := by
  refine if_neg ?_
  rintro ⟨-, -, hshort⟩
  have hupper : (upper (strip a)).toList.length = (strip a).length := by
    rw [upper, String.toList_ofList, length_map]
    rfl
  have hlength : (normalizeCode a).toList.length = 6 := ha.length
  rcases spelled a with hvalue | hvalue
  · rw [hvalue] at hupper
    omega
  · rw [hvalue, length_cons] at hupper
    omega

theorem backfillCode_idem : backfillCode (backfillCode a) = backfillCode a := by
  have hstrip : strip (strip a) = strip a :=
    strip_eq_self (trimmed_strip a)
  have hnorm : normalizeCode (strip a) = normalizeCode a := by
    unfold normalizeCode
    rw [hstrip]
  have hagain : StockCode (normalizeCode (strip a)) := by
    rw [hnorm]
    exact ha
  rw [backfillCode_eq ha, backfillCode_eq hagain, hstrip]

variable (hb : StockCode (normalizeCode b))
include hb

/-- For any two texts that normalize to codes: equal codes are equal to the service and to the
evaluator, which keep what they make of them; codes that are equal to the backfill are equal. On
numeric codes the service and the evaluator agree with `normalize_code`, and so does the backfill
on codes that come normalized. -/
theorem codes_identified :
    (normalizeCode a = normalizeCode b → cleanCode a = cleanCode b) ∧
      cleanCode (cleanCode a) = cleanCode a ∧ normalizeCode (cleanCode a) = cleanCode a ∧
      (Numeric (normalizeCode a) → Numeric (normalizeCode b) → Identifies cleanCode a b) ∧
      (backfillCode a = backfillCode b → normalizeCode a = normalizeCode b) ∧
      backfillCode (backfillCode a) = backfillCode a ∧
      (strip a = normalizeCode a → strip b = normalizeCode b → Identifies backfillCode a b) := by
  have hkept := cleanCode_kept ha
  rw [backfillCode_eq hb]
  refine ⟨?_, hkept.1, hkept.2, ?_, ?_, backfillCode_idem ha, ?_⟩
  · intro hsame
    rw [cleanCode_eq ha, cleanCode_eq hb, hsame]
  · intro hnumeric hnumeric'
    refine ⟨?_, hkept.1, hkept.2⟩
    rw [cleanCode_eq ha, cleanCode_eq hb, digitsOf_numeric ha hnumeric,
      digitsOf_numeric hb hnumeric']
  · intro hsame
    rw [backfillCode_eq ha] at hsame
    unfold normalizeCode
    rw [hsame]
  · intro hplain hplain'
    refine ⟨?_, backfillCode_idem ha, ?_⟩
    · rw [backfillCode_eq ha, backfillCode_eq hb, hplain, hplain']
    · rw [backfillCode_eq ha, hplain]
      exact (cleanCode_normalizeCode a).normalizeCode

end

/-! ## Fixed codes -/

theorem codes_identified_prefixed : Identifies cleanCode "A005930" "005930" := by
  have hcode : StockCode (normalizeCode "A005930") :=
    ⟨by decide +kernel, all_eq_true.mp (by decide +kernel)⟩
  have hcode' : StockCode (normalizeCode "005930") :=
    ⟨by decide +kernel, all_eq_true.mp (by decide +kernel)⟩
  exact (codes_identified hcode hcode').2.2.2.1 (all_eq_true.mp (by decide +kernel))
    (all_eq_true.mp (by decide +kernel))

/-- A letter of the code is lost, and two stocks become one. -/
theorem letter_lost : ¬ ∀ a b : String, StockCode (normalizeCode a) → StockCode (normalizeCode b) →
    (cleanCode a = cleanCode b ↔ normalizeCode a = normalizeCode b) := by
  intro h
  have hiff := h "0005A0" "000050" ⟨by decide +kernel, all_eq_true.mp (by decide +kernel)⟩
    ⟨by decide +kernel, all_eq_true.mp (by decide +kernel)⟩
  exact absurd (hiff.mp (by decide +kernel)) (by decide +kernel)

end TradingCore.Evaluation
