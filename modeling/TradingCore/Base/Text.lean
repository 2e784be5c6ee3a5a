import Mathlib.Data.List.Infix
import Mathlib.Data.List.TakeWhile

/-!
# Text operations

The operations on texts that the program uses to build its keys. Case mappings
and digits are those of ASCII.
-/

namespace Base.Text

open List

/-- The white space that `strip` removes. -/
def isSpace (c : Char) : Bool :=
  c.toNat ∈ [0x9, 0xA, 0xB, 0xC, 0xD, 0x1C, 0x1D, 0x1E, 0x1F, 0x20, 0x85, 0xA0, 0x1680,
    0x2000, 0x2001, 0x2002, 0x2003, 0x2004, 0x2005, 0x2006, 0x2007, 0x2008, 0x2009, 0x200A,
    0x2028, 0x2029, 0x202F, 0x205F, 0x3000]

def strip (s : String) : String :=
  .ofList ((s.toList.dropWhile isSpace).reverse.dropWhile isSpace).reverse

def upper (s : String) : String := .ofList (s.toList.map Char.toUpper)

def lower (s : String) : String := .ofList (s.toList.map Char.toLower)

/-- `s.zfill(width)` of a text without a sign. -/
def zfill (width : Nat) (s : String) : String := .ofList (s.toList.leftpad width '0')

/-! ## The checksum -/

def crcBit (crc : UInt32) : UInt32 :=
  if crc &&& 1 = 1 then (crc >>> 1) ^^^ 0xEDB88320 else crc >>> 1

def crcByte (crc : UInt32) (byte : UInt8) : UInt32 :=
  Nat.iterate crcBit 8 (crc ^^^ byte.toUInt32)

variable {s : String}

/-- `zlib.crc32(s.encode("utf-8"))`. -/
def crc32 (s : String) : Nat :=
  (s.toUTF8.toList.foldl crcByte 0xFFFFFFFF ^^^ 0xFFFFFFFF).toNat

example : crc32 "123456789" = 0xCBF43926 := by decide +kernel

/-! ## Facts about the operations -/

theorem mem_of_mem_strip {c : Char} (h : c ∈ (strip s).toList) : c ∈ s.toList := by
  rw [strip, String.toList_ofList, mem_reverse] at h
  have h' := mem_reverse.mp ((dropWhile_sublist _).mem h)
  exact (dropWhile_sublist _).mem h'

/-- A text of which `strip` leaves nothing is white space. -/
theorem isSpace_of_strip (h : strip s = "") : ∀ c ∈ s.toList, isSpace c = true := by
  have hlist := congrArg String.toList h
  rw [strip, String.toList_ofList, String.toList_empty, reverse_eq_nil_iff,
    dropWhile_eq_nil_iff] at hlist
  intro c hc
  rw [← takeWhile_append_dropWhile (p := isSpace) (l := s.toList)] at hc
  rcases mem_append.mp hc with hspace | hrest
  · exact mem_takeWhile_imp hspace
  · exact hlist c (mem_reverse.mpr hrest)

/-- A text that ends in a part without `sep` has one such last part only. -/
theorem append_sep_inj {sep : Char} {a b a' b' : List Char} (hb : sep ∉ b) (hb' : sep ∉ b')
    (h : a ++ sep :: b = a' ++ sep :: b') : a = a' ∧ b = b' := by
  rcases append_eq_append_iff.mp h with ⟨mid, ha, hmid⟩ | ⟨mid, ha, hmid⟩
  · cases mid with
    | nil =>
      simp only [nil_append, cons.injEq, true_and] at hmid
      exact ⟨by rw [ha, append_nil], hmid⟩
    | cons c rest =>
      simp only [cons_append, cons.injEq] at hmid
      exact absurd (hmid.2 ▸ mem_append_right rest mem_cons_self) hb
  · cases mid with
    | nil =>
      simp only [nil_append, cons.injEq, true_and] at hmid
      exact ⟨by rw [ha, append_nil], hmid.symm⟩
    | cons c rest =>
      simp only [cons_append, cons.injEq] at hmid
      exact absurd (hmid.2 ▸ mem_append_right rest mem_cons_self) hb'

theorem notMem_toString {c : Char} (hdigit : c.isDigit = false) (hsign : c ≠ '-') (n : Int) :
    c ∉ (toString n).toList := by
  have hnat : ∀ m : Nat, c ∉ (toString m).toList := by
    intro m hmem
    have hc := Nat.isDigit_of_mem_toDigits (by decide) (by decide)
      (by simpa using hmem : c ∈ Nat.toDigits 10 m)
    rw [hdigit] at hc
    cases hc
  cases n with
  | ofNat m => exact hnat m
  | negSucc m =>
    intro hmem
    have hmem' : c ∈ ("-" ++ toString (m + 1)).toList := hmem
    rw [String.toList_append] at hmem'
    rcases mem_append.mp hmem' with h | h
    · exact hsign (by simpa using h)
    · exact hnat (m + 1) h

/-! ## Upper case -/

theorem toUpper_cases (c : Char) :
    c.toUpper = c ∧ (c.toNat < 97 ∨ 122 < c.toNat) ∨
      97 ≤ c.toNat ∧ c.toNat ≤ 122 ∧ c.toUpper.toNat + 32 = c.toNat := by
  unfold Char.toUpper
  split
  · next h =>
      refine .inr ?_
      have hlow : 97 ≤ c.val.toNat := h.1
      have hhigh : c.val.toNat ≤ 122 := h.2
      refine ⟨hlow, hhigh, ?_⟩
      -- the distance to the upper case wraps around
      have hdistance : ('A'.val - 'a'.val).toNat = 4294967264 := rfl
      show (c.val + ('A'.val - 'a'.val)).toNat + 32 = c.val.toNat
      rw [UInt32.toNat_add, hdistance]
      omega
  · next h =>
      refine .inl ⟨rfl, ?_⟩
      by_contra hin
      have hlow : 97 ≤ c.toNat := by omega
      have hhigh : c.toNat ≤ 122 := by omega
      exact h ⟨hlow, hhigh⟩

theorem toUpper_toUpper (c : Char) : c.toUpper.toUpper = c.toUpper := by
  rcases toUpper_cases c.toUpper with ⟨h, -⟩ | ⟨h, h', -⟩
  · exact h
  · rcases toUpper_cases c with ⟨hc, hout⟩ | ⟨hc, hc', hup⟩
    · rw [hc] at h h'
      omega
    · omega

theorem isSpace_toUpper (c : Char) : isSpace c.toUpper = isSpace c := by
  rcases toUpper_cases c with ⟨h, -⟩ | ⟨h, h', hup⟩
  · rw [h]
  · unfold isSpace
    simp only [mem_cons, not_mem_nil, or_false]
    rw [decide_eq_decide]
    omega

theorem upper_eq_empty : upper s = "" ↔ s = "" := by
  unfold upper
  constructor
  · intro h
    have hlist := congrArg String.toList h
    rw [String.toList_ofList, String.toList_empty, map_eq_nil_iff] at hlist
    exact String.toList_eq_nil_iff.mp hlist
  · intro h
    rw [h]
    rfl

theorem upper_upper (s : String) : upper (upper s) = upper s := by
  unfold upper
  simp [Function.comp_def, toUpper_toUpper]

/-! ## Trimmed texts -/

theorem isSpace_of_isDigit {c : Char} (h : c.isDigit = true) : isSpace c = false := by
  have hdigit : 48 ≤ c.toNat ∧ c.toNat ≤ 57 := by
    simpa [Char.isDigit, UInt32.le_iff_toNat_le] using h
  unfold isSpace
  simp only [mem_cons, not_mem_nil, or_false]
  rw [decide_eq_false_iff_not]
  omega

def Trimmed (s : String) : Prop :=
  (∀ c ∈ s.toList.head?, isSpace c = false) ∧ ∀ c ∈ s.toList.getLast?, isSpace c = false

theorem head?_dropWhile {p : Char → Bool} {l : List Char} :
    ∀ c ∈ (l.dropWhile p).head?, p c = false := by
  induction l with
  | nil => simp
  | cons d rest ih =>
    rw [dropWhile_cons]
    split
    · exact ih
    · next h => simpa using h

theorem dropWhile_eq_self {p : Char → Bool} {l : List Char} (h : ∀ c ∈ l.head?, p c = false) :
    l.dropWhile p = l := by
  cases l with
  | nil => rfl
  | cons d rest => simp [h d rfl]

theorem trimmed_strip (s : String) : Trimmed (strip s) := by
  have hend : ∀ c ∈ ((s.toList.dropWhile isSpace).reverse.dropWhile isSpace).head?,
      isSpace c = false := head?_dropWhile
  unfold Trimmed strip
  rw [String.toList_ofList]
  refine ⟨?_, ?_⟩
  · intro c hc
    rw [head?_reverse] at hc
    -- the first character that is left was first after the leading blanks, or the text is all blank
    have hsuffix := dropWhile_suffix isSpace (l := (s.toList.dropWhile isSpace).reverse)
    have hlast : c ∈ (s.toList.dropWhile isSpace).reverse.getLast? := by
      obtain ⟨blanks, hblanks⟩ := hsuffix
      rw [← hblanks, getLast?_append, Option.mem_def.mp hc]
      rfl
    rw [getLast?_reverse] at hlast
    exact head?_dropWhile c hlast
  · intro c hc
    rw [getLast?_reverse] at hc
    exact hend c hc

theorem strip_eq_self (h : Trimmed s) : strip s = s := by
  unfold strip
  rw [dropWhile_eq_self h.1, dropWhile_eq_self (by rw [head?_reverse]; exact h.2),
    reverse_reverse, String.ofList_toList]

theorem trimmed_upper (h : Trimmed s) : Trimmed (upper s) := by
  unfold Trimmed upper
  rw [String.toList_ofList, head?_map, getLast?_map]
  refine ⟨?_, ?_⟩
  · intro c hc
    obtain ⟨d, hd, rfl⟩ := Option.map_eq_some_iff.mp hc
    rw [isSpace_toUpper, h.1 d hd]
  · intro c hc
    obtain ⟨d, hd, rfl⟩ := Option.map_eq_some_iff.mp hc
    rw [isSpace_toUpper, h.2 d hd]

/-! ## Distinct texts -/

/-- One more value for `distinct`. -/
def distinctStep (f : String → String) (result : List String) (value : String) : List String :=
  if f value ≠ "" ∧ f value ∉ result then result ++ [f value] else result

/-- The images of values under `f`, each once, without empty ones. -/
def distinct (f : String → String) (values : List String) : List String :=
  values.foldl (distinctStep f) []

theorem mem_distinct {f : String → String} {values : List String} {text : String} :
    text ∈ distinct f values ↔ text ≠ "" ∧ ∃ value ∈ values, f value = text := by
  have hfold : ∀ result, text ∈ values.foldl (distinctStep f) result ↔
      text ∈ result ∨ text ≠ "" ∧ ∃ value ∈ values, f value = text := by
    induction values with
    | nil => simp
    | cons value rest ih =>
      intro result
      rw [foldl_cons, ih]
      unfold distinctStep
      by_cases hnew : f value ≠ "" ∧ f value ∉ result
      · rw [if_pos hnew]
        by_cases htext : f value = text
        · subst htext
          simp [hnew]
        · simp [htext, Ne.symm htext]
      · rw [if_neg hnew]
        by_cases htext : f value = text
        · subst htext
          by_cases hblank : f value = ""
          · simp [hblank]
          · have hmem : f value ∈ result := by
              by_contra hnot
              exact hnew ⟨hblank, hnot⟩
            simp [hmem]
        · simp [htext]
  simpa [distinct] using hfold []

end Base.Text
