import Mathlib.Algebra.Order.Floor.Div
import TradingCore.DirtyCodes.DirtyCodeQueue

/-!
# Nothing lost, nobody starved

What the queue of dirty codes is for: it keeps every reason of an accepted mark until the code is
returned, and returns the code in as many calls as the codes then in the queue take. A reason with a
comma is taken for several, and a mark of a code that waits sends it back to the end of the queue,
behind the codes that came after it, and so past the call that it was due by.

* `coalesced_concat` — what a call keeps of the reasons;
* `waits_concat` — what it keeps of the places;
* `coalesced_punctual_iff` — the runs that lose no reason and let no code wait longer.
-/

namespace TradingCore.DirtyCodes

open Base DirtyCodeQueue List QueueCall Line
open Evaluation (DirtyReason cleanCode cleanTime)

/-! ## What is asked for -/

/-- The code and the reason of a mark that is accepted. -/
def markOf : QueueCall × QueueAnswer → Option (String × String)
  | (.mark code reason _ _, .marked true) => some (cleanCode code, reasonText reason)
  | _ => none

def returnsCode (code : String) : QueueAnswer → Bool
  | .popped events => events.any fun event => event.code = code
  | .marked _ => false

def pendingStep (code : String) (reasons : List String) (entry : QueueCall × QueueAnswer) :
    List String :=
  if returnsCode code entry.2 then []
  else
    match markOf entry with
    | some (marked, reason) => if marked = code then reasons ++ [reason] else reasons
    | none => reasons

section Runs

variable (debounceMs : Int) (limit : ℕ)

def queueAfter (calls : List QueueCall) : DirtyCodeQueue := (dirtyCodeQueue debounceMs).run {} calls

def answers (calls : List QueueCall) : List QueueAnswer :=
  (dirtyCodeQueue debounceMs).outputs {} calls

/-- The reasons accepted for a code since it was last returned. -/
def pendingReasons (calls : List QueueCall) (code : String) : List String :=
  (calls.zip (answers debounceMs calls)).foldl (pendingStep code) []

/-- The queue has the codes with a mark since they were last returned, each with the reasons of
these marks. -/
def Coalesced (calls : List QueueCall) : Prop :=
  ∀ code, (code ∈ (queueAfter debounceMs calls).line.order ↔
      pendingReasons debounceMs calls code ≠ []) ∧
    ∀ event, (queueAfter debounceMs calls).items.get? code = some event →
      ∀ reason, reason ∈ splitReasons event.reason ↔ reason ∈ pendingReasons debounceMs calls code

def queued (calls : List QueueCall) : ℕ := (queueAfter debounceMs calls).line.order.length

/-- The code and the reason of a call after a run, where it is a mark that is accepted. -/
def acceptedAt (past : List QueueCall) (call : QueueCall) : Option (String × String) :=
  markOf (call, (dirtyCodeQueue debounceMs).out (queueAfter debounceMs past) call)

def QueueCall.isPop : QueueCall → Bool
  | .pop _ => true
  | .mark .. => false

/-- How many calls of `pop_dirty` came in a run after its first `n` calls. -/
def popsSince (calls : List QueueCall) (n : ℕ) : ℕ := (calls.drop n).countP isPop

/-- A code was returned in a run after its first `n` calls. -/
def returnedSince (calls : List QueueCall) (n : ℕ) (code : String) : Bool :=
  ((answers debounceMs calls).drop n).any (returnsCode code)

/-- How many calls of `pop_dirty` take out all the codes that are in the queue after a run. -/
def neededPops (calls : List QueueCall) : ℕ := queued debounceMs calls ⌈/⌉ limit

/-- Each code that was accepted is returned by one of the calls that take out the codes that were
then in the queue, its own included. -/
def Punctual (calls : List QueueCall) : Prop :=
  ∀ past call, past ++ [call] <+: calls → ∀ mark ∈ acceptedAt debounceMs past call,
    neededPops debounceMs limit (past ++ [call]) ≤ popsSince calls (past.length + 1) →
      returnedSince debounceMs calls (past.length + 1) mark.1 = true

def reach (calls past : List QueueCall) : ℕ :=
  limit * (neededPops debounceMs limit past - popsSince calls past.length)

/-- A mark has a reason of one part, and where its code waits, since an earlier mark, the calls left
to that one reach the end of the queue. -/
def Harmless (calls : List QueueCall) (call : QueueCall) : Prop :=
  ∀ mark ∈ acceptedAt debounceMs calls call, ',' ∉ mark.2.toList ∧
    ∀ past earlier, past ++ [earlier] <+: calls →
      ∀ known ∈ acceptedAt debounceMs past earlier, known.1 = mark.1 →
        returnedSince debounceMs calls (past.length + 1) mark.1 = false →
          queued debounceMs calls ≤ reach debounceMs limit calls (past ++ [earlier])
deriving Decidable

end Runs

variable {debounceMs : Int} {limit : ℕ} {calls past : List QueueCall} {call : QueueCall}
  {code : String} {n : ℕ}

/-! ## One more call -/

theorem queueAfter_concat : queueAfter debounceMs (calls ++ [call]) =
    (dirtyCodeQueue debounceMs).next (queueAfter debounceMs calls) call := Machine.run_concat ..

theorem answers_concat : answers debounceMs (calls ++ [call]) =
    answers debounceMs calls ++
      [(dirtyCodeQueue debounceMs).out (queueAfter debounceMs calls) call] :=
  Machine.outputs_append ..

theorem length_answers : (answers debounceMs calls).length = calls.length :=
  Machine.length_outputs ..

theorem pendingReasons_concat : pendingReasons debounceMs (calls ++ [call]) code =
    pendingStep code (pendingReasons debounceMs calls code)
      (call, (dirtyCodeQueue debounceMs).out (queueAfter debounceMs calls) call) := by
  unfold pendingReasons
  rw [answers_concat, zip_append length_answers.symm, foldl_append]
  rfl

theorem popsSince_concat (h : n ≤ calls.length) :
    popsSince (calls ++ [call]) n = popsSince calls n + if call.isPop then 1 else 0 := by
  unfold popsSince
  rw [drop_append_of_le_length h, countP_append, countP_singleton]

theorem returnedSince_concat (h : n ≤ calls.length) :
    returnedSince debounceMs (calls ++ [call]) n code =
      (returnedSince debounceMs calls n code ||
        returnsCode code ((dirtyCodeQueue debounceMs).out (queueAfter debounceMs calls) call)) := by
  unfold returnedSince
  rw [answers_concat, drop_append_of_le_length (by rwa [length_answers]), any_append,
    any_cons, any_nil, Bool.or_false]

theorem popsSince_self : popsSince calls calls.length = 0 := by
  unfold popsSince
  rw [drop_length, countP_nil]

/-- The ways in which a call leaves the queue. -/
inductive CallCases (debounceMs : Int) (calls : List QueueCall) (call : QueueCall) : Prop
  | refused : acceptedAt debounceMs calls call = none → call.isPop = false →
      (∀ code, returnsCode code
        ((dirtyCodeQueue debounceMs).out (queueAfter debounceMs calls) call) = false) →
      queueAfter debounceMs (calls ++ [call]) = queueAfter debounceMs calls →
      CallCases debounceMs calls call
  | marked (code reason : String) : acceptedAt debounceMs calls call = some (code, reason) →
      call.isPop = false →
      (∀ code, returnsCode code
        ((dirtyCodeQueue debounceMs).out (queueAfter debounceMs calls) call) = false) →
      Marked (queueAfter debounceMs calls) (queueAfter debounceMs (calls ++ [call])) code reason →
      CallCases debounceMs calls call
  | popped (asked : Int) : call = .pop asked → acceptedAt debounceMs calls call = none →
      (∀ code, returnsCode code
          ((dirtyCodeQueue debounceMs).out (queueAfter debounceMs calls) call) = true ↔
        code ∈ (queueAfter debounceMs calls).line.order ∧
          code ∉ (queueAfter debounceMs (calls ++ [call])).line.order) →
      queueAfter debounceMs (calls ++ [call]) = ((queueAfter debounceMs calls).popDirty asked).1 →
      CallCases debounceMs calls call

theorem callCases (debounceMs : Int) (calls : List QueueCall) (call : QueueCall) :
    CallCases debounceMs calls call := by
  cases call with
  | mark code reason sourceEventId markedAt =>
    have hnext : queueAfter debounceMs (calls ++ [.mark code reason sourceEventId markedAt]) =
        ((queueAfter debounceMs calls).markDirty debounceMs code reason sourceEventId
          markedAt).1 := queueAfter_concat
    have hout : (dirtyCodeQueue debounceMs).out (queueAfter debounceMs calls)
          (.mark code reason sourceEventId markedAt) =
        .marked ((queueAfter debounceMs calls).markDirty debounceMs code reason sourceEventId
          markedAt).2 := rfl
    rcases markDirty_cases debounceMs (queueAfter debounceMs calls) code reason sourceEventId
      markedAt with hrefused | ⟨haccepted, hmarked⟩
    · rw [hrefused] at hnext hout
      refine .refused ?_ rfl (fun code => by rw [hout]; rfl) hnext
      unfold acceptedAt
      rw [hout]
      rfl
    · rw [haccepted] at hout
      rw [← hnext] at hmarked
      refine .marked (cleanCode code) (reasonText reason) ?_ rfl (fun code => by rw [hout]; rfl)
        hmarked
      unfold acceptedAt
      rw [hout]
      rfl
  | pop asked =>
    have hnext : queueAfter debounceMs (calls ++ [.pop asked]) =
        ((queueAfter debounceMs calls).popDirty asked).1 := queueAfter_concat
    refine .popped asked rfl rfl ?_ hnext
    intro code
    have hkeyed : (queueAfter debounceMs calls).Keyed := keyed_run debounceMs calls
    rw [hnext, ← popDirty_returns hkeyed asked]
    show (any _ _ = true) ↔ _
    simp only [any_eq_true, decide_eq_true_eq]
    exact Iff.rfl

/-! ## The reasons -/

theorem pendingReasons_of_refused (haccepted : acceptedAt debounceMs calls call = none)
    (hreturns : returnsCode code
      ((dirtyCodeQueue debounceMs).out (queueAfter debounceMs calls) call) = false) :
    pendingReasons debounceMs (calls ++ [call]) code = pendingReasons debounceMs calls code := by
  unfold acceptedAt at haccepted
  rw [pendingReasons_concat, pendingStep, hreturns, if_neg Bool.false_ne_true, haccepted]

theorem pendingReasons_of_marked {mark : String × String}
    (haccepted : acceptedAt debounceMs calls call = some mark)
    (hreturns : returnsCode code
      ((dirtyCodeQueue debounceMs).out (queueAfter debounceMs calls) call) = false) :
    pendingReasons debounceMs (calls ++ [call]) code =
      if mark.1 = code then pendingReasons debounceMs calls code ++ [mark.2]
      else pendingReasons debounceMs calls code := by
  unfold acceptedAt at haccepted
  rw [pendingReasons_concat, pendingStep, hreturns, if_neg Bool.false_ne_true, haccepted]

theorem pendingReasons_of_returned (hreturns : returnsCode code
      ((dirtyCodeQueue debounceMs).out (queueAfter debounceMs calls) call) = true) :
    pendingReasons debounceMs (calls ++ [call]) code = [] := by
  rw [pendingReasons_concat, pendingStep, hreturns, if_pos rfl]

theorem mem_splitReasons_entryOf {existing : Option DirtyCodeEvent} {reason sourceEventId : String}
    {now : Int} {known : String} :
    known ∈ splitReasons (entryOf existing code reason sourceEventId now).reason ↔
      (∃ event ∈ existing, known ∈ splitReasons event.reason) ∨ known ∈ splitReasons reason := by
  cases existing with
  | none => simp [entryOf]
  | some event =>
    have hsame : (if event.reason = reason then reason else event.reason ++ "," ++ reason) =
        (entryOf (some event) code reason sourceEventId now).reason := rfl
    rw [← hsame]
    by_cases hequal : event.reason = reason
    · rw [if_pos hequal]
      simp [hequal]
    · rw [if_neg hequal, splitReasons_joined, mem_append]
      simp

theorem coalesced_concat (hcoalesced : Coalesced debounceMs calls) :
    Coalesced debounceMs (calls ++ [call]) ↔
      ∀ mark ∈ acceptedAt debounceMs calls call, ',' ∉ mark.2.toList := by
  cases callCases debounceMs calls call with
  | refused haccepted _ hreturns hqueue =>
    rw [haccepted]
    refine iff_of_true ?_ (by simp)
    intro code
    rw [hqueue, pendingReasons_of_refused haccepted (hreturns code)]
    exact hcoalesced code
  | popped asked _ haccepted hreturns hqueue =>
    rw [haccepted]
    refine iff_of_true ?_ (by simp)
    intro code
    cases hcode : returnsCode code
        ((dirtyCodeQueue debounceMs).out (queueAfter debounceMs calls) call) with
    | true =>
      have hgone := ((hreturns code).mp hcode).2
      rw [pendingReasons_of_returned hcode]
      refine ⟨iff_of_false hgone fun h => h rfl, ?_⟩
      intro event hevent
      exact absurd (mem_line.mpr ⟨event, hevent⟩) hgone
    | false =>
      rw [pendingReasons_of_refused haccepted hcode]
      have hstays : code ∈ (queueAfter debounceMs (calls ++ [call])).line.order ↔
          code ∈ (queueAfter debounceMs calls).line.order := by
        constructor
        · intro h
          rw [hqueue, line_popDirty] at h
          exact (mem_serve_iff.mp h).1
        · intro h
          by_contra hgone
          have := (hreturns code).mpr ⟨h, hgone⟩
          rw [hcode] at this
          exact Bool.false_ne_true this
      refine ⟨hstays.trans (hcoalesced code).1, ?_⟩
      intro event hevent
      have hmem := mem_line.mpr ⟨event, hevent⟩
      rw [hqueue] at hmem hevent
      rw [get?_popDirty hmem] at hevent
      exact (hcoalesced code).2 event hevent
  | marked marked reason haccepted _ hreturns hmarked =>
    rw [haccepted]
    have hpending : ∀ code, pendingReasons debounceMs (calls ++ [call]) code =
        if marked = code then pendingReasons debounceMs calls code ++ [reason]
        else pendingReasons debounceMs calls code :=
      fun code => pendingReasons_of_marked haccepted (hreturns code)
    obtain ⟨sourceEventId, now, hentry⟩ := hmarked.entry
    constructor
    · intro hnext mark hmark
      obtain rfl : (marked, reason) = mark := Option.some.inj hmark
      have hreason := ((hnext marked).2 _ hentry reason).mpr (by rw [hpending, if_pos rfl]; simp)
      exact comma_notMem_splitReasons hreason
    · intro hcomma code
      rw [hpending code, hmarked.line, mem_join]
      by_cases hcode : marked = code
      · subst hcode
        rw [if_pos rfl]
        refine ⟨iff_of_true (.inl rfl) (by simp), ?_⟩
        intro event hevent known
        rw [hentry, Option.some.injEq] at hevent
        have hparts : splitReasons reason = [reason] :=
          splitReasons_of_notMem (hcomma _ rfl) hmarked.reason_ne
        rw [← hevent, mem_splitReasons_entryOf, hparts, mem_append]
        refine or_congr_left ?_
        cases hexisting : (queueAfter debounceMs calls).items.get? marked with
        | none =>
          have hnone : pendingReasons debounceMs calls marked = [] := by
            by_contra hpending
            obtain ⟨event, hevent⟩ := mem_line.mp ((hcoalesced marked).1.mpr hpending)
            rw [hexisting] at hevent
            cases hevent
          rw [hnone]
          simp
        | some existing =>
          rw [← (hcoalesced marked).2 existing hexisting known]
          simp
      · rw [if_neg hcode]
        refine ⟨?_, ?_⟩
        · rw [← (hcoalesced code).1]
          exact or_iff_right (Ne.symm hcode)
        · intro event hevent
          rw [hmarked.other code (Ne.symm hcode)] at hevent
          exact (hcoalesced code).2 event hevent

/-! ## The places -/

/-- A code that was accepted and not returned has a place within the reach of the calls left. -/
def Waits (debounceMs : Int) (limit : ℕ) (calls : List QueueCall) : Prop :=
  ∀ past call, past ++ [call] <+: calls → ∀ mark ∈ acceptedAt debounceMs past call,
    returnedSince debounceMs calls (past.length + 1) mark.1 = false →
      mark.1 ∈ (queueAfter debounceMs calls).line.order ∧
        (queueAfter debounceMs calls).line.place mark.1 < reach debounceMs limit calls
          (past ++ [call])

theorem length_concat_le (h : past ++ [call] <+: calls) : past.length + 1 ≤ calls.length := by
  have := h.length_le
  rwa [length_append] at this

theorem reach_concat {earlier : QueueCall} (h : past ++ [earlier] <+: calls) :
    reach debounceMs limit (calls ++ [call]) (past ++ [earlier]) =
      limit * (neededPops debounceMs limit (past ++ [earlier]) -
        (popsSince calls (past.length + 1) + if call.isPop then 1 else 0)) := by
  unfold reach
  rw [length_append, length_singleton, popsSince_concat (length_concat_le h)]

theorem waits_concat (hlimit : 0 < limit) (hasked : ∀ asked : Int, call = .pop asked → limit ≤ asked)
    (hharmless : Harmless debounceMs limit calls call) (hwaits : Waits debounceMs limit calls) :
    Waits debounceMs limit (calls ++ [call]) := by
  intro past earlier hpast known hknown hwaiting
  rcases prefix_concat_iff.mp hpast with hlast | hbefore
  · -- the mark of this call is the last in the queue, and no call came since
    obtain ⟨rfl, hcall⟩ := append_inj' hlast rfl
    obtain rfl : earlier = call := singleton_inj.mp hcall
    cases callCases debounceMs past earlier with
    | refused haccepted => rw [haccepted] at hknown; cases hknown
    | popped asked _ haccepted => rw [haccepted] at hknown; cases hknown
    | marked code reason haccepted _ _ hmarked =>
      obtain rfl : (code, reason) = known := by
        rw [haccepted] at hknown
        exact Option.some.inj hknown
      have hlast := place_join_self (queueAfter debounceMs past).line code
      have hneeded : queued debounceMs (past ++ [earlier]) ≤
          limit * neededPops debounceMs limit (past ++ [earlier]) := le_smul_ceilDiv hlimit
      unfold queued at hneeded
      unfold reach
      rw [popsSince_self, Nat.sub_zero]
      rw [hmarked.line] at hneeded ⊢
      refine ⟨mem_join.mpr (.inl rfl), ?_⟩
      show ((queueAfter debounceMs past).line.join code).place code < _
      omega
  · rw [returnedSince_concat (length_concat_le hbefore), Bool.or_eq_false_iff] at hwaiting
    obtain ⟨hmem, hplace⟩ := hwaits past earlier hbefore known hknown hwaiting.1
    rw [reach_concat hbefore]
    unfold reach at hplace
    rw [length_append, length_singleton] at hplace
    cases callCases debounceMs calls call with
    | refused _ hpop _ hqueue =>
      rw [hqueue, hpop]
      exact ⟨hmem, hplace⟩
    | marked code reason haccepted hpop _ hmarked =>
      rw [hmarked.line, hpop]
      refine ⟨mem_join.mpr (.inr hmem), ?_⟩
      by_cases hcode : known.1 = code
      · -- the code goes behind all the others, and the call is harmless
        have hlast := place_join_self (queueAfter debounceMs calls).line code
        have hreach := (hharmless _ haccepted).2 past earlier hbefore known hknown hcode
          (by rw [← hcode]; exact hwaiting.1)
        unfold reach queued at hreach
        rw [length_append, length_singleton] at hreach
        rw [hcode] at hmem ⊢
        rw [length_join_of_mem hmem] at hlast
        exact lt_of_lt_of_le (by omega) hreach
      · exact lt_of_le_of_lt (place_join_le hcode hmem) hplace
    | popped asked hcall _ hreturns hqueue =>
      have hstays : known.1 ∈ (queueAfter debounceMs (calls ++ [call])).line.order := by
        by_contra hgone
        have := (hreturns known.1).mpr ⟨hmem, hgone⟩
        rw [hwaiting.2] at this
        exact Bool.false_ne_true this
      refine ⟨hstays, ?_⟩
      have hline : (queueAfter debounceMs (calls ++ [call])).line =
          (queueAfter debounceMs calls).line.serve asked.toNat := by
        rw [hqueue, line_popDirty]
      rw [hline] at hstays ⊢
      have hserved := place_serve hstays
      have hserves : limit ≤ asked.toNat := by
        have := hasked asked hcall
        omega
      rw [hcall, if_pos (show isPop (.pop asked) = true from rfl), ← Nat.sub_sub, Nat.mul_sub_one]
      omega

theorem punctual_of_waits (h : Waits debounceMs limit calls) :
    Punctual debounceMs limit calls := by
  intro past call hpast mark hmark hpops
  by_contra hwaiting
  obtain ⟨-, hplace⟩ := h past call hpast mark hmark (Bool.not_eq_true _ ▸ hwaiting)
  unfold reach at hplace
  rw [length_append, length_singleton, Nat.sub_eq_zero_of_le hpops] at hplace
  omega

theorem waits_replicate {more : ℕ} (hn : n ≤ calls.length)
    (hmem : code ∈ (queueAfter debounceMs calls).line.order)
    (hplace : limit * more ≤ (queueAfter debounceMs calls).line.place code) :
    code ∈ (queueAfter debounceMs (calls ++ .replicate more (.pop limit))).line.order ∧
      (queueAfter debounceMs (calls ++ .replicate more (.pop limit))).line.place code +
        limit * more = (queueAfter debounceMs calls).line.place code ∧
      returnedSince debounceMs (calls ++ .replicate more (.pop limit)) n code =
        returnedSince debounceMs calls n code ∧
      popsSince (calls ++ .replicate more (.pop limit)) n = popsSince calls n + more := by
  induction more with
  | zero =>
    rw [replicate_zero, append_nil]
    exact ⟨hmem, rfl, rfl, rfl⟩
  | succ more ih =>
    rw [Nat.mul_succ] at hplace ⊢
    obtain ⟨hmem, hleft, hreturned, hpops⟩ := ih (by omega)
    rw [replicate_succ', ← append_assoc]
    have hlonger : n ≤ (calls ++ replicate more (pop limit)).length := by
      rw [length_append]
      omega
    generalize calls ++ replicate more (pop limit) = longer at *
    cases callCases debounceMs longer (.pop limit) with
    | refused _ hpop => cases hpop
    | marked _ _ _ hpop => cases hpop
    | popped asked hasked _ hreturns hqueue =>
      obtain rfl : (limit : Int) = asked := pop.inj hasked
      rw [returnedSince_concat hlonger, popsSince_concat hlonger, hreturned, hpops,
        if_pos (show isPop (.pop limit) = true from rfl)]
      have hline : (queueAfter debounceMs (longer ++ [.pop limit])).line =
          (queueAfter debounceMs longer).line.serve limit := by
        rw [hqueue, line_popDirty, Int.toNat_natCast]
      have hstays : code ∈ (queueAfter debounceMs (longer ++ [.pop limit])).line.order := by
        rw [hline]
        exact mem_serve_iff.mpr ⟨hmem, by omega⟩
      refine ⟨hstays, ?_, ?_, Nat.add_assoc ..⟩
      · rw [hline] at hstays ⊢
        have := place_serve hstays
        omega
      · have hkept : returnsCode code ((dirtyCodeQueue debounceMs).out
            (queueAfter debounceMs longer) (.pop limit)) = false := by
          rw [← Bool.not_eq_true, hreturns code]
          exact fun h => h.2 hstays
        rw [hkept, Bool.or_false]

theorem harmless_of_punctual (hcoalesced : Coalesced debounceMs calls)
    (hnext : ∀ more : ℕ, Coalesced debounceMs (calls ++ [call] ++ .replicate more (.pop limit)) ∧
      Punctual debounceMs limit (calls ++ [call] ++ .replicate more (.pop limit))) :
    Harmless debounceMs limit calls call := by
  intro mark hmark
  have hafter := (hnext 0).1
  rw [replicate_zero, append_nil] at hafter
  refine ⟨(coalesced_concat hcoalesced).mp hafter mark hmark, ?_⟩
  intro past earlier hpast known hknown hcode hwaiting
  by_contra hbeyond
  cases callCases debounceMs calls call with
  | refused haccepted => rw [haccepted] at hmark; cases hmark
  | popped asked _ haccepted => rw [haccepted] at hmark; cases hmark
  | marked code reason haccepted hpop hreturns hmarked =>
    obtain rfl : (code, reason) = mark := by
      rw [haccepted] at hmark
      exact Option.some.inj hmark
    unfold reach queued at hbeyond
    rw [length_append, length_singleton] at hbeyond
    -- the code is last now, behind more than the calls left can take
    have hlonger := length_le_join (queueAfter debounceMs calls).line code
    have hlast := place_join_self (queueAfter debounceMs calls).line code
    have hle := length_concat_le hpast
    have hconcat : past.length + 1 ≤ (calls ++ [call]).length := by
      rw [length_append]
      omega
    obtain ⟨left, hleft⟩ : ∃ left, left = neededPops debounceMs limit (past ++ [earlier]) -
      popsSince calls (past.length + 1) := ⟨_, rfl⟩
    rw [← hleft] at hbeyond
    have hmem : code ∈ (queueAfter debounceMs (calls ++ [call])).line.order := by
      rw [hmarked.line]
      exact mem_join.mpr (.inl rfl)
    have hplace : limit * left ≤ (queueAfter debounceMs (calls ++ [call])).line.place code := by
      rw [hmarked.line]
      omega
    obtain ⟨-, -, hreturned, hpops⟩ := waits_replicate hconcat hmem hplace
    have hprefix : past ++ [earlier] <+:
        calls ++ [call] ++ replicate left (pop limit) := by
      rw [append_assoc]
      exact hpast.trans (prefix_append ..)
    have hdue := (hnext left).2 past earlier hprefix known hknown (by
      rw [hpops, popsSince_concat hle]
      omega)
    rw [hcode, hreturned, returnedSince_concat hle, hreturns, Bool.or_false, hwaiting] at hdue
    exact Bool.false_ne_true hdue

/-! ## Runs -/

theorem harmless_pop (debounceMs : Int) (limit : ℕ) (calls : List QueueCall) (asked : Int) :
    Harmless debounceMs limit calls (.pop asked) := by
  intro mark hmark
  cases hmark

theorem coalesced_nil (debounceMs : Int) : Coalesced debounceMs [] := by
  intro code
  refine ⟨iff_of_false not_mem_nil fun h => h rfl, ?_⟩
  intro event hevent
  cases hevent

theorem waits_nil (debounceMs : Int) (limit : ℕ) : Waits debounceMs limit [] := by
  intro past call hpast
  simp at hpast

theorem waits_pops (hlimit : 0 < limit) (hcoalesced : Coalesced debounceMs calls)
    (hwaits : Waits debounceMs limit calls) (more : ℕ) :
    Coalesced debounceMs (calls ++ .replicate more (.pop limit)) ∧
      Waits debounceMs limit (calls ++ .replicate more (.pop limit)) := by
  induction more with
  | zero =>
    rw [replicate_zero, append_nil]
    exact ⟨hcoalesced, hwaits⟩
  | succ more ih =>
    rw [replicate_succ', ← append_assoc]
    have hharmless := harmless_pop debounceMs limit (calls ++ .replicate more (.pop limit)) limit
    refine ⟨(coalesced_concat ih.1).mpr fun mark hmark => (hharmless mark hmark).1,
      waits_concat hlimit ?_ hharmless ih.2⟩
    intro asked hasked
    rw [pop.inj hasked]

/-- In a run whose calls take `limit` codes or more, and in all that such calls make of it, no
reason is lost and every code is returned in time exactly if every mark is harmless: its reason has
no comma, and the calls left to its code, where that waits, reach the end of the queue. -/
theorem coalesced_punctual_iff (debounceMs : Int) (hlimit : 0 < limit)
    (hasked : ∀ asked : Int, .pop asked ∈ calls → limit ≤ asked) :
    (∀ past, past <+: calls → ∀ more : ℕ,
        Coalesced debounceMs (past ++ .replicate more (.pop limit)) ∧
          Punctual debounceMs limit (past ++ .replicate more (.pop limit))) ↔
      ∀ past call, past ++ [call] <+: calls → Harmless debounceMs limit past call := by
  constructor
  · intro h past call hpast
    have hstart := (h past ((prefix_append past [call]).trans hpast) 0).1
    rw [replicate_zero, append_nil] at hstart
    exact harmless_of_punctual hstart (h (past ++ [call]) hpast)
  · intro h past hpast more
    have hkept : ∀ past, past <+: calls →
        Coalesced debounceMs past ∧ Waits debounceMs limit past := by
      refine prefix_induction ⟨coalesced_nil debounceMs, waits_nil debounceMs limit⟩ ?_
      rintro past call hpre ⟨hcoalesced, hwaits⟩
      have hharmless := h past call hpre
      refine ⟨(coalesced_concat hcoalesced).mpr fun mark hmark => (hharmless mark hmark).1,
        waits_concat hlimit ?_ hharmless hwaits⟩
      rintro asked rfl
      exact hasked asked (hpre.subset (mem_append_right _ (mem_singleton.mpr rfl)))
    obtain ⟨hcoalesced, hwaits⟩ := hkept past hpast
    obtain ⟨hcoalesced, hwaits⟩ := waits_pops hlimit hcoalesced hwaits more
    exact ⟨hcoalesced, punctual_of_waits hwaits⟩

/-! ## Fixed runs -/

/-- A code that waits alone is marked again, and one more call takes it out with the other. -/
theorem coalesced_punctual_again :
    Coalesced 200 ([.mark "005930" (.inl .priceTick) "" 0, .mark "000660" (.inl .priceTick) "" 0,
        .mark "005930" (.inl .spreadChanged) "" 0, .pop 2] ++ .replicate 1 (.pop (2 : ℕ))) ∧
      Punctual 200 2 ([.mark "005930" (.inl .priceTick) "" 0,
        .mark "000660" (.inl .priceTick) "" 0, .mark "005930" (.inl .spreadChanged) "" 0,
        .pop 2] ++ .replicate 1 (.pop (2 : ℕ))) :=
  (coalesced_punctual_iff 200 (by decide) (by simp)).mpr (by decide +kernel) _ prefix_rfl 1

/-- A code that waits alone is marked again behind another, which the next call returns. -/
theorem starved_by_its_own_mark :
    ¬ Punctual 200 1 [.mark "005930" (.inl .priceTick) "" 0,
      .mark "000660" (.inl .priceTick) "" 0, .mark "005930" (.inl .spreadChanged) "" 0,
      .pop 1] := by
  intro h
  have := h [] (.mark "005930" (.inl .priceTick) "" 0) ⟨_, rfl⟩ ("005930", "PRICE_TICK")
    (by decide +kernel) (by decide +kernel)
  revert this
  decide +kernel

end TradingCore.DirtyCodes
