import TradingCore.Transport.CoreClient

/-!
# Which commands reach the worker

A batch is the only copy of its commands. `Recoverable` says that none is lost yet: the receive
loop and the calls of `poll_commands`, left to themselves, can still bring every delivered command
into the answer of exactly one call.

* `account` lists what the client has of the delivered commands, `Accounted` says that this is all
  of them; no action ever adds a second copy (`account_sublist`).
* Under REST fallback a call that has begun may still take from the queue, a later one may not:
  `Stranded` says that more is waiting than the call in progress can take.
* `recoverable_iff`: nothing is lost precisely if everything is accounted for and nothing is
  stranded; `recoverable_iff_keeps` carries it over whole runs.
-/

namespace TradingCore.Transport.CoreClient

open Base Broker List Option Machine

variable {c : CoreClient} {a : Action}

def held (c : CoreClient) : List GatewayCommand := (c.polling.map Poll.commands).getD []

def room (c : CoreClient) : Nat :=
  (c.polling.map fun poll => poll.limit - poll.commands.length).getD 0

def waiting (c : CoreClient) : Nat := c.commands.length + c.incoming.length

def account (c : CoreClient) : List GatewayCommand :=
  c.polls.flatten ++ c.held ++ c.commands ++ c.incoming

def Accounted (c : CoreClient) : Prop := c.account = c.delivered
deriving Decidable

def Stranded (c : CoreClient) : Prop := c.fallbackActive = true ∧ c.room < c.waiting
deriving Decidable

def Kept (c : CoreClient) : Prop := c.Accounted ∧ ¬ c.Stranded
deriving Decidable

def Drains : Action → Prop
  | .putCommand | .pollStart _ | .pollGet | .pollReturn => True
  | _ => False

def ReturnedOnce (c : CoreClient) : Prop := c.polls.flatten = c.delivered

def Recoverable (c : CoreClient) : Prop :=
  ∃ more, (∀ a ∈ more, Drains a) ∧ (machine.run c more).ReturnedOnce

/-- The actions that lose nothing. A put does not time out on the full queue;
where REST fallback is active, or becomes so, what waits fits into the call in
progress; and no call returns under fallback while something waits. -/
def Keeps (c : CoreClient) : Action → Prop
  | .receiveBatch commands _ =>
      c.fallbackActive = true → c.incoming = [] → c.waiting + commands.length ≤ c.room
  | .putTimeout => c.full = true → c.incoming = []
  | .pollReturn =>
      c.fallbackActive = true → c.polling.isSome = true → c.commands = [] → c.incoming = []
  | .maybeFallback =>
      (c.policy.fallbackToRest && c.hasFallbackClient) = true → c.waiting ≤ c.room
  | _ => True

/-! ## What each action does to the account -/

theorem receiveBatch_account (commands : List GatewayCommand) (trace : GatewayCommand → Value)
    (h : c.incoming = []) :
    (c.receiveBatch commands trace).account
        = c.account ++ commands.map (fun command => commandWithTrace command (trace command)) ∧
      (c.receiveBatch commands trace).delivered
        = c.delivered ++ commands.map (fun command => commandWithTrace command (trace command)) := by
  constructor <;> simp [receiveBatch, account, held, h]

theorem receiveBatch_busy {commands : List GatewayCommand} {trace : GatewayCommand → Value}
    (h : c.incoming ≠ []) : c.receiveBatch commands trace = c := by
  cases hi : c.incoming with
  | nil => exact absurd hi h
  | cons command rest => simp [receiveBatch, hi]

theorem putCommand_cases (c : CoreClient) :
    c.putCommand = c ∨ ∃ command rest, c.incoming = command :: rest ∧ c.full = false ∧
      c.putCommand = { c with incoming := rest, commands := c.commands ++ [command] } := by
  cases hi : c.incoming with
  | nil => exact .inl (by simp [putCommand, hi])
  | cons command rest =>
    cases hf : c.full with
    | true => exact .inl (by simp [putCommand, hi, hf])
    | false => exact .inr ⟨command, rest, rfl, rfl, by simp [putCommand, hi, hf]⟩

theorem pollStart_cases (c : CoreClient) (limit : Int) :
    c.pollStart limit = c ∨ c.polling = none ∧ c.fallbackActive = false ∧
      c.pollStart limit = { c with polling := some ⟨pollLimit limit, []⟩ } := by
  cases hp : c.polling with
  | some poll => exact .inl (by simp [pollStart, hp])
  | none =>
    cases hf : c.fallbackActive with
    | true => exact .inl (by simp [pollStart, hp, hf])
    | false => exact .inr ⟨rfl, rfl, by simp [pollStart, hp, hf]⟩

theorem pollGet_cases (c : CoreClient) :
    c.pollGet = c ∨ ∃ poll command rest, c.polling = some poll ∧ c.commands = command :: rest ∧
      poll.commands.length < poll.limit ∧
      c.pollGet = { c with commands := rest
                           polling := some { poll with commands := poll.commands ++ [command] } } := by
  cases hp : c.polling with
  | none => exact .inl (by simp [pollGet, hp])
  | some poll =>
    cases hc : c.commands with
    | nil => exact .inl (by simp [pollGet, hp, hc])
    | cons command rest =>
      by_cases hroom : poll.commands.length < poll.limit
      · exact .inr ⟨poll, command, rest, rfl, rfl, hroom, by simp [pollGet, hp, hc, hroom]⟩
      · exact .inl (by simp [pollGet, hp, hc, hroom])

theorem pollReturn_cases (c : CoreClient) :
    c.pollReturn = c ∨ ∃ poll, c.polling = some poll ∧
      (poll.limit ≤ poll.commands.length ∨ c.commands = []) ∧
      c.pollReturn = { c with polling := none, polls := c.polls ++ [poll.commands] } := by
  cases hp : c.polling with
  | none => exact .inl (by simp [pollReturn, hp])
  | some poll =>
    by_cases hend : poll.limit ≤ poll.commands.length ∨ c.commands = []
    · exact .inr ⟨poll, rfl, hend, by simp [pollReturn, hp, hend]⟩
    · exact .inl (by simp [pollReturn, hp, hend])

theorem act_account_of_drains (ha : Drains a) :
    (c.act a).account = c.account ∧ (c.act a).delivered = c.delivered := by
  cases a with
  | putCommand =>
    rcases c.putCommand_cases with hsame | ⟨command, rest, hi, -, hnext⟩
    · simp [act, hsame]
    · simp [act, hnext, account, held, hi]
  | pollStart limit =>
    rcases c.pollStart_cases limit with hsame | ⟨hp, -, hnext⟩
    · simp [act, hsame]
    · simp [act, hnext, account, held, hp]
  | pollGet =>
    rcases c.pollGet_cases with hsame | ⟨poll, command, rest, hp, hc, -, hnext⟩
    · simp [act, hsame]
    · simp [act, hnext, account, held, hp, hc]
  | pollReturn =>
    rcases c.pollReturn_cases with hsame | ⟨poll, hp, -, hnext⟩
    · simp [act, hsame]
    · simp [act, hnext, account, held, hp]
  | _ => exact ha.elim

theorem act_account_sublist_of_drains (ha : Drains a) (h : c.account.Sublist c.delivered) :
    (c.act a).account.Sublist (c.act a).delivered := by
  obtain ⟨hacc, hdel⟩ := act_account_of_drains (c := c) ha
  rw [hacc, hdel]
  exact h

theorem act_account_sublist (h : c.account.Sublist c.delivered) :
    (c.act a).account.Sublist (c.act a).delivered := by
  cases a with
  | receiveBatch commands trace =>
    by_cases hi : c.incoming = []
    · obtain ⟨hacc, hdel⟩ := receiveBatch_account commands trace hi
      show (c.receiveBatch commands trace).account.Sublist (c.receiveBatch commands trace).delivered
      rw [hacc, hdel]
      exact h.append (Sublist.refl _)
    · show (c.receiveBatch commands trace).account.Sublist _
      rw [act, receiveBatch_busy hi]
      exact h
  | putTimeout =>
    show c.putTimeout.account.Sublist c.putTimeout.delivered
    unfold putTimeout
    split
    · have hpart : (c.polls.flatten ++ c.held ++ c.commands ++ []).Sublist c.account :=
        (Sublist.refl _).append (nil_sublist _)
      exact hpart.trans h
    · exact h
  | maybeFallback =>
    show c.maybeFallback.account.Sublist c.maybeFallback.delivered
    unfold maybeFallback
    split <;> exact h
  | stop =>
    show c.stop.account.Sublist c.stop.delivered
    unfold stop
    split <;> exact h
  | setConnection state => exact h
  | pollRest commands => exact h
  | putCommand => exact act_account_sublist_of_drains (a := .putCommand) trivial h
  | pollStart limit => exact act_account_sublist_of_drains (a := .pollStart limit) trivial h
  | pollGet => exact act_account_sublist_of_drains (a := .pollGet) trivial h
  | pollReturn => exact act_account_sublist_of_drains (a := .pollReturn) trivial h

/-! ## What is stranded stays stranded -/

theorem act_stranded_of_drains (ha : Drains a) (h : c.Stranded) : (c.act a).Stranded := by
  obtain ⟨hfall, hmore⟩ := h
  cases a with
  | putCommand =>
    rcases c.putCommand_cases with hsame | ⟨command, rest, hi, -, hnext⟩
    · rw [act, hsame]
      exact ⟨hfall, hmore⟩
    · rw [act, hnext]
      refine ⟨hfall, ?_⟩
      simp only [room, waiting, hi, length_cons, length_append, length_nil] at hmore ⊢
      omega
  | pollStart limit =>
    rcases c.pollStart_cases limit with hsame | ⟨-, hws, -⟩
    · rw [act, hsame]
      exact ⟨hfall, hmore⟩
    · rw [hfall] at hws
      cases hws
  | pollGet =>
    rcases c.pollGet_cases with hsame | ⟨poll, command, rest, hp, hc, hlt, hnext⟩
    · rw [act, hsame]
      exact ⟨hfall, hmore⟩
    · rw [act, hnext]
      refine ⟨hfall, ?_⟩
      simp only [room, waiting, hp, hc, map_some, getD_some, length_cons,
        length_append, length_nil] at hmore ⊢
      omega
  | pollReturn =>
    rcases c.pollReturn_cases with hsame | ⟨poll, hp, -, hnext⟩
    · rw [act, hsame]
      exact ⟨hfall, hmore⟩
    · rw [act, hnext]
      refine ⟨hfall, ?_⟩
      show 0 < c.waiting
      omega
  | _ => exact ha.elim

theorem run_drains {more : List Action} (hmore : ∀ a ∈ more, Drains a) :
    (machine.run c more).account = c.account ∧ (machine.run c more).delivered = c.delivered ∧
      (c.Stranded → (machine.run c more).Stranded) := by
  induction more generalizing c with
  | nil => exact ⟨rfl, rfl, id⟩
  | cons a rest ih =>
    have ha : Drains a := hmore a mem_cons_self
    obtain ⟨hacc, hdel⟩ := act_account_of_drains (c := c) ha
    obtain ⟨hacc', hdel', hstr⟩ := ih (c := c.act a) fun b hb =>
      hmore b (mem_cons_of_mem a hb)
    exact ⟨hacc'.trans hacc, hdel'.trans hdel, fun h => hstr (act_stranded_of_drains ha h)⟩

/-! ## Nothing is lost precisely if all is accounted for and nothing stranded -/

theorem ReturnedOnce.settled (h : c.ReturnedOnce) (hsub : c.account.Sublist c.delivered) :
    c.Accounted ∧ c.waiting = 0 := by
  have hlen : c.account.length ≤ c.delivered.length := hsub.length_le
  have hret : c.polls.flatten.length = c.delivered.length := congrArg length h
  simp only [account, length_append] at hlen
  have hheld : c.held = [] := eq_nil_of_length_eq_zero (by omega)
  have hqueue : c.commands = [] := eq_nil_of_length_eq_zero (by omega)
  have hbatch : c.incoming = [] := eq_nil_of_length_eq_zero (by omega)
  refine ⟨?_, by simp [waiting, hqueue, hbatch]⟩
  show c.polls.flatten ++ c.held ++ c.commands ++ c.incoming = c.delivered
  rw [hheld, hqueue, hbatch, h]
  simp

theorem Recoverable.kept (h : c.Recoverable) (hsub : c.account.Sublist c.delivered) :
    c.Kept := by
  obtain ⟨more, hmore, hdone⟩ := h
  obtain ⟨hacc, hdel, hstr⟩ := run_drains (c := c) hmore
  obtain ⟨hall, hempty⟩ := hdone.settled (by rw [hacc, hdel]; exact hsub)
  refine ⟨?_, fun hs => ?_⟩
  · rw [Accounted, hacc, hdel] at hall
    exact hall
  · have hlt := (hstr hs).2
    omega

theorem Recoverable.of_run {as : List Action} (has : ∀ a ∈ as, Drains a)
    (h : (machine.run c as).Recoverable) : c.Recoverable := by
  obtain ⟨more, hmore, hdone⟩ := h
  refine ⟨as ++ more, ?_, ?_⟩
  · intro a ha
    rcases mem_append.mp ha with h' | h'
    · exact has a h'
    · exact hmore a h'
  · rw [machine.run_append]
    exact hdone

def effort (c : CoreClient) : Nat :=
  3 * c.incoming.length + 2 * c.commands.length + (if c.polling.isSome then 1 else 0)

theorem full_eq_false_of_nil (h : c.commands = []) : c.full = false := by
  unfold full
  rw [h]
  by_cases hpos : 0 < c.policy.maxQueueSize
  · have hle : ¬ c.policy.maxQueueSize ≤ 0 := by omega
    simp [hle]
  · simp [hpos]

theorem run_newCall {command : GatewayCommand} {rest : List GatewayCommand}
    (hp : c.polling = none) (hws : c.fallbackActive = false) (hc : c.commands = command :: rest) :
    machine.run c [.pollStart 20, .pollGet]
      = { c with commands := rest, polling := some ⟨20, [command]⟩ } := by
  have hstart : c.pollStart 20 = { c with polling := some ⟨20, []⟩ } := by
    simp only [pollStart, hp, hws]
    rfl
  show (c.pollStart 20).pollGet = _
  rw [hstart]
  simp [pollGet, hc]

theorem exists_progress (hstr : ¬ c.Stranded) (hleft : c.waiting ≠ 0 ∨ c.polling.isSome = true) :
    ∃ as, (∀ a ∈ as, Drains a) ∧ ¬ (machine.run c as).Stranded ∧
      (machine.run c as).effort < c.effort := by
  by_cases hput : c.incoming ≠ [] ∧ c.full = false
  · -- the queue has room: the receive loop puts its next command
    obtain ⟨command, rest, hi⟩ := exists_cons_of_ne_nil hput.1
    refine ⟨[.putCommand], by simp [Drains], ?_, ?_⟩
    · simp only [run_cons, run_nil, machine_next, act, putCommand, hi, hput.2]
      intro hs
      refine hstr ⟨hs.1, ?_⟩
      have hlt := hs.2
      simp only [room, waiting, hi, length_cons, length_append, Bool.false_eq_true,
        if_false, length_nil] at hlt ⊢
      omega
    · simp only [run_cons, run_nil, machine_next, act, putCommand, hi, hput.2,
        effort, length_cons, length_append, Bool.false_eq_true, if_false,
        length_nil]
      omega
  · cases hc : c.commands with
    | nil =>
      -- an empty queue has room, so the batch is done and only a call is left
      have hi : c.incoming = [] := by
        by_contra hne
        exact hput ⟨hne, full_eq_false_of_nil hc⟩
      have hwait : c.waiting = 0 := by simp [waiting, hc, hi]
      cases hp : c.polling with
      | none =>
        rw [hp] at hleft
        rcases hleft with h | h
        · exact absurd hwait h
        · cases h
      | some poll =>
        refine ⟨[.pollReturn], by simp [Drains], ?_, ?_⟩
        · simp only [run_cons, run_nil, machine_next, act, pollReturn, hp, hc]
          intro hs
          have hlt : 0 < c.waiting := by simpa [room, waiting, hc] using hs.2
          omega
        · simp [act, pollReturn, hp, hc, effort]
    | cons command rest =>
      cases hp : c.polling with
      | none =>
        -- nobody is polling, so the client is on the WebSocket: a new call takes one
        have hws : c.fallbackActive = false := by
          cases hf : c.fallbackActive with
          | false => rfl
          | true =>
            have hlt : c.room < c.waiting := by
              simp only [room, waiting, hp, hc, map_none, getD_none, length_cons]
              omega
            exact absurd ⟨hf, hlt⟩ hstr
        refine ⟨[.pollStart 20, .pollGet], by simp [Drains], ?_, ?_⟩
        · rw [run_newCall hp hws hc]
          intro hs
          have hfall : c.fallbackActive = true := hs.1
          rw [hws] at hfall
          cases hfall
        · rw [run_newCall hp hws hc]
          simp only [effort, hp, hc, length_cons, isSome_some, isSome_none,
            Bool.false_eq_true, if_true, if_false]
          omega
      | some poll =>
        by_cases hlt : poll.commands.length < poll.limit
        · refine ⟨[.pollGet], by simp [Drains], ?_, ?_⟩
          · simp only [run_cons, run_nil, machine_next, act, pollGet, hp, hc,
              hlt, if_true]
            intro hs
            refine hstr ⟨hs.1, ?_⟩
            have hroom := hs.2
            simp only [room, waiting, hp, hc, map_some, getD_some,
              length_cons, length_append, length_nil] at hroom ⊢
            omega
          · simp [act, pollGet, hp, hc, hlt, effort]
        · refine ⟨[.pollReturn], by simp [Drains], ?_, ?_⟩
          · have hend : poll.limit ≤ poll.commands.length := by omega
            simp only [run_cons, run_nil, machine_next, act, pollReturn, hp, hend, true_or, if_true]
            intro hs
            refine hstr ⟨hs.1, ?_⟩
            simp only [room, waiting, hp, hc, map_some, getD_some, length_cons]
            omega
          · have hend : poll.limit ≤ poll.commands.length := by omega
            simp [act, pollReturn, hp, hend, effort]

theorem recoverable_of_kept (hacc : c.Accounted) (hstr : ¬ c.Stranded) : c.Recoverable := by
  induction hn : c.effort using Nat.strong_induction_on generalizing c with
  | _ n ih =>
    by_cases hleft : c.waiting ≠ 0 ∨ c.polling.isSome = true
    · obtain ⟨as, has, hstr', hless⟩ := exists_progress hstr hleft
      obtain ⟨hsame, hdel, -⟩ := run_drains (c := c) has
      refine .of_run has (ih _ (hn ▸ hless) ?_ hstr' rfl)
      rw [Accounted, hsame, hdel]
      exact hacc
    · -- nothing waits and nobody is polling: the answers are the account
      obtain ⟨hwait, hpoll⟩ := not_or.mp hleft
      refine ⟨[], by simp, ?_⟩
      have hnone : c.polling = none := by simpa using hpoll
      have hlen : c.commands.length + c.incoming.length = 0 := not_not.mp hwait
      have hqueue : c.commands = [] := eq_nil_of_length_eq_zero (by omega)
      have hbatch : c.incoming = [] := eq_nil_of_length_eq_zero (by omega)
      show c.polls.flatten = c.delivered
      rw [← hacc]
      simp [account, held, hnone, hqueue, hbatch]

theorem recoverable_iff (hsub : c.account.Sublist c.delivered) :
    c.Recoverable ↔ c.Kept :=
  ⟨fun h => h.kept hsub, fun h => recoverable_of_kept h.1 h.2⟩

/-! ## The exact guard of each action -/

theorem not_stranded (h : c.connectionState ≠ .fallbackRest) : ¬ c.Stranded := by
  intro hs
  have hfall := hs.1
  simp [fallbackActive, h] at hfall

section

variable (h : c.Kept)
include h

theorem receiveBatch_kept_iff {commands : List GatewayCommand} {trace : GatewayCommand → Value} :
    (c.receiveBatch commands trace).Kept ↔
      (c.fallbackActive = true → c.incoming = [] → c.waiting + commands.length ≤ c.room) := by
  by_cases hi : c.incoming = []
  · obtain ⟨hall, hdel⟩ := receiveBatch_account commands trace hi
    have hacc : (c.receiveBatch commands trace).Accounted := by
      rw [Accounted, hall, hdel, h.1]
    have hstr : (c.receiveBatch commands trace).Stranded ↔
        c.fallbackActive = true ∧ c.room < c.waiting + commands.length := by
      simp [receiveBatch, hi, Stranded, fallbackActive, room, waiting]
    constructor
    · intro hkept hfall _
      by_contra hlt
      exact hkept.2 (hstr.mpr ⟨hfall, by omega⟩)
    · intro hfits
      refine ⟨hacc, fun hs => ?_⟩
      obtain ⟨hfall, hlt⟩ := hstr.mp hs
      have hle := hfits hfall hi
      omega
  · rw [receiveBatch_busy hi]
    exact ⟨fun _ _ hnil => absurd hnil hi, fun _ => h⟩

theorem putTimeout_kept_iff : c.putTimeout.Kept ↔ (c.full = true → c.incoming = []) := by
  cases hf : c.full with
  | false =>
    have hsame : c.putTimeout = c := by simp [putTimeout, hf]
    rw [hsame]
    refine ⟨fun _ hfull => ?_, fun _ => h⟩
    cases hfull
  | true =>
    have hnext : c.putTimeout = { c with incoming := [] } := by simp [putTimeout, hf]
    constructor
    · rintro ⟨hacc, -⟩ -
      rw [hnext] at hacc
      -- the account without the batch is still everything delivered
      have hlen : (c.polls.flatten ++ c.held ++ c.commands ++ []).length = c.account.length :=
        congrArg length (hacc.trans h.1.symm)
      refine eq_nil_of_length_eq_zero ?_
      simp only [account, length_append, length_nil] at hlen
      omega
    · intro hnil
      have hsame : c.putTimeout = c := by rw [hnext, ← hnil rfl]
      rw [hsame]
      exact h

theorem pollReturn_kept_iff :
    c.pollReturn.Kept ↔
      (c.fallbackActive = true → c.polling.isSome = true → c.commands = [] → c.incoming = []) := by
  obtain ⟨hall, hdel⟩ := act_account_of_drains (c := c) (a := .pollReturn) trivial
  have hacc : c.pollReturn.Accounted := (hall.trans h.1).trans hdel.symm
  rcases c.pollReturn_cases with hsame | ⟨poll, hp, hend, hnext⟩
  · rw [hsame]
    refine ⟨fun _ hfall hsome hnil => ?_, fun _ => h⟩
    -- an empty queue would have let the loop end
    obtain ⟨poll, hp⟩ := isSome_iff_exists.mp hsome
    have hne : c.pollReturn.polling = none := by simp [pollReturn, hp, hnil]
    rw [hsame, hp] at hne
    cases hne
  · have hstr : c.pollReturn.Stranded ↔ c.fallbackActive = true ∧ 0 < c.waiting := by
      rw [hnext]
      rfl
    constructor
    · intro hkept hfall _ _
      have hzero : ¬ 0 < c.waiting := fun hlt => hkept.2 (hstr.mpr ⟨hfall, hlt⟩)
      refine eq_nil_of_length_eq_zero ?_
      simp only [waiting] at hzero
      omega
    · intro hkeep
      refine ⟨hacc, fun hs => ?_⟩
      obtain ⟨hfall, hlt⟩ := hstr.mp hs
      rcases hend with hfull | hempty
      · -- a full answer leaves no room, so nothing waits
        have hroom : c.room = 0 := by
          simp only [room, hp, map_some, getD_some]
          omega
        exact h.2 ⟨hfall, by omega⟩
      · have hbatch := hkeep hfall (by simp [hp]) hempty
        simp [waiting, hempty, hbatch] at hlt

theorem maybeFallback_kept_iff :
    c.maybeFallback.Kept ↔
      ((c.policy.fallbackToRest && c.hasFallbackClient) = true → c.waiting ≤ c.room) := by
  cases hf : c.policy.fallbackToRest && c.hasFallbackClient with
  | false =>
    have hnext : c.maybeFallback = { c with connectionState := .degraded } := by
      simp [maybeFallback, hf]
    rw [hnext]
    refine ⟨fun _ hno => ?_, fun _ => ⟨h.1, not_stranded (by simp)⟩⟩
    cases hno
  | true =>
    have hnext : c.maybeFallback = { c with connectionState := .fallbackRest } := by
      simp [maybeFallback, hf]
    have hclient : c.hasFallbackClient = true := by
      cases hc : c.hasFallbackClient with
      | true => rfl
      | false => simp [hc] at hf
    have hstr : c.maybeFallback.Stranded ↔ c.room < c.waiting := by
      rw [hnext]
      simp [Stranded, fallbackActive, hclient, room, waiting]
    rw [hnext] at hstr ⊢
    constructor
    · intro hkept _
      by_contra hlt
      exact hkept.2 (hstr.mpr (by omega))
    · intro hfits
      refine ⟨h.1, fun hs => ?_⟩
      have hlt := hstr.mp hs
      have hle := hfits rfl
      omega

theorem stop_kept : c.stop.Kept := by
  by_cases hf : c.connectionState = .fallbackRest
  · rw [stop, if_pos hf]
    exact h
  · rw [stop, if_neg hf]
    exact ⟨h.1, not_stranded (by simp)⟩

theorem putCommand_kept : c.putCommand.Kept := by
  obtain ⟨hall, hdel⟩ := act_account_of_drains (c := c) (a := .putCommand) trivial
  refine ⟨(hall.trans h.1).trans hdel.symm, fun hs => h.2 ?_⟩
  rcases c.putCommand_cases with hsame | ⟨command, rest, hi, -, hnext⟩
  · rw [hsame] at hs
    exact hs
  · rw [hnext] at hs
    refine ⟨hs.1, ?_⟩
    have hlt := hs.2
    simp only [room, waiting, hi, length_append, length_cons, length_nil] at hlt ⊢
    omega

end

theorem pollStart_kept (limit : Int) (h : c.Kept) : (c.pollStart limit).Kept := by
  obtain ⟨hall, hdel⟩ := act_account_of_drains (c := c) (a := .pollStart limit) trivial
  refine ⟨(hall.trans h.1).trans hdel.symm, fun hs => h.2 ?_⟩
  rcases c.pollStart_cases limit with hsame | ⟨-, hws, hnext⟩
  · rw [hsame] at hs
    exact hs
  · rw [hnext] at hs
    have hfall : c.fallbackActive = true := hs.1
    rw [hws] at hfall
    cases hfall

theorem pollGet_kept (h : c.Kept) : c.pollGet.Kept := by
  obtain ⟨hall, hdel⟩ := act_account_of_drains (c := c) (a := .pollGet) trivial
  refine ⟨(hall.trans h.1).trans hdel.symm, fun hs => h.2 ?_⟩
  rcases c.pollGet_cases with hsame | ⟨poll, command, rest, hp, hc, hlt, hnext⟩
  · rw [hsame] at hs
    exact hs
  · rw [hnext] at hs
    refine ⟨hs.1, ?_⟩
    have hroom := hs.2
    simp only [room, waiting, hp, hc, map_some, getD_some, length_append,
      length_cons, length_nil] at hroom ⊢
    omega

/-- From a state that has lost nothing, an action loses nothing precisely if it
keeps to `Keeps`. -/
theorem act_kept_iff (h : c.Kept) : (c.act a).Kept ↔ c.Keeps a := by
  cases a with
  | receiveBatch commands trace => exact receiveBatch_kept_iff h
  | putTimeout => exact putTimeout_kept_iff h
  | pollReturn => exact pollReturn_kept_iff h
  | maybeFallback => exact maybeFallback_kept_iff h
  | putCommand => exact ⟨fun _ => trivial, fun _ => putCommand_kept h⟩
  | pollStart limit => exact ⟨fun _ => trivial, fun _ => pollStart_kept limit h⟩
  | pollGet => exact ⟨fun _ => trivial, fun _ => pollGet_kept h⟩
  | pollRest commands => exact ⟨fun _ => trivial, fun _ => h⟩
  | setConnection state => exact ⟨fun _ => trivial, fun _ => ⟨h.1, not_stranded state.property⟩⟩
  | stop => exact ⟨fun _ => trivial, fun _ => stop_kept h⟩

/-! ## Over whole runs -/

section Runs

variable (policy : WebSocketPilotPolicy) (hasFallbackClient : Bool) (actions : List Action)

/-- Along a run of a new client, every delivered command can at all times still be
returned by exactly one call of `poll_commands` precisely if every action of the run
keeps to `Keeps`. -/
theorem recoverable_iff_keeps :
    machine.Always Recoverable (init policy hasFallbackClient) actions ↔
      machine.Guarded Keeps (init policy hasFallbackClient) actions := by
  refine always_iff_guarded (I := fun c => c.account.Sublist c.delivered) ?_ ?_ (Sublist.refl []) ?_
  · intro c a hsub _ _
    exact act_account_sublist hsub
  · intro c a hsub hrec
    rw [machine_next, recoverable_iff (act_account_sublist hsub)]
    exact act_kept_iff ((recoverable_iff hsub).mp hrec)
  · exact ⟨[], by simp, rfl⟩

end Runs

theorem run_account_sublist (policy : WebSocketPilotPolicy) (hasFallbackClient : Bool)
    (actions : List Action) :
    (machine.run (init policy hasFallbackClient) actions).account.Sublist
      (machine.run (init policy hasFallbackClient) actions).delivered :=
  run_preserves (m := machine) (s := init policy hasFallbackClient)
    (I := fun c => c.account.Sublist c.delivered)
    (fun _ _ h => act_account_sublist h) (Sublist.refl []) actions

/-- The order `orderA` and the cancel `orderB` of one batch. -/
def orderA : GatewayCommand := { type := "send_order", commandId := "cmd-a" }

def orderB : GatewayCommand := { type := "cancel_order", commandId := "cmd-b" }

def fallbackRun : List Action :=
  [.receiveBatch [orderA] fun _ => .str "trace", .putCommand, .maybeFallback]

def fullQueueRun : List Action :=
  [.receiveBatch [orderA, orderB] fun _ => .str "trace", .putCommand, .putTimeout]

/-- Two ways to lose an order for good: REST takes over while it is buffered, and
its put times out on the full queue. -/
theorem fallback_strands_command :
    ¬ machine.Always Recoverable (init {} true) fallbackRun ∧
      ¬ machine.Always Recoverable (init { maxQueueSize := 1 } true) fullQueueRun := by
  constructor
  · intro h
    have hend := always_iff_prefix.mp h fallbackRun (prefix_refl _)
    have hkept := hend.kept (run_account_sublist _ _ _)
    exact absurd hkept (by decide)
  · intro h
    have hend := always_iff_prefix.mp h fullQueueRun (prefix_refl _)
    have hkept := hend.kept (run_account_sublist _ _ _)
    exact absurd hkept (by decide)

end TradingCore.Transport.CoreClient
