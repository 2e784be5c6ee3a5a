import TradingCore.Kiwoom.CommandDrain
import Mathlib.Tactic.Linarith

/-!
# Order, spacing and answers of the local commands

A command that comes too early is put back at the end of the queue it came from, and the rate
limiter learns of a command only when its Kiwoom call has returned. `drained_in_order`: in a
run in which no command is put back behind another of its type, and none is started less than
the minimum interval after one of its type that is still running or has raised an exception,
the commands of each type start in the order in which they were polled and at least the
interval apart. That each is executed once at most and answered exactly once holds in every
run.
-/

namespace TradingCore.Kiwoom

open Base Broker List

namespace GatewayRuntime

/-! ## The law -/

def hand (s : GatewayRuntime) : List GatewayCommand :=
  match s.phase with
  | .holding command => [command]
  | _ => []

def ofType (type : String) (commands : List GatewayCommand) : List GatewayCommand :=
  commands.filter (·.type = type)

def startedCommands (s : GatewayRuntime) : List GatewayCommand := s.started.map (·.command)

def runningCommands (s : GatewayRuntime) : List GatewayCommand := s.running.map (·.command)

def endedCommands (s : GatewayRuntime) : List GatewayCommand := s.ended.map (·.command)

/-- The second execution starts no earlier than the minimum interval of its type allows. -/
def Apart (s : GatewayRuntime) (before after : Execution) : Prop :=
  before.command.type = after.command.type →
    before.startedAt + s.rateLimiter.interval after.command.type ≤ after.startedAt

structure Lawful (s : GatewayRuntime) : Prop where
  /-- those of a type start in the order in which they were polled -/
  order : ∀ type, (ofType type s.startedCommands).Sublist (ofType type s.polled)
  /-- and at least the minimum interval apart -/
  spaced : s.started.Pairwise s.Apart
  /-- each is executed once at most -/
  once : s.polled.Nodup → s.startedCommands.Nodup
  /-- one that is neither waiting nor running has been answered exactly once -/
  answered : s.polled.Nodup → ∀ command ∈ s.polled, command ∉ s.hand ++ s.commands →
    command ∉ s.runningCommands → s.endedCommands.count command = 1

/-! ## The condition -/

def startable (s : GatewayRuntime) (rejection : String) : Option GatewayCommand :=
  match s.phase, s.commands with
  | .looping, command :: _ =>
      if 0 < s.rateLimiter.waitTime command.type s.now ∨ rejection ≠ "" then none
      else some command
  | _, _ => none

/-- A command is started no earlier than the interval after one of its type that is still
running or that has raised an exception, and it is not put back behind another of its type. -/
def Orderly (s : GatewayRuntime) : DrainStep → Prop
  | .take rejection => ∀ command ∈ s.startable rejection,
      ∀ execution ∈ s.running ++ s.unrecorded, execution.command.type = command.type →
        execution.startedAt + s.rateLimiter.interval command.type ≤ s.now
  | .putBack => ∀ command ∈ s.hand, ∀ other ∈ s.commands, other.type ≠ command.type
  | _ => True

instance decidableOrderly (s : GatewayRuntime) : ∀ step, Decidable (s.Orderly step)
  | .take rejection => inferInstanceAs (Decidable (∀ command ∈ s.startable rejection,
      ∀ execution ∈ s.running ++ s.unrecorded, execution.command.type = command.type →
        execution.startedAt + s.rateLimiter.interval command.type ≤ s.now))
  | .putBack => inferInstanceAs
      (Decidable (∀ command ∈ s.hand, ∀ other ∈ s.commands, other.type ≠ command.type))
  | .poll _ | .clock _ | .timer | .finish _ => inferInstanceAs (Decidable True)

/-! ## What a step can do -/

/-- The moves of the Gateway. -/
inductive Move (s : GatewayRuntime) : DrainStep → GatewayRuntime → Prop
  | stay (step) : Move s step s
  | poll (command) : Move s (.poll command)
      { s with commands := s.commands ++ [command], polled := s.polled ++ [command] }
  | clock (time) : Move s (.clock time) { s with now := max s.now time }
  | enter (h : s.phase = .outside) : Move s .timer { s with phase := .looping }
  | leave (rejection) (h : s.phase = .looping) :
      Move s (.take rejection) { s with phase := .outside }
  | hold (rejection) {command rest} (h : s.phase = .looping)
      (hcommands : s.commands = command :: rest) :
      Move s (.take rejection) { s with commands := rest, phase := .holding command }
  | reject (rejection) {command rest} (h : s.phase = .looping)
      (hcommands : s.commands = command :: rest) :
      Move s (.take rejection)
        { s with
          commands := rest
          ended := s.ended ++ [{ command, type := .commandAck }] }
  | start (rejection) {command rest} (h : s.phase = .looping)
      (hcommands : s.commands = command :: rest)
      (hwait : ¬ 0 < s.rateLimiter.waitTime command.type s.now)
      (hstartable : s.startable rejection = some command) :
      Move s (.take rejection) (GatewayRuntime.start { s with commands := rest } command)
  | putBack {command} (h : s.phase = .holding command) :
      Move s .putBack { s with commands := s.commands ++ [command], phase := .outside }
  /-- the limiter records the command, or the execution stays unrecorded -/
  | finish {outcome execution outer limiter unrecorded} (type) (h : s.phase = .outside)
      (hrunning : s.running = execution :: outer)
      (hrecord : limiter = s.rateLimiter.record execution.command.type s.now ∧
          unrecorded = s.unrecorded ∨
        limiter = s.rateLimiter ∧ unrecorded = s.unrecorded ++ [execution]) :
      Move s (.finish outcome)
        { s with
          running := outer
          phase := .looping
          rateLimiter := limiter
          unrecorded := unrecorded
          ended := s.ended ++ [{ command := execution.command, type }] }

theorem move_take (s : GatewayRuntime) (rejection : String) (h : s.phase = .looping) :
    Move s (.take rejection) (s.take rejection) := by
  unfold take
  cases hcommands : s.commands with
  | nil =>
    have hleave := Move.leave rejection h
    rw [hcommands] at hleave
    exact hleave
  | cons command rest =>
    simp only
    by_cases hwait : 0 < s.rateLimiter.waitTime command.type s.now
    · rw [if_pos hwait]
      exact .hold rejection h hcommands
    · rw [if_neg hwait]
      by_cases hrejection : rejection ≠ ""
      · rw [if_pos hrejection]
        exact .reject rejection h hcommands
      · rw [if_neg hrejection]
        refine .start rejection h hcommands hwait ?_
        unfold startable
        rw [h, hcommands]
        exact if_neg (not_or.mpr ⟨hwait, hrejection⟩)

theorem move_finish (s : GatewayRuntime) (outcome : CallOutcome) (h : s.phase = .outside) :
    Move s (.finish outcome) (s.finish outcome) := by
  unfold finish
  cases hrunning : s.running with
  | nil => exact .stay _
  | cons execution outer =>
    cases outcome with
    | returned => exact .finish .commandAck h hrunning (.inl ⟨rfl, rfl⟩)
    | raised => exact .finish .commandFailed h hrunning (.inr ⟨rfl, rfl⟩)
    | raisedAfterRecord => exact .finish .commandFailed h hrunning (.inl ⟨rfl, rfl⟩)

theorem move_act (s : GatewayRuntime) (step : DrainStep) : Move s step (s.act step) := by
  cases step with
  | poll command => exact .poll command
  | clock time => exact .clock time
  | timer =>
    unfold act
    simp only
    split
    · next h => exact .enter h
    · exact .stay _
  | take rejection =>
    unfold act
    simp only
    split
    · next h => exact s.move_take rejection h
    · exact .stay _
  | putBack =>
    unfold act
    simp only
    split
    · next h => exact .putBack h
    · exact .stay _
  | finish outcome =>
    unfold act
    simp only
    split
    · next h => exact s.move_finish outcome h
    · exact .stay _

variable {s s' : GatewayRuntime} {step : DrainStep}

/-! ## Every command is in one place -/

/-- A command is waiting, in hand, running or answered, as often as it was polled; and it was
started no more often than it is running or answered. -/
structure Accounted (s : GatewayRuntime) : Prop where
  places : ∀ command, s.polled.count command = s.hand.count command +
    s.commands.count command + s.runningCommands.count command + s.endedCommands.count command
  executed : ∀ command, s.startedCommands.count command ≤
    s.runningCommands.count command + s.endedCommands.count command

theorem hand_eq_nil (h : ∀ command, s.phase ≠ .holding command) : s.hand = [] := by
  unfold hand
  split
  · next command hphase => exact absurd hphase (h command)
  · rfl

theorem hand_of_looping (h : s.phase = .looping) : s.hand = [] :=
  hand_eq_nil fun command hholding => by rw [h] at hholding; cases hholding

theorem hand_of_outside (h : s.phase = .outside) : s.hand = [] :=
  hand_eq_nil fun command hholding => by rw [h] at hholding; cases hholding

theorem hand_of_holding {command : GatewayCommand} (h : s.phase = .holding command) :
    s.hand = [command] := by
  unfold hand
  rw [h]

theorem count_append_list (commands more : List GatewayCommand) (other : GatewayCommand) :
    (commands ++ more).count other = commands.count other + more.count other := count_append

theorem count_concat (commands : List GatewayCommand) (command other : GatewayCommand) :
    (commands ++ [command]).count other = commands.count other + [command].count other :=
  count_append_list commands [command] other

theorem count_cons_eq (commands : List GatewayCommand) (command other : GatewayCommand) :
    (command :: commands).count other = [command].count other + commands.count other :=
  count_append_list [command] commands other

theorem count_ended (s : GatewayRuntime) (event : TerminalEvent) (other : GatewayCommand) :
    ((s.ended ++ [event]).map (·.command)).count other =
      s.endedCommands.count other + [event.command].count other := by
  rw [map_append]
  exact count_concat _ event.command other

theorem accounted_move (h : Accounted s) (hmove : Move s step s') : Accounted s' := by
  obtain ⟨hplaces, hexecuted⟩ := h
  cases hmove with
  | stay => exact ⟨hplaces, hexecuted⟩
  | poll command =>
    refine ⟨fun c => ?_, hexecuted⟩
    have := hplaces c
    show (s.polled ++ [command]).count c = s.hand.count c + (s.commands ++ [command]).count c +
      s.runningCommands.count c + s.endedCommands.count c
    rw [count_concat, count_concat]
    omega
  | clock time => exact ⟨hplaces, hexecuted⟩
  | enter hphase =>
    rw [hand_of_outside hphase] at hplaces
    exact ⟨hplaces, hexecuted⟩
  | leave rejection hphase =>
    rw [hand_of_looping hphase] at hplaces
    exact ⟨hplaces, hexecuted⟩
  | @hold _ command rest hphase hcommands =>
    refine ⟨fun c => ?_, hexecuted⟩
    have := hplaces c
    rw [hand_of_looping hphase, hcommands, count_cons_eq] at this
    show s.polled.count c = [command].count c + rest.count c + s.runningCommands.count c +
      s.endedCommands.count c
    rw [this, count_nil]
    omega
  | @reject _ command rest hphase hcommands =>
    have hended := s.count_ended { command, type := .commandAck }
    refine ⟨fun c => ?_, fun c => ?_⟩
    · have := hplaces c
      rw [hcommands, count_cons_eq] at this
      show s.polled.count c = s.hand.count c + rest.count c + s.runningCommands.count c + _
      refine Eq.trans ?_ (congrArg _ (hended c).symm)
      show _ = _ + (s.endedCommands.count c + [command].count c)
      omega
    · have := hexecuted c
      refine le_trans ?_ (Nat.add_le_add_left (le_of_eq (hended c).symm) _)
      show s.startedCommands.count c ≤ s.runningCommands.count c +
        (s.endedCommands.count c + [command].count c)
      omega
  | @start _ command rest hphase hcommands hwait hstartable =>
    refine ⟨fun c => ?_, fun c => ?_⟩
    · have := hplaces c
      rw [hand_of_looping hphase, hcommands, count_cons_eq] at this
      show s.polled.count c = ([] : List GatewayCommand).count c + rest.count c +
        (command :: s.runningCommands).count c + s.endedCommands.count c
      rw [count_cons_eq, this]
      omega
    · have := hexecuted c
      show ((s.started ++ [_]).map Execution.command).count c ≤
        (command :: s.runningCommands).count c + s.endedCommands.count c
      rw [map_append, count_cons_eq]
      refine le_trans (le_of_eq (count_concat _ command c)) ?_
      show s.startedCommands.count c + _ ≤ _
      omega
  | @putBack command hphase =>
    refine ⟨fun c => ?_, hexecuted⟩
    have := hplaces c
    rw [hand_of_holding hphase] at this
    show s.polled.count c = ([] : List GatewayCommand).count c +
      (s.commands ++ [command]).count c + s.runningCommands.count c + s.endedCommands.count c
    rw [count_concat, this, count_nil]
    omega
  | @finish _ execution outer limiter unrecorded type hphase hrunning hrecord =>
    have hended := s.count_ended { command := execution.command, type }
    have hbusy : ∀ c, s.runningCommands.count c = [execution.command].count c +
        (outer.map (·.command)).count c := fun c => by
      unfold runningCommands
      rw [hrunning, map_cons, count_cons_eq]
    refine ⟨fun c => ?_, fun c => ?_⟩
    · have := hplaces c
      rw [hand_of_outside hphase, hbusy] at this
      show s.polled.count c = ([] : List GatewayCommand).count c + s.commands.count c +
        (outer.map (·.command)).count c + _
      refine Eq.trans ?_ (congrArg _ (hended c).symm)
      show _ = _ + (s.endedCommands.count c + [execution.command].count c)
      omega
    · have := hexecuted c
      rw [hbusy] at this
      refine le_trans ?_ (Nat.add_le_add_left (le_of_eq (hended c).symm) _)
      show s.startedCommands.count c ≤ (outer.map (·.command)).count c +
        (s.endedCommands.count c + [execution.command].count c)
      omega

/-! ## Order -/

/-- Of each type, what was started, what is in hand and what waits are in the order in which
they were polled. -/
def Ordered (s : GatewayRuntime) : Prop :=
  ∀ type, (ofType type (s.startedCommands ++ (s.hand ++ s.commands))).Sublist (ofType type s.polled)

theorem ordered_of_eq (h : Ordered s) (hpolled : s'.polled = s.polled)
    (hqueue : s'.startedCommands ++ (s'.hand ++ s'.commands) =
      s.startedCommands ++ (s.hand ++ s.commands)) : Ordered s' := by
  intro type
  rw [hpolled, hqueue]
  exact h type

theorem ofType_append (type : String) (commands more : List GatewayCommand) :
    ofType type (commands ++ more) = ofType type commands ++ ofType type more :=
  filter_append ..

theorem ordered_move (h : Ordered s) (hmove : Move s step s') (horderly : s.Orderly step) :
    Ordered s' := by
  cases hmove with
  | stay => exact h
  | poll command =>
    intro type
    show (ofType type (s.startedCommands ++ (s.hand ++ (s.commands ++ [command])))).Sublist
      (ofType type (s.polled ++ [command]))
    rw [← append_assoc s.hand, ← append_assoc,
      ofType_append type (s.startedCommands ++ (s.hand ++ s.commands)),
      ofType_append type s.polled]
    exact (h type).append (Sublist.refl _)
  | clock time => exact h
  | enter hphase =>
    refine ordered_of_eq h rfl ?_
    rw [hand_of_outside hphase]
    rfl
  | leave rejection hphase =>
    refine ordered_of_eq h rfl ?_
    rw [hand_of_looping hphase]
    rfl
  | @hold _ command rest hphase hcommands =>
    refine ordered_of_eq h rfl ?_
    rw [hand_of_looping hphase, hcommands]
    rfl
  | @reject _ command rest hphase hcommands =>
    intro type
    have := h type
    rw [hand_of_looping hphase, hcommands] at this
    show (ofType type (s.startedCommands ++ (s.hand ++ rest))).Sublist (ofType type s.polled)
    rw [hand_of_looping hphase]
    refine Sublist.trans ?_ this
    exact ((Sublist.refl _).append (sublist_cons_self command rest)).filter _
  | @start _ command rest hphase hcommands hwait hstartable =>
    refine ordered_of_eq h rfl ?_
    rw [hand_of_looping hphase, hcommands]
    show (s.started ++ [_]).map Execution.command ++ ([] ++ rest) = _
    rw [map_append, append_assoc]
    rfl
  | @putBack command hphase =>
    -- nothing of its type waits, so the end of the queue is as good as its head
    intro type
    have := h type
    rw [hand_of_holding hphase, ofType_append, ofType_append] at this
    show (ofType type (s.startedCommands ++ ([] ++ (s.commands ++ [command])))).Sublist
      (ofType type s.polled)
    rw [nil_append, ofType_append, ofType_append]
    by_cases htype : command.type = type
    · have hnone : ofType type s.commands = [] := by
        refine filter_eq_nil_iff.mpr fun other hmem => ?_
        rw [decide_eq_true_iff, ← htype]
        exact horderly command (by rw [hand_of_holding hphase]; exact mem_singleton_self _) other hmem
      rw [hnone] at this ⊢
      rw [append_nil] at this
      exact this
    · have hout : ofType type [command] = [] := filter_eq_nil_iff.mpr fun other hmem => by
        rw [mem_singleton.mp hmem, decide_eq_true_iff]
        exact htype
      rw [hout] at this ⊢
      rw [append_nil]
      exact this
  | @finish _ execution outer limiter unrecorded type hphase hrunning hrecord =>
    refine ordered_of_eq h rfl ?_
    rw [hand_of_outside hphase]
    rfl

/-! ## Spacing -/

/-- Executions started in the past, at least the interval apart; and the limiter knows of each
that is neither running nor unrecorded. -/
structure Timed (s : GatewayRuntime) : Prop where
  past : ∀ execution ∈ s.started, execution.startedAt ≤ s.now
  known : ∀ execution ∈ s.started, execution ∈ s.running ++ s.unrecorded ∨
    ∃ lastAt, s.rateLimiter.lastAt.get? execution.command.type = some lastAt ∧
      execution.startedAt ≤ lastAt
  spaced : s.started.Pairwise s.Apart

theorem le_of_waitTime {limiter : RateLimiter} {type : String} {now lastAt : Rat}
    (hlast : limiter.lastAt.get? type = some lastAt) (hwait : ¬ 0 < limiter.waitTime type now) :
    lastAt + limiter.interval type ≤ now := by
  unfold RateLimiter.waitTime at hwait
  rw [hlast] at hwait
  have := le_trans (le_max_right 0 (lastAt + limiter.interval type - now)) (not_lt.mp hwait)
  linarith

theorem known_record {limiter : RateLimiter} {now : Rat} {execution ended : Execution}
    (hpast : execution.startedAt ≤ now)
    (hknown : execution = ended ∨ ∃ lastAt,
      limiter.lastAt.get? execution.command.type = some lastAt ∧ execution.startedAt ≤ lastAt) :
    ∃ lastAt, (limiter.record ended.command.type now).lastAt.get? execution.command.type =
      some lastAt ∧ execution.startedAt ≤ lastAt := by
  show ∃ lastAt, (limiter.lastAt.set ended.command.type now).get? execution.command.type =
    some lastAt ∧ _
  by_cases htype : execution.command.type = ended.command.type
  · rw [htype, Dict.get?_set_self]
    exact ⟨now, rfl, hpast⟩
  · rw [Dict.get?_set_ne _ _ htype]
    rcases hknown with rfl | hknown
    · exact absurd rfl htype
    · exact hknown

theorem timed_move (h : Timed s) (hmove : Move s step s') (horderly : s.Orderly step) :
    Timed s' := by
  obtain ⟨hpast, hknown, hspaced⟩ := h
  cases hmove with
  | stay => exact ⟨hpast, hknown, hspaced⟩
  | poll command => exact ⟨hpast, hknown, hspaced⟩
  | clock time =>
    exact ⟨fun execution hmem => le_trans (hpast execution hmem) (le_max_left s.now time),
      hknown, hspaced⟩
  | enter hphase => exact ⟨hpast, hknown, hspaced⟩
  | leave rejection hphase => exact ⟨hpast, hknown, hspaced⟩
  | hold rejection hphase hcommands => exact ⟨hpast, hknown, hspaced⟩
  | reject rejection hphase hcommands => exact ⟨hpast, hknown, hspaced⟩
  | @start rejection command rest hphase hcommands hwait hstartable =>
    refine ⟨fun execution hmem => ?_, fun execution hmem => ?_, ?_⟩
    · rcases mem_append.mp hmem with hmem | hmem
      · exact hpast execution hmem
      · rw [mem_singleton.mp hmem]
        exact le_refl s.now
    · rcases mem_append.mp hmem with hmem | hmem
      · rcases hknown execution hmem with hopen | hlimiter
        · exact Or.inl (mem_cons_of_mem _ hopen)
        · exact Or.inr hlimiter
      · rw [mem_singleton.mp hmem]
        exact Or.inl mem_cons_self
    · refine pairwise_append.mpr ⟨hspaced, pairwise_singleton _ _, ?_⟩
      intro before hmem after hafter htype
      rw [mem_singleton.mp hafter] at htype ⊢
      show before.startedAt + s.rateLimiter.interval command.type ≤ s.now
      rcases hknown before hmem with hopen | ⟨lastAt, hlast, hle⟩
      · exact horderly command hstartable before hopen htype
      · rw [htype] at hlast
        have := le_of_waitTime hlast hwait
        linarith
  | putBack hphase => exact ⟨hpast, hknown, hspaced⟩
  | @finish _ ended outer limiter unrecorded type hphase hrunning hrecord =>
    rcases hrecord with ⟨rfl, rfl⟩ | ⟨rfl, rfl⟩
    · refine ⟨hpast, fun execution hmem => ?_, hspaced⟩
      have hcases := hknown execution hmem
      rw [hrunning, cons_append, mem_cons, or_assoc] at hcases
      rcases hcases with hended | hopen | hlimiter
      · exact Or.inr (known_record (hpast execution hmem) (Or.inl hended))
      · exact Or.inl hopen
      · exact Or.inr (known_record (hpast execution hmem) (Or.inr hlimiter))
    · refine ⟨hpast, fun execution hmem => ?_, hspaced⟩
      rcases hknown execution hmem with hopen | hlimiter
      · refine Or.inl ?_
        show execution ∈ outer ++ (s.unrecorded ++ [ended])
        rw [hrunning, cons_append, mem_cons, mem_append] at hopen
        rw [mem_append, mem_append, mem_singleton]
        rcases hopen with hended | houter | hunrecorded
        · exact Or.inr (Or.inr hended)
        · exact Or.inl houter
        · exact Or.inr (Or.inl hunrecorded)
      · exact Or.inr hlimiter

/-! ## Runs -/

structure Good (s : GatewayRuntime) : Prop where
  accounted : Accounted s
  ordered : Ordered s
  timed : Timed s

def fresh (minIntervals : Dict String Rat) : GatewayRuntime := { rateLimiter := { minIntervals } }

theorem accounted_fresh (minIntervals : Dict String Rat) : Accounted (fresh minIntervals) :=
  ⟨fun _ => rfl, fun _ => le_refl 0⟩

theorem good_fresh (minIntervals : Dict String Rat) : Good (fresh minIntervals) := by
  refine ⟨accounted_fresh minIntervals, fun type => Sublist.refl _, ?_, ?_, ?_⟩
  · exact fun execution hmem => absurd hmem not_mem_nil
  · exact fun execution hmem => absurd hmem not_mem_nil
  · exact Pairwise.nil

theorem Accounted.once (h : Accounted s) (hdistinct : s.polled.Nodup) :
    s.startedCommands.Nodup := by
  refine nodup_iff_count_le_one.mpr fun command => ?_
  have hplaces := h.places command
  have hexecuted := h.executed command
  have hone := nodup_iff_count_le_one.mp hdistinct command
  omega

theorem Accounted.answered (h : Accounted s) (hdistinct : s.polled.Nodup)
    (command : GatewayCommand) (hpolled : command ∈ s.polled)
    (hwaiting : command ∉ s.hand ++ s.commands) (hrunning : command ∉ s.runningCommands) :
    s.endedCommands.count command = 1 := by
  rw [mem_append, not_or] at hwaiting
  have hplaces := h.places command
  rw [count_eq_one_of_mem hdistinct hpolled, count_eq_zero_of_not_mem hwaiting.1,
    count_eq_zero_of_not_mem hwaiting.2, count_eq_zero_of_not_mem hrunning] at hplaces
  omega

theorem Good.lawful (h : Good s) : Lawful s where
  order type := by
    refine Sublist.trans ?_ (h.ordered type)
    rw [ofType_append]
    exact sublist_append_left _ _
  spaced := h.timed.spaced
  once := h.accounted.once
  answered := h.accounted.answered

/-- In every orderly run the commands of each type start in the order in which they were
polled and at least the minimum interval apart, each is executed once at most, and each that
has left the queue for good is answered exactly once. -/
theorem drained_in_order (minIntervals : Dict String Rat) (run : List DrainStep)
    (h : machine.Guarded Orderly (fresh minIntervals) run) :
    machine.Always Lawful (fresh minIntervals) run := by
  have hgood : machine.Always Good (fresh minIntervals) run := by
    refine Machine.always_of_guarded ?_ (good_fresh minIntervals) h
    intro s step hgood horderly
    have hmove := s.move_act step
    exact ⟨accounted_move hgood.accounted hmove, ordered_move hgood.ordered hmove horderly,
      timed_move hgood.timed hmove horderly⟩
  exact hgood.imp fun s hs => hs.lawful

/-! ## Fixed runs -/

def sendOrder (commandId : String) : GatewayCommand where
  type := "send_order"
  commandId := commandId

def twoOrders : List DrainStep :=
  [.poll (sendOrder "A"), .poll (sendOrder "B"), .timer, .take "", .finish .returned, .take "",
    .putBack, .clock (1 / 2), .timer, .take "", .finish .returned, .take ""]

/-- Two orders in order. -/
theorem drained_in_order_twoOrders :
    machine.Always Lawful (fresh defaultIntervals) twoOrders := by
  refine drained_in_order defaultIntervals twoOrders ?_
  decide +kernel

/-- Three orders. The second one comes too early and is put back behind the third one, which
is started half a second later. -/
def threeOrders : List DrainStep :=
  [.poll (sendOrder "A"), .poll (sendOrder "B"), .poll (sendOrder "C"), .timer, .take "",
    .finish .returned, .take "", .putBack, .clock (1 / 2), .timer, .take "", .finish .returned,
    .clock 1, .take ""]

/-- The third order is sent before the second one. -/
theorem later_order_overtakes :
    ¬ ∀ (minIntervals : Dict String Rat) (run : List DrainStep),
      machine.Always Lawful (fresh minIntervals) run := by
  intro h
  have horder := ((machine.always_iff_prefix.mp (h defaultIntervals threeOrders))
    threeOrders (prefix_refl _)).order "send_order"
  revert horder
  decide +kernel

end GatewayRuntime

end TradingCore.Kiwoom
