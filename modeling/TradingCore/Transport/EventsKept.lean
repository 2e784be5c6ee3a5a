import TradingCore.Transport.GatewayEventQueue

/-!
# What the Gateway's event queue keeps

`kept_of_unharmed`: once everything has left the queue, the order and command events that were
put have all been posted, in the order of each type, the last price of each code is the last
one that was put, and the posted condition events leave every membership as those that were
put do, if no order or command event was lost, and the last event about each code, and about
each condition and code, was neither lost nor put in front of a waiting event that
contradicts it. An event stands for its subject once nothing behind it on its way to Core
contradicts it (`Settled`).
-/

namespace TradingCore.Transport

open Base Broker List

def orderEventTypes : List String :=
  ["command_started", "command_ack", "command_failed", "order_result", "execution_event"]

def ofType (type : String) (events : List GatewayEvent) : List GatewayEvent :=
  events.filter (·.type = type)

def about (x : Subject) (event : GatewayEvent) : Bool := subject event = some x

def lastAbout (x : Subject) (events : List GatewayEvent) : Option GatewayEvent :=
  (events.filter (about x)).getLast?

def isLast (events : List GatewayEvent) (event : GatewayEvent) : Bool :=
  (subject event).bind (lastAbout · events) = some event

def putsOf (steps : List QueueStep) : List GatewayEvent :=
  steps.filterMap fun step =>
    match step with
    | .put event => some event
    | _ => none

/-- What the condition events write into the table of memberships. -/
def membershipWrites (events : List GatewayEvent) : List (Subject × Bool) :=
  events.filterMap fun event =>
    match subject event with
    | some (.membership name index code) => some (.membership name index code, includes event)
    | _ => none

namespace EventRuntime

/-- What was posted is worth as much as what was put. -/
structure Keeps (s : EventRuntime) : Prop where
  orders : ∀ type ∈ orderEventTypes, ofType type s.posted = ofType type s.puts
  prices : ∀ code, lastAbout (.price code) s.posted = lastAbout (.price code) s.puts
  memberships : ∀ members, writeAll members (membershipWrites s.posted) =
    writeAll members (membershipWrites s.puts)

/-- The step loses no event of `puts` that belongs to an order or a command or is the last about
its subject, and puts none of the latter in front of a waiting event that contradicts it. -/
def Harmless (puts : List GatewayEvent) (s : EventRuntime) (step : QueueStep) : Prop :=
  (∀ event ∈ s.loses step, event.type ∉ orderEventTypes ∧ isLast puts event = false) ∧
    ∀ event ∈ s.misplaces step, isLast puts event = false
deriving Decidable

end EventRuntime

/-! ## Subjects -/

variable {e g : GatewayEvent} {x : Subject}

variable {code : String} {events : List GatewayEvent}

theorem type_of_subject_price (h : subject e = some (.price code)) :
    e.type = "price_tick" ∧ priceTickCode e = code ∧ code ≠ "" := by
  unfold subject at h
  split at h
  · next htick =>
      injection h with h
      injection h with h
      exact ⟨htick.1, h, h ▸ htick.2⟩
  · split at h
    · injection h with h
      cases h
    · cases h

theorem type_of_subject_membership {name index : String}
    (h : subject e = some (.membership name index code)) : e.type = "condition_event" := by
  unfold subject at h
  split at h
  · injection h with h
    cases h
  · split at h
    · next htype => exact htype
    · cases h

def matters (event : GatewayEvent) : Bool :=
  ¬ (event.type = "price_tick" ∧ priceTickCode event = "")

theorem kind_of_subject (he : subject e = some x) (hg : subject g = some x) :
    g.type = e.type ∧ matters g = true := by
  cases x with
  | price code =>
    obtain ⟨hte, -, -⟩ := type_of_subject_price he
    obtain ⟨htg, hcode, hne⟩ := type_of_subject_price hg
    refine ⟨htg.trans hte.symm, decide_eq_true fun h => hne ?_⟩
    rw [← hcode]
    exact h.2
  | membership name index code =>
    have hte := type_of_subject_membership he
    have htg := type_of_subject_membership hg
    refine ⟨htg.trans hte.symm, decide_eq_true fun h => ?_⟩
    rw [htg] at h
    exact absurd h.1 (by decide)

theorem subject_of_contradicts (h : contradicts e g = true) : subject g = subject e :=
  (of_decide_eq_true h).1

theorem not_contradicts_of_ne (h : subject g ≠ subject e) : ¬ contradicts e g = true :=
  fun hcontra => h (subject_of_contradicts hcontra)

theorem agrees_of_not_contradicts (he : subject e = some x) (hg : subject g = some x)
    (h : ¬ contradicts e g = true) : e.type ≠ "price_tick" ∧ includes g = includes e := by
  have hcases : ¬ (subject g = subject e ∧ subject e ≠ none ∧
      (e.type = "price_tick" ∨ includes g ≠ includes e)) := fun hall => h (decide_eq_true hall)
  have hsome : subject e ≠ none := by
    rw [he]
    exact Option.some_ne_none x
  have hneither := fun hor => hcases ⟨hg.trans he.symm, hsome, hor⟩
  exact ⟨fun htick => hneither (.inl htick), by
    by_contra hne
    exact hneither (.inr hne)⟩

theorem settled_of_lastAbout (h : lastAbout x events = some e) :
    subject e = some x ∧ Settled (contradicts e ·) e events := by
  obtain ⟨front, hsplit⟩ := getLast?_eq_some_iff.mp h
  have hmem : e ∈ events.filter (about x) := by
    rw [hsplit]
    exact mem_append_right front (mem_singleton_self e)
  have he : subject e = some x := of_decide_eq_true (mem_filter.mp hmem).2
  have hself : about x e = true := decide_eq_true he
  have hown : ∀ g, contradicts e g = true → about x g = true := fun g hcontra =>
    decide_eq_true ((subject_of_contradicts hcontra).trans he)
  exact ⟨he, (settled_filter_iff hself hown).mp (hsplit ▸ settled_concat _ e front)⟩

theorem lastAbout_eq_none {more : List GatewayEvent} (h : lastAbout x events = none)
    (hsub : ∀ event ∈ more, event ∈ events) : lastAbout x more = none := by
  rw [lastAbout, getLast?_eq_none_iff, filter_eq_nil_iff] at h ⊢
  exact fun event hmem => h event (hsub event hmem)

theorem lastAbout_of_settled (he : subject e = some (.price code))
    (h : Settled (contradicts e ·) e events) : lastAbout (.price code) events = some e := by
  obtain ⟨front, back, rfl, hback⟩ := h
  have hnone : back.filter (about (.price code)) = [] := by
    refine filter_eq_nil_iff.mpr fun g hmem hg => ?_
    exact (agrees_of_not_contradicts he (of_decide_eq_true hg) (hback g hmem)).1
      (type_of_subject_price he).1
  have hself : about (.price code) e = true := decide_eq_true he
  have hown : (e :: back).filter (about (.price code)) = [e] := by
    rw [filter_cons_of_pos hself, hnone]
  rw [lastAbout, filter_append, hown]
  exact getLast?_concat

theorem mem_membershipWrites {b : Bool} (h : (x, b) ∈ membershipWrites events) :
    ∃ g ∈ events, subject g = some x ∧ includes g = b := by
  obtain ⟨g, hmem, hwrite⟩ := mem_filterMap.mp h
  split at hwrite
  · next name index code hsubject =>
      injection hwrite with hwrite
      injection hwrite with hx hb
      exact ⟨g, hmem, by rw [← hx]; exact hsubject, hb⟩
  · cases hwrite

theorem lastWrite_of_settled {name index : String}
    (he : subject e = some (.membership name index code)) (h : Settled (contradicts e ·) e events) :
    lastWrite (membershipWrites events) (.membership name index code) = some (includes e) := by
  obtain ⟨front, back, rfl, hback⟩ := h
  have hown : membershipWrites (e :: back) =
      (.membership name index code, includes e) :: membershipWrites back := by
    unfold membershipWrites
    rw [filterMap_cons, he]
  have hsplit : membershipWrites (front ++ e :: back) =
      membershipWrites front ++ membershipWrites (e :: back) := filterMap_append ..
  rw [hsplit, lastWrite_append, hown]
  cases hlast : lastWrite (membershipWrites back) (.membership name index code) with
  | none => simp [lastWrite, hlast]
  | some b =>
    obtain ⟨g, hmem, hg, hb⟩ := mem_membershipWrites (mem_of_lastWrite hlast)
    have hsame := (agrees_of_not_contradicts he hg (hback g hmem)).2
    simp [lastWrite, hlast, ← hb, hsame]

theorem lastWrite_eq_none (h : lastAbout x events = none) :
    lastWrite (membershipWrites events) x = none := by
  cases hlast : lastWrite (membershipWrites events) x with
  | none => rfl
  | some b =>
    obtain ⟨g, hmem, hg, -⟩ := mem_membershipWrites (mem_of_lastWrite hlast)
    rw [lastAbout, getLast?_eq_none_iff, filter_eq_nil_iff] at h
    exact absurd (decide_eq_true hg) (h g hmem)

theorem lastWrite_price (events : List GatewayEvent) (code : String) :
    lastWrite (membershipWrites events) (.price code) = none := by
  cases hlast : lastWrite (membershipWrites events) (.price code) with
  | none => rfl
  | some b =>
    obtain ⟨g, -, hwrite⟩ := mem_filterMap.mp (mem_of_lastWrite hlast)
    split at hwrite
    · injection hwrite with hwrite
      injection hwrite with hx
      cases hx
    · cases hwrite

/-! ## Dropping -/

theorem dropOldest_spec (events : List GatewayEvent) :
    (events = [] ∧ dropOldest events = ([], [])) ∨
      ∃ front dropped back, events = front ++ dropped :: back ∧
        dropOldest events = (front ++ back, [dropped]) := by
  unfold dropOldest
  cases hfind : events.findIdx? (·.type = "price_tick") with
  | some index =>
    right
    have hlt : index < events.length := (findIdx?_eq_some_iff_findIdx_eq.mp hfind).1
    refine ⟨events.take index, events[index], events.drop (index + 1), ?_, ?_⟩
    · rw [getElem_cons_drop, take_append_drop]
    · simp only [eraseIdx_eq_take_drop_succ, getElem?_eq_getElem hlt]
      rfl
  | none =>
    cases events with
    | nil => exact .inl ⟨rfl, rfl⟩
    | cons event later => exact .inr ⟨[], event, later, rfl, rfl⟩

theorem dropMany_succ (n : Nat) (events : List GatewayEvent) :
    dropMany (n + 1) events = ((dropMany n (dropOldest events).1).1,
      (dropOldest events).2 ++ (dropMany n (dropOldest events).1).2) := rfl

theorem ofType_append (type : String) (events more : List GatewayEvent) :
    ofType type (events ++ more) = ofType type events ++ ofType type more := filter_append ..

theorem ofType_cons_of_ne {type : String} (h : e.type ≠ type) :
    ofType type (e :: events) = ofType type events := by
  unfold ofType
  rw [filter_cons, if_neg fun heq => h (of_decide_eq_true heq)]

/-! ## Draining -/

def Apart (a b : Option (String × String)) : Prop := a = none ∨ a ≠ b

theorem Apart.symm {a b : Option (String × String)} (h : Apart a b) : Apart b a := by
  rcases h with rfl | hne
  · cases b with
    | none => exact .inl rfl
    | some k => exact .inr (Option.some_ne_none k)
  · exact .inr hne.symm

theorem takeHigh_perm (room : Nat) (events : List GatewayEvent) :
    ((takeHigh room events).1 ++ (takeHigh room events).2).Perm events := by
  induction events generalizing room with
  | nil =>
    cases room with
    | zero => exact .refl _
    | succ room => exact .refl _
  | cons event later ih =>
    cases room with
    | zero => exact .refl _
    | succ room =>
      unfold takeHigh
      split
      · exact (ih room).cons event
      · exact perm_middle.trans ((ih (room + 1)).cons event)

theorem takeHigh_high (room : Nat) (events : List GatewayEvent) :
    ∀ event ∈ (takeHigh room events).1, highPriority event = true := by
  induction events generalizing room with
  | nil =>
    cases room with
    | zero => exact fun _ hmem => absurd hmem not_mem_nil
    | succ room => exact fun _ hmem => absurd hmem not_mem_nil
  | cons first later ih =>
    cases room with
    | zero => exact fun _ hmem => absurd hmem not_mem_nil
    | succ room =>
      unfold takeHigh
      split
      · next hfirst =>
          intro event hmem
          rcases mem_cons.mp hmem with rfl | hmem
          · exact hfirst
          · exact ih room event hmem
      · exact ih (room + 1)

def OnePriority (p : GatewayEvent → Bool) : Prop :=
  (∀ event, p event = true → highPriority event = true) ∨
    ∀ event, p event = true → highPriority event = false

variable {p : GatewayEvent → Bool}

theorem takeHigh_filter (hp : OnePriority p) (room : Nat) (events : List GatewayEvent) :
    (takeHigh room events).1.filter p ++ (takeHigh room events).2.filter p = events.filter p := by
  induction events generalizing room with
  | nil =>
    cases room with
    | zero => rfl
    | succ room => rfl
  | cons event later ih =>
    cases room with
    | zero => rfl
    | succ room =>
      unfold takeHigh
      split
      · simp only [filter_cons]
        split
        · exact congrArg (event :: ·) (ih room)
        · exact ih room
      · next hlow =>
          rcases hp with hhigh | hlows
          · -- the event that stays behind is none of them
            have hno : ¬ p event = true := fun h => hlow (hhigh event h)
            simp only [filter_cons_of_neg hno]
            exact ih (room + 1)
          · -- none of them is taken
            have hnone : (takeHigh (room + 1) later).1.filter p = [] := by
              refine filter_eq_nil_iff.mpr fun g hmem hg => ?_
              have hhigh := takeHigh_high (room + 1) later g hmem
              rw [hlows g hg] at hhigh
              cases hhigh
            have hrest := ih (room + 1)
            rw [hnone, nil_append] at hrest
            simp only [hnone, nil_append, filter_cons, hrest]

variable (limit : Int) (events : List GatewayEvent)

theorem takeEvents_append : (takeEvents limit events).1 ++ (takeEvents limit events).2 =
    (takeHigh (max 0 limit).toNat events).1 ++ (takeHigh (max 0 limit).toNat events).2 := by
  unfold takeEvents
  rw [append_assoc, take_append_drop]

theorem takeEvents_perm :
    ((takeEvents limit events).1 ++ (takeEvents limit events).2).Perm events := by
  rw [takeEvents_append]
  exact takeHigh_perm _ events

theorem takeEvents_filter (hp : OnePriority p) :
    (takeEvents limit events).1.filter p ++ (takeEvents limit events).2.filter p =
      events.filter p := by
  rw [← filter_append, takeEvents_append, filter_append]
  exact takeHigh_filter hp _ events

theorem prioritize_filter (hp : OnePriority p) :
    (prioritizeGatewayEvents events).filter p = events.filter p := by
  unfold prioritizeGatewayEvents
  rw [filter_append, filter_filter, filter_filter]
  rcases hp with hhigh | hlow
  · have hall : ∀ g ∈ events, (p g && highPriority g) = p g := by
      intro g _
      cases hg : p g with
      | false => rfl
      | true => rw [hhigh g hg]; rfl
    have hnone : events.filter (fun g => p g && !highPriority g) = [] := by
      refine filter_eq_nil_iff.mpr fun g _ hg => ?_
      obtain ⟨hpg, hno⟩ := Bool.and_eq_true_iff.mp hg
      rw [hhigh g hpg] at hno
      cases hno
    rw [hnone, append_nil]
    exact filter_congr hall
  · have hall : ∀ g ∈ events, (p g && !highPriority g) = p g := by
      intro g _
      cases hg : p g with
      | false => rfl
      | true => rw [hlow g hg]; rfl
    have hnone : events.filter (fun g => p g && highPriority g) = [] := by
      refine filter_eq_nil_iff.mpr fun g _ hg => ?_
      obtain ⟨hpg, hyes⟩ := Bool.and_eq_true_iff.mp hg
      rw [hlow g hpg] at hyes
      cases hyes
    rw [hnone, nil_append]
    exact filter_congr hall

variable {events}

theorem queueKey_of_conditionKey {k : String} (h : conditionKey e = some k) :
    queueKey e = some ("condition_event", k) := by
  by_cases hcond : e.type = "condition_event" ∧ conditionEventKey e ≠ ""
  · rw [conditionKey, if_pos hcond] at h
    have htick : ¬ (e.type = "price_tick" ∧ priceTickCode e ≠ "") := by
      rw [hcond.1]
      exact fun htick => absurd htick.1 (by decide)
    rw [queueKey, if_neg htick, if_pos hcond, hcond.1, Option.some.inj h]
  · rw [conditionKey, if_neg hcond] at h
    cases h

theorem coalesce_conditionKey (h : (events.map queueKey).Pairwise Apart) :
    coalesce conditionKey events = events := by
  have hpairs : events.Pairwise fun f g => true = true ∨ true = true →
      conditionKey f = none ∨ conditionKey f ≠ conditionKey g := by
    refine (pairwise_map.mp h).imp fun {f g} hfg _ => ?_
    cases hf : conditionKey f with
    | none => exact .inl rfl
    | some k =>
      refine .inr fun hsame => ?_
      have hsame' : conditionKey g = some k := hsame.symm
      rcases hfg with hnone | hne
      · rw [queueKey_of_conditionKey hf] at hnone
        cases hnone
      · exact hne ((queueKey_of_conditionKey hf).trans (queueKey_of_conditionKey hsame').symm)
  have hall := filter_coalesce hpairs
  rwa [filter_true, filter_true] at hall

theorem textOr_of_ne {payload : Mapping} {key : String} (h : payload.textOr key ≠ "") :
    (payload.value key).truthy = true := by
  cases htruthy : (payload.value key).truthy with
  | true => rfl
  | false =>
    refine absurd ?_ h
    unfold Mapping.textOr Value.or
    rw [htruthy]
    rfl

theorem code_of_tickKey {k : String} (h : tickKey e = some k) :
    e.type = "price_tick" ∧ priceTickCode e = Text.strip k := by
  by_cases hcond : e.type = "price_tick" ∧ e.payload.textOr "code" ≠ ""
  · rw [tickKey, if_pos hcond] at h
    refine ⟨hcond.1, ?_⟩
    have htruthy := textOr_of_ne hcond.2
    rw [← Option.some.inj h]
    unfold priceTickCode Mapping.textOr Value.or
    rw [htruthy]
    simp only [if_true, htruthy]
  · rw [tickKey, if_neg hcond] at h
    cases h

theorem queueKey_of_tick (htick : e.type = "price_tick") (hne : priceTickCode e ≠ "") :
    queueKey e = some ("price_tick", priceTickCode e) := by
  rw [queueKey, if_pos ⟨htick, hne⟩, htick]

theorem coalesce_tickKey_filter (h : (events.map queueKey).Pairwise Apart)
    (hp : ∀ g, p g = true → matters g = true) :
    (coalesce tickKey events).filter p = events.filter p := by
  refine filter_coalesce ((pairwise_map.mp h).imp fun {f g} hfg hpfg => ?_)
  cases hf : tickKey f with
  | none => exact .inl rfl
  | some k =>
    refine .inr fun hsame => ?_
    obtain ⟨htypef, hcodef⟩ := code_of_tickKey hf
    obtain ⟨htypeg, hcodeg⟩ := code_of_tickKey (show tickKey g = some k from hsame.symm)
    have hne : Text.strip k ≠ "" := by
      rcases hpfg with hpf | hpg
      · rw [← hcodef]
        exact fun hempty => of_decide_eq_true (hp f hpf) ⟨htypef, hempty⟩
      · rw [← hcodeg]
        exact fun hempty => of_decide_eq_true (hp g hpg) ⟨htypeg, hempty⟩
    have hkeyf := queueKey_of_tick htypef (hcodef ▸ hne)
    have hkeyg := queueKey_of_tick htypeg (hcodeg ▸ hne)
    rcases hfg with hnone | hapart
    · rw [hkeyf] at hnone
      cases hnone
    · rw [hkeyf, hkeyg, hcodef, hcodeg] at hapart
      exact hapart rfl

namespace EventRuntime

def timeline (s : EventRuntime) : List GatewayEvent := s.posted ++ s.batch ++ s.events

variable {s : EventRuntime}

theorem drain_filter (hdistinct : (s.events.map queueKey).Pairwise Apart) (hbatch : s.batch = [])
    (hp : OnePriority p) (hmatters : ∀ g, p g = true → matters g = true) :
    (s.drain limit).timeline.filter p = s.timeline.filter p := by
  have hall : ((takeEvents limit s.events).1.map queueKey).Pairwise Apart := by
    have hperm := (takeEvents_perm limit s.events).map queueKey
    refine ((hperm.pairwise_iff Apart.symm).mpr hdistinct).sublist ?_
    rw [map_append]
    exact sublist_append_left _ _
  have hbatch' : (s.drain limit).batch.filter p = (takeEvents limit s.events).1.filter p := by
    show (prioritizeGatewayEvents (coalesce tickKey (coalesce conditionKey
      (takeEvents limit s.events).1))).filter p = _
    rw [prioritize_filter _ hp, coalesce_conditionKey hall, coalesce_tickKey_filter hall hmatters]
  have hevents : (s.drain limit).events = (takeEvents limit s.events).2 := rfl
  have hposted : (s.drain limit).posted = s.posted := rfl
  unfold timeline
  rw [hbatch, append_nil, filter_append, filter_append, hbatch', hevents, hposted,
    append_assoc, takeEvents_filter limit s.events hp, ← filter_append]

/-! ## The invariant -/

/-- What holds of the runtime at any time of a run that puts `final`: the events of orders and
commands are on their way, and so is the last event about a subject. -/
structure Sound (final : List GatewayEvent) (s : EventRuntime) : Prop where
  distinct : (s.events.map queueKey).Pairwise Apart
  known : ∀ event ∈ s.timeline, event ∈ s.puts
  orders : ∀ type ∈ orderEventTypes, ofType type s.timeline = ofType type s.puts
  settled : ∀ x event, lastAbout x s.puts = some event → lastAbout x final = some event →
    Settled (contradicts event ·) event s.timeline

theorem lastAbout_concat (x : Subject) (events : List GatewayEvent) (event : GatewayEvent) :
    lastAbout x (events ++ [event]) =
      if subject event = some x then some event else lastAbout x events := by
  unfold lastAbout
  rw [filter_append]
  by_cases habout : subject event = some x
  · have hself : about x event = true := decide_eq_true habout
    rw [if_pos habout, filter_cons_of_pos hself]
    exact getLast?_concat
  · have hother : ¬ about x event = true := fun h => habout (of_decide_eq_true h)
    rw [if_neg habout, filter_cons_of_neg hother, filter_nil, append_nil]

theorem ne_of_not_isLast {final : List GatewayEvent} {d : GatewayEvent}
    (h : isLast final d = false) (hlast : lastAbout x final = some e) : d ≠ e := by
  rintro rfl
  refine of_decide_eq_false h ?_
  rw [(settled_of_lastAbout hlast).1]
  exact hlast

variable {final : List GatewayEvent}

theorem sound_push (h : Sound final s) (event : GatewayEvent)
    (hkey : ∀ waiting ∈ s.events, Apart (queueKey waiting) (queueKey event)) :
    Sound final { s with events := s.events ++ [event], puts := s.puts ++ [event] } := by
  have htimeline : timeline { s with events := s.events ++ [event], puts := s.puts ++ [event] } =
      s.timeline ++ [event] := by
    unfold timeline
    exact (append_assoc _ s.events [event]).symm
  constructor
  · show ((s.events ++ [event]).map queueKey).Pairwise Apart
    rw [map_append, pairwise_append]
    refine ⟨h.distinct, pairwise_singleton _ _, fun a ha b hb => ?_⟩
    obtain ⟨waiting, hmem, rfl⟩ := mem_map.mp ha
    rw [mem_singleton.mp hb]
    exact hkey waiting hmem
  · rw [htimeline]
    intro e hmem
    rcases mem_append.mp hmem with hmem | hmem
    · exact mem_append_left _ (h.known e hmem)
    · exact mem_append_right _ hmem
  · intro type hmem
    rw [htimeline, ofType_append, h.orders type hmem]
    exact (ofType_append type s.puts [event]).symm
  · intro x e hlast hfinal
    rw [htimeline]
    rw [lastAbout_concat] at hlast
    by_cases habout : subject event = some x
    · rw [if_pos habout] at hlast
      rw [Option.some.inj hlast]
      exact settled_concat _ e s.timeline
    · rw [if_neg habout] at hlast
      obtain ⟨he, -⟩ := settled_of_lastAbout hlast
      refine (h.settled x e hlast hfinal).append fun g hg => ?_
      rw [mem_singleton.mp hg]
      exact not_contradicts_of_ne fun hsame => habout (hsame.trans he)

variable {front back : List GatewayEvent}

theorem sound_drop (h : Sound final s) {dropped : GatewayEvent}
    (hevents : s.events = front ++ dropped :: back)
    (hmissed : dropped.type ∉ orderEventTypes ∧ isLast final dropped = false) :
    Sound final { s with events := front ++ back } := by
  have hold : s.timeline = (s.posted ++ s.batch ++ front) ++ dropped :: back := by
    unfold timeline
    rw [hevents, append_assoc _ front]
  have htimeline : timeline { s with events := front ++ back } =
      (s.posted ++ s.batch ++ front) ++ back := (append_assoc _ front back).symm
  constructor
  · refine h.distinct.sublist ?_
    rw [hevents]
    exact (Sublist.append_left (sublist_cons_self dropped back) front).map queueKey
  · rw [htimeline]
    intro e hmem
    refine h.known e ?_
    rw [hold]
    exact (Sublist.append_left (sublist_cons_self dropped back) _).subset hmem
  · intro type hmem
    have hother : dropped.type ≠ type := fun heq => hmissed.1 (heq ▸ hmem)
    have hsame := h.orders type hmem
    rw [hold, ofType_append, ofType_cons_of_ne hother, ← ofType_append] at hsame
    rw [htimeline, hsame]
  · intro x e hlast hfinal
    have hsettled := h.settled x e hlast hfinal
    rw [hold] at hsettled
    rw [htimeline]
    exact hsettled.remove (ne_of_not_isLast hmissed.2 hfinal)

theorem sound_dropMany (n : Nat) (h : Sound final s)
    (hmissed : ∀ event ∈ (dropMany n s.events).2,
      event.type ∉ orderEventTypes ∧ isLast final event = false) :
    Sound final { s with events := (dropMany n s.events).1 } := by
  induction n generalizing s with
  | zero => exact h
  | succ n ih =>
    rcases dropOldest_spec s.events with ⟨hnil, heq⟩ | ⟨front, dropped, back, hsplit, heq⟩
    · rw [hnil] at heq
      rw [dropMany_succ, hnil, heq] at hmissed ⊢
      have hstep := ih h
      rw [hnil] at hstep
      exact hstep hmissed
    · rw [dropMany_succ, heq] at hmissed ⊢
      refine ih (sound_drop h hsplit (hmissed dropped (mem_append_left _ (.head _)))) ?_
      exact fun event hmem => hmissed event (mem_append_right _ hmem)

variable {k : String × String}

theorem type_of_queueKey (h : queueKey e = some k) :
    e.type = k.1 ∧ (e.type = "price_tick" ∨ e.type = "condition_event") := by
  by_cases htick : e.type = "price_tick" ∧ priceTickCode e ≠ ""
  · rw [queueKey, if_pos htick] at h
    rw [← Option.some.inj h]
    exact ⟨rfl, .inl htick.1⟩
  · by_cases hcond : e.type = "condition_event" ∧ conditionEventKey e ≠ ""
    · rw [queueKey, if_neg htick, if_pos hcond] at h
      rw [← Option.some.inj h]
      exact ⟨rfl, .inr hcond.1⟩
    · rw [queueKey, if_neg htick, if_neg hcond] at h
      cases h

theorem not_order_of_queueKey {type : String} (h : queueKey e = some k)
    (htype : type ∈ orderEventTypes) : e.type ≠ type := by
  rintro rfl
  rcases (type_of_queueKey h).2 with heq | heq
  · rw [heq] at htype
    exact absurd htype (by decide)
  · rw [heq] at htype
    exact absurd htype (by decide)

theorem sound_replace (h : Sound final s) {old event : GatewayEvent}
    (hevents : s.events = front ++ old :: back) (hold : queueKey old = some k)
    (hnew : queueKey event = some k)
    (hother : subject old ≠ subject event → isLast final old = false)
    (hbehind : back.any (contradicts event) = true → isLast final event = false) :
    Sound final { s with events := front ++ event :: back, puts := s.puts ++ [event] } := by
  have hbefore : s.timeline = (s.posted ++ s.batch ++ front) ++ old :: back := by
    unfold timeline
    rw [hevents, append_assoc _ front]
  have htimeline : timeline { s with
      events := front ++ event :: back, puts := s.puts ++ [event] } =
      (s.posted ++ s.batch ++ front) ++ event :: back := (append_assoc _ front _).symm
  constructor
  · show ((front ++ event :: back).map queueKey).Pairwise Apart
    have hdistinct := h.distinct
    rw [hevents, map_append, map_cons, hold, ← hnew] at hdistinct
    rwa [map_append, map_cons]
  · rw [htimeline]
    intro e hmem
    have hknown := h.known e
    rw [hbefore] at hknown
    rcases mem_append.mp hmem with hmem | hmem
    · exact mem_append_left _ (hknown (mem_append_left _ hmem))
    · rcases mem_cons.mp hmem with rfl | hmem
      · exact mem_append_right _ (.head _)
      · exact mem_append_left _ (hknown (mem_append_right _ (.tail _ hmem)))
  · intro type hmem
    have hsame := h.orders type hmem
    rw [hbefore, ofType_append, ofType_cons_of_ne (not_order_of_queueKey hold hmem)] at hsame
    rw [htimeline, ofType_append, ofType_cons_of_ne (not_order_of_queueKey hnew hmem), hsame,
      ofType_append type s.puts, ofType_cons_of_ne (not_order_of_queueKey hnew hmem)]
    exact (append_nil _).symm
  · intro x e hlast hfinal
    rw [htimeline]
    rw [lastAbout_concat] at hlast
    by_cases habout : subject event = some x
    · -- the new event is in front of nothing that contradicts it
      rw [if_pos habout] at hlast
      obtain rfl := Option.some.inj hlast
      refine ⟨_, back, rfl, fun g hg hcontra => ?_⟩
      exact ne_of_not_isLast (hbehind (any_eq_true.mpr ⟨g, hg, hcontra⟩)) hfinal rfl
    · rw [if_neg habout] at hlast
      obtain ⟨he, -⟩ := settled_of_lastAbout hlast
      have hapart : subject event ≠ subject e := fun hsame => habout (hsame.trans he)
      have hne : old ≠ e := by
        rintro rfl
        exact ne_of_not_isLast (hother (Ne.symm hapart)) hfinal rfl
      have hsettled := h.settled x e hlast hfinal
      rw [hbefore] at hsettled
      exact hsettled.replace hne (not_contradicts_of_ne hapart)

theorem sound_put (h : Sound final s) (event : GatewayEvent)
    (hharmless : Harmless final s (.put event)) : Sound final (s.put event) := by
  obtain ⟨hloses, hmisplaces⟩ := hharmless
  simp only [loses] at hloses
  simp only [misplaces] at hmisplaces
  unfold put
  cases hwaiting : s.waitingFor event with
  | none =>
    rw [hwaiting] at hloses
    refine sound_dropMany _ (sound_push h event fun waiting hmem => ?_) hloses
    cases hkey : queueKey event with
    | none => exact Apart.symm (.inl rfl)
    | some key =>
      unfold waitingFor at hwaiting
      rw [hkey] at hwaiting
      exact .inr (of_decide_eq_false (splitLast_eq_none hwaiting waiting hmem))
  | some found =>
    obtain ⟨front, old, back⟩ := found
    simp only [hwaiting] at hloses hmisplaces
    obtain ⟨key, hkey, hfind⟩ := Option.bind_eq_some_iff.mp hwaiting
    obtain ⟨hevents, hold, -⟩ := splitLast_eq_some hfind
    refine sound_replace h hevents (of_decide_eq_true hold) hkey (fun hne => ?_) fun hany => ?_
    · exact (hloses old (by rw [if_neg hne]; exact .head _)).2
    · exact hmisplaces event (by rw [if_pos hany]; exact .head _)

def ofKind (type : String) (event : GatewayEvent) : Bool := event.type = type ∧ matters event

theorem ofKind_onePriority (type : String) : OnePriority (ofKind type) := by
  have hof : ∀ g, ofKind type g = true → highPriority g = decide (type ∈ highPriorityEventTypes) := by
    intro g hg
    unfold highPriority
    rw [(of_decide_eq_true hg).1]
  cases htype : decide (type ∈ highPriorityEventTypes) with
  | true => exact .inl fun g hg => (hof g hg).trans htype
  | false => exact .inr fun g hg => (hof g hg).trans htype

theorem ofKind_order {type : String} (h : type ∈ orderEventTypes) :
    ofKind type = fun event => decide (event.type = type) := by
  funext event
  unfold ofKind matters
  by_cases htype : event.type = type
  · have htick : type ≠ "price_tick" := by
      rintro rfl
      exact absurd h (by decide)
    simp [htype, htick]
  · simp [htype]

section

variable (h : Sound final s)
include h

theorem sound_drain (limit : Int) (hbatch : s.batch = []) : Sound final (s.drain limit) := by
  have hkind : ∀ type, (s.drain limit).timeline.filter (ofKind type) =
      s.timeline.filter (ofKind type) := fun type =>
    drain_filter limit h.distinct hbatch (ofKind_onePriority type) fun g hg =>
      (of_decide_eq_true hg).2
  have hperm := takeEvents_perm limit s.events
  constructor
  · refine ((hperm.map queueKey).pairwise_iff Apart.symm).mpr h.distinct |>.sublist ?_
    rw [map_append]
    exact sublist_append_right _ _
  · intro e hmem
    refine h.known e ?_
    rcases mem_append.mp hmem with hmem | hmem
    · rcases mem_append.mp hmem with hmem | hmem
      · exact mem_append_left _ (mem_append_left _ hmem)
      · -- sorting and coalescing make up no event
        have hsorted : e ∈ coalesce tickKey (coalesce conditionKey (takeEvents limit s.events).1) := by
          rcases mem_append.mp hmem with hmem | hmem
          · exact (mem_filter.mp hmem).1
          · exact (mem_filter.mp hmem).1
        have htaken := mem_of_mem_coalesce (mem_of_mem_coalesce hsorted)
        exact mem_append_right _ (hperm.subset (mem_append_left _ htaken))
    · exact mem_append_right _ (hperm.subset (mem_append_right _ hmem))
  · intro type hmem
    have hsame := hkind type
    rw [ofKind_order hmem] at hsame
    exact hsame.trans (h.orders type hmem)
  · intro x e hlast hfinal
    obtain ⟨he, -⟩ := settled_of_lastAbout hlast
    have hself : ofKind e.type e = true := decide_eq_true ⟨rfl, (kind_of_subject he he).2⟩
    have hcovers : ∀ g, contradicts e g = true → ofKind e.type g = true := fun g hcontra =>
      decide_eq_true (kind_of_subject he ((subject_of_contradicts hcontra).trans he))
    have hsettled := h.settled x e hlast hfinal
    rw [← settled_filter_iff hself hcovers, ← hkind, settled_filter_iff hself hcovers] at hsettled
    exact hsettled

theorem sound_post {event : GatewayEvent} {later : List GatewayEvent}
    (hbatch : s.batch = event :: later) :
    Sound final { s with batch := later, posted := s.posted ++ [event] } := by
  have htimeline : timeline { s with batch := later, posted := s.posted ++ [event] } =
      s.timeline := by
    unfold timeline
    rw [hbatch, append_assoc s.posted]
    rfl
  exact ⟨h.distinct, htimeline ▸ h.known, htimeline ▸ h.orders, htimeline ▸ h.settled⟩

theorem sound_postFails (hharmless : Harmless final s .postFails) :
    Sound final { s with batch := [] } := by
  have hmissed : ∀ event ∈ s.batch, event.type ∉ orderEventTypes ∧ isLast final event = false :=
    hharmless.1
  have htimeline : timeline { s with batch := [] } = s.posted ++ [] ++ s.events := rfl
  constructor
  · exact h.distinct
  · rw [htimeline, append_nil]
    intro e hmem
    refine h.known e ?_
    rcases mem_append.mp hmem with hmem | hmem
    · exact mem_append_left _ (mem_append_left _ hmem)
    · exact mem_append_right _ hmem
  · intro type hmem
    have hsame := h.orders type hmem
    have hnothing : ofType type s.batch = [] :=
      filter_eq_nil_iff.mpr fun e he htype =>
        (hmissed e he).1 (of_decide_eq_true htype ▸ hmem)
    unfold timeline at hsame
    rw [ofType_append, ofType_append, hnothing, append_nil, ← ofType_append] at hsame
    rw [htimeline, append_nil, hsame]
  · intro x e hlast hfinal
    have hout : e ∉ s.batch := fun he => ne_of_not_isLast (hmissed e he).2 hfinal rfl
    have hsettled := h.settled x e hlast hfinal
    rw [htimeline]
    exact hsettled.splice s.posted s.batch [] s.events hout fun g hg => absurd hg not_mem_nil

theorem sound_act (step : QueueStep) (hharmless : Harmless final s step) :
    Sound final (s.act step) := by
  cases step with
  | put event => exact sound_put h event hharmless
  | drain limit =>
    show Sound final (if s.batch = [] then s.drain limit else s)
    split
    · next hbatch => exact sound_drain h limit hbatch
    · exact h
  | post =>
    simp only [act]
    cases hbatch : s.batch with
    | nil => exact h
    | cons event later => exact sound_post h hbatch
  | postFails => exact sound_postFails h hharmless

end

theorem sound_start (final : List GatewayEvent) (maxSize : Nat) : Sound final { maxSize } :=
  ⟨.nil, fun _ hmem => absurd hmem not_mem_nil, fun _ _ => rfl, fun _ _ hlast => by cases hlast⟩

/-! ## What is kept -/

theorem puts_run (s : EventRuntime) (steps : List QueueStep) :
    (machine.run s steps).puts = s.puts ++ putsOf steps := by
  induction steps generalizing s with
  | nil => exact (append_nil _).symm
  | cons step steps ih =>
    show (machine.run (s.act step) steps).puts = _
    rw [ih]
    cases step with
    | put event => exact append_assoc s.puts [event] (putsOf steps)
    | drain limit =>
      have hputs : (s.act (.drain limit)).puts = s.puts := by
        show (if s.batch = [] then s.drain limit else s).puts = _
        split
        · rfl
        · rfl
      rw [hputs]
      rfl
    | post =>
      have hputs : (s.act .post).puts = s.puts := by
        unfold act
        cases s.batch with
        | nil => rfl
        | cons event later => rfl
      rw [hputs]
      rfl
    | postFails => rfl

/-- Once everything has left the queue, what was posted is worth as much as what was put if no
step of the run did any harm. -/
theorem kept_of_harmless (maxSize : Nat) (steps : List QueueStep)
    (hevents : (machine.run { maxSize } steps).events = [])
    (hbatch : (machine.run { maxSize } steps).batch = [])
    (hharmless : machine.Guarded (Harmless (putsOf steps)) { maxSize } steps) :
    Keeps (machine.run { maxSize } steps) := by
  have hsound : Sound (putsOf steps) (machine.run { maxSize } steps) := by
    have hall : machine.Always (Sound (putsOf steps)) { maxSize } steps := by
      refine Machine.always_of_guarded ?_ (sound_start (putsOf steps) maxSize) hharmless
      intro s step h hok
      exact sound_act h step hok
    exact machine.always_iff_prefix.mp hall steps (prefix_refl _)
  have hputs : putsOf steps = (machine.run { maxSize } steps).puts := by
    rw [puts_run]
    rfl
  rw [hputs] at hsound
  generalize machine.run { maxSize } steps = s at *
  have htimeline : s.timeline = s.posted := by
    unfold timeline
    rw [hevents, hbatch, append_nil, append_nil]
  obtain ⟨-, hknown, horders, hsettled⟩ := hsound
  rw [htimeline] at hknown hsettled
  simp only [htimeline] at horders
  refine ⟨horders, fun code => ?_, fun members => writeAll_eq_iff.mpr (fun x => ?_) members⟩
  · cases hlast : lastAbout (.price code) s.puts with
    | none => exact lastAbout_eq_none hlast hknown
    | some e =>
      exact lastAbout_of_settled (settled_of_lastAbout hlast).1 (hsettled _ e hlast hlast)
  · cases hlast : lastAbout x s.puts with
    | none => rw [lastWrite_eq_none hlast, lastWrite_eq_none (lastAbout_eq_none hlast hknown)]
    | some e =>
      obtain ⟨he, hput⟩ := settled_of_lastAbout hlast
      have hposted := hsettled x e hlast hlast
      cases x with
      | price code => rw [lastWrite_price, lastWrite_price]
      | membership name index code =>
        rw [lastWrite_of_settled he hposted, lastWrite_of_settled he hput]

/-! ## Room -/

/-- A put may lose the waiting event of the same key, and else a price tick, or any event when no
tick is left. -/
def Expendable (s : EventRuntime) (event lost : GatewayEvent) : Prop :=
  (queueKey lost = queueKey event ∧ lost ∈ s.events) ∨ lost.type = "price_tick" ∨
    ∀ waiting ∈ s.events ++ [event], waiting.type ≠ "price_tick"

/-- The queue has room for its events, and a put loses one at most, the most expendable. -/
def HasRoom (s : EventRuntime) : Prop :=
  s.events.length ≤ s.maxSize ∧ ∀ event, (s.loses (.put event)).length ≤ 1 ∧
    ∀ lost ∈ s.loses (.put event), s.Expendable event lost

theorem waitingFor_eq_some {event old : GatewayEvent} {front back : List GatewayEvent}
    (h : s.waitingFor event = some (front, old, back)) :
    s.events = front ++ old :: back ∧ queueKey old = queueKey event := by
  obtain ⟨key, hkey, hsplit⟩ := Option.bind_eq_some_iff.mp h
  obtain ⟨hevents, hold, -⟩ := splitLast_eq_some hsplit
  exact ⟨hevents, (of_decide_eq_true hold).trans hkey.symm⟩

theorem dropOldest_tick (events : List GatewayEvent) :
    ∀ lost ∈ (dropOldest events).2, lost.type = "price_tick" ∨
      ∀ waiting ∈ events, waiting.type ≠ "price_tick" := by
  intro lost hlost
  unfold dropOldest at hlost
  cases hfind : events.findIdx? (·.type = "price_tick") with
  | some index =>
    obtain ⟨hlt, htick, -⟩ := findIdx?_eq_some_iff_getElem.mp hfind
    simp only [hfind, getElem?_eq_getElem hlt, Option.toList_some, mem_singleton] at hlost
    rw [hlost]
    exact .inl (of_decide_eq_true htick)
  | none =>
    exact .inr fun waiting hmem => of_decide_eq_false (findIdx?_eq_none_iff.mp hfind waiting hmem)

theorem put_within (h : s.events.length ≤ s.maxSize) (event : GatewayEvent) :
    (s.put event).events.length ≤ s.maxSize ∧ (s.loses (.put event)).length ≤ 1 ∧
      ∀ lost ∈ s.loses (.put event), s.Expendable event lost := by
  cases hwaiting : s.waitingFor event with
  | none =>
    simp only [put, loses, hwaiting]
    -- there is room, or just one event too many
    by_cases hroom : s.events.length < s.maxSize
    · rw [show s.events.length + 1 - s.maxSize = 0 by omega]
      refine ⟨?_, Nat.zero_le _, fun lost hlost => absurd hlost not_mem_nil⟩
      show (s.events ++ [event]).length ≤ s.maxSize
      rw [length_append, length_singleton]
      omega
    · rw [show s.events.length + 1 - s.maxSize = 1 by omega]
      have htick := dropOldest_tick (s.events ++ [event])
      rcases dropOldest_spec (s.events ++ [event]) with ⟨hnil, -⟩ | ⟨front, lost, back, hsplit, heq⟩
      · exact absurd hnil (by simp)
      · have hlength := congrArg List.length hsplit
        rw [heq] at htick
        simp only [dropMany, heq, length_append, length_cons, length_nil, append_nil]
          at hlength ⊢
        exact ⟨by omega, Nat.le_refl _, fun lost hlost => .inr (htick lost hlost)⟩
  | some found =>
    obtain ⟨front, old, back⟩ := found
    obtain ⟨hevents, hkey⟩ := waitingFor_eq_some hwaiting
    simp only [put, loses, hwaiting]
    refine ⟨?_, ?_⟩
    · rw [hevents] at h
      simpa using h
    · split
      · exact ⟨Nat.zero_le _, fun lost hlost => absurd hlost not_mem_nil⟩
      · refine ⟨Nat.le_refl 1, fun lost hlost => .inl ?_⟩
        rw [mem_singleton.mp hlost, hevents]
        exact ⟨hkey, mem_append_right _ mem_cons_self⟩

theorem length_act (h : s.events.length ≤ s.maxSize) (step : QueueStep) :
    (s.act step).events.length ≤ (s.act step).maxSize := by
  cases step with
  | put event => exact (put_within h event).1
  | drain limit =>
    simp only [act]
    split
    · have hlength := (takeEvents_perm limit s.events).length_eq
      rw [length_append] at hlength
      show (takeEvents limit s.events).2.length ≤ s.maxSize
      omega
    · exact h
  | post =>
    simp only [act]
    split
    · exact h
    · exact h
  | postFails => exact h

/-- In every run of the Gateway its queue stays within its size, and a put into the full queue
costs one event only, no order or command event while there is a price tick to drop. -/
theorem overflow_costs_ticks (maxSize : Nat) (steps : List QueueStep) :
    machine.Always HasRoom { maxSize } steps := by
  refine Machine.always_iff_prefix.mpr fun past _ => ?_
  have hstep : ∀ s step, s.events.length ≤ s.maxSize →
      (machine.next s step).events.length ≤ (machine.next s step).maxSize :=
    fun s step h => length_act h step
  have hstart : ({ maxSize } : EventRuntime).events.length ≤ maxSize := Nat.zero_le _
  have hlength := Machine.run_preserves hstep hstart past
  exact ⟨hlength, fun event => (put_within hlength event).2⟩

/-! ## Fixed runs -/

def tick (eventId code : String) (price : Int) : GatewayEvent where
  type := "price_tick"
  payload := Dict.ofList [("code", .str code), ("price", .int price)]
  eventId := eventId

def orderResult : GatewayEvent where
  type := "order_result"
  eventId := "E2"

def priceAndResult : List QueueStep :=
  [.put (tick "E1" "005930" 70000), .put orderResult, .put (tick "E3" "005930" 70100), .drain 300,
    .post, .post]

/-- The later price and the result arrive. -/
theorem kept_of_harmless_priceAndResult : Keeps (machine.run { maxSize := 2 } priceAndResult) := by
  refine kept_of_harmless 2 priceAndResult ?_ ?_ ?_
  · decide +kernel
  · decide +kernel
  · decide +kernel

def failedPost : List QueueStep := [.put orderResult, .drain 300, .postFails]

/-- The result has left the queue and is never posted. -/
theorem result_lost_with_batch :
    ¬ ∀ (maxSize : Nat) (steps : List QueueStep),
      (machine.run { maxSize } steps).events = [] → (machine.run { maxSize } steps).batch = [] →
        Keeps (machine.run { maxSize } steps) := by
  intro h
  have hkeeps := h 1000 failedPost (by decide +kernel) (by decide +kernel)
  have horders := hkeeps.orders "order_result" (by decide)
  revert horders
  decide +kernel

end EventRuntime

end TradingCore.Transport
