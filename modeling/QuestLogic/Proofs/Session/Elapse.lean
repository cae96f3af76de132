import QuestLogic.Proofs.Party.Tidy
import QuestLogic.Proofs.Session.Encounter
import QuestLogic.Proofs.Session.Opening
import QuestLogic.Proofs.Session.Upkeep

/-!
# A span that passes hour by hour

A span that a dialog asks for passes in a loop: while more than an hour is left an hour of it
passes, and then the rest. `Session.Hourly` is that loop, and it ends as `Session.elapse` does,
which counts the hours beforehand (`Session.hourly_iff`). Where it meets no fault no tick is lost or
counted twice: the clock has moved by the span, and the ledger is what a single pass over it leaves
that takes the whole span (`Session.elapse_adds_up`).
-/

namespace QuestLogic

/-- Time that moves forward does not tell when the party last slept. -/
theorem Clock.lastSlept_advance (c : Clock) (span : Time) :
    (c.advance span).lastSlept = c.lastSlept := by
  rw [advance]

namespace Session

variable {s t : Session} {span left : Time} {resting : Bool}

/-! ## The loop -/

/-- An hour of dialog passes; a party that rests sleeps before it. -/
def elapseHour (resting : Bool) : Step Session Unit := do
  if resting then modify fun s => { s with clock := s.clock.sleepAt s.clock.now }
  passTime .oneHour .dialog

/-- How the loop ends that takes an hour at a time from what is left of a span. -/
inductive Hourly (resting : Bool) : Time → Session → Except Fault Unit × Session → Prop
  /-- No more than an hour is left, and passes if it is not nothing. -/
  | last {left : Time} {s : Session} (hleft : left.toNat ≤ Time.perHour) :
      Hourly resting left s
        ((if left.isZero then pure () else passTime left .dialog : Step Session Unit).run s)
  /-- An hour passes, and the loop goes on with what is left. -/
  | hour {left : Time} {s t : Session} {o : Except Fault Unit × Session}
      (hleft : Time.perHour < left.toNat) (hstep : (elapseHour resting).run s = (.ok (), t))
      (hrest : Hourly resting (left - .oneHour) t o) : Hourly resting left s o
  /-- The hour meets a fault, and so does the loop. -/
  | fault {left : Time} {s t : Session} {e : Fault} (hleft : Time.perHour < left.toNat)
      (hstep : (elapseHour resting).run s = (.error e, t)) : Hourly resting left s (.error e, t)

/-- Some hours are one hour and then the others. -/
theorem elapseHours_succ (resting : Bool) (n : Nat) : elapseHours resting (n + 1) = (do
    elapseHour resting
    elapseHours resting n) := by
  rw [elapseHours, elapseHour]
  cases resting <;> rfl

/-- The loop takes whole hours as long as more than an hour is left, and then what is left. -/
theorem hourly_iff_hours {n r : Nat} (hr : 0 < r ∧ r ≤ Time.perHour)
    (hleft : left.toNat = n * Time.perHour + r) {o : Except Fault Unit × Session} :
    Hourly resting left s o ↔ o = (do
      elapseHours resting n
      passTime (.ofNat r) .dialog : Step Session Unit).run s := by
  have hhour : Time.oneHour.toNat = Time.perHour := rfl
  induction n generalizing left s with
  | zero =>
    rw [Nat.zero_mul, Nat.zero_add] at hleft
    have hrest : left = .ofNat r := by
      have hle := left.toNat_le
      refine Time.ext_toNat ?_
      rw [Time.toNat_ofNat]
      omega
    have hnone : (elapseHours resting 0).run s = (.ok (), s) := rfl
    have hpass : (if left.isZero then pure () else passTime left .dialog : Step Session Unit) =
        passTime (.ofNat r) .dialog := by
      rw [if_neg (by rw [Time.isZero_eq_false.2 (by omega)]; decide), hrest]
    rw [Step.run_bind_ok hnone, ← hpass]
    constructor
    · rintro (- | ⟨hmore, -, -⟩ | ⟨hmore, -⟩)
      · rfl
      · omega
      · omega
    · rintro rfl
      exact .last (by omega)
  | succ n ih =>
    rw [Nat.succ_mul] at hleft
    have hmore : Time.perHour < left.toNat := by omega
    have hless : (left - .oneHour).toNat = n * Time.perHour + r := by
      rw [Time.toNat_sub]
      omega
    rw [elapseHours_succ, bind_assoc]
    rcases hstep : (elapseHour resting).run s with ⟨e | _, t⟩
    · rw [Step.run_bind_error hstep]
      constructor
      · rintro (hle | ⟨-, hok, -⟩ | ⟨-, herror⟩)
        · omega
        · rw [hstep] at hok
          cases hok
        · rw [← hstep, herror]
      · rintro rfl
        exact .fault hmore hstep
    · rw [Step.run_bind_ok hstep]
      refine Iff.trans ?_ (ih hless)
      constructor
      · rintro (hle | ⟨-, hok, hrest⟩ | ⟨-, herror⟩)
        · omega
        · rw [hstep] at hok
          cases hok
          exact hrest
        · rw [hstep] at herror
          cases herror
      · exact .hour hmore hstep

/-- The loop ends, in one way only, and counting the hours beforehand comes to the same. -/
theorem hourly_iff (hspan : 0 < span.toNat) {o : Except Fault Unit × Session} :
    Hourly (restHours * Time.perHour < span.toNat) span s o ↔ o = (elapse span).run s := by
  have hhours : span.toNat = (span.toNat - 1) / Time.perHour * Time.perHour +
      (span.toNat - (span.toNat - 1) / Time.perHour * Time.perHour) ∧
      0 < span.toNat - (span.toNat - 1) / Time.perHour * Time.perHour ∧
      span.toNat - (span.toNat - 1) / Time.perHour * Time.perHour ≤ Time.perHour := by
    unfold Time.perHour
    omega
  rw [hourly_iff_hours hhours.2 hhours.1, elapse,
    if_neg (by rw [Time.isZero_eq_false.2 hspan]; decide)]

/-! ## What an hour leaves -/

/-- Time that meets no fault moves the clock by the span and takes as much from the ledger. -/
theorem passTime_eq_ok {how : Pastime} (hs : ¬s.IsCutShort)
    (h : (passTime span how).run s = (.ok (), t)) :
    t.clock = s.clock.advance span ∧
      t.ledger = { s.ledger with entries := remaining span s.ledger.entries } ∧
      ¬t.IsCutShort := by
  obtain ⟨hsave, hledger, -⟩ := dawn_frame span how s
  have hclock := clock_dawn span how s
  rw [passTime_eq] at h
  obtain ⟨_, u, hdawn, hpass⟩ := Step.run_bind_eq_ok h
  rw [hdawn] at hsave hledger hclock
  have hu : ¬u.IsCutShort := fun ⟨m, hm, hsize⟩ => hs ⟨m, hsave ▸ hm, hsize⟩
  obtain ⟨q, level, -, hrun⟩ := run_reduceLedger_eq hu span
  cases hpass.symm.trans hrun
  refine ⟨hclock, ?_, not_isCutShort_of_save hu rfl⟩
  rw [← hledger]

/-- An hour that meets no fault is no different, whether the party sleeps before it or not. -/
theorem elapseHour_eq_ok (hs : ¬s.IsCutShort) (h : (elapseHour resting).run s = (.ok (), t)) :
    t.clock.now = s.clock.now + .oneHour ∧
      t.clock.lastSlept = (if resting then s.clock.now else s.clock.lastSlept) ∧
      t.ledger = { s.ledger with entries := remaining .oneHour s.ledger.entries } ∧
      ¬t.IsCutShort := by
  unfold elapseHour at h
  cases resting with
  | true =>
    have hs' : ¬Session.IsCutShort { s with clock := s.clock.sleepAt s.clock.now } := hs
    rw [if_pos rfl, Step.run_bind_ok (Step.run_modify _ s)] at h
    obtain ⟨hclock, hledger, ht⟩ := passTime_eq_ok hs' h
    rw [hclock, if_pos rfl]
    exact ⟨rfl, rfl, hledger, ht⟩
  | false =>
    obtain ⟨hclock, hledger, ht⟩ := passTime_eq_ok hs h
    rw [hclock, if_neg Bool.false_ne_true]
    exact ⟨rfl, s.clock.lastSlept_advance _, hledger, ht⟩

/-! ## What the loop leaves -/

/-- What has come of a span once all of it has passed. -/
structure Elapsed (resting : Bool) (span : Time) (s t : Session) : Prop where
  now : t.clock.now = s.clock.now + span
  ledger : t.ledger = { s.ledger with entries := remaining span s.ledger.entries }
  /-- Unless the party rests, and for more than an hour, it has not slept. -/
  slept : resting = false ∨ span.toNat ≤ Time.perHour → t.clock.lastSlept = s.clock.lastSlept
  /-- A party that rests has slept before the last hour but what is left over. -/
  rested : resting = true → Time.perHour < span.toNat →
    t.clock.awake.toNat ≤ 2 * Time.perHour

/-- If the loop meets no fault the whole span has passed. -/
theorem Hourly.elapsed (h : Hourly resting left s (.ok (), t)) (hs : ¬s.IsCutShort)
    (hleft : 0 < left.toNat) : Elapsed resting left s t := by
  generalize ho : (Except.ok (), t) = o at h
  -- The induction is on the loop: what is left adds up with the hour that has passed.
  induction h with
  | @last left s hle =>
    rw [if_neg (by rw [Time.isZero_eq_false.2 hleft]; decide)] at ho
    obtain ⟨hclock, hledger, -⟩ := passTime_eq_ok hs ho.symm
    refine ⟨by rw [hclock]; rfl, hledger, fun _ => ?_, fun _ hmore => by omega⟩
    rw [hclock, Clock.lastSlept_advance]
  | @hour left s u o hmore hstep hrest ih =>
    subst ho
    obtain ⟨hnow, hslept, hledger, hu⟩ := elapseHour_eq_ok hs hstep
    have hhour : Time.oneHour.toNat = Time.perHour := rfl
    have hless : 0 < (left - .oneHour).toNat := by
      rw [Time.toNat_sub]
      omega
    have hsum : Time.oneHour + (left - .oneHour) = left := by
      have hle := left.toNat_le
      refine Time.ext_toNat ?_
      rw [Time.toNat_add, Time.toNat_sub]
      omega
    have hlater := ih hu hless rfl
    refine ⟨?_, ?_, fun hno => ?_, fun hyes _ => ?_⟩
    · rw [hlater.now, hnow, Time.add_assoc, hsum]
    · rw [hlater.ledger, hledger]
      dsimp only
      rw [remaining_remaining, hsum]
    · obtain hno | hle := hno
      · rw [hlater.slept (.inl hno), hslept, hno]
        rfl
      · omega
    · rcases Nat.lt_or_ge Time.perHour (left - .oneHour).toNat with hlt | hge
      · exact hlater.rested hyes hlt
      -- What is left over passes after the party has slept for the last time.
      · have hawake : t.clock.awake.toNat =
            (t.clock.now.toNat - t.clock.lastSlept.toNat) := Time.toNat_sub _ _
        rw [hawake, hlater.now, hlater.slept (.inr hge), hnow, hslept, if_pos hyes,
          Time.toNat_add, Time.toNat_add]
        omega
  | fault => cases ho

/-! ## When the loop meets no fault -/

/-- Time passes with a party that has no empty stack of food, and leaves none. -/
theorem Provisioned.run_passTime (hs : ¬s.IsCutShort) (hfood : s.Provisioned) (span : Time)
    (how : Pastime) :
    ∃ t, (passTime span how).run s = (.ok (), t) ∧ ¬t.IsCutShort ∧ t.Provisioned := by
  have hok := (hinges_passTime hs span how).iff.2 (hfood.sustained span how)
  have hstocked :=
    ((allowsTime_carrying Inventory.lasting_stocked).passTime span how s).1 hfood.stocked
  have hcounts := (allowsTime_countsFood.passTime span how s).1 hfood.counts
  rcases hrun : (passTime span how).run s with ⟨e | _, t⟩
  all_goals rw [hrun] at hok hstocked hcounts
  · cases hok
  · exact ⟨t, rfl, (passTime_eq_ok hs hrun).2.2, hstocked, hcounts⟩

theorem Provisioned.run_elapseHour (hs : ¬s.IsCutShort) (hfood : s.Provisioned) (resting : Bool) :
    ∃ t, (elapseHour resting).run s = (.ok (), t) ∧ ¬t.IsCutShort ∧ t.Provisioned := by
  unfold elapseHour
  cases resting with
  | true =>
    rw [if_pos rfl, Step.run_bind_ok (Step.run_modify _ s)]
    exact run_passTime (s := { s with clock := s.clock.sleepAt s.clock.now }) hs
      ⟨hfood.stocked, hfood.counts⟩ .oneHour .dialog
  | false => exact hfood.run_passTime hs .oneHour .dialog

/-- The loop meets no fault if the party has no empty stack of food, and no more food than a word
holds. -/
theorem Provisioned.exists_hourly_ok (hs : ¬s.IsCutShort) (hfood : s.Provisioned) (resting : Bool)
    (left : Time) : ∃ t, Hourly resting left s (.ok (), t) := by
  induction hn : left.toNat using Nat.strong_induction_on generalizing left s with
  | _ n ih =>
    rcases Nat.lt_or_ge Time.perHour left.toNat with hmore | hle
    · obtain ⟨u, hstep, hu, hukept⟩ := hfood.run_elapseHour hs resting
      have hhour : Time.oneHour.toNat = Time.perHour := rfl
      have hpos : 0 < Time.perHour := by decide
      have hless : (left - .oneHour).toNat < n := by
        rw [Time.toNat_sub]
        omega
      obtain ⟨t, ht⟩ := ih _ hless hu hukept _ rfl
      exact ⟨t, .hour hmore hstep ht⟩
    · have hlast : Hourly resting left s _ := .last hle
      split_ifs at hlast
      · exact ⟨s, hlast⟩
      · obtain ⟨t, ht, -⟩ := hfood.run_passTime hs left .dialog
        exact ⟨t, ht ▸ hlast⟩

/-! ## The whole span -/

/--
The loop that takes an hour at a time from a span that is not nothing ends, and a dialog that asks
for the span does what the loop does, over an image that reaches to the end of the flags. It meets
no fault if the party has no empty stack of food and a word holds the units of each kind. If it
meets none the clock has moved by the whole span, or stands at the greatest time there is, and the
ledger is what a single pass leaves that takes the whole span. After no more than twelve hours the
party last slept when it did before; after more it has been awake for two hours at most.
-/
theorem elapse_adds_up {m : Image} (hsave : s.save = some m) (hm : Layout.size ≤ m.size)
    (hspan : span ≠ .zero) :
    (∀ o, Hourly (restHours * Time.perHour < span.toNat) span s o ↔ o = (elapse span).run s) ∧
      (s.Provisioned → ∃ t, (elapse span).run s = (.ok (), t)) ∧
      ∀ t, (elapse span).run s = (.ok (), t) →
        t.clock.now.toNat = min (s.clock.now.toNat + span.toNat) 4294967295 ∧
        (∃ u, (reduceLedger span).run s = (.ok (), u) ∧ t.ledger = u.ledger) ∧
        (span.toNat ≤ restHours * Time.perHour → t.clock.lastSlept = s.clock.lastSlept) ∧
        (restHours * Time.perHour < span.toNat → t.clock.awake.toNat ≤ 2 * Time.perHour) := by
  have hs := not_isCutShort hsave hm
  have hpos : 0 < span.toNat := Nat.pos_of_ne_zero fun h => hspan (Time.ext_toNat h)
  have hlonger : Time.perHour ≤ restHours * Time.perHour := by decide
  refine ⟨fun o => hourly_iff hpos, fun hfood => ?_, fun t ht => ?_⟩
  · obtain ⟨t, ht⟩ := hfood.exists_hourly_ok hs (restHours * Time.perHour < span.toNat) span
    exact ⟨t, ((hourly_iff hpos).1 ht).symm⟩
  · have helapsed := ((hourly_iff hpos).2 ht.symm).elapsed hs hpos
    obtain ⟨u, hu, hledger, -⟩ := run_reduceLedger hs span
    refine ⟨?_, ⟨u, hu, helapsed.ledger.trans hledger.symm⟩, fun hle => ?_, fun hlt => ?_⟩
    · rw [helapsed.now, Time.toNat_add]
    · exact helapsed.slept (.inl (decide_eq_false (Nat.not_lt.2 hle)))
    · exact helapsed.rested (decide_eq_true hlt) (Nat.lt_of_le_of_lt hlonger hlt)

/-- Thirteen hours pass with the party of the story, and it has been awake for two of them. -/
theorem elapse_adds_up_thirteen_hours :
    onBlank.save = some (.zeroed Layout.size) ∧ Layout.size ≤ (Image.zeroed Layout.size).size ∧
      Time.ofHours 13 ≠ .zero ∧
      ∃ t, (elapse (.ofHours 13)).run onBlank = (.ok (), t) ∧ t.clock.now = .ofHours 13 ∧
        t.clock.awake.toNat ≤ 2 * Time.perHour := by
  have hm : Layout.size ≤ (Image.zeroed Layout.size).size := Image.full_zeroed
  have hspan : Time.ofHours 13 ≠ .zero := by decide
  have hstocked : onBlank.party.Carries Inventory.Stocked := by
    have hnothing : Inventory.Stocked default := fun _ hi => by cases hi
    obtain ⟨hkeys, hroster⟩ := Party.carries_initial hnothing
    exact ⟨hkeys, hroster⟩
  have hcounts : onBlank.party.CountsFood :=
    (Party.carries_initial (Inventory.tidy_empty _)).countsFood (by decide)
  obtain ⟨-, hok, hadds⟩ := elapse_adds_up (s := onBlank) rfl hm hspan
  obtain ⟨t, hrun⟩ := hok ⟨hstocked, hcounts⟩
  obtain ⟨hnow, -, -, hawake⟩ := hadds t hrun
  refine ⟨rfl, hm, hspan, t, hrun, Time.ext_toNat (hnow.trans ?_), hawake (by decide)⟩
  decide

end Session

end QuestLogic
