import QuestLogic.Proofs.Party.Vitals
import QuestLogic.Proofs.Session.Encounter
import QuestLogic.Proofs.Session.Opening

/-!
# Hours within a day

Time that begins no day goes through, moves the clock, takes the time from the ledger, and charges
every hour that begins by how long the party has been awake at the end of it
(`Session.run_passTime_within_day`). So of two stretches one after the other the hours of the first
are charged by the clock between them, and in a single stretch that is as long as both by the clock
at its end. Clock and ledger come out the same, and so does the party unless it has become too tired
in between (`Session.passTime_split`).
-/

namespace QuestLogic

/-- To move the clock twice is to move it by both spans. -/
theorem Clock.advance_advance (c : Clock) (a b : Time) :
    (c.advance a).advance b = c.advance (a + b) :=
  congrArg (Clock.mk · c.lastSlept) (Time.add_assoc c.now a b)

/-- The clock never moves back. -/
theorem Clock.now_le_advance (c : Clock) (span : Time) :
    c.now.toNat ≤ (c.advance span).now.toNat := by
  have hle := c.now.toNat_le
  change c.now.toNat ≤ (c.now + span).toNat
  rw [Time.toNat_add]
  omega

namespace Session

variable {s t : Session} {a b span : Time} {how : Pastime}

/-! ## What a pass over the ledger leaves alone -/

/-- The clock is the same, and everyone fares alike. -/
structure Steady (s t : Session) : Prop where
  clock : t.clock = s.clock
  health : s.party.SameHealth t.party

/-- Nothing happens to anyone, and no time passes. -/
def steadyRule : Rule Session where
  leads := Steady
  permits _ _ := True
  refl s := ⟨rfl, .refl s.party⟩
  trans h h' := ⟨h'.clock.trans h.clock, h.health.trans h'.health⟩

/-- Whoever holds the light that goes out fares as before. -/
theorem steady_putOut (s : Session) : Steady s s.putOut.2 := by
  unfold putOut
  dsimp only
  split
  · exact ⟨rfl, Party.sameHealth_modify _ _ fun _ => rfl⟩
  · exact ⟨rfl, .refl s.party⟩

theorem allowsPass_steady : AllowsPass steadyRule where
  setEvent _ _ := obeys_onSave_of_image (fun s _ => ⟨rfl, .refl s.party⟩) fun _ _ => trivial
  putOut := steady_putOut
  ledger s _ _ _ := ⟨rfl, .refl s.party⟩

/-! ## A stretch that begins no day -/

/-- Whether a party that is kept awake has been so for too long by that clock. -/
def tiredAt (how : Pastime) (c : Clock) : Bool :=
  how.awake && sleeplessHours * Time.perHour ≤ c.awake.toNat

/-- How many hours begin within a span. -/
def hoursWithin (span : Time) (c : Clock) : Nat := (c.advance span).now.hours - c.now.hours

/-- The hours of a stretch are charged to every active member by the clock at its end. -/
theorem run_dawn_within_day (hday : (s.clock.advance span).now.days = s.clock.now.days) :
    (dawn span how).run s = (.ok (), { s with
      clock := s.clock.advance span
      party := s.party.mapActive (Character.hours how (tiredAt how (s.clock.advance span))
        (hoursWithin span s.clock)) }) := by
  rw [dawn, Step.run_bind_ok (Step.run_get s), Step.run_bind_ok (Step.run_modify _ s),
    Step.run_bind_ok (Step.run_get _)]
  dsimp only
  rw [hday, Nat.sub_self]
  rfl

/-- Time that begins no day goes through, and takes nothing from anyone but by its hours. -/
theorem run_passTime_within_day (hs : ¬s.IsCutShort) (how : Pastime)
    (hday : (s.clock.advance span).now.days = s.clock.now.days) :
    ∃ t, (passTime span how).run s = (.ok (), t) ∧ ¬t.IsCutShort ∧
      t.clock = s.clock.advance span ∧ t.ledger.entries = remaining span s.ledger.entries ∧
      (s.party.mapActive (Character.hours how (tiredAt how (s.clock.advance span))
        (hoursWithin span s.clock))).SameHealth t.party := by
  let u : Session := { s with
    clock := s.clock.advance span
    party := s.party.mapActive
      (Character.hours how (tiredAt how (s.clock.advance span)) (hoursWithin span s.clock)) }
  have hu : ¬u.IsCutShort := hs
  obtain ⟨t, ht, hledger, hsave⟩ := run_reduceLedger hu span
  have hsteady := (allowsPass_steady.reduceLedger span u).1
  rw [ht] at hsteady
  refine ⟨t, ?_, not_isCutShort_of_save hu hsave, hsteady.clock, ?_, hsteady.health⟩
  · rw [passTime_eq, Step.run_bind_ok (run_dawn_within_day hday), ht]
  · rw [hledger]

/-! ## Two stretches and a single one -/

/-- What lies between two times of a day is of that day. -/
theorem days_between (hday : (s.clock.advance (a + b)).now.days = s.clock.now.days) :
    (s.clock.advance a).now.days = s.clock.now.days := by
  have hfirst := s.clock.now_le_advance a
  have hsecond := (s.clock.advance a).now_le_advance b
  rw [Clock.advance_advance] at hsecond
  unfold Time.days at hday ⊢
  have hlow := Nat.div_le_div_right (c := Time.perDay) hfirst
  have hhigh := Nat.div_le_div_right (c := Time.perDay) hsecond
  omega

/-- The hours of two spans are those of both together. -/
theorem hoursWithin_add (c : Clock) (a b : Time) :
    hoursWithin a c + hoursWithin b (c.advance a) = hoursWithin (a + b) c := by
  have hfirst := c.now_le_advance a
  have hsecond := (c.advance a).now_le_advance b
  unfold hoursWithin
  rw [Clock.advance_advance] at hsecond ⊢
  unfold Time.hours
  have hlow := Nat.div_le_div_right (c := Time.perHour) hfirst
  have hhigh := Nat.div_le_div_right (c := Time.perHour) hsecond
  omega

/-- Two stretches within a day go through, and the hours of the first are charged by the clock
between them. -/
theorem run_passTime_twice (hs : ¬s.IsCutShort) (how : Pastime)
    (hday : (s.clock.advance (a + b)).now.days = s.clock.now.days) :
    ∃ t, (do passTime a how; passTime b how : Step Session Unit).run s = (.ok (), t) ∧
      t.clock = s.clock.advance (a + b) ∧
      t.ledger.entries = remaining (a + b) s.ledger.entries ∧
      (s.party.mapActive
        (Character.hours how (tiredAt how (s.clock.advance (a + b)))
            (hoursWithin b (s.clock.advance a)) ∘
          Character.hours how (tiredAt how (s.clock.advance a))
            (hoursWithin a s.clock))).SameHealth t.party := by
  have hfirst := days_between hday
  obtain ⟨u, hu, husound, huclock, huledger, huhealth⟩ := run_passTime_within_day hs how hfirst
  have hsecond : (u.clock.advance b).now.days = u.clock.now.days := by
    rw [huclock, Clock.advance_advance, hday, hfirst]
  obtain ⟨t, ht, -, htclock, htledger, hthealth⟩ := run_passTime_within_day husound how hsecond
  rw [huclock, Clock.advance_advance] at htclock hthealth
  rw [huledger, remaining_remaining] at htledger
  refine ⟨t, by rw [Step.run_bind_ok hu, ht], htclock, htledger, ?_⟩
  rw [← Party.mapActive_mapActive _ fun c => (c.leads_hours how _ _).id_eq]
  exact (huhealth.mapActive (Character.heeds_hours _ _ _)).trans hthealth

/-- A single stretch charges the same hours by the clock at its end. -/
theorem run_passTime_once (hs : ¬s.IsCutShort) (how : Pastime)
    (hday : (s.clock.advance (a + b)).now.days = s.clock.now.days) :
    ∃ u, (passTime (a + b) how).run s = (.ok (), u) ∧ u.clock = s.clock.advance (a + b) ∧
      u.ledger.entries = remaining (a + b) s.ledger.entries ∧
      (s.party.mapActive
        (Character.hours how (tiredAt how (s.clock.advance (a + b)))
            (hoursWithin b (s.clock.advance a)) ∘
          Character.hours how (tiredAt how (s.clock.advance (a + b)))
            (hoursWithin a s.clock))).SameHealth u.party := by
  obtain ⟨u, hu, -, hclock, hledger, hhealth⟩ := run_passTime_within_day hs how hday
  rw [← hoursWithin_add, ← Character.hours_add] at hhealth
  exact ⟨u, hu, hclock, hledger, hhealth⟩

/--
To split a stretch of time that begins no day changes neither the clock nor the timed effects. It
changes nobody's skills or conditions either, unless hours begin in the first part and the party is
not yet too tired at its end but is at the end of the second: a single stretch charges all of its
hours as those of a tired party, and these too.
-/
theorem passTime_split {m : Image} (hsave : s.save = some m) (hm : Layout.size ≤ m.size)
    (a b : Time) (how : Pastime)
    (hday : (s.clock.advance (a + b)).now.days = s.clock.now.days) :
    ∃ t u, (do passTime a how; passTime b how : Step Session Unit).run s = (.ok (), t) ∧
      (passTime (a + b) how).run s = (.ok (), u) ∧ t.clock = u.clock ∧
      t.ledger.entries = u.ledger.entries ∧
      (hoursWithin a s.clock = 0 ∨
        tiredAt how (s.clock.advance a) = tiredAt how (s.clock.advance (a + b)) →
          t.party.SameHealth u.party) := by
  have hs := not_isCutShort hsave hm
  obtain ⟨t, ht, htclock, htledger, hthealth⟩ := run_passTime_twice hs how hday
  obtain ⟨u, hu, huclock, huledger, huhealth⟩ := run_passTime_once hs how hday
  refine ⟨t, u, ht, hu, htclock.trans huclock.symm, htledger.trans huledger.symm, fun h => ?_⟩
  refine hthealth.symm.trans ?_
  obtain hnone | hsame := h
  · rw [hnone] at huhealth ⊢
    exact huhealth
  · rw [hsame]
    exact huhealth

/-- A new game on a blank image, by some clock. -/
def atTime (c : Clock) : Session := { onBlank with clock := c }

/-- The first two hours of a new game may be walked one by one. -/
theorem passTime_split_begun :
    (atTime .start).save = some (.zeroed Layout.size) ∧
      Layout.size ≤ (Image.zeroed Layout.size).size ∧
      (Clock.start.advance (⟨1800⟩ + ⟨1800⟩)).now.days = Clock.start.now.days ∧
      ∃ t u, (do passTime ⟨1800⟩ .walking; passTime ⟨1800⟩ .walking : Step Session Unit).run
          (atTime .start) = (.ok (), t) ∧
        (passTime (⟨1800⟩ + ⟨1800⟩) .walking).run (atTime .start) = (.ok (), u) ∧
        t.clock = u.clock ∧ t.ledger.entries = u.ledger.entries ∧ t.party.SameHealth u.party := by
  have hm : Layout.size ≤ (Image.zeroed Layout.size).size := Image.full_zeroed
  have hday : (Clock.start.advance (⟨1800⟩ + ⟨1800⟩)).now.days = Clock.start.now.days := by
    decide +kernel
  have hawake : tiredAt .walking (Clock.start.advance ⟨1800⟩) =
      tiredAt .walking (Clock.start.advance (⟨1800⟩ + ⟨1800⟩)) := by decide +kernel
  obtain ⟨t, u, ht, hu, hclock, hledger, hhealth⟩ :=
    passTime_split (s := atTime .start) rfl hm ⟨1800⟩ ⟨1800⟩ .walking hday
  exact ⟨rfl, hm, hday, t, u, ht, hu, hclock, hledger, hhealth (.inr hawake)⟩

/-- A party that has been awake for sixteen hours walks for two more. If they are walked one by one
lack of sleep takes its toll once, and otherwise twice. -/
theorem passTime_split_tired : ∃ s t u : Session,
    s.save = some (.zeroed Layout.size) ∧ Layout.size ≤ (Image.zeroed Layout.size).size ∧
      (s.clock.advance (⟨1800⟩ + ⟨1800⟩)).now.days = s.clock.now.days ∧
      s.clock.now.toNat + 1800 + 1800 ≤ 4294967295 ∧
      (do passTime ⟨1800⟩ .walking; passTime ⟨1800⟩ .walking : Step Session Unit).run s =
        (.ok (), t) ∧
      (passTime (⟨1800⟩ + ⟨1800⟩) .walking).run s = (.ok (), u) ∧
      t.party.roster.map (·.skills.totalHealth) = [78, 79, 78, 80, 80, 80] ∧
      u.party.roster.map (·.skills.totalHealth) = [76, 78, 76, 80, 80, 80] := by
  let s := atTime ⟨⟨28800⟩, .zero⟩
  have hm : Layout.size ≤ (Image.zeroed Layout.size).size := Image.full_zeroed
  have hs : ¬s.IsCutShort := not_isCutShort rfl hm
  have hday : (s.clock.advance (⟨1800⟩ + ⟨1800⟩)).now.days = s.clock.now.days := by
    decide +kernel
  obtain ⟨t, ht, -, -, hthealth⟩ := run_passTime_twice hs .walking hday
  obtain ⟨u, hu, -, -, huhealth⟩ := run_passTime_once hs .walking hday
  have htotal := congrArg (List.map (·.2.1.totalHealth)) hthealth.vitals
  have hutotal := congrArg (List.map (·.2.1.totalHealth)) huhealth.vitals
  rw [List.map_map, List.map_map] at htotal hutotal
  refine ⟨s, t, u, rfl, hm, hday, by decide, ht, hu, htotal.trans ?_, hutotal.trans ?_⟩
  · decide +kernel
  · decide +kernel

end Session

end QuestLogic
