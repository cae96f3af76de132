import QuestLogic.Proofs.Party.Lights
import QuestLogic.Proofs.Party.Meal
import QuestLogic.Proofs.Session.Schedule
import QuestLogic.Proofs.Session.Spells
import QuestLogic.Proofs.Session.Stock

/-!
# When time passes without a fault

Of all that time brings only the day's meal can meet a fault: it takes food to be there if there is
an entry of it, and an entry may be an empty stack. So time passes just if every meal of the days
that begin finds a unit of what is eaten (`Session.hinges_passTime`). Dialog actions make no empty
stack of food unless one hands out no units of it, so that without such an action time always
passes, as long as a word holds the units of each kind of food (`Session.passTime_ok`).
-/

namespace QuestLogic

/-- A light that goes out is no food. -/
theorem Inventory.Dims.supply_eq {v w : Inventory} {food : ItemId} (h : v.Dims w)
    (hfood : food ∈ foods) : w.supply food = v.supply food := by
  obtain ⟨front, i, back, hitems, -, hburning, rfl⟩ := h
  have hne : i.id ≠ food := by
    rintro rfl
    cases hburning.2.symm.trans (ItemId.kind_of_mem_foods hfood)
  have hspent : tally food i.spent?.toList = 0 := by
    unfold Item.spent?
    split_ifs
    · rfl
    · exact tally_cons_of_ne (by exact hne) []
  rw [supply, supply, hitems, tally_append, tally_append, tally_append, hspent,
    tally_cons_of_ne hne, Nat.add_zero]

namespace Party

variable {p q : Party}

/-- A light that goes out leaves as much food. -/
theorem GoesOut.countsFood (h : p.GoesOut q) (hp : p.CountsFood) : q.CountsFood := by
  cases h with
  | dark => exact hp
  | @light _ _ _ c v _ _ hplace hdims =>
    intro food hfood
    rw [supply_set (d := { c with inventory := v }) hplace rfl (hdims.supply_eq hfood)]
    exact hp food hfood

/-- A change of the active members that leaves their belongings alone leaves as much food. -/
theorem CountsFood.mapActive (hp : p.CountsFood) {f : Character → Character}
    (hf : ∀ c, (f c).id = c.id ∧ (f c).inventory = c.inventory) : (p.mapActive f).CountsFood := by
  refine hp.of_supply_le fun food => Nat.le_of_eq (supply_congr_of_belongings rfl rfl ?_)
  exact map_mapActive (fun c => by rw [(hf c).1, (hf c).2]) p

end Party

namespace Session

variable {s t : Session}

/-! ## Days -/

/-- The session once the members have grown with the day, if they do. -/
def grown (day : Nat) (s : Session) : Session :=
  if day % growthPeriod = 0 then s.mapActive Character.grow else s

/-- If the day brings a meal, each member who eats finds a unit of food. -/
def DayFed (how : Pastime) (day : Nat) (s : Session) : Prop :=
  how.eats = true → Party.Fed (grown day s).party.active (grown day s).party

/-- Each of a number of days is fed, the first of them being `day`. -/
def DaysFed (how : Pastime) (day : Nat) : Nat → Session → Prop
  | 0, _ => True
  | n + 1, s => s.DayFed how day ∧ DaysFed how (day + 1) n ((newDay how day).run s).2

/-- Every day that begins within a span is fed. -/
def Sustained (span : Time) (how : Pastime) (s : Session) : Prop :=
  DaysFed how (s.clock.now.days + 1) ((s.clock.advance span).now.days - s.clock.now.days)
    { s with clock := s.clock.advance span }

/-- The members grow before they eat, and recover after it. -/
theorem run_newDay (how : Pastime) (day : Nat) (s : Session) :
    (newDay how day).run s = (do
      if how.eats then onParty Party.meal
      modify (·.mapActive Character.recover) : Step Session Unit).run (grown day s) := by
  unfold newDay grown
  split_ifs <;> rfl

/-- A day goes by just if it is fed. -/
theorem hinges_newDay (how : Pastime) (day : Nat) (s : Session) :
    Hinges (s.DayFed how day) (newDay how day) s := by
  refine .of_run_eq (run_newDay how day s) ?_
  rw [DayFed]
  rcases how.eats with _ | _
  · exact .inl ⟨fun h => (by cases h), rfl⟩
  · have hmeal : Hinges (Party.Fed (grown day s).party.active (grown day s).party)
        (onParty Party.meal) (grown day s) := Party.hinges_meal _
    rw [imp_iff_right rfl]
    exact hmeal.bind_of_ok rfl

/-- Days go by just if each of them is fed. -/
theorem hinges_newDays (how : Pastime) (day n : Nat) (s : Session) :
    Hinges (DaysFed how day n s) (newDays how day n) s := by
  induction n generalizing day s with
  | zero => exact .of_ok rfl
  | succ n ih => exact (hinges_newDay how day s).bind (ih (day + 1) _)

/-- Days and hours go by just if every day is fed. -/
theorem hinges_dawn (span : Time) (how : Pastime) (s : Session) :
    Hinges (s.Sustained span how) (dawn span how) s :=
  (hinges_newDays how _ _ { s with clock := s.clock.advance span }).bind_of_ok rfl

/-- Over an image that reaches to the end of the flags time passes just if every day is fed. -/
theorem hinges_passTime (hs : ¬s.IsCutShort) (span : Time) (how : Pastime) :
    Hinges (s.Sustained span how) (passTime span how) s := by
  have hdawn : ¬((dawn span how).run s).2.IsCutShort := by
    rintro ⟨m, hm, hsize⟩
    exact hs ⟨m, (dawn_frame span how s).1 ▸ hm, hsize⟩
  obtain ⟨t, ht, -⟩ := run_reduceLedger hdawn span
  rw [passTime_eq]
  exact (hinges_dawn span how s).bind_of_ok (congrArg Prod.fst ht)

/-- Days and hours move the clock once. -/
theorem clock_dawn (span : Time) (how : Pastime) (s : Session) :
    ((dawn span how).run s).2.clock = s.clock.advance span := by
  have hallows : AllowsDays (rule (· = Deed.party)) := allowsDays_of_party rfl
  have hdays : ∀ day n k, (rule (· = Deed.party)).Obeys (do
      newDays how day n
      modify (newHours how k)) := fun day n k =>
    (hallows.newDays how day n).bind fun _ => hallows.hours how k
  refine (hdays _ _ _ { s with clock := s.clock.advance span }).1.keeps
    (P := fun u => u.clock = s.clock.advance span) (fun hd h hu => ?_) rfl
  subst hd
  cases h
  exact hu

/-- A fault of time is that of a meal, once the clock has moved and before the ledger loses time. -/
theorem passTime_error {e : Fault} (hs : ¬s.IsCutShort) {span : Time} {how : Pastime}
    (h : (passTime span how).run s = (.error e, t)) :
    (∃ food ∈ foods, e = .unitsShort 0 food 1) ∧ t.clock = s.clock.advance span ∧
      t.ledger = s.ledger := by
  have hframe := dawn_frame span how s
  have hclock := clock_dawn span how s
  have hpass := hinges_passTime hs span how
  have hdawn := hinges_dawn span how s
  rw [Hinges, h] at hpass
  rw [passTime_eq] at h
  obtain ⟨-, hok⟩ | ⟨hshort, food, hfood, herror⟩ := hpass
  · cases hok
  · rcases hrun : (dawn span how).run s with ⟨e' | _, u⟩
    · rw [Step.run_bind_error hrun] at h
      rw [hrun] at hframe hclock
      cases h
      cases herror
      exact ⟨⟨food, hfood, rfl⟩, hclock, hframe.2.1⟩
    · exact absurd (hdawn.iff.1 (by rw [hrun])) hshort

/-! ## Food that lasts -/

/-- Time leaves no more food to be counted. -/
theorem allowsTime_countsFood : AllowsTime (.keeping (·.party.CountsFood)) where
  grow := Rule.obeys_modify fun _ hs => hs.mapActive fun _ => ⟨rfl, rfl⟩
  meal := Rule.obeys_zoom (fun _ _ h => h) (fun _ _ _ _ => trivial)
    Party.enduring_countsFood.obeys_meal
  recover := Rule.obeys_modify fun _ hs => hs.mapActive fun c =>
    ⟨c.leads_recover.id_eq, c.inventory_recover⟩
  hours how n := Rule.obeys_modify fun _ hs => hs.mapActive fun c =>
    ⟨(c.leads_hours how _ n).id_eq, c.inventory_hours how _ n⟩
  clock _ _ hs := hs
  pass span := AllowsPass.reduceLedger
    { setEvent := fun _ _ => obeys_onSave_of_image (fun _ _ hs => hs) fun _ _ => trivial
      putOut := fun s hs => s.goesOut_putOut.countsFood hs
      ledger := fun _ _ _ _ hs => hs } span

/-- No stack of food is empty, and a word holds the units of each kind of food. -/
structure Provisioned (s : Session) : Prop where
  stocked : s.party.Carries Inventory.Stocked
  counts : s.party.CountsFood

theorem Provisioned.grown (hs : s.Provisioned) (day : Nat) : (grown day s).Provisioned := by
  unfold Session.grown
  split_ifs
  · exact ⟨hs.stocked.mapActive fun _ hc => hc, hs.counts.mapActive fun _ => ⟨rfl, rfl⟩⟩
  · exact hs

/-- A party without empty stacks of food eats every day. -/
theorem Provisioned.daysFed (hs : s.Provisioned) (how : Pastime) (day n : Nat) :
    DaysFed how day n s := by
  induction n generalizing day s with
  | zero => trivial
  | succ n ih =>
    have hday := hs.grown day
    have hstocked := ((allowsTime_carrying Inventory.lasting_stocked).newDay how day s).1 hs.stocked
    have hcounts := (allowsTime_countsFood.newDay how day s).1 hs.counts
    exact ⟨fun _ => hday.stocked.fed hday.counts _, ih ⟨hstocked, hcounts⟩ (day + 1)⟩

theorem Provisioned.sustained (hs : s.Provisioned) (span : Time) (how : Pastime) :
    s.Sustained span how :=
  daysFed (s := { s with clock := s.clock.advance span }) ⟨hs.stocked, hs.counts⟩ how _ _

/-! ## Actions -/

/-- Actions leave the image as long as it was, and make no empty stack of food unless one hands it
out. -/
theorem stocked_after (hs : ¬s.IsCutShort) (as : List Action) :
    ¬(after (as.map .perform) s).IsCutShort ∧
      ((∀ a ∈ as, a.HandsOut Item.IsFilled) → s.party.Carries Inventory.Stocked →
        (after (as.map .perform) s).party.Carries Inventory.Stocked) := by
  induction as generalizing s with
  | nil => exact ⟨hs, fun _ hstocked => hstocked⟩
  | cons a rest ih =>
    obtain ⟨hsound, hkeeps⟩ := ih (not_isCutShort_perform hs a)
    refine ⟨hsound, fun hhands hstocked => ?_⟩
    obtain ⟨ha, hrest⟩ := List.forall_mem_cons.1 hhands
    exact hkeeps hrest ((carrying_perform Inventory.lasting_stocked ha s).1 hstocked)

/--
Once some actions have been carried out in a session whose image, if it has one, reaches to the end
of the flags, time passes just if every meal of the days that begin finds a unit of what is eaten.
It does if no empty stack of food is there to begin with, no action hands one out, and a word holds
the units of each kind of food that there are in the end. Otherwise the fault is that no unit of a
food is counted, and the clock has moved while the ledger has lost no time.
-/
theorem passTime_ok (hs : ¬s.IsCutShort) (as : List Action)
    (ht : after (as.map .perform) s = t) (span : Time) (how : Pastime) :
    (((passTime span how).run t).1 = .ok () ↔ t.Sustained span how) ∧
      (s.party.Carries Inventory.Stocked → (∀ a ∈ as, a.HandsOut Item.IsFilled) →
        t.party.CountsFood → ((passTime span how).run t).1 = .ok ()) ∧
      ∀ e u, (passTime span how).run t = (.error e, u) →
        (∃ food ∈ foods, e = .unitsShort 0 food 1) ∧ u.clock = t.clock.advance span ∧
          u.ledger = t.ledger := by
  obtain ⟨hsound, hstocked⟩ := stocked_after hs as
  rw [ht] at hsound hstocked
  have hiff := (hinges_passTime hsound span how).iff
  refine ⟨hiff, fun hbegun hhands hcounts => hiff.2 ?_, fun e u h => passTime_error hsound h⟩
  exact Provisioned.sustained ⟨hstocked hhands hbegun, hcounts⟩ span how

/-- The party of the story is given rations and eats them for as long as they last. -/
theorem passTime_ok_rations :
    ¬(default : Session).IsCutShort ∧
      (default : Session).party.Carries Inventory.Stocked ∧
      (after [.perform (.giveItem .rations 0 4)] default).party.CountsFood ∧
      ((passTime ⟨86400⟩ .dialog).run (after [.perform (.giveItem .rations 0 4)] default)).1 =
        .ok () := by
  have hs : ¬(default : Session).IsCutShort := fun ⟨_, hm, _⟩ => by cases hm
  have hempty : ∀ c ∈ (default : Session).party.roster, c.inventory.items = [] := by decide
  have hstocked : (default : Session).party.Carries Inventory.Stocked := by
    refine ⟨fun i hi => absurd hi List.not_mem_nil, fun c hc i hi => ?_⟩
    rw [hempty c hc] at hi
    exact absurd hi List.not_mem_nil
  have hhands : ∀ a ∈ [Action.giveItem .rations 0 4], a.HandsOut Item.IsFilled := by
    refine List.forall_mem_singleton.2 fun _ => ?_
    decide
  have hcounts : (after [.perform (.giveItem .rations 0 4)] default).party.CountsFood := by
    show ∀ food ∈ foods, _ < 2 ^ 32
    decide +kernel
  obtain ⟨-, hok, -⟩ := passTime_ok hs [.giveItem .rations 0 4] rfl ⟨86400⟩ .dialog
  exact ⟨hs, hstocked, hcounts, hok hstocked hhands hcounts⟩

/-- Rations that are handed out in no number make the next meal fail. -/
theorem passTime_no_rations :
    ∃ t u, (perform (.giveItem .rations 0 0)).run default = (.ok (), t) ∧
      (passTime ⟨43200⟩ .dialog).run t = (.error (.unitsShort 0 .rations 1), u) ∧
      u.clock.now = ⟨43200⟩ :=
  ⟨_, _, rfl, rfl, rfl⟩

end Session

end QuestLogic
