import QuestLogic.Session.Event

/-!
# The passage of time

Time moves by one rule, `Session.passTime`: the clock advances, every day that has begun brings its
meal and its recovery, every hour that has begun wears on the party, and then the ledger loses that
much time and does what has come due. A span that a dialog asks for passes hour by hour.
-/

namespace QuestLogic

/-- How a stretch of time is spent. -/
structure Pastime where
  /-- The party eats every day. -/
  eats : Bool
  /-- The party stays awake. -/
  awake : Bool
  /-- The percentage of full health that an hour of rest restores. -/
  healPercent : UInt8
  /-- The percentage of full health that rest does not exceed. -/
  healCeiling : UInt8
deriving DecidableEq, Inhabited

namespace Pastime

/-- Time that passes in a dialog. -/
def dialog : Pastime := ⟨true, false, 0, 0⟩

/-- Time on the road. -/
def walking : Pastime := ⟨true, true, 0, 0⟩

/-- A night in camp. -/
def camping : Pastime := ⟨true, false, 1, 80⟩

end Pastime

namespace Condition

/-- What an hour of a condition does to health, and to the condition itself. -/
def hourly : Condition → Int × Int
  | sick => (-1, -1)
  | plagued => (-2, 0)
  | poisoned => (-2, -1)
  | drunk => (0, -5)
  | healing => (1, -2)
  | starving => (-1, 0)
  | nearDeath => (0, 0)

end Condition

namespace Character

/-- An hour of a condition, if the character has it. -/
def suffer (c : Character) (k : Condition) : Character :=
  if c.conditions.isActive k then (c.adjustHealth k.hourly.1).adjustCondition k k.hourly.2 else c

/-- An hour of rest: at least one point, and never past the ceiling. -/
def rest (c : Character) (percent ceiling : UInt8) : Character :=
  let max := c.skills.maxTotalHealth
  let top := max * ceiling.toNat / 100
  let heal := Nat.max (max * percent.toNat / 100) 1
  if c.skills.totalHealth < top then
    c.adjustHealth (Nat.min heal (top - c.skills.totalHealth) : Nat)
  else c

/-- The damage of an hour without sleep, by character. -/
def sleeplessness (id : CharId) : Int :=
  let damage : List Int := [-2, -1, -2, -2, -2, -3]
  damage[id.val.toNat]?.getD (-2)

/-- An hour that passes: lack of sleep, then every condition in turn, and then rest. -/
def hour (how : Pastime) (tired : Bool) (c : Character) : Character :=
  let c := if tired then c.adjustHealth (sleeplessness c.id) else c
  let c := Condition.all.foldl suffer c
  if !how.awake && 0 < how.healPercent then c.rest how.healPercent how.healCeiling else c

/-- A number of hours that pass one after the other. -/
def hours (how : Pastime) (tired : Bool) : Nat → Character → Character
  | 0, c => c
  | n + 1, c => hours how tired n (c.hour how tired)

/-- A little more health and stamina for good. -/
def grow (c : Character) : Character :=
  { c with skills := (c.skills.raiseMaximum .health 1).raiseMaximum .stamina 1 }

/-- A day of recovery from near death. -/
def recover (c : Character) : Character :=
  if c.conditions.isActive .nearDeath then c.adjustCondition .nearDeath (-10) else c

/-- What a meal does, or going without. -/
def eat (c : Character) : Option ItemId → Character
  | none => c.adjustCondition .starving 5
  | some meal =>
    if meal = .rations then c.adjustCondition .starving (-100)
    else if meal = .spoiledRations then
      (c.adjustCondition .starving (-100)).adjustCondition .sick 3
    else c.adjustCondition .poisoned 4

end Character

namespace Party

/-- The food that the party eats next: good before spoiled before poisoned. -/
def nextMeal? (p : Party) : Option ItemId :=
  [.rations, .spoiledRations, .poisonedRations].find? p.holds

/-- A member takes a unit of food, one's own before anyone else's. -/
def serve (eater : CharId) (meal : ItemId) : Step Party Unit := do
  let p ← get
  match p.roster.findIdx? (·.id = eater) with
  | some i =>
    let (taken, p) := p.takeFrom meal 1 i
    set p
    if taken = 0 then .update (·.loseExactly meal 1) else pure ()
  | none => .update (·.loseExactly meal 1)

/-- Each of the given members has the day's meal. -/
def dine : List CharId → Step Party Unit
  | [] => pure ()
  | eater :: rest => do
    let meal := (← get).nextMeal?
    if let some m := meal then serve eater m
    modify fun p => p.modifyMember eater (·.eat meal)
    dine rest

/-- The day's meal. -/
def meal : Step Party Unit := do dine (← get).active

end Party

namespace Session

/-- The days between two small gains of health. -/
def growthPeriod : Nat := 30

/-- The hours after which a party suffers from lack of sleep. -/
def sleeplessHours : Nat := 18

/-- Changes every active member. -/
def mapActive (s : Session) (f : Character → Character) : Session :=
  { s with party := s.party.mapActive f }

/-- A day begins. -/
def newDay (how : Pastime) (day : Nat) : Step Session Unit := do
  if day % growthPeriod = 0 then modify (·.mapActive Character.grow)
  if how.eats then onParty Party.meal
  modify (·.mapActive Character.recover)

/-- Whether the party has been awake for too long and is kept awake. -/
def isTired (s : Session) (how : Pastime) : Bool :=
  how.awake && sleeplessHours * Time.perHour ≤ s.clock.awake.toNat

/-- A number of hours have passed. -/
def newHours (how : Pastime) (n : Nat) (s : Session) : Session :=
  s.mapActive (Character.hours how (s.isTired how) n)

/-- The brightness of a source that will burn for so long; the last hour dims it. -/
def brightness (left : Time) : UInt8 :=
  if Time.perHour ≤ left.toNat then 0x40 else UInt8.ofNat (left.toNat * 0x40 / Time.perHour)

/-- The brightness of the brightest light among timed effects, if one of them is a light. -/
def brightest? (effects : List Effect) : Option UInt8 :=
  ((effects.filter (·.kind = .light)).map fun e => brightness e.duration).max?

/-- What becomes of an inventory whose worn light goes out: a torch that is used up is gone. -/
def burnDown (v : Inventory) (position : Nat) : Inventory :=
  match v.items[position]? with
  | some i =>
    let quantity := i.quantity - (if i.quantity = 0 then 0 else 1)
    if i.id = .torch && quantity = 0 then v.removeAt position
    else v.modifyAt position fun i => { i with quantity, equipped := false }
  | none => v

/-- Puts out the first light that an active member wears, and says whether there was one. -/
def putOut (s : Session) : Bool × Session :=
  let dark := { s with light := 0 }
  match s.party.firstMarching? (·.inventory.equippedLight?.isSome) with
  | some place =>
    let darken (c : Character) : Character :=
      let burnt := c.inventory.equippedLight?.map (burnDown c.inventory)
      { c with inventory := burnt.getD c.inventory }
    (true, { dark with party.roster := s.party.roster.modify place darken })
  | none => (false, dark)

/-- What an effect does that had `before` left and now has the time that it records. -/
def applyEffect (before : Time) (e : Effect) : Step Session Unit :=
  match e.kind with
  | .light => if !before.isZero && e.duration.isZero then modify (·.putOut.2) else pure ()
  | .spell => modify fun s => { s with spells := s.spells.set e.subject (!e.duration.isZero) }
  | .setState => if e.duration.isZero then setEvent e.subject true else pure ()
  | .resetState => if e.duration.isZero then setEvent e.subject false else pure ()
  | .nothing => pure ()

/-- Takes time from the effects that are left, in order, and applies each; `done` come before. -/
def decayFrom (span : Time) (done : List Effect) : List Effect → Step Session Unit
  | [] => pure ()
  | e :: rest => do
    let done := done ++ [e.decay span]
    modify fun s => { s with ledger.entries := done ++ rest }
    applyEffect e.duration (e.decay span)
    decayFrom span done rest

/--
Takes time from every timed effect and applies those that change. The light becomes as bright as the
brightest source, burnt out or not, and what has run out is dropped at the end.
-/
def reduceLedger (span : Time) : Step Session Unit := do
  decayFrom span [] (← get).ledger.entries
  modify fun s =>
    { s with
      light := (brightest? s.ledger.entries).getD s.light, ledger := s.ledger.removeExpired }

/-- Days begin one after the other, the first of them being `day`. -/
def newDays (how : Pastime) (day : Nat) : Nat → Step Session Unit
  | 0 => pure ()
  | n + 1 => do
    newDay how day
    newDays how (day + 1) n

/-- Time passes, with all that depends on it. -/
def passTime (span : Time) (how : Pastime) : Step Session Unit := do
  let before := (← get).clock.now
  modify fun s => { s with clock := s.clock.advance span }
  let after := (← get).clock.now
  newDays how (before.days + 1) (after.days - before.days)
  modify (newHours how (after.hours - before.hours))
  reduceLedger span

/-- Spans longer than this count as rest. -/
def restHours : Nat := 12

/-- A number of hours of dialog pass; before each of them a resting party sleeps. -/
def elapseHours (resting : Bool) : Nat → Step Session Unit
  | 0 => pure ()
  | n + 1 => do
    if resting then modify fun s => { s with clock := s.clock.sleepAt s.clock.now }
    passTime .oneHour .dialog
    elapseHours resting n

/-- A span that a dialog asks for: hour by hour, and what is left over, which is never nothing. -/
def elapse (span : Time) : Step Session Unit :=
  if span.isZero then pure ()
  else do
    let hours := (span.toNat - 1) / Time.perHour
    elapseHours (restHours * Time.perHour < span.toNat) hours
    passTime (.ofNat (span.toNat - hours * Time.perHour)) .dialog

/-- Lights a source, or lets it burn longer. -/
def addLight (light : UInt16) (duration : Time) : Step Session Unit := .update fun s =>
  match s.ledger.addLight? light duration with
  | some ledger =>
    let level := (ledger.find? .light light).map fun e => brightness e.duration
    .ok { s with ledger, light := level.getD s.light }
  | none => .error .ledgerFull

/-- Casts a spell that lasts. -/
def castStatic (spell : StaticSpell) (duration : Time) : Step Session Unit := .update fun s =>
  match s.ledger.addSpell? spell.code duration with
  | some ledger => .ok { s with ledger, spells := s.spells.set spell.code true }
  | none => .error .ledgerFull

/-- Whether a light burns in the hand of an active member. -/
def hasLight (s : Session) : Bool :=
  s.ledger.hasActive .light && s.party.activeMembers.any (·.inventory.equippedLight?.isSome)

/-- A light that is put away. -/
def putAway (i : Item) : Item := if i.kind = .light then { i with equipped := false } else i

/-- Puts out every light at once. -/
def extinguish (s : Session) : Session :=
  let dark (c : Character) : Character :=
    { c with inventory.items := c.inventory.items.map putAway }
  { s.mapActive dark with ledger := s.ledger.removeKind .light, light := 0 }

end Session

end QuestLogic
