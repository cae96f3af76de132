import QuestLogic.Proofs.Session.RoundTrip

/-!
# What loading takes from the image

What an image loads as is told by the image, by the settings and by who is on the road, and not by
what the session was before (`Session.SameLoad`). The brightness of the party's light is not among
what loading derives, although play derives it from the timed effects: it stays what it was, so that
two sessions that load one image differ in it just if they did before (`Session.load_agree`).
-/

namespace QuestLogic.Session

variable {s t u : Session} {m : Image}

/-- The sessions agree in all that loading replaces. -/
structure SameLoad (s t : Session) : Prop where
  save : t.save = s.save
  chapter : t.chapter = s.chapter
  zone : t.zone = s.zone
  clock : t.clock = s.clock
  gold : t.party.gold = s.party.gold
  ledger : t.ledger = s.ledger
  spells : t.spells = s.spells
  activeCharacter : t.activeCharacter = s.activeCharacter
  speaker : t.speaker = s.speaker
  roles : t.roles = s.roles
  tested : t.tested = s.tested
  skillValue : t.skillValue = s.skillValue
  contextValue : t.contextValue = s.contextValue
  endState : t.endState = s.endState
  pending : t.pending = s.pending

/-- A load goes through if everything in the image can be read. -/
theorem run_load_eq_ok : (load m).run s = (.ok (), t) ↔ s.loaded m = .ok t := by
  rcases h : s.loaded m with e | u
  · rw [load, Step.run_update_error h]
    simp
  · rw [load, Step.run_update_ok h]
    simp

/-- Sessions that take on the same agree, if the same members are on the road. -/
theorem sameLoad_takeOn (hactive : u.party.active = s.party.active) (chapter : UInt16)
    (ledger : Ledger) (zone : UInt8) (now lastSlept gold : UInt32) :
    SameLoad (s.takeOn m chapter ledger zone now lastSlept gold)
      (u.takeOn m chapter ledger zone now lastSlept gold) := by
  constructor
  case activeCharacter => exact congrArg List.head? hactive
  all_goals rfl

/-- An image that loads into a session loads into every other with the same settings. -/
theorem loaded_congr (hsettings : u.settings = s.settings)
    (hactive : u.party.active = s.party.active) (h : s.loaded m = .ok t) :
    ∃ t', u.loaded m = .ok t' ∧ SameLoad t t' := by
  obtain ⟨chapter, ledger, zone, now, lastSlept, gold, hchapter, hrange, hledger, hzone, hnow,
    hslept, hgold, rfl⟩ := loaded_eq_ok.1 h
  -- The settings tell how many effects there is room for, and nothing else that loading asks.
  rw [← hsettings] at hledger
  have h' := loaded_eq_ok.2 ⟨chapter, ledger, zone, now, lastSlept, gold, hchapter, hrange, hledger,
    hzone, hnow, hslept, hgold, rfl⟩
  exact ⟨_, h', sameLoad_takeOn hactive chapter ledger zone now lastSlept gold⟩

/-- Loading leaves the brightness of the light alone. -/
theorem loaded_light (h : s.loaded m = .ok t) : t.light = s.light := by
  obtain ⟨_, _, _, _, _, _, -, -, -, -, -, -, -, rfl⟩ := loaded_eq_ok.1 h
  rfl

/--
An image that loads into a session loads into every other one with the same settings and the same
members on the road, whatever was played there. The two then agree in all that loading replaces,
but each keeps the brightness of its light.
-/
theorem load_agree (hsettings : u.settings = s.settings)
    (hactive : u.party.active = s.party.active) (hload : (load m).run s = (.ok (), t)) :
    ∃ t', (load m).run u = (.ok (), t') ∧ SameLoad t t' ∧
      (t'.light = t.light ↔ u.light = s.light) := by
  have h := run_load_eq_ok.1 hload
  obtain ⟨t', h', hsame⟩ := loaded_congr hsettings hactive h
  refine ⟨t', run_load_eq_ok.2 h', hsame, ?_⟩
  rw [loaded_light h, loaded_light h']

/-- Of a spell that was cast before, nothing is left once an image is loaded. -/
theorem load_agree_after_spell : ∃ s m t t',
    (castStatic .union ⟨100⟩).run default = (.ok (), s) ∧ s.spells.isActive 4 = true ∧
      (load m).run default = (.ok (), t) ∧ (load m).run s = (.ok (), t') ∧ SameLoad t t' ∧
      t'.light = t.light := by
  obtain ⟨m, t, -, hload, -⟩ :=
    exists_loaded_fields default (fitsLedger_ofSettings .usual .initial) (by decide)
  let s : Session := { (default : Session) with
    ledger := ⟨[⟨.spell, Effect.extend, 4, ⟨100⟩⟩], 20⟩, spells := ActiveSpells.none.set 4 true }
  obtain ⟨t', hload', hsame, hlight⟩ :=
    load_agree (s := default) (u := s) rfl rfl (run_load_eq_ok.2 hload)
  exact ⟨s, m, t, t', rfl, by decide, run_load_eq_ok.2 hload, hload', hsame, hlight.2 rfl⟩

/-- A light that was lit before shines on after an image without timed effects is loaded. -/
theorem load_keeps_light : ∃ s m t t',
    (addLight 0 ⟨3600⟩).run default = (.ok (), s) ∧ s.settings = (default : Session).settings ∧
      s.party = (default : Session).party ∧ (load m).run default = (.ok (), t) ∧
      (load m).run s = (.ok (), t') ∧ t'.ledger.entries = [] ∧ t.light = 0 ∧
      t'.light = 0x40 := by
  obtain ⟨m, t, -, hload, -, -, hledger⟩ :=
    exists_loaded_fields default (fitsLedger_ofSettings .usual .initial) (by decide)
  let s : Session := { (default : Session) with
    ledger := ⟨[⟨.light, Effect.extend, 0, ⟨3600⟩⟩], 20⟩, light := 0x40 }
  obtain ⟨t', hload', hsame⟩ := loaded_congr (s := default) (u := s) rfl rfl hload
  have hentries : t'.ledger.entries = [] := congrArg Ledger.entries (hsame.ledger.trans hledger)
  exact ⟨s, m, t, t', rfl, rfl, rfl, run_load_eq_ok.2 hload, run_load_eq_ok.2 hload', hentries,
    loaded_light hload, loaded_light hload'⟩

end QuestLogic.Session
